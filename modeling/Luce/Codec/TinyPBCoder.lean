/-
This file models the coder of TinyPB packets.

A packet stands between two marks. It begins with its own length; then come three texts
behind their lengths, with a code between the last two of them, the payload, whose length is
what the others leave, and a check sum that nobody reads. The lengths are big-endian and of
type `int`. `Decode` compares them with indices of type `size_t`, copies the texts into
arrays of its own and reads those up to the first NUL.
-/

import Luce.Byte
import Luce.Library.LittleEndian

namespace Luce.Codec

open Library.LittleEndian

/-! ### Numbers -/

/-- An `int` as a `size_t`. -/
def asSize (number : Int) : Nat := (number % 2 ^ 64).toNat

/-- The four bytes that `GetNetInt32` leaves in memory. -/
def getNetInt32 (num : Int32) : Bytes := (leBytes 4 num.toUInt32.toNat).reverse

def getInt32ForNetByte (buf : Bytes) : Int32 := .ofNat (leValue buf.reverse)

/-! ### Packets -/

structure TinyPBProtocol where
  msgId : Bytes
  pkLen : Int32
  msgIdLen : Int32
  methodNameLen : Int32
  methodName : Bytes
  errCode : Int32
  errInfoLen : Int32
  errInfo : Bytes
  pbData : Bytes
  checkSum : Int32
  parseSuccess : Bool
deriving DecidableEq, Repr

def pbStart : Byte := 0x02

def pbEnd : Byte := 0x03

/-- A `std::vector<char>`, which cannot be longer than this. -/
structure Buffer where
  bytes : Bytes
  fits : bytes.length < 2 ^ 63
deriving DecidableEq, Repr

def Buffer.empty : Buffer := ⟨[], by decide⟩

/-- What goes wrong in the coder. -/
inductive Fault where
  /-- A byte outside the buffer is read. -/
  | outsideBuffer
  /-- A byte outside an array is written. -/
  | outsideArray
  /-- A text is read from an array without a NUL. -/
  | unterminated
  /-- A string, a vector or an array is asked for with a length that it cannot have. -/
  | badLength
  /-- An `int` leaves its range. -/
  | overflow
deriving DecidableEq, Repr

/-! ### Encoding -/

/-- `emplace_back` for one byte after the other. -/
def Buffer.append (buffer : Buffer) (bytes : Bytes) : Except Fault Buffer :=
  if fits : (buffer.bytes ++ bytes).length < 2 ^ 63 then .ok ⟨buffer.bytes ++ bytes, fits⟩
  else .error .badLength

/-- The message with a default where it has no identity. -/
def withMsgId (message : TinyPBProtocol) : TinyPBProtocol :=
  if message.msgId.isEmpty then { message with msgId := ascii "123456789" } else message

/-- The message with its lengths filled in, and the packet. The bytes are written one after
the other to an array of `pk_len` bytes. -/
def encodeTinyPB (message : TinyPBProtocol) : Except Fault (TinyPBProtocol × Bytes) :=
  let message := withMsgId message
  let pkLen := Int32.ofNat (2 + 24 + message.msgId.length + message.methodName.length +
    message.errInfo.length + message.pbData.length)
  let msgIdLen := Int32.ofNat message.msgId.length
  let methodNameLen := Int32.ofNat message.methodName.length
  let errInfoLen := Int32.ofNat message.errInfo.length
  let buf := [pbStart] ++ getNetInt32 pkLen ++ getNetInt32 msgIdLen ++ message.msgId ++
    getNetInt32 methodNameLen ++ message.methodName ++ getNetInt32 message.errCode ++
    getNetInt32 errInfoLen ++ message.errInfo ++ message.pbData ++ getNetInt32 1 ++ [pbEnd]
  if pkLen.toInt < 0 then .error .badLength
  else if pkLen.toInt < buf.length then .error .outsideArray
  else .ok ({ message with
    pkLen, msgIdLen, methodNameLen, errInfoLen, parseSuccess := true }, buf)

def encode (message : TinyPBProtocol) (outBuffer : Buffer) :
    Except Fault (TinyPBProtocol × Buffer) := do
  let (message, buf) ← encodeTinyPB message
  let outBuffer ← outBuffer.append buf
  return (message, outBuffer)

/-! ### Decoding -/

/-- Why `Decode` returns early, or does not return. -/
inductive Stop where
  | rejected
  | fault (fault : Fault)
deriving DecidableEq, Repr

def rejectIf (condition : Prop) [Decidable condition] : Except Stop Unit :=
  if condition then .error .rejected else .ok ()

/-- So many bytes of the buffer, from this one on. -/
def fetch (inBuffer : Buffer) (index size : Nat) : Except Stop Bytes :=
  if index + size ≤ inBuffer.bytes.length then .ok ((inBuffer.bytes.drop index).take size)
  else .error (.fault .outsideBuffer)

def fetchInt32 (inBuffer : Buffer) (index : Nat) : Except Stop Int32 := do
  let buf ← fetch inBuffer index 4
  return getInt32ForNetByte buf

/-- `start_index + pk_len - 1`. -/
def lastIndex (pkLen : Int32) : Except Stop Int :=
  if pkLen = Int32.minValue then .error (.fault .overflow) else .ok (pkLen.toInt - 1)

/-- Copies bytes to the front of an array of zeros, and reads a text from it. -/
def throughArray (capacity : Nat) (data : Bytes) : Except Stop Bytes :=
  if capacity < data.length then .error (.fault .outsideArray)
  else
    let array := data ++ List.replicate (capacity - data.length) 0
    if (0 : Byte) ∈ array then .ok (cString array) else .error (.fault .unterminated)

/-- A text with its length, and the index behind it. -/
structure Field where
  len : Int32
  text : Bytes
  next : Nat
deriving DecidableEq, Repr

/-- Reads a length and the text behind it, which goes through an array of `capacity`
bytes. The index does not wrap around, as the text ends inside the buffer. -/
def fetchField (inBuffer : Buffer) (lenIndex capacity : Nat) : Except Stop Field := do
  let len ← fetchInt32 inBuffer lenIndex
  let index := lenIndex + 4
  let data ← fetch inBuffer index (asSize len.toInt)
  let text ← throughArray capacity data
  return ⟨len, text, index + asSize len.toInt⟩

/-- `std::string(&in_buffer[index], len)`. -/
def fetchString (inBuffer : Buffer) (index : Nat) (len : Int) : Except Stop Bytes :=
  if len < 0 then .error (.fault .badLength) else fetch inBuffer index (asSize len)

/-- The message in a packet. All lengths are small when the payload's is computed. -/
def decodeMessage (inBuffer : Buffer) : Except Stop TinyPBProtocol := do
  rejectIf (inBuffer.bytes.length ≤ 0)
  let start ← fetch inBuffer 0 1
  rejectIf (start ≠ [pbStart])
  let pkLen ← fetchInt32 inBuffer 1
  let endIndex ← lastIndex pkLen
  rejectIf (inBuffer.bytes.length - 1 ≠ asSize endIndex)
  let last ← fetch inBuffer (asSize endIndex) 1
  rejectIf (last ≠ [pbEnd])
  rejectIf (5 ≥ asSize endIndex)
  let msgId ← fetchField inBuffer 5 100
  rejectIf (msgId.next ≥ asSize endIndex)
  let methodName ← fetchField inBuffer msgId.next 512
  rejectIf (methodName.next ≥ asSize endIndex)
  let errCode ← fetchInt32 inBuffer methodName.next
  let errInfoLenIndex := methodName.next + 4
  rejectIf (errInfoLenIndex ≥ asSize endIndex)
  let errInfo ← fetchField inBuffer errInfoLenIndex 512
  let pbDataLen := pkLen.toInt - methodName.len.toInt - msgId.len.toInt - errInfo.len.toInt - 2 - 24
  let pbData ← fetchString inBuffer errInfo.next pbDataLen
  return ⟨msgId.text, pkLen, msgId.len, methodName.len, methodName.text, errCode, errInfo.len,
    errInfo.text, pbData, 0, true⟩

/-- What `*out_message` is afterwards. -/
def decode (inBuffer : Buffer) (outMessage : Option TinyPBProtocol) :
    Except Fault (Option TinyPBProtocol) :=
  match decodeMessage inBuffer with
  | .ok message => .ok (some message)
  | .error .rejected => .ok outMessage
  | .error (.fault fault) => .error fault

end Luce.Codec
