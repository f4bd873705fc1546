/-
This file says which buffers are TinyPB packets, and what the decoder makes of them.

A packet is made of the raw bytes of its three texts, its code, its payload and its check
sum. The decoder accepts just the buffers that are the image of a packet whose texts fit
its arrays, and returns the texts up to the first NUL. The encoder writes the image of a
packet. That one undoes the other follows for the texts that have no NUL and for which
the encoder has no default.
-/

import Luce.Codec.TinyPBCoder
import Luce.Library.Layout

namespace Luce.Codec

open Library.LittleEndian Library.Layout

/-! ### Numbers -/

@[simp] theorem length_getNetInt32 (num : Int32) : (getNetInt32 num).length = 4 := by
  rw [getNetInt32, List.length_reverse, length_leBytes]

@[simp] theorem getInt32ForNetByte_getNetInt32 (num : Int32) :
    getInt32ForNetByte (getNetInt32 num) = num := by
  have small : num.toUInt32.toNat < 256 ^ 4 := num.toUInt32.toNat_lt
  rw [getInt32ForNetByte, getNetInt32, List.reverse_reverse, leValue_leBytes_of_lt small]
  exact (Int32.ofNat_bitVecToNat num.toBitVec).trans (Int32.ofBitVec_toBitVec num)

theorem getNetInt32_getInt32ForNetByte {buf : Bytes} (length : buf.length = 4) :
    getNetInt32 (getInt32ForNetByte buf) = buf := by
  have small : leValue buf.reverse < 2 ^ 32 := by
    have bound := leValue_lt buf.reverse
    rwa [List.length_reverse, length] at bound
  have back := leBytes_leValue buf.reverse
  rw [List.length_reverse, length] at back
  rw [getNetInt32, getInt32ForNetByte, Int32.toUInt32_ofNat', UInt32.toNat_ofNat_of_lt' small, back,
    List.reverse_reverse]

theorem asSize_of_nonneg {number : Int} (nonneg : 0 ≤ number) (small : number < 2 ^ 63) :
    asSize number = number.toNat := by
  rw [asSize]
  omega

/-- A negative `int` is larger than any buffer as a `size_t`. -/
theorem le_asSize_of_neg {num : Int32} (negative : num.toInt < 0) : 2 ^ 63 ≤ asSize num.toInt := by
  have := num.le_toInt
  rw [asSize]
  omega

theorem ofNat_toNat_toInt {num : Int32} (nonneg : 0 ≤ num.toInt) :
    Int32.ofNat num.toInt.toNat = num := by
  apply Int32.toInt.inj
  have := num.toInt_lt
  rw [Int32.toInt_ofNat_of_lt (by omega)]
  omega

/-! ### What is read from the buffer -/

theorem bind_eq_ok {Value Result : Type} {outcome : Except Stop Value}
    {next : Value → Except Stop Result} {result : Result} :
    outcome >>= next = .ok result ↔ ∃ value, outcome = .ok value ∧ next value = .ok result := by
  constructor
  · intro ended
    cases outcome with
    | error stop => cases ended
    | ok value => exact ⟨value, rfl, ended⟩
  · rintro ⟨value, rfl, ended⟩
    exact ended

theorem rejectIf_eq_ok {condition : Prop} [Decidable condition] {result : Unit} :
    rejectIf condition = .ok result ↔ ¬ condition := by
  rw [rejectIf]
  split
  case isTrue holds => simp [holds]
  case isFalse no => simp [no]

section

variable {inBuffer : Buffer} {index : Nat}

theorem fetch_eq_ok {size : Nat} {data : Bytes} : fetch inBuffer index size = .ok data ↔
    data.length = size ∧ StandsAt inBuffer.bytes index data := by
  rw [fetch, standsAt_iff_take]
  split
  case isTrue inside =>
    have length : ((inBuffer.bytes.drop index).take size).length = size := by
      rw [List.length_take, List.length_drop]
      omega
    constructor
    · rintro ⟨⟩
      exact ⟨length, by rwa [length], by rw [length]⟩
    · rintro ⟨rfl, -, same⟩
      rw [same]
  case isFalse outside =>
    constructor
    · rintro ⟨⟩
    · rintro ⟨rfl, inside, -⟩
      exact absurd inside outside

theorem fetchInt32_eq_ok {num : Int32} : fetchInt32 inBuffer index = .ok num ↔
    StandsAt inBuffer.bytes index (getNetInt32 num) := by
  rw [fetchInt32, bind_eq_ok]
  constructor
  · rintro ⟨buf, fetched, ⟨⟩⟩
    obtain ⟨length, stands⟩ := fetch_eq_ok.mp fetched
    rwa [getNetInt32_getInt32ForNetByte length]
  · intro stands
    refine ⟨getNetInt32 num, fetch_eq_ok.mpr ⟨length_getNetInt32 num, stands⟩, ?_⟩
    rw [getInt32ForNetByte_getNetInt32]
    rfl

end

/-- The bytes fit an array with a NUL behind them or among them. -/
def Terminated (capacity : Nat) (data : Bytes) : Prop :=
  data.length ≤ capacity ∧ (data.length = capacity → (0 : Byte) ∈ data)

theorem terminated_iff {capacity : Nat} {data : Bytes} (fits : data.length ≤ capacity) :
    (0 : Byte) ∈ data ++ List.replicate (capacity - data.length) 0 ↔ Terminated capacity data := by
  rw [List.mem_append, List.mem_replicate, Terminated]
  constructor
  · rintro (zero | ⟨room, -⟩)
    · exact ⟨fits, fun _ => zero⟩
    · exact ⟨fits, fun full => by omega⟩
  · rintro ⟨-, full⟩
    by_cases same : data.length = capacity
    · exact .inl (full same)
    · exact .inr ⟨by omega, rfl⟩

theorem throughArray_eq_ok {capacity : Nat} {data text : Bytes} :
    throughArray capacity data = .ok text ↔ Terminated capacity data ∧ text = cString data := by
  rw [throughArray]
  split
  case isTrue long =>
    constructor
    · rintro ⟨⟩
    · rintro ⟨⟨fits, -⟩, -⟩
      omega
  case isFalse short =>
    simp only [cString_append_zeros, ← terminated_iff (Nat.le_of_not_lt short)]
    split
    case isTrue zero => simp only [Except.ok.injEq, zero, true_and, eq_comm]
    case isFalse none => simp only [reduceCtorEq, none, false_and]

/-- The bytes of a text behind their length. -/
def lengthPrefixed (data : Bytes) : Bytes := getNetInt32 (.ofNat data.length) ++ data

theorem length_lengthPrefixed (data : Bytes) : (lengthPrefixed data).length = 4 + data.length := by
  rw [lengthPrefixed, List.length_append, length_getNetInt32]

theorem fetchField_eq_ok {inBuffer : Buffer} {lenIndex capacity : Nat} (small : capacity < 2 ^ 31)
    {field : Field} : fetchField inBuffer lenIndex capacity = .ok field ↔
      ∃ data, Terminated capacity data ∧ StandsAt inBuffer.bytes lenIndex (lengthPrefixed data) ∧
        field = ⟨.ofNat data.length, cString data, lenIndex + 4 + data.length⟩ := by
  have bound := inBuffer.fits
  simp only [fetchField, bind_eq_ok, fetchInt32_eq_ok, fetch_eq_ok, throughArray_eq_ok,
    lengthPrefixed, standsAt_append, length_getNetInt32]
  constructor
  · rintro ⟨len, lenStands, data, ⟨length, stands⟩, text, ⟨terminated, rfl⟩, ⟨⟩⟩
    have inside := stands.inside
    have nonneg : 0 ≤ len.toInt := by
      by_contra negative
      have := le_asSize_of_neg (Int.not_le.mp negative)
      omega
    have size : asSize len.toInt = len.toInt.toNat :=
      asSize_of_nonneg nonneg (by have := len.toInt_lt; omega)
    have same : Int32.ofNat data.length = len := by
      rw [length, size, ofNat_toNat_toInt nonneg]
    exact ⟨data, terminated, ⟨same ▸ lenStands, stands⟩, by rw [same, length]⟩
  · rintro ⟨data, terminated, ⟨lenStands, stands⟩, rfl⟩
    have fits := terminated.1
    have size : asSize (Int32.ofNat data.length).toInt = data.length := by
      rw [Int32.toInt_ofNat_of_lt (by omega), asSize_of_nonneg (by omega) (by omega)]
      exact Int.toNat_natCast _
    exact ⟨_, lenStands, data, ⟨size.symm, stands⟩, _, ⟨terminated, rfl⟩, by rw [size]; rfl⟩

theorem fetchString_eq_ok {inBuffer : Buffer} {index : Nat} {len : Int} {data : Bytes} :
    fetchString inBuffer index len = .ok data ↔
      0 ≤ len ∧ data.length = asSize len ∧ StandsAt inBuffer.bytes index data := by
  rw [fetchString]
  split
  case isTrue negative => simp [Int.not_le.mpr negative]
  case isFalse nonneg => rw [fetch_eq_ok, and_iff_right (Int.not_lt.mp nonneg)]

/-! ### Packets and their images -/

structure Packet where
  msgId : Bytes
  methodName : Bytes
  errCode : Int32
  errInfo : Bytes
  pbData : Bytes
  checkSum : Bytes

namespace Packet

def size (packet : Packet) : Nat :=
  2 + 24 + packet.msgId.length + packet.methodName.length + packet.errInfo.length +
    packet.pbData.length

def image (packet : Packet) : Bytes :=
  [pbStart] ++ getNetInt32 (.ofNat packet.size) ++ lengthPrefixed packet.msgId ++
    lengthPrefixed packet.methodName ++ getNetInt32 packet.errCode ++
    lengthPrefixed packet.errInfo ++ packet.pbData ++ packet.checkSum ++ [pbEnd]

/-- An `int` holds the size, and the texts go through the arrays of the decoder. -/
structure Readable (packet : Packet) : Prop where
  checkSum : packet.checkSum.length = 4
  small : packet.size < 2 ^ 31
  msgId : Terminated 100 packet.msgId
  methodName : Terminated 512 packet.methodName
  errInfo : Terminated 512 packet.errInfo

/-- What the decoder makes of a packet. -/
def message (packet : Packet) : TinyPBProtocol where
  msgId := cString packet.msgId
  pkLen := .ofNat packet.size
  msgIdLen := .ofNat packet.msgId.length
  methodNameLen := .ofNat packet.methodName.length
  methodName := cString packet.methodName
  errCode := packet.errCode
  errInfoLen := .ofNat packet.errInfo.length
  errInfo := cString packet.errInfo
  pbData := packet.pbData
  checkSum := 0
  parseSuccess := true

theorem length_image {packet : Packet} (checkSum : packet.checkSum.length = 4) :
    packet.image.length = packet.size := by
  simp only [image, List.length_append, length_lengthPrefixed, length_getNetInt32, checkSum, size,
    List.length_singleton]
  omega

end Packet

/-- The length in the packet is that of the buffer. -/
theorem lastIndex_eq_ok {pkLen : Int32} {endIndex : Int} {size : Nat} (nonempty : 0 < size)
    (fits : size < 2 ^ 63) :
    lastIndex pkLen = .ok endIndex ∧ size - 1 = asSize endIndex ↔
      size < 2 ^ 31 ∧ pkLen = .ofNat size ∧ endIndex = size - 1 := by
  rw [lastIndex]
  constructor
  · rintro ⟨computed, same⟩
    split at computed
    case isTrue => cases computed
    case isFalse =>
      cases computed
      have upper := pkLen.toInt_lt
      have lower := pkLen.le_toInt
      rw [asSize] at same
      have whole : pkLen.toInt = size := by omega
      have nonneg : 0 ≤ pkLen.toInt := by omega
      refine ⟨by omega, ?_, by rw [whole]⟩
      rw [← ofNat_toNat_toInt nonneg, whole, Int.toNat_natCast]
  · rintro ⟨small, rfl, rfl⟩
    have whole : (Int32.ofNat size).toInt = size := Int32.toInt_ofNat_of_lt small
    have proper : Int32.ofNat size ≠ Int32.minValue := by
      intro same
      rw [same] at whole
      have negative : Int32.minValue.toInt < 0 := by decide
      omega
    rw [if_neg proper, whole, asSize_of_nonneg (by omega) (by omega)]
    exact ⟨rfl, by omega⟩

/-- Whatever is accepted is a packet. The payload takes what the other fields leave of the
length, and the check sum is the four bytes before the end. -/
theorem readable_of_decodeMessage {inBuffer : Buffer} {message : TinyPBProtocol}
    (accepted : decodeMessage inBuffer = .ok message) :
    ∃ packet : Packet, packet.Readable ∧ inBuffer.bytes = packet.image ∧
      message = packet.message := by
  have bound := inBuffer.fits
  simp only [decodeMessage, bind_eq_ok, rejectIf_eq_ok, fetchInt32_eq_ok, fetch_eq_ok,
    fetchString_eq_ok, fetchField_eq_ok (show 100 < 2 ^ 31 by decide),
    fetchField_eq_ok (show 512 < 2 ^ 31 by decide)] at accepted
  obtain ⟨-, nonempty, start, ⟨-, startStands⟩, -, isStart, pkLen, pkLenStands, endIndex, computed,
    -, whole, last, ⟨-, lastStands⟩, -, isEnd, -, -, _, ⟨msgId, msgIdFits, msgIdStands, rfl⟩, -, -,
    _, ⟨methodName, methodNameFits, methodNameStands, rfl⟩, -, -, errCode, errCodeStands, -, -, _,
    ⟨errInfo, errInfoFits, errInfoStands, rfl⟩, pbData, ⟨nonneg, length, pbDataStands⟩, ⟨⟩⟩ := accepted
  obtain rfl : start = [pbStart] := not_not.mp isStart
  obtain rfl : last = [pbEnd] := not_not.mp isEnd
  obtain ⟨small, rfl, rfl⟩ :=
    (lastIndex_eq_ok (by omega) bound).mp ⟨computed, not_not.mp whole⟩
  dsimp only at methodNameStands errCodeStands errInfoStands nonneg length pbDataStands
  have msgIdInside := msgIdStands.inside
  have methodNameInside := methodNameStands.inside
  have errInfoInside := errInfoStands.inside
  rw [length_lengthPrefixed] at msgIdInside methodNameInside errInfoInside
  simp only [Int32.toInt_ofNat_of_lt small,
    Int32.toInt_ofNat_of_lt (show msgId.length < 2 ^ 31 by omega),
    Int32.toInt_ofNat_of_lt (show methodName.length < 2 ^ 31 by omega),
    Int32.toInt_ofNat_of_lt (show errInfo.length < 2 ^ 31 by omega)] at nonneg length
  rw [asSize_of_nonneg nonneg (by omega)] at length
  rw [asSize_of_nonneg (by omega) (by omega)] at lastStands
  have room : inBuffer.bytes.length - 5 + 4 ≤ inBuffer.bytes.length := by omega
  obtain ⟨checkSum, four, checkSumStands⟩ := exists_standsAt room
  have size : inBuffer.bytes.length =
      Packet.size ⟨msgId, methodName, errCode, errInfo, pbData, checkSum⟩ := by
    simp only [Packet.size]
    omega
  refine ⟨⟨msgId, methodName, errCode, errInfo, pbData, checkSum⟩,
    ⟨four, size ▸ small, msgIdFits, methodNameFits, errInfoFits⟩, ?_, ?_⟩
  · refine (standsAt_fills ((Packet.length_image four).trans size.symm)).mp ?_
    simp only [Packet.image, standsAt_append, List.length_append, length_getNetInt32,
      length_lengthPrefixed, List.length_singleton, ← size]
    refine ⟨⟨⟨⟨⟨⟨⟨⟨startStands, pkLenStands⟩, msgIdStands⟩, methodNameStands.cast ?_⟩,
      errCodeStands.cast ?_⟩, errInfoStands.cast ?_⟩, pbDataStands.cast ?_⟩,
      checkSumStands.cast ?_⟩, lastStands.cast ?_⟩
    all_goals simp only [Packet.size] at size; omega
  · simp only [Packet.message, ← size]

theorem decodeMessage_of_readable {inBuffer : Buffer} {packet : Packet} (readable : packet.Readable)
    (same : inBuffer.bytes = packet.image) : decodeMessage inBuffer = .ok packet.message := by
  have bound := inBuffer.fits
  simp only [decodeMessage, bind_eq_ok, rejectIf_eq_ok, fetchInt32_eq_ok, fetch_eq_ok,
    fetchString_eq_ok, fetchField_eq_ok (show 100 < 2 ^ 31 by decide),
    fetchField_eq_ok (show 512 < 2 ^ 31 by decide)]
  have size : inBuffer.bytes.length = packet.size :=
    (congrArg List.length same).trans (Packet.length_image readable.checkSum)
  have nonempty : 0 < packet.size := by simp only [Packet.size]; omega
  have fits : packet.size < 2 ^ 63 := size ▸ bound
  obtain ⟨computed, lastAt⟩ := (lastIndex_eq_ok nonempty fits).mpr ⟨readable.small, rfl, rfl⟩
  have stands := (standsAt_fills (congrArg List.length same).symm).mpr same
  simp only [Packet.image, standsAt_append, List.length_append, length_getNetInt32,
    length_lengthPrefixed, List.length_singleton] at stands
  obtain ⟨⟨⟨⟨⟨⟨⟨⟨startStands, pkLenStands⟩, msgIdStands⟩, methodNameStands⟩, errCodeStands⟩,
    errInfoStands⟩, pbDataStands⟩, checkSumStands⟩, lastStands⟩ := stands
  have checkSum := readable.checkSum
  have small := readable.small
  have sizeIs : packet.size = 2 + 24 + packet.msgId.length + packet.methodName.length +
    packet.errInfo.length + packet.pbData.length := rfl
  have pbDataLen : (Int32.ofNat packet.size).toInt - (Int32.ofNat packet.methodName.length).toInt -
      (Int32.ofNat packet.msgId.length).toInt - (Int32.ofNat packet.errInfo.length).toInt - 2 - 24 =
        packet.pbData.length := by
    rw [Int32.toInt_ofNat_of_lt small, Int32.toInt_ofNat_of_lt (by omega),
      Int32.toInt_ofNat_of_lt (by omega), Int32.toInt_ofNat_of_lt (by omega)]
    omega
  have pbDataSize : asSize packet.pbData.length = packet.pbData.length :=
    asSize_of_nonneg (by omega) (by omega)
  refine ⟨(), by omega, _, ⟨rfl, startStands⟩, (), not_not.mpr rfl, _, pkLenStands, _, computed, (),
    by rw [size]; exact not_not.mpr lastAt, [pbEnd], ⟨rfl, lastStands.cast (by omega)⟩, (),
    not_not.mpr rfl, (), by omega, _, ⟨packet.msgId, readable.msgId, msgIdStands, rfl⟩, (), ?_, _,
    ⟨packet.methodName, readable.methodName, methodNameStands.cast ?_, rfl⟩, (), ?_, _,
    errCodeStands.cast ?_, (), ?_, _,
    ⟨packet.errInfo, readable.errInfo, errInfoStands.cast ?_, rfl⟩, packet.pbData, ?payload, rfl⟩
  case payload =>
    rw [pbDataLen, pbDataSize]
    exact ⟨by omega, rfl, pbDataStands.cast (by dsimp only; omega)⟩
  all_goals dsimp only; omega

/-! ### What the encoder writes -/

/-- The packet that the encoder makes of a message with an identity. -/
def Packet.ofMessage (message : TinyPBProtocol) : Packet :=
  ⟨message.msgId, message.methodName, message.errCode, message.errInfo, message.pbData,
    getNetInt32 1⟩

/-- The message with the lengths of its packet. -/
def withLengths (message : TinyPBProtocol) : TinyPBProtocol :=
  { message with
    pkLen := .ofNat (Packet.ofMessage message).size
    msgIdLen := .ofNat message.msgId.length
    methodNameLen := .ofNat message.methodName.length
    errInfoLen := .ofNat message.errInfo.length
    parseSuccess := true }

theorem encodeTinyPB_eq {message : TinyPBProtocol}
    (small : (Packet.ofMessage (withMsgId message)).size < 2 ^ 31) :
    encodeTinyPB message =
      .ok (withLengths (withMsgId message), (Packet.ofMessage (withMsgId message)).image) := by
  have length : (Packet.ofMessage (withMsgId message)).image.length =
      (Packet.ofMessage (withMsgId message)).size := Packet.length_image (length_getNetInt32 1)
  have written : encodeTinyPB message =
      let packet := Packet.ofMessage (withMsgId message)
      if (Int32.ofNat packet.size).toInt < 0 then .error .badLength
      else if (Int32.ofNat packet.size).toInt < packet.image.length then .error .outsideArray
      else .ok (withLengths (withMsgId message), packet.image) := by
    simp only [encodeTinyPB, Packet.image, lengthPrefixed, List.append_assoc]
    rfl
  rw [written]
  simp only [Int32.toInt_ofNat_of_lt small, length]
  rw [if_neg (by omega), if_neg (by omega)]

/-- A message that an `int` can measure is written to an empty buffer as its packet. -/
theorem encode_empty {message : TinyPBProtocol}
    (small : (Packet.ofMessage (withMsgId message)).size < 2 ^ 31) :
    ∃ buffer, encode message .empty = .ok (withLengths (withMsgId message), buffer) ∧
      buffer.bytes = (Packet.ofMessage (withMsgId message)).image := by
  have fits : (Buffer.empty.bytes ++ (Packet.ofMessage (withMsgId message)).image).length <
      2 ^ 63 := by
    rw [Buffer.empty, List.nil_append, Packet.length_image (length_getNetInt32 1)]
    omega
  have appended : Buffer.empty.append (Packet.ofMessage (withMsgId message)).image =
      .ok ⟨_, fits⟩ := dif_pos fits
  refine ⟨⟨_, fits⟩, ?_, List.nil_append _⟩
  simp only [encode, encodeTinyPB_eq small, appended, bind, Except.bind, pure, Except.pure]

end Luce.Codec
