/-
This file models how the blocking client reads the packet of a reply and writes the
packet of a request.

The client owns a non-blocking socket. While the connection is up, `::read` fails
with `EAGAIN` as long as no byte has arrived; once the server has closed its end,
`::read` returns zero behind the last byte. Both loops call `::read` again at once
when it fails for the moment, so they may spin without an end and run on fuel. A
store outside the memory of a buffer is a fault.
-/

import Luce.Io.WriteAwaiter
import Luce.Library.Fuel

namespace Luce

open Library.Stream Library.LittleEndian Library.Fuel

/-- An access outside the memory of a buffer. -/
inductive MemoryFault where
  | outOfBounds
deriving DecidableEq, Repr

/-- Stores bytes in a buffer that has to have room for them. -/
def storeWithin (buffer : Bytes) (offset : Nat) (bytes : Bytes) : Run MemoryFault Bytes :=
  if offset + bytes.length ≤ buffer.length then pure (store buffer offset bytes)
  else raise .outOfBounds

/-- `client_fd_` as its reader sees it: what the server sends, and whether it has
closed its end behind that. -/
structure ClientFd where
  stream : Source Byte Errno
  serverClosed : Bool
deriving DecidableEq, Repr

/-- `::read(client_fd_, ..., len)`. -/
def ClientFd.read (clientFd : ClientFd) (len : Nat) : Except Errno Bytes × ClientFd :=
  if clientFd.stream.pending = [] ∧ clientFd.serverClosed = false then (.error .eagain, clientFd)
  else
    let (result, stream) := clientFd.stream.read len
    (result, { clientFd with stream })

namespace BlockingRpcClient

/-- `return -1` as a `size_t`. -/
def sizeMax : Nat := 2 ^ 64 - 1

/-- What `ReadPacket` returns, with the buffer and the socket as it leaves them. -/
structure ReadResult where
  size : Nat
  buffer : Bytes
  clientFd : ClientFd
deriving DecidableEq, Repr

/-- The loop over the header: it always reads to the start of `head_buffer`, and
counts what it has received in a `size_t`. No header comes of a fatal failure. The
end of the stream is logged, and counts as nothing received. -/
def readHead : Nat → ClientFd → Bytes → Nat → Run MemoryFault (Option Bytes × ClientFd)
  | 0, _, _, _ => exhausted
  | fuel + 1, clientFd, headBuffer, headRecvSize =>
    if headRecvSize = headerSize then pure (some headBuffer, clientFd)
    else
      match clientFd.read headerSize with
      | (.error errno, clientFd) =>
        if errno.retryable then readHead fuel clientFd headBuffer headRecvSize
        else pure (none, clientFd)
      | (.ok bytes, clientFd) => do
        let headBuffer ← storeWithin headBuffer 0 bytes
        readHead fuel clientFd headBuffer ((headRecvSize + bytes.length) % 2 ^ 64)

/-- The loop over the body, with the `resize` behind it. -/
def readBody : Nat → ClientFd → Bytes → Nat → Nat → Run MemoryFault ReadResult
  | 0, _, _, _, _ => exhausted
  | fuel + 1, clientFd, buffer, totalReadSize, alreadyReadSize =>
    if totalReadSize = 0 then
      pure ⟨alreadyReadSize, resize buffer alreadyReadSize 0, clientFd⟩
    else
      match clientFd.read totalReadSize with
      | (.ok [], clientFd) => pure ⟨alreadyReadSize, resize buffer alreadyReadSize 0, clientFd⟩
      | (.error errno, clientFd) =>
        if errno.retryable then readBody fuel clientFd buffer totalReadSize alreadyReadSize
        else pure ⟨alreadyReadSize, resize buffer alreadyReadSize 0, clientFd⟩
      | (.ok (first :: others), clientFd) => do
        let bytes := first :: others
        let buffer ← storeWithin buffer alreadyReadSize bytes
        readBody fuel clientFd buffer (totalReadSize - bytes.length)
          (alreadyReadSize + bytes.length)

def readPacket (fuel : Nat) (clientFd : ClientFd) (buffer : Bytes) (headBuffer : HeadBuffer) :
    Run MemoryFault ReadResult := do
  match ← readHead fuel clientFd headBuffer.val 0 with
  | (none, clientFd) => pure ⟨sizeMax, buffer, clientFd⟩
  | (some headBuffer, clientFd) =>
    let totalReadSize := leValue headBuffer
    readBody fuel clientFd (resize buffer totalReadSize 0) totalReadSize 0

/-- The loop of `WritePacket`. -/
def writeBody (clientFd : Sink Byte Errno) (buffer : Bytes)
    (totalWriteSize alreadyWriteSize : Nat) : Nat × Sink Byte Errno :=
  if totalWriteSize = 0 then (alreadyWriteSize, clientFd)
  else
    match _ : clientFd.write ((buffer.drop alreadyWriteSize).take totalWriteSize) with
    | (.ok 0, next) => (alreadyWriteSize, next)
    | (.error errno, next) =>
      if errno.retryable then writeBody next buffer totalWriteSize alreadyWriteSize
      else (alreadyWriteSize, next)
    | (.ok (res + 1), next) =>
      writeBody next buffer (totalWriteSize - (res + 1)) (alreadyWriteSize + (res + 1))
termination_by totalWriteSize + clientFd.events.length
decreasing_by
  · rw [(Sink.write_error ‹clientFd.write _ = _›).1, List.length_cons]
    omega
  · have wrote := Sink.write_ok ‹clientFd.write _ = _›
    rw [wrote.2, List.length_tail]
    omega

/-- The header is the low bytes of a `size_t`. One call writes it, and only a call that
writes nothing of it is an error. -/
def writePacket (clientFd : Sink Byte Errno) (buffer : Bytes) : Nat × Sink Byte Errno :=
  let totalWriteSize := buffer.length
  let headBuffer := leBytes headerSize totalWriteSize
  match clientFd.write headBuffer with
  | (.error _, clientFd) => (sizeMax, clientFd)
  | (.ok 0, clientFd) => (sizeMax, clientFd)
  | (.ok (_ + 1), clientFd) => writeBody clientFd buffer totalWriteSize 0

end BlockingRpcClient

end Luce
