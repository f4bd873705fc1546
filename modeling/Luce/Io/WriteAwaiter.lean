/-
This file models the awaiter that writes to a connection and the coroutine that
writes a packet.

As its writers see it, a connection is whether it is closed, and the socket: the
bytes that it has accepted, and a schedule of what the next calls of `::write`
return. A failed `::write` suspends the coroutine; the event loop resumes it, and
the schedule says what the `::write` of the resumed awaiter returns.
-/

import Luce.Io.Awaiter
import Luce.Library.Sink

namespace Luce

open Library.Stream Library.LittleEndian

/-- A `TcpConnection` as its writers see it. -/
structure WriteConnection where
  isClosed : Bool
  socket : Sink Byte Errno
deriving DecidableEq, Repr

/-- `::write` on the socket: the number of bytes it accepts, or `errno`. -/
def WriteConnection.write (conn : WriteConnection) (data : Bytes) :
    Except Errno Nat × WriteConnection :=
  let (result, socket) := conn.socket.write data
  (result, { conn with socket })

/-! ### The write awaiter -/

/-- `send_` after `await_ready`; it stays zero on a closed connection. -/
def WriteInnerAwaiter.awaitReady (conn : WriteConnection) (data : Bytes) :
    Except Errno Nat × WriteConnection :=
  if conn.isClosed then (.ok 0, conn) else conn.write data

/-- A failed attempt is made again once. -/
def WriteInnerAwaiter.awaitResume (send : Except Errno Nat) (conn : WriteConnection)
    (data : Bytes) : Except Errno Nat × WriteConnection :=
  match send with
  | .ok count => (.ok count, conn)
  | .error errno => if conn.isClosed then (.error errno, conn) else conn.write data

def writeInnerAwaiter (conn : WriteConnection) (data : Bytes) :
    Except Errno Nat × WriteConnection :=
  let (send, conn) := WriteInnerAwaiter.awaitReady conn data
  WriteInnerAwaiter.awaitResume send conn data

/-- What the successive awaiters on an open connection come to: a first failure is
not seen, and the attempt behind it decides. -/
def awaited : List (Acceptance Errno) → List (Acceptance Errno)
  | .fail _ :: second :: events => second :: awaited events
  | [.fail _] => []
  | .accept count :: events => .accept count :: awaited events
  | [] => []

/-- The connection with the schedule of its awaiters. -/
def WriteConnection.awaiting (conn : WriteConnection) : Sink Byte Errno :=
  ⟨conn.socket.accepted, awaited conn.socket.events⟩

/-- An awaiter on an open connection is one attempt on the schedule of the awaiters. -/
theorem writeInnerAwaiter_awaiting {conn next : WriteConnection} {data : Bytes}
    {result : Except Errno Nat} (opened : conn.isClosed = false)
    (wrote : writeInnerAwaiter conn data = (result, next)) :
    conn.awaiting.write data = (result, next.awaiting) ∧ next.isClosed = false := by
  obtain ⟨isClosed, accepted, events⟩ := conn
  cases opened
  match events with
  | .fail _ :: .fail _ :: _ => cases wrote; exact ⟨rfl, rfl⟩
  | .fail _ :: .accept _ :: _ => cases wrote; exact ⟨rfl, rfl⟩
  | [.fail _] => cases wrote; exact ⟨rfl, rfl⟩
  | .accept _ :: _ => cases wrote; exact ⟨rfl, rfl⟩
  | [] => cases wrote; exact ⟨rfl, rfl⟩

theorem writeInnerAwaiter_ok_events {conn next : WriteConnection} {data : Bytes} {count : Nat}
    (wrote : writeInnerAwaiter conn data = (.ok count, next)) :
    next.socket.events.length ≤ conn.socket.events.length := by
  obtain ⟨_ | _, accepted, events⟩ := conn
  · match events with
    | .fail _ :: .fail _ :: _ => cases wrote
    | .fail _ :: .accept _ :: _ =>
      cases wrote
      exact Nat.le_add_right _ 2
    | [.fail _] =>
      cases wrote
      exact Nat.zero_le _
    | .accept _ :: _ =>
      cases wrote
      exact Nat.le_succ _
    | [] =>
      cases wrote
      exact Nat.le_refl _
  · cases wrote
    exact Nat.le_refl _

theorem writeInnerAwaiter_error_events {conn next : WriteConnection} {data : Bytes}
    {errno : Errno} (wrote : writeInnerAwaiter conn data = (.error errno, next)) :
    next.socket.events.length < conn.socket.events.length := by
  obtain ⟨_ | _, accepted, events⟩ := conn
  · match events with
    | .fail _ :: .fail _ :: _ =>
      cases wrote
      exact Nat.lt_succ_of_lt (Nat.lt_succ_self _)
    | .fail _ :: .accept _ :: _ => cases wrote
    | [.fail _] => cases wrote
    | .accept _ :: _ => cases wrote
    | [] => cases wrote
  · cases wrote

/-! ### Writing a packet -/

/-- The loop of `AsyncWritePacket`. -/
def writeBody (conn : WriteConnection) (buffer : Bytes) (totalWriteSize alreadyWriteSize : Nat) :
    Bool × WriteConnection :=
  if totalWriteSize = 0 then (true, conn)
  else
    match _ : writeInnerAwaiter conn ((buffer.drop alreadyWriteSize).take totalWriteSize) with
    | (.ok 0, next) => (false, next)
    | (.error errno, next) =>
      if errno.retryable then writeBody next buffer totalWriteSize alreadyWriteSize
      else (false, next)
    | (.ok (res + 1), next) =>
      writeBody next buffer (totalWriteSize - (res + 1)) (alreadyWriteSize + (res + 1))
termination_by totalWriteSize + conn.socket.events.length
decreasing_by
  · have := writeInnerAwaiter_error_events ‹_›
    omega
  · have := writeInnerAwaiter_ok_events ‹_›
    omega

/-- The result of the awaiter for the header is dropped. The size is a `uint32_t`. -/
def asyncWritePacket (conn : WriteConnection) (buffer : Bytes) : Bool × WriteConnection :=
  let totalWriteSize := buffer.length % 2 ^ 32
  let headBuffer := leBytes headerSize totalWriteSize
  let (_, conn) := writeInnerAwaiter conn headBuffer
  writeBody conn buffer totalWriteSize 0

end Luce
