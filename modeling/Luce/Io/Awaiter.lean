/-
This file models the awaiters of a connection and the coroutine that reads a
packet.

A connection is whether it is closed, and the socket: the bytes that the peer has
sent or will send before the end of the stream, and a schedule of what the next
calls of `::read` return. A count of zero stands for the end of the stream. A
failed `::read` suspends the coroutine; the event loop resumes it, and the
schedule says what the `::read` of the resumed awaiter returns.
-/

import Luce.Byte
import Luce.Library.LittleEndian
import Luce.Library.Stream

namespace Luce

open Library.Stream Library.LittleEndian

/-! ### Connections -/

/-- The `errno` of a failed system call. -/
inductive Errno where
  | eintr | ewouldblock | eagain
  | other (code : Nat)
deriving DecidableEq, Repr

/-- The failures after which the loops try again. -/
def Errno.retryable : Errno → Bool
  | .eintr | .ewouldblock | .eagain => true
  | .other _ => false

structure TcpConnection where
  isClosed : Bool
  socket : Source Byte Errno
deriving DecidableEq, Repr

/-- `::read` on the socket: the bytes it stores, as many as it returns, or `errno`. -/
def TcpConnection.read (conn : TcpConnection) (len : Nat) : Except Errno Bytes × TcpConnection :=
  let (result, socket) := conn.socket.read len
  (result, { conn with socket })

theorem TcpConnection.read_ok {conn next : TcpConnection} {len : Nat} {bytes : Bytes}
    (success : conn.read len = (.ok bytes, next)) :
    bytes = conn.socket.pending.take (allowance len conn.socket.events) ∧
      next.socket.pending = conn.socket.pending.drop (allowance len conn.socket.events) ∧
      next.socket.events = conn.socket.events.tail ∧ next.isClosed = conn.isClosed := by
  cases attempt : conn.socket.read len with
  | mk result socket =>
    simp only [TcpConnection.read, attempt, Prod.mk.injEq] at success
    obtain ⟨rfl, rfl⟩ := success
    obtain ⟨got, rest, events⟩ := Source.read_ok attempt
    exact ⟨got, rest, events, rfl⟩

theorem TcpConnection.read_error {conn next : TcpConnection} {len : Nat} {errno : Errno}
    (failed : conn.read len = (.error errno, next)) :
    conn.socket.events = .fail errno :: next.socket.events ∧
      next.socket.pending = conn.socket.pending ∧ next.isClosed = conn.isClosed := by
  cases attempt : conn.socket.read len with
  | mk result socket =>
    simp only [TcpConnection.read, attempt, Prod.mk.injEq] at failed
    obtain ⟨rfl, rfl⟩ := failed
    obtain ⟨events, rest⟩ := Source.read_error attempt
    exact ⟨events, rest, rfl⟩

/-! ### The read awaiter -/

/-- `recv_` after `await_ready`; it stays zero on a closed connection. -/
def ReadInnerAwaiter.awaitReady (conn : TcpConnection) (len : Nat) :
    Except Errno Bytes × TcpConnection :=
  if conn.isClosed then (.ok [], conn) else conn.read len

/-- A failed attempt is made again once. -/
def ReadInnerAwaiter.awaitResume (recv : Except Errno Bytes) (conn : TcpConnection) (len : Nat) :
    Except Errno Bytes × TcpConnection :=
  match recv with
  | .ok bytes => (.ok bytes, conn)
  | .error errno => if conn.isClosed then (.error errno, conn) else conn.read len

def readInnerAwaiter (conn : TcpConnection) (len : Nat) : Except Errno Bytes × TcpConnection :=
  let (recv, conn) := ReadInnerAwaiter.awaitReady conn len
  ReadInnerAwaiter.awaitResume recv conn len

/-- An awaiter on an open connection makes one attempt, or a second one after the
first has failed. -/
theorem readInnerAwaiter_cases {conn next : TcpConnection} {len : Nat} {result : Except Errno Bytes}
    (awaited : readInnerAwaiter conn len = (result, next)) :
    (conn.isClosed = true ∧ result = .ok [] ∧ next = conn) ∨
      (∃ bytes, result = .ok bytes ∧ conn.read len = (.ok bytes, next)) ∨
      ∃ errno resumed, conn.read len = (.error errno, resumed) ∧
        resumed.read len = (result, next) := by
  by_cases closed : conn.isClosed = true
  · rw [readInnerAwaiter, ReadInnerAwaiter.awaitReady, if_pos closed] at awaited
    cases awaited
    exact .inl ⟨closed, rfl, rfl⟩
  · rw [readInnerAwaiter, ReadInnerAwaiter.awaitReady, if_neg closed] at awaited
    cases attempt : conn.read len with
    | mk recv resumed =>
      rw [attempt] at awaited
      cases recv with
      | ok bytes =>
        cases awaited
        exact .inr (.inl ⟨bytes, rfl, rfl⟩)
      | error errno =>
        have same : resumed.isClosed = conn.isClosed := (TcpConnection.read_error attempt).2.2
        rw [← same] at closed
        simp only [ReadInnerAwaiter.awaitResume, if_neg closed] at awaited
        exact .inr (.inr ⟨errno, resumed, rfl, awaited⟩)

theorem readInnerAwaiter_ok_events {conn next : TcpConnection} {len : Nat} {bytes : Bytes}
    (awaited : readInnerAwaiter conn len = (.ok bytes, next)) :
    next.socket.events.length ≤ conn.socket.events.length := by
  obtain ⟨-, -, rfl⟩ | ⟨_, -, attempt⟩ | ⟨_, _, first, second⟩ := readInnerAwaiter_cases awaited
  · exact Nat.le_refl _
  · rw [(TcpConnection.read_ok attempt).2.2.1, List.length_tail]
    exact Nat.sub_le _ _
  · rw [(TcpConnection.read_error first).1, (TcpConnection.read_ok second).2.2.1, List.length_tail,
      List.length_cons]
    omega

theorem readInnerAwaiter_error_events {conn next : TcpConnection} {len : Nat} {errno : Errno}
    (awaited : readInnerAwaiter conn len = (.error errno, next)) :
    next.socket.events.length < conn.socket.events.length := by
  obtain ⟨-, impossible, -⟩ | ⟨_, impossible, -⟩ | ⟨_, _, first, second⟩ :=
    readInnerAwaiter_cases awaited
  · cases impossible
  · cases impossible
  · rw [(TcpConnection.read_error first).1, (TcpConnection.read_error second).1, List.length_cons,
      List.length_cons]
    omega

/-! ### Reading a packet -/

def headerSize : Nat := 4

/-- `head_buffer` before anything is read into it: whatever memory it has. -/
abbrev HeadBuffer := {bytes : Bytes // bytes.length = headerSize}

/-- The buffer after a read has stored these bytes from an offset on. -/
def store (buffer : Bytes) (offset : Nat) (bytes : Bytes) : Bytes :=
  buffer.take offset ++ bytes ++ buffer.drop (offset + bytes.length)

/-- The bytes that an awaiter leaves in its buffer: a failed one stores none. -/
def stored : Except Errno Bytes → Bytes
  | .ok bytes => bytes
  | .error _ => []

/-- What the coroutine returns, with `buffer` and the connection as it leaves them. -/
structure PacketResult where
  success : Bool
  buffer : Bytes
  conn : TcpConnection
deriving DecidableEq, Repr

/-- The loop of `AsyncReadPacket`. Each round delivers bytes or uses up events. -/
def readBody (conn : TcpConnection) (buffer : Bytes) (totalReadSize alreadyReadSize : Nat) :
    PacketResult :=
  if totalReadSize = 0 then ⟨true, buffer, conn⟩
  else
    match _ : readInnerAwaiter conn totalReadSize with
    | (.ok [], next) => ⟨false, buffer, next⟩
    | (.error errno, next) =>
      if errno.retryable then readBody next buffer totalReadSize alreadyReadSize
      else ⟨false, buffer, next⟩
    | (.ok (first :: others), next) =>
      let res := (first :: others).length
      readBody next (store buffer alreadyReadSize (first :: others)) (totalReadSize - res)
        (alreadyReadSize + res)
termination_by totalReadSize + conn.socket.events.length
decreasing_by
  · have := readInnerAwaiter_error_events ‹_›
    omega
  · have := readInnerAwaiter_ok_events ‹_›
    simp only [List.length_cons]
    omega

/-- The result of the awaiter for the header is dropped. -/
def asyncReadPacket (conn : TcpConnection) (buffer : Bytes) (headBuffer : HeadBuffer) :
    PacketResult :=
  let (header, conn) := readInnerAwaiter conn headerSize
  let totalReadSize := leValue (store headBuffer.val 0 (stored header))
  readBody conn (resize buffer totalReadSize 0) totalReadSize 0

end Luce
