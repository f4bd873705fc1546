/-
This file models the coroutine that writes a buffer, and proves that what the socket
has accepted is always the front of the buffer.

The coroutine is a system of steps: an awaiter is made and tries to write, the event
loop resumes it after a failure and it tries again, and at any time the connection may
be closed. What the attempts come to is in the schedule of the socket. The data pointer
and the remaining size are moved on separately, in arithmetic that wraps around; that
their sum is the size of the buffer is the invariant that keeps them together.
-/

import Luce.Io.WriteAwaiter
import Luce.Library.Transition

namespace Luce

open Library.Stream Library.Transition

/-! ### The coroutine -/

/-- The size of a buffer is a `size_t`. -/
abbrev IOBuffer := {bytes : Bytes // bytes.length < 2 ^ 64}

/-- `left + right` for `size_t`. -/
def sizeAdd (left right : Nat) : Nat := (left + right) % 2 ^ 64

/-- `left - right` for `size_t`. -/
def sizeSub (left right : Nat) : Nat := (left + (2 ^ 64 - right)) % 2 ^ 64

inductive AsyncWritePhase where
  /-- At the condition of the loop. -/
  | looping
  /-- Its awaiter waits after a failed attempt. -/
  | suspended
  /-- What it has returned, and the result that has stopped it before the end. -/
  | returned (size : Nat) (stoppedBy : Option (Except Errno Nat))
deriving DecidableEq

structure AsyncWrite where
  phase : AsyncWritePhase
  totalWriteSize : Nat
  alreadyWriteSize : Nat
  conn : WriteConnection
deriving DecidableEq

inductive AsyncWriteStep where
  /-- A round of the loop up to `await_ready`, and on if that succeeds. -/
  | attempt
  /-- The event loop resumes the awaiter; if the connection has been closed meanwhile,
  `errno` is whatever it is now. -/
  | resume (errno : Errno)
  /-- The connection is closed. -/
  | close
deriving DecidableEq

namespace AsyncWrite

def initial (buffer : IOBuffer) (conn : WriteConnection) : AsyncWrite :=
  ⟨.looping, buffer.val.length, 0, conn⟩

/-- What is offered to `::write`. -/
def data (buffer : IOBuffer) (writer : AsyncWrite) : Bytes :=
  (buffer.val.drop writer.alreadyWriteSize).take writer.totalWriteSize

/-- The rest of a round, with the result of its awaiter. -/
def goOn (writer : AsyncWrite) : Except Errno Nat → AsyncWrite
  | .ok 0 => { writer with phase := .returned writer.alreadyWriteSize (some (.ok 0)) }
  | .error errno =>
    if errno.retryable then { writer with phase := .looping }
    else { writer with phase := .returned writer.alreadyWriteSize (some (.error errno)) }
  | .ok (res + 1) =>
    { writer with
      phase := .looping
      alreadyWriteSize := sizeAdd writer.alreadyWriteSize (res + 1)
      totalWriteSize := sizeSub writer.totalWriteSize (res + 1) }

def step (buffer : IOBuffer) (writer : AsyncWrite) : AsyncWriteStep → Option AsyncWrite
  | .attempt =>
    if writer.phase ≠ .looping then none
    else if writer.totalWriteSize = 0 then
      some { writer with phase := .returned writer.alreadyWriteSize none }
    else
      match WriteInnerAwaiter.awaitReady writer.conn (writer.data buffer) with
      | (.ok send, conn) => some ({ writer with conn }.goOn (.ok send))
      | (.error _, conn) => some { writer with conn, phase := .suspended }
  | .resume errno =>
    if writer.phase ≠ .suspended then none
    else
      let (result, conn) :=
        WriteInnerAwaiter.awaitResume (.error errno) writer.conn (writer.data buffer)
      some ({ writer with conn }.goOn result)
  | .close => some { writer with conn := { writer.conn with isClosed := true } }

/-! ### What an attempt does -/

/-- How many bytes an awaiter says it has written. -/
def written : Except Errno Nat → Nat
  | .ok count => count
  | .error _ => 0

/-- The socket has accepted as many of the bytes as the result says. -/
def Accepts (conn : WriteConnection) (data : Bytes) (result : Except Errno Nat)
    (next : WriteConnection) : Prop :=
  written result ≤ data.length ∧
    next.socket.accepted = conn.socket.accepted ++ data.take (written result)

theorem write_accepts (conn : WriteConnection) (data : Bytes) :
    Accepts conn data (conn.write data).1 (conn.write data).2 := by
  rw [WriteConnection.write]
  cases attempt : conn.socket.write data with
  | mk result socket =>
    cases result with
    | ok count =>
      obtain ⟨took, rfl⟩ := Sink.write_ok attempt
      exact ⟨took.trans_le (taken_le _ _), rfl⟩
    | error errno =>
      exact ⟨Nat.zero_le _, (Sink.write_error attempt).2.trans (List.append_nil _).symm⟩

theorem awaitReady_accepts (conn : WriteConnection) (data : Bytes) :
    Accepts conn data (WriteInnerAwaiter.awaitReady conn data).1
      (WriteInnerAwaiter.awaitReady conn data).2 := by
  rw [WriteInnerAwaiter.awaitReady]
  split
  · exact ⟨Nat.zero_le _, (List.append_nil _).symm⟩
  · exact write_accepts conn data

theorem awaitResume_accepts (errno : Errno) (conn : WriteConnection) (data : Bytes) :
    Accepts conn data (WriteInnerAwaiter.awaitResume (.error errno) conn data).1
      (WriteInnerAwaiter.awaitResume (.error errno) conn data).2 := by
  rw [WriteInnerAwaiter.awaitResume]
  split
  · exact ⟨Nat.zero_le _, (List.append_nil _).symm⟩
  · exact write_accepts conn data

/-! ### The front of the buffer -/

/-- A result after which nothing more is written: zero, or a failure for good. -/
def stops : Except Errno Nat → Bool
  | .ok count => count = 0
  | .error errno => !errno.retryable

/-- What stands between the buffer and the socket that had accepted this before. -/
structure Faithful (buffer : IOBuffer) (before : Bytes) (writer : AsyncWrite) : Prop where
  sizes : writer.alreadyWriteSize + writer.totalWriteSize = buffer.val.length
  accepted : writer.conn.socket.accepted = before ++ buffer.val.take writer.alreadyWriteSize
  returned : ∀ size stoppedBy, writer.phase = .returned size stoppedBy →
    size = writer.alreadyWriteSize ∧
      (size = buffer.val.length ∨ ∃ result, stoppedBy = some result ∧ stops result = true)

theorem initial_faithful (buffer : IOBuffer) (conn : WriteConnection) :
    Faithful buffer conn.socket.accepted (initial buffer conn) where
  sizes := Nat.zero_add _
  accepted := (List.append_nil _).symm
  returned _ _ impossible := by cases impossible

theorem data_eq {buffer : IOBuffer} {writer : AsyncWrite}
    (sizes : writer.alreadyWriteSize + writer.totalWriteSize = buffer.val.length) :
    writer.data buffer = buffer.val.drop writer.alreadyWriteSize ∧
      (writer.data buffer).length = writer.totalWriteSize := by
  have whole : writer.data buffer = buffer.val.drop writer.alreadyWriteSize :=
    List.take_of_length_le (by rw [List.length_drop]; omega)
  refine ⟨whole, ?_⟩
  rw [whole, List.length_drop]
  omega

variable {buffer : IOBuffer} {before : Bytes} {writer next : AsyncWrite}

/-- The rest of a round moves both sizes on by what has been accepted. -/
theorem Faithful.goOn (faithful : Faithful buffer before writer) {result : Except Errno Nat}
    {conn : WriteConnection} (accepts : Accepts writer.conn (writer.data buffer) result conn) :
    Faithful buffer before ({ writer with conn }.goOn result) := by
  obtain ⟨fits, took⟩ := accepts
  obtain ⟨sizes, accepted, -⟩ := faithful
  obtain ⟨offered, length⟩ := data_eq sizes
  have front : conn.socket.accepted =
      before ++ buffer.val.take (writer.alreadyWriteSize + written result) := by
    rw [took, accepted, offered, List.append_assoc, List.take_add]
  rw [length] at fits
  rcases result with errno | _ | res
  · simp only [AsyncWrite.goOn]
    split
    · exact ⟨sizes, front, fun _ _ impossible => by cases impossible⟩
    · rename_i fatal
      refine ⟨sizes, front, fun _ _ same => ?_⟩
      cases same
      exact ⟨rfl, .inr ⟨_, rfl, by simpa [stops] using fatal⟩⟩
  · refine ⟨sizes, front, fun _ _ same => ?_⟩
    cases same
    exact ⟨rfl, .inr ⟨_, rfl, rfl⟩⟩
  · have small := buffer.property
    simp only [written] at fits front
    have added : sizeAdd writer.alreadyWriteSize (res + 1) =
        writer.alreadyWriteSize + (res + 1) := Nat.mod_eq_of_lt (by omega)
    have subtracted : sizeSub writer.totalWriteSize (res + 1) =
        writer.totalWriteSize - (res + 1) := by
      rw [sizeSub]
      omega
    refine ⟨?_, ?_, fun _ _ impossible => by cases impossible⟩
    · simp only [AsyncWrite.goOn, added, subtracted]
      omega
    · simp only [AsyncWrite.goOn, added]
      exact front

theorem Faithful.step (faithful : Faithful buffer before writer) {label : AsyncWriteStep}
    (taken : writer.step buffer label = some next) : Faithful buffer before next := by
  cases label with
  | attempt =>
    simp only [AsyncWrite.step] at taken
    split at taken
    case isTrue => cases taken
    split at taken
    case isTrue nothing =>
      cases taken
      refine ⟨faithful.sizes, faithful.accepted, fun _ _ same => ?_⟩
      cases same
      have sizes := faithful.sizes
      exact ⟨rfl, .inl (by omega)⟩
    have accepts := awaitReady_accepts writer.conn (writer.data buffer)
    split at taken
    case h_1 send conn ready =>
      rw [ready] at accepts
      cases taken
      exact faithful.goOn accepts
    case h_2 errno conn failed =>
      rw [failed] at accepts
      cases taken
      refine ⟨faithful.sizes, ?_, fun _ _ impossible => by cases impossible⟩
      exact accepts.2.trans ((List.append_nil _).trans faithful.accepted)
  | resume errno =>
    simp only [AsyncWrite.step] at taken
    split at taken
    case isTrue => cases taken
    cases taken
    exact faithful.goOn (awaitResume_accepts errno writer.conn (writer.data buffer))
  | close =>
    cases taken
    exact ⟨faithful.sizes, faithful.accepted, faithful.returned⟩

end AsyncWrite

/-- At every moment of a write, the sizes add up to the size of the buffer and the socket
has accepted the front of it; what is returned is how much that is, all of it unless a
result of zero or a failure for good has stopped the loop. -/
theorem asyncWrite_inOrder (buffer : IOBuffer) (conn : WriteConnection)
    (labels : List AsyncWriteStep) (writer : AsyncWrite)
    (ran : run (AsyncWrite.step buffer) (AsyncWrite.initial buffer conn) labels = some writer) :
    writer.alreadyWriteSize + writer.totalWriteSize = buffer.val.length ∧
      writer.conn.socket.accepted =
        conn.socket.accepted ++ buffer.val.take writer.alreadyWriteSize ∧
      ∀ size stoppedBy, writer.phase = .returned size stoppedBy →
        size ≤ buffer.val.length ∧
          writer.conn.socket.accepted = conn.socket.accepted ++ buffer.val.take size ∧
          (size = buffer.val.length ∨
            ∃ result, stoppedBy = some result ∧ AsyncWrite.stops result = true) := by
  have faithful : AsyncWrite.Faithful buffer conn.socket.accepted writer :=
    invariant_run _ (fun _ _ _ faithful => faithful.step) (AsyncWrite.initial_faithful buffer conn)
      ran
  refine ⟨faithful.sizes, faithful.accepted, fun size stoppedBy returned => ?_⟩
  obtain ⟨rfl, all⟩ := faithful.returned size stoppedBy returned
  exact ⟨(Nat.le_add_right _ _).trans faithful.sizes.le, faithful.accepted, all⟩

/-- Five bytes in a short write, a write after waiting, and one after failing twice. -/
theorem asyncWrite_inOrder_hello :
    ∃ writer, run (AsyncWrite.step ⟨ascii "hello", by decide⟩)
        (AsyncWrite.initial ⟨ascii "hello", by decide⟩ ⟨false, ascii "> ",
          [.accept 2, .fail .eagain, .accept 1, .fail .eintr, .fail .eagain]⟩)
        [.attempt, .attempt, .resume .eagain, .attempt, .resume .eagain, .attempt, .attempt] =
          some writer ∧
      writer.phase = .returned 5 none ∧
      writer.conn.socket.accepted = ascii "> " ++ (ascii "hello").take 5 := by
  refine ⟨⟨.returned 5 none, 0, 5, ⟨false, ascii "> hello", []⟩⟩, by decide, rfl, ?_⟩
  exact ((asyncWrite_inOrder ⟨ascii "hello", by decide⟩ ⟨false, ascii "> ",
    [.accept 2, .fail .eagain, .accept 1, .fail .eintr, .fail .eagain]⟩
    [.attempt, .attempt, .resume .eagain, .attempt, .resume .eagain, .attempt, .attempt] _
    (by decide)).2.2 5 none rfl).2.1

end Luce
