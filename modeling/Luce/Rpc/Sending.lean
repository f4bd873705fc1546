/-
This file decides when a packet that is reported as sent is on the wire. The loops
over the body write exactly the bytes of the buffer, and notice whatever stops them.
Neither `AsyncWritePacket` nor `WritePacket` of the client writes the header in a
loop: a packet whose header is accepted in part only is reported as sent as soon as
its body is accepted.
-/

import Luce.Rpc.ClientPackets
import Luce.Library.Framing

namespace Luce

open Library.Stream Library.Framing Library.LittleEndian

/-! ### Rounds of the loops over the body -/

section Rounds

variable {sink next : Sink Byte Errno} {buffer : Bytes} {total already : Nat}

theorem take_remaining (inside : already + total = buffer.length) :
    (buffer.drop already).take total = buffer.drop already :=
  List.take_of_length_le (by rw [List.length_drop]; omega)

theorem length_remaining (inside : already + total = buffer.length) :
    (buffer.drop already).length = total := by
  rw [List.length_drop]
  omega

theorem round_nothing (inside : already + total = buffer.length) (more : total ≠ 0)
    (attempt : sink.write ((buffer.drop already).take total) = (.ok 0, next)) :
    accepts Errno.retryable total sink.events = false := by
  have length := length_remaining inside
  rw [take_remaining inside] at attempt
  rw [← length]
  exact accepts_of_nothing _ (by rwa [length]) attempt

theorem round_failed (inside : already + total = buffer.length) (more : total ≠ 0) {errno : Errno}
    (attempt : sink.write ((buffer.drop already).take total) = (.error errno, next)) :
    accepts Errno.retryable total sink.events =
        (errno.retryable && accepts Errno.retryable total next.events) ∧
      next.accepted = sink.accepted := by
  have length := length_remaining inside
  rw [take_remaining inside] at attempt
  refine ⟨?_, (Sink.write_error attempt).2⟩
  rw [← length]
  exact accepts_of_error _ (by rwa [length]) attempt

/-- What has been accepted need not be offered again. -/
theorem round_some (inside : already + total = buffer.length) {res : Nat}
    (attempt : sink.write ((buffer.drop already).take total) = (.ok (res + 1), next)) :
    already + (res + 1) + (total - (res + 1)) = buffer.length ∧
      accepts Errno.retryable total sink.events =
        accepts Errno.retryable (total - (res + 1)) next.events ∧
      next.accepted ++ buffer.drop (already + (res + 1)) =
        sink.accepted ++ buffer.drop already := by
  have length := length_remaining inside
  rw [take_remaining inside] at attempt
  have wrote := Sink.write_ok attempt
  have limit : res + 1 ≤ total := by
    rw [wrote.1, ← length]
    exact taken_le _ _
  refine ⟨by omega, ?_, ?_⟩
  · rw [← length]
    exact accepts_of_some _ (Nat.succ_ne_zero res) attempt
  · rw [wrote.2, List.append_assoc, ← List.drop_drop, List.take_append_drop]

end Rounds

/-! ### AsyncWritePacket -/

theorem writeBody_sends (conn : WriteConnection) (buffer : Bytes) (total already : Nat)
    (opened : conn.isClosed = false) (inside : already + total = buffer.length) :
    (writeBody conn buffer total already).1 =
        accepts Errno.retryable total (awaited conn.socket.events) ∧
      ((writeBody conn buffer total already).1 = true →
        (writeBody conn buffer total already).2.socket.accepted =
          conn.socket.accepted ++ buffer.drop already) := by
  fun_induction writeBody conn buffer total already with
  | case1 conn already =>
    refine ⟨(accepts_zero _ _).symm, fun _ => ?_⟩
    rw [Nat.add_zero] at inside
    rw [List.drop_of_length_le (Nat.le_of_eq inside.symm), List.append_nil]
  | case2 conn total already more next wrote =>
    have attempt := (writeInnerAwaiter_awaiting opened wrote).1
    exact ⟨(round_nothing inside more attempt).symm, nofun⟩
  | case3 conn total already more errno next wrote retryable inductionHypothesis =>
    obtain ⟨attempt, openedNext⟩ := writeInnerAwaiter_awaiting opened wrote
    obtain ⟨rest, same⟩ := round_failed inside more attempt
    obtain ⟨success, sent⟩ := inductionHypothesis openedNext inside
    rw [retryable, Bool.true_and] at rest
    exact ⟨success.trans rest.symm, fun done => (sent done).trans (congrArg (· ++ _) same)⟩
  | case4 conn total already more errno next wrote fatal =>
    have rest := (round_failed inside more (writeInnerAwaiter_awaiting opened wrote).1).1
    rw [Bool.eq_false_iff.mpr fatal, Bool.false_and] at rest
    exact ⟨rest.symm, nofun⟩
  | case5 conn total already more res next wrote inductionHypothesis =>
    obtain ⟨attempt, openedNext⟩ := writeInnerAwaiter_awaiting opened wrote
    obtain ⟨insideNext, rest, front⟩ := round_some inside attempt
    obtain ⟨success, sent⟩ := inductionHypothesis openedNext insideNext
    exact ⟨success.trans rest.symm, fun done => (sent done).trans front⟩

theorem writeInnerAwaiter_closed {conn : WriteConnection} (closed : conn.isClosed = true)
    (data : Bytes) : writeInnerAwaiter conn data = (.ok 0, conn) := by
  rw [writeInnerAwaiter, WriteInnerAwaiter.awaitReady, if_pos closed]
  rfl

theorem writeBody_closed {conn : WriteConnection} (closed : conn.isClosed = true) (buffer : Bytes)
    (total already : Nat) : writeBody conn buffer total already = (decide (total = 0), conn) := by
  fun_cases writeBody conn buffer total already with
  | case1 done => rw [decide_eq_true done]
  | case2 more next wrote =>
    cases (writeInnerAwaiter_closed closed _).symm.trans wrote
    rw [decide_eq_false more]
  | case3 more errno next wrote =>
    cases (writeInnerAwaiter_closed closed _).symm.trans wrote
  | case4 more errno next wrote =>
    cases (writeInnerAwaiter_closed closed _).symm.trans wrote
  | case5 more res next wrote =>
    cases (writeInnerAwaiter_closed closed _).symm.trans wrote

/-- How many bytes of the header the awaiter for it has accepted. -/
def WriteConnection.headerTaken (conn : WriteConnection) : Nat :=
  if conn.isClosed then 0 else taken headerSize (awaited conn.socket.events)

/-- The awaiters behind the one for the header have a body of this size accepted. -/
def WriteConnection.bodyTaken (conn : WriteConnection) (size : Nat) : Bool :=
  if conn.isClosed then size = 0
  else accepts Errno.retryable size (awaited conn.socket.events).tail

/-- A packet is reported as sent exactly when its body is accepted; what the socket
has accepted then is what it took of the header, and the body. -/
theorem asyncWritePacket_sends (conn : WriteConnection) {buffer : Bytes}
    (small : buffer.length < 2 ^ 32) :
    (asyncWritePacket conn buffer).1 = conn.bodyTaken buffer.length ∧
      ((asyncWritePacket conn buffer).1 = true →
        (asyncWritePacket conn buffer).2.socket.accepted = conn.socket.accepted ++
          ((leBytes headerSize buffer.length).take conn.headerTaken ++ buffer)) := by
  rw [asyncWritePacket, Nat.mod_eq_of_lt small, WriteConnection.bodyTaken,
    WriteConnection.headerTaken]
  by_cases closed : conn.isClosed = true
  · rw [writeInnerAwaiter_closed closed, if_pos closed, if_pos closed]
    simp only [writeBody_closed closed, List.take_zero, List.nil_append, true_and]
    intro empty
    rw [List.length_eq_zero_iff.mp (of_decide_eq_true empty), List.append_nil]
  · rw [if_neg closed, if_neg closed]
    cases wrote : writeInnerAwaiter conn (leBytes headerSize buffer.length) with
    | mk header next =>
      obtain ⟨attempt, openedNext⟩ :=
        writeInnerAwaiter_awaiting (Bool.eq_false_iff.mpr closed) wrote
      have left := Sink.write_snd conn.awaiting (leBytes headerSize buffer.length)
      rw [attempt, length_leBytes] at left
      have front : next.awaiting.accepted = _ := congrArg Sink.accepted left
      have rest : next.awaiting.events = _ := congrArg Sink.events left
      change next.socket.accepted = conn.socket.accepted ++ _ at front
      change awaited next.socket.events = (awaited conn.socket.events).tail at rest
      obtain ⟨success, sent⟩ := writeBody_sends next buffer buffer.length 0 openedNext
        (Nat.zero_add _)
      rw [front, List.drop_zero, List.append_assoc] at sent
      rw [rest] at success
      exact ⟨success, sent⟩

/-! ### WritePacket of the client -/

namespace BlockingRpcClient

theorem writeBody_sends (clientFd : Sink Byte Errno) (buffer : Bytes) (total already : Nat)
    (inside : already + total = buffer.length) :
    ((writeBody clientFd buffer total already).1 = buffer.length ↔
        accepts Errno.retryable total clientFd.events = true) ∧
      ((writeBody clientFd buffer total already).1 = buffer.length →
        (writeBody clientFd buffer total already).2.accepted =
          clientFd.accepted ++ buffer.drop already) := by
  fun_induction writeBody clientFd buffer total already with
  | case1 clientFd already =>
    rw [Nat.add_zero] at inside
    refine ⟨iff_of_true inside (accepts_zero _ _), fun _ => ?_⟩
    rw [List.drop_of_length_le (Nat.le_of_eq inside.symm), List.append_nil]
  | case2 clientFd total already more next attempt =>
    have short : already ≠ buffer.length := by omega
    rw [round_nothing inside more attempt]
    exact ⟨iff_of_false short nofun, fun whole => absurd whole short⟩
  | case3 clientFd total already more errno next attempt retryable inductionHypothesis =>
    obtain ⟨rest, same⟩ := round_failed inside more attempt
    obtain ⟨whole, sent⟩ := inductionHypothesis inside
    rw [retryable, Bool.true_and] at rest
    rw [rest, ← same]
    exact ⟨whole, sent⟩
  | case4 clientFd total already more errno next attempt fatal =>
    have short : already ≠ buffer.length := by omega
    rw [(round_failed inside more attempt).1, Bool.eq_false_iff.mpr fatal, Bool.false_and]
    exact ⟨iff_of_false short nofun, fun whole => absurd whole short⟩
  | case5 clientFd total already more res next attempt inductionHypothesis =>
    obtain ⟨insideNext, rest, front⟩ := round_some inside attempt
    obtain ⟨whole, sent⟩ := inductionHypothesis insideNext
    rw [rest, ← front]
    exact ⟨whole, sent⟩

/-- The size of the buffer is returned exactly when something of the header and the
whole body is accepted. -/
theorem writePacket_sends (clientFd : Sink Byte Errno) {buffer : Bytes}
    (small : buffer.length < 2 ^ 32) :
    ((writePacket clientFd buffer).1 = buffer.length ↔ taken headerSize clientFd.events ≠ 0 ∧
        accepts Errno.retryable buffer.length clientFd.events.tail = true) ∧
      ((writePacket clientFd buffer).1 = buffer.length →
        (writePacket clientFd buffer).2.accepted = clientFd.accepted ++
          ((leBytes headerSize buffer.length).take (taken headerSize clientFd.events) ++
            buffer)) := by
  have notMax : sizeMax ≠ buffer.length := by
    rw [sizeMax]
    omega
  have size : (leBytes headerSize buffer.length).length = headerSize := length_leBytes _ _
  rw [writePacket]
  rcases attempt : clientFd.write (leBytes headerSize buffer.length) with
    ⟨errno | _ | count, next⟩
  · have nothing : taken headerSize clientFd.events = 0 := by
      rw [(Sink.write_error attempt).1, taken]
    exact ⟨iff_of_false notMax fun both => both.1 nothing, fun whole => absurd whole notMax⟩
  · have nothing : taken headerSize clientFd.events = 0 := by
      rw [← size]
      exact (Sink.write_ok attempt).1.symm
    exact ⟨iff_of_false notMax fun both => both.1 nothing, fun whole => absurd whole notMax⟩
  · obtain ⟨took, left⟩ := Sink.write_ok attempt
    rw [size] at took
    have front : next.accepted = _ := congrArg Sink.accepted left
    have rest : next.events = _ := congrArg Sink.events left
    obtain ⟨whole, sent⟩ := writeBody_sends next buffer buffer.length 0 (Nat.zero_add _)
    rw [front, took, List.drop_zero, List.append_assoc] at sent
    rw [rest] at whole
    have some : taken headerSize clientFd.events ≠ 0 := by omega
    exact ⟨whole.trans (and_iff_right some).symm, sent⟩

end BlockingRpcClient

/-! ### Packets that are reported as sent -/

/-- What `AsyncWritePacket` reports as sent, the socket has accepted: the header and the
whole buffer. -/
def SentByServer (conn : WriteConnection) (buffer : Bytes) : Prop :=
  (asyncWritePacket conn buffer).1 = true →
    (asyncWritePacket conn buffer).2.socket.accepted =
      conn.socket.accepted ++ frame headerSize buffer

/-- The same of `WritePacket`, where it returns the size of the buffer. -/
def SentByClient (clientFd : Sink Byte Errno) (buffer : Bytes) : Prop :=
  (BlockingRpcClient.writePacket clientFd buffer).1 = buffer.length →
    (BlockingRpcClient.writePacket clientFd buffer).2.accepted =
      clientFd.accepted ++ frame headerSize buffer

/-- In front of the body there is the header if all of it has been taken. -/
theorem front_eq_frame_iff (accepted buffer : Bytes) {count : Nat} (limit : count ≤ headerSize) :
    accepted ++ ((leBytes headerSize buffer.length).take count ++ buffer) =
      accepted ++ frame headerSize buffer ↔ count = headerSize := by
  rw [List.append_right_inj, frame, List.append_left_inj]
  constructor
  · intro same
    have length := congrArg List.length same
    rw [List.length_take, length_leBytes] at length
    omega
  · rintro rfl
    exact List.take_of_length_le (Nat.le_of_eq (length_leBytes _ _))

/-- A packet that is reported as sent is on the wire, unless its body is accepted behind
a header of which something is missing. -/
theorem packet_sent_iff (buffer : Bytes) (small : buffer.length < 2 ^ 32)
    (conn : WriteConnection) (clientFd : Sink Byte Errno) :
    (SentByServer conn buffer ↔
      conn.headerTaken = headerSize ∨ conn.bodyTaken buffer.length = false) ∧
    (SentByClient clientFd buffer ↔
      taken headerSize clientFd.events = headerSize ∨ taken headerSize clientFd.events = 0 ∨
        accepts Errno.retryable buffer.length clientFd.events.tail = false) := by
  constructor
  · obtain ⟨success, sent⟩ := asyncWritePacket_sends conn small
    have limit : conn.headerTaken ≤ headerSize := by
      unfold WriteConnection.headerTaken
      split
      · exact Nat.zero_le _
      · exact taken_le _ _
    rw [SentByServer, ← success]
    cases reported : (asyncWritePacket conn buffer).1 with
    | false => simp
    | true =>
      rw [sent reported, front_eq_frame_iff _ _ limit]
      simp
  · obtain ⟨whole, sent⟩ := BlockingRpcClient.writePacket_sends clientFd small
    by_cases reported : (BlockingRpcClient.writePacket clientFd buffer).1 = buffer.length
    · obtain ⟨some, body⟩ := whole.mp reported
      rw [SentByClient, sent reported, front_eq_frame_iff _ _ (taken_le _ _)]
      simp [reported, some, body]
    · refine iff_of_true (fun sent => absurd sent reported) ?_
      rw [whole, not_and_or, not_not, Bool.not_eq_true] at reported
      exact Or.inr reported

/-- A header in one piece behind a failure, and a body in two pieces. -/
theorem packet_sent_hi :
    SentByServer ⟨false, ⟨[], [.fail .eagain, .accept 4, .accept 1]⟩⟩ (ascii "hi") ∧
      SentByClient ⟨[], [.accept 4, .accept 1, .fail .eagain]⟩ (ascii "hi") :=
  ⟨(packet_sent_iff _ (by decide) _ ⟨[], []⟩).1.mpr (by decide),
    (packet_sent_iff _ (by decide) ⟨true, ⟨[], []⟩⟩ _).2.mpr (by decide)⟩

/-- Half of the header is accepted, and then the body: both report the packet as sent. -/
theorem packet_sent_headless :
    ¬ SentByServer ⟨false, ⟨[], [.accept 2]⟩⟩ (ascii "hi") ∧
      ¬ SentByClient ⟨[], [.accept 2]⟩ (ascii "hi") :=
  ⟨fun sent => absurd (sent (by decide +kernel)) (by decide +kernel),
    fun sent => absurd (sent (by decide +kernel)) (by decide +kernel)⟩

end Luce
