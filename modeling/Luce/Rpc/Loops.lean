/-
This file relates the loops that move a packet one system call at a time to the loops as a whole.

Where the single calls of a loop take it to the end of a packet, the loop as a whole, on a socket
that does the same in each of these calls, returns with the packet, and leaves the socket as the
single calls do. So what is proved about interleaved calls is about these loops.
-/

import Luce.Library.Transition
import Luce.Rpc.ClientReading
import Luce.Rpc.Transfer

namespace Luce

open Library.Transition Library.Stream Library.Framing Library.LittleEndian

/-- How many bytes a call may move. -/
abbrev Move := {count : Nat // 0 < count}

/-- The deliveries in which these calls read. -/
def deliveries (moves : List Move) : List (Delivery Errno) :=
  moves.map fun move => .deliver move.val move.property

/-- The acceptances with which these calls write. -/
def acceptances (moves : List Move) : List (Acceptance Errno) :=
  moves.map fun move => .accept move.val

/-! ### Reading -/

namespace PacketReader

/-- A call of `::read` in `AsyncReadPacket`, with the bytes that are still to be read. -/
def asyncStep (state : PacketReader × Bytes) (move : Move) : Option (PacketReader × Bytes) :=
  state.1.asyncRead move.val state.2

/-- A call of `::read` in `ReadPacket`. -/
def step (state : PacketReader × Bytes) (move : Move) : Option (PacketReader × Bytes) :=
  state.1.read move.val state.2

variable {stream rest buffer final : Bytes} {total already count : Nat}
  {moves : List Move} (events : List (Delivery Errno))

/-- A call that reads for the body stores what is there. -/
theorem readBody_some {move : Move} {next : PacketReader × Bytes}
    (moved : readBody move.val stream buffer total already = some next) :
    total ≠ 0 ∧ stream ≠ [] ∧ ∃ first others,
      stream.take (min move.val total) = first :: others ∧
      next = (.body (store buffer already (first :: others)) (total - (first :: others).length)
        (already + (first :: others).length), stream.drop (min move.val total)) := by
  obtain ⟨some, moved⟩ := Option.ite_none_left_eq_some.mp moved
  obtain ⟨-, present, more⟩ := not_or.mp some |>.imp_right not_or.mp
  cases moved
  have positive := move.property
  cases bytes : stream.take (min move.val total) with
  | nil =>
    rcases List.take_eq_nil_iff.mp bytes with zero | nothing
    · omega
    · exact absurd nothing present
  | cons first others => exact ⟨more, present, first, others, rfl, rfl⟩

/-- The loop of `AsyncReadPacket` over the body. -/
theorem readBody_of_moves
    (ran : run asyncStep (.body buffer total already, stream) moves =
      some (.body final 0 count, rest)) :
    Luce.readBody ⟨false, ⟨stream, deliveries moves ++ events⟩⟩ buffer total already =
      ⟨true, final, ⟨false, ⟨rest, events⟩⟩⟩ := by
  induction moves generalizing buffer total already stream with
  | nil =>
    cases ran
    rw [Luce.readBody, if_pos rfl]
    rfl
  | cons move moves inductionHypothesis =>
    obtain ⟨next, moved, later⟩ := (run_cons asyncStep).mp ran
    obtain ⟨more, -, first, others, bytes, rfl⟩ := readBody_some moved
    have awaited : readInnerAwaiter ⟨false, ⟨stream, deliveries (move :: moves) ++ events⟩⟩ total =
        (.ok (first :: others),
          ⟨false, ⟨stream.drop (min move.val total), deliveries moves ++ events⟩⟩) := by
      rw [← bytes]
      rfl
    rw [Luce.readBody, if_neg more]
    split
    case h_1 same => cases awaited.symm.trans same
    case h_2 same => cases awaited.symm.trans same
    case h_3 same =>
      cases awaited.symm.trans same
      exact inductionHypothesis later

/-- The single calls of `AsyncReadPacket` make up the whole of it. -/
theorem asyncReadPacket_of_moves {headBuffer : HeadBuffer}
    (ran : run asyncStep (.fresh headBuffer, stream) moves = some (.body final 0 count, rest)) :
    asyncReadPacket ⟨false, ⟨stream, deliveries moves ++ events⟩⟩ [] headBuffer =
      ⟨true, final, ⟨false, ⟨rest, events⟩⟩⟩ := by
  cases moves with
  | nil => cases ran
  | cons move moves =>
    obtain ⟨next, moved, later⟩ := (run_cons asyncStep).mp ran
    obtain ⟨-, moved⟩ := Option.ite_none_left_eq_some.mp moved
    cases moved
    exact readBody_of_moves events later

/-! ### Reading in the client -/

open BlockingRpcClient Library.Fuel

/-- A call of `::read` finds what is there. -/
theorem clientFd_read (move : Move) (present : stream ≠ []) (len : Nat) :
    ClientFd.read ⟨⟨stream, deliveries (move :: moves) ++ events⟩, false⟩ len =
      (.ok (stream.take (min move.val len)),
        ⟨⟨stream.drop (min move.val len), deliveries moves ++ events⟩, false⟩) :=
  if_neg fun both => present both.1

/-- The loop of `ReadPacket` over the body. -/
theorem clientReadBody_of_moves (size : buffer.length = already + total)
    (ran : run step (.body buffer total already, stream) moves =
      some (.body final 0 count, rest)) :
    ∃ fuel, BlockingRpcClient.readBody fuel ⟨⟨stream, deliveries moves ++ events⟩, false⟩ buffer
      total already = .ok ⟨count, final, ⟨⟨rest, events⟩, false⟩⟩ := by
  induction moves generalizing buffer total already stream with
  | nil =>
    cases ran
    exact ⟨1, BlockingRpcClient.readBody_done 0 _ size⟩
  | cons move moves inductionHypothesis =>
    obtain ⟨next, moved, later⟩ := (run_cons step).mp ran
    obtain ⟨more, present, first, others, bytes, rfl⟩ := readBody_some moved
    have length : (first :: others).length ≤ total := by
      rw [← bytes]
      exact (List.length_take_le _ _).trans (Nat.min_le_right _ _)
    have fits : already + (first :: others).length ≤ buffer.length := by omega
    obtain ⟨fuel, returned⟩ := inductionHypothesis (by rw [length_store fits]; omega) later
    refine ⟨fuel + 1, ?_⟩
    simp only [BlockingRpcClient.readBody, if_neg more, clientFd_read events move present, bytes]
    rw [storeWithin_fits fits, ok_bind]
    exact returned

/-- The loop of `ReadPacket` over the header, up to where the body begins. -/
theorem clientReadHead_of_moves {headBuffer : Bytes} {received : Nat}
    (size : headBuffer.length = headerSize) (more : received ≠ headerSize)
    (ran : run step (.head headBuffer received, stream) moves = some (.body final 0 count, rest)) :
    ∃ fuel held later left,
      readHead fuel ⟨⟨stream, deliveries moves ++ events⟩, false⟩ headBuffer received =
        .ok (some held, ⟨⟨left, deliveries later ++ events⟩, false⟩) ∧
      run step (.ofHead held, left) later = some (.body final 0 count, rest) := by
  induction moves generalizing headBuffer received stream with
  | nil => cases ran
  | cons move moves inductionHypothesis =>
    obtain ⟨next, moved, later⟩ := (run_cons step).mp ran
    obtain ⟨some, moved⟩ := Option.ite_none_left_eq_some.mp moved
    obtain ⟨-, present⟩ := not_or.mp some
    cases moved
    have length : (stream.take (min move.val headerSize)).length ≤ headerSize :=
      (List.length_take_le _ _).trans (Nat.min_le_right _ _)
    have fits : 0 + (stream.take (min move.val headerSize)).length ≤ headBuffer.length := by omega
    have round : ∀ fuel, readHead (fuel + 1)
        ⟨⟨stream, deliveries (move :: moves) ++ events⟩, false⟩ headBuffer received =
          readHead fuel
            ⟨⟨stream.drop (min move.val headerSize), deliveries moves ++ events⟩, false⟩
            (store headBuffer 0 (stream.take (min move.val headerSize)))
            ((received + (stream.take (min move.val headerSize)).length) % 2 ^ 64) := by
      intro fuel
      simp only [readHead, if_neg more, clientFd_read events move present]
      rw [storeWithin_fits fits, ok_bind]
    split at later
    case isTrue whole =>
      refine ⟨2, _, moves, _, ?_, later⟩
      rw [round, readHead, if_pos whole]
      rfl
    case isFalse missing =>
      obtain ⟨fuel, held, others, left, ended, body⟩ :=
        inductionHypothesis (by rw [length_store fits, size]) missing later
      exact ⟨fuel + 1, held, others, left, (round fuel).trans ended, body⟩

/-- The single calls of `ReadPacket` make up the whole of it. -/
theorem readPacket_of_moves {headBuffer : HeadBuffer}
    (ran : run step (.fresh headBuffer, stream) moves = some (.body final 0 count, rest)) :
    Returns ⟨⟨stream, deliveries moves ++ events⟩, false⟩ ⟨[], headBuffer⟩
      ⟨count, final, ⟨⟨rest, events⟩, false⟩⟩ := by
  obtain ⟨few, held, later, left, ended, body⟩ :=
    clientReadHead_of_moves events headBuffer.property (by decide) ran
  obtain ⟨many, returned⟩ := clientReadBody_of_moves events
    (by rw [length_resize, Nat.zero_add]) body
  refine ⟨max few many, ?_⟩
  have enoughHead := (readHead_monotone _ _ _).ok_of_le (Nat.le_max_left few many) ended
  have enoughBody := (readBody_monotone _ _ _ _).ok_of_le (Nat.le_max_right few many) returned
  rw [readPacket, enoughHead, ok_bind]
  exact enoughBody

/-- Whatever pieces the bytes come in, the loops of both ends read what their single calls
read, and leave the rest in the stream. -/
theorem loops_read (headBuffer : HeadBuffer) (stream rest final : Bytes) (count : Nat)
    (moves : List Move) (events : List (Delivery Errno)) :
    (run asyncStep (.fresh headBuffer, stream) moves = some (.body final 0 count, rest) →
      asyncReadPacket ⟨false, ⟨stream, deliveries moves ++ events⟩⟩ [] headBuffer =
        ⟨true, final, ⟨false, ⟨rest, events⟩⟩⟩) ∧
    (run step (.fresh headBuffer, stream) moves = some (.body final 0 count, rest) →
      Returns ⟨⟨stream, deliveries moves ++ events⟩, false⟩ ⟨[], headBuffer⟩
        ⟨count, final, ⟨⟨rest, events⟩, false⟩⟩) :=
  ⟨asyncReadPacket_of_moves events, readPacket_of_moves events⟩

/-- A packet in three pieces in front of another byte. -/
theorem loops_read_hi :
    asyncReadPacket ⟨false, ⟨frame headerSize (ascii "hi") ++ [7],
        deliveries [⟨4, by decide⟩, ⟨1, by decide⟩, ⟨9, by decide⟩] ++ [.fail .eagain]⟩⟩ []
        ⟨[9, 9, 9, 9], rfl⟩ =
      ⟨true, ascii "hi", ⟨false, ⟨[7], [.fail .eagain]⟩⟩⟩ ∧
    Returns ⟨⟨frame headerSize (ascii "hi") ++ [7],
        deliveries [⟨4, by decide⟩, ⟨1, by decide⟩, ⟨9, by decide⟩] ++ [.fail .eagain]⟩, false⟩
      ⟨[], ⟨[9, 9, 9, 9], rfl⟩⟩ ⟨2, ascii "hi", ⟨⟨[7], [.fail .eagain]⟩, false⟩⟩ :=
  have loops := loops_read ⟨[9, 9, 9, 9], rfl⟩ (frame headerSize (ascii "hi") ++ [7]) [7]
    (ascii "hi") 2 [⟨4, by decide⟩, ⟨1, by decide⟩, ⟨9, by decide⟩] [.fail .eagain]
  ⟨loops.1 (by decide +kernel), loops.2 (by decide +kernel)⟩

end PacketReader

/-! ### Writing -/

namespace PacketWriter

/-- A call of `::write`, with the bytes that the socket has accepted. -/
def step (state : PacketWriter × Bytes) (move : Move) : Option (PacketWriter × Bytes) :=
  (state.1.write move.val).map fun moved => (moved.2, state.2 ++ moved.1)

variable {accepted sent buffer : Bytes} {total already last : Nat} {moves : List Move}
  (events : List (Acceptance Errno))

/-- A call that writes of the body. -/
theorem step_body {move : Move} {next : PacketWriter × Bytes}
    (moved : step (.body buffer total already, accepted) move = some next) :
    total ≠ 0 ∧ ∃ res, min move.val total = res + 1 ∧
      next = (.body buffer (total - (res + 1)) (already + (res + 1)),
        accepted ++ (buffer.drop already).take (res + 1)) := by
  obtain ⟨⟨bytes, writer⟩, wrote, rfl⟩ := Option.map_eq_some_iff.mp moved
  obtain ⟨some, wrote⟩ := Option.ite_none_left_eq_some.mp wrote
  obtain ⟨-, more⟩ := not_or.mp some
  have positive := move.property
  obtain ⟨res, same⟩ : ∃ res, min move.val total = res + 1 :=
    Nat.exists_eq_succ_of_ne_zero (by omega)
  simp only [same] at wrote
  cases wrote
  exact ⟨more, res, same, rfl⟩

/-- A call of `::write` has the socket take what the single call moves. -/
theorem write_acceptance {move : Move} {res : Nat} (accepted : Bytes) (moves : List Move)
    (size : total ≤ (buffer.drop already).length)
    (same : min move.val total = res + 1) :
    Sink.write ⟨accepted, acceptances (move :: moves) ++ events⟩
        ((buffer.drop already).take total) =
      (.ok (res + 1), ⟨accepted ++ (buffer.drop already).take (res + 1),
        acceptances moves ++ events⟩) := by
  change (Except.ok (min move.val ((buffer.drop already).take total).length), _) = _
  rw [List.length_take_of_le size, same, List.take_take, same]
  rfl

/-- The loop of `AsyncWritePacket`. -/
theorem writeBody_of_moves (size : already + total = buffer.length)
    (ran : run step (.body buffer total already, accepted) moves =
      some (.body buffer 0 last, sent)) :
    Luce.writeBody ⟨false, ⟨accepted, acceptances moves ++ events⟩⟩ buffer total already =
      (true, ⟨false, ⟨sent, events⟩⟩) := by
  induction moves generalizing total already accepted with
  | nil =>
    cases ran
    rw [Luce.writeBody, if_pos rfl]
    rfl
  | cons move moves inductionHypothesis =>
    obtain ⟨next, moved, later⟩ := (run_cons step).mp ran
    obtain ⟨more, res, same, rfl⟩ := step_body moved
    have wrote : writeInnerAwaiter ⟨false, ⟨accepted, acceptances (move :: moves) ++ events⟩⟩
        ((buffer.drop already).take total) =
          (.ok (res + 1), ⟨false, ⟨accepted ++ (buffer.drop already).take (res + 1),
            acceptances moves ++ events⟩⟩) := by
      have inside : total ≤ (buffer.drop already).length := by
        rw [List.length_drop]
        omega
      rw [writeInnerAwaiter, WriteInnerAwaiter.awaitReady, if_neg Bool.false_ne_true,
        WriteConnection.write, write_acceptance events accepted moves inside same]
      rfl
    rw [Luce.writeBody, if_neg more]
    split
    case h_1 other => cases wrote.symm.trans other
    case h_2 other => cases wrote.symm.trans other
    case h_3 other =>
      cases wrote.symm.trans other
      exact inductionHypothesis (by omega) later

/-- The single calls of `AsyncWritePacket` make up the whole of it. -/
theorem asyncWritePacket_of_moves (small : buffer.length < 2 ^ 32)
    (ran : run step (.head buffer (buffer.length % 2 ^ 32), accepted) moves =
      some (.body buffer 0 last, sent)) :
    asyncWritePacket ⟨false, ⟨accepted, acceptances moves ++ events⟩⟩ buffer =
      (true, ⟨false, ⟨sent, events⟩⟩) := by
  cases moves with
  | nil => cases ran
  | cons move moves =>
    obtain ⟨next, moved, later⟩ := (run_cons step).mp ran
    obtain ⟨⟨bytes, writer⟩, wrote, rfl⟩ := Option.map_eq_some_iff.mp moved
    obtain ⟨-, wrote⟩ := Option.ite_none_left_eq_some.mp wrote
    cases wrote
    have size : 0 + buffer.length % 2 ^ 32 = buffer.length := by omega
    exact writeBody_of_moves events size later

/-- The loop of `WritePacket`. -/
theorem clientWriteBody_of_moves (size : already + total = buffer.length)
    (ran : run step (.body buffer total already, accepted) moves =
      some (.body buffer 0 last, sent)) :
    BlockingRpcClient.writeBody ⟨accepted, acceptances moves ++ events⟩ buffer total already =
      (buffer.length, ⟨sent, events⟩) := by
  induction moves generalizing total already accepted with
  | nil =>
    cases ran
    rw [BlockingRpcClient.writeBody, if_pos rfl, ← size]
    rfl
  | cons move moves inductionHypothesis =>
    obtain ⟨next, moved, later⟩ := (run_cons step).mp ran
    obtain ⟨more, res, same, rfl⟩ := step_body moved
    have inside : total ≤ (buffer.drop already).length := by
      rw [List.length_drop]
      omega
    have wrote := write_acceptance events accepted moves inside same
    rw [BlockingRpcClient.writeBody, if_neg more]
    split
    case h_1 other => cases wrote.symm.trans other
    case h_2 other => cases wrote.symm.trans other
    case h_3 other =>
      cases wrote.symm.trans other
      exact inductionHypothesis (by omega) later

/-- The single calls of `WritePacket` make up the whole of it. -/
theorem writePacket_of_moves
    (ran : run step (.head buffer buffer.length, accepted) moves =
      some (.body buffer 0 last, sent)) :
    BlockingRpcClient.writePacket ⟨accepted, acceptances moves ++ events⟩ buffer =
      (buffer.length, ⟨sent, events⟩) := by
  cases moves with
  | nil => cases ran
  | cons move moves =>
    obtain ⟨next, moved, later⟩ := (run_cons step).mp ran
    obtain ⟨⟨bytes, writer⟩, wrote, rfl⟩ := Option.map_eq_some_iff.mp moved
    obtain ⟨-, wrote⟩ := Option.ite_none_left_eq_some.mp wrote
    cases wrote
    have positive := move.property
    obtain ⟨res, same⟩ : ∃ res, min move.val (leBytes headerSize buffer.length).length = res + 1 :=
      Nat.exists_eq_succ_of_ne_zero (by rw [length_leBytes, headerSize]; omega)
    have header : Sink.write ⟨accepted, acceptances (move :: moves) ++ events⟩
        (leBytes headerSize buffer.length) = (.ok (res + 1),
          ⟨accepted ++ (leBytes headerSize buffer.length).take move.val,
            acceptances moves ++ events⟩) := by
      rw [← same]
      rfl
    rw [BlockingRpcClient.writePacket, header]
    exact clientWriteBody_of_moves events (Nat.zero_add _) later

/-- Whatever pieces the socket takes, the loops of both ends report a packet as written when
their single calls have written it. -/
theorem loops_write {buffer accepted sent : Bytes} {moves : List Move} (last : Nat)
    (small : buffer.length < 2 ^ 32) (events : List (Acceptance Errno))
    (ran : run step (.head buffer buffer.length, accepted) moves =
      some (.body buffer 0 last, sent)) :
    asyncWritePacket ⟨false, ⟨accepted, acceptances moves ++ events⟩⟩ buffer =
        (true, ⟨false, ⟨sent, events⟩⟩) ∧
      BlockingRpcClient.writePacket ⟨accepted, acceptances moves ++ events⟩ buffer =
        (buffer.length, ⟨sent, events⟩) := by
  have same : buffer.length % 2 ^ 32 = buffer.length := Nat.mod_eq_of_lt small
  exact ⟨asyncWritePacket_of_moves events small (same.symm ▸ ran), writePacket_of_moves events ran⟩

/-- A packet in three pieces, in front of a failure that nobody sees. -/
theorem loops_write_hi :
    let moves : List Move := [⟨4, by decide⟩, ⟨1, by decide⟩, ⟨9, by decide⟩]
    asyncWritePacket ⟨false, ⟨[7], acceptances moves ++ [.fail (.other 32)]⟩⟩ (ascii "hi") =
        (true, ⟨false, ⟨7 :: frame headerSize (ascii "hi"), [.fail (.other 32)]⟩⟩) ∧
      BlockingRpcClient.writePacket ⟨[7], acceptances moves ++ [.fail (.other 32)]⟩ (ascii "hi") =
        (2, ⟨7 :: frame headerSize (ascii "hi"), [.fail (.other 32)]⟩) :=
  loops_write 2 (by decide) [.fail (.other 32)] (by decide +kernel)

end PacketWriter

end Luce
