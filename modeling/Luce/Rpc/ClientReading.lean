/-
This file relates `ReadPacket` of the blocking client to length-prefixed framing.
The loop over the body reads exactly the bytes it is asked for. The loop over the
header reads every piece to the start of `head_buffer`: a header that arrives in
pieces either never makes up its size, or leaves the last byte of `head_buffer` as
it was. Whatever that memory holds, successive calls return the packets that were
sent exactly when each header arrives in one piece.
-/

import Luce.Rpc.ClientPackets
import Luce.Io.Packets

namespace Luce

open Library.Stream Library.Framing Library.LittleEndian Library.Fuel

/-! ### Reading from the socket -/

/-- The server keeps its end open, and no read fails for good. -/
structure ClientFd.Unbroken (clientFd : ClientFd) : Prop where
  opened : clientFd.serverClosed = false
  retryable : ∀ errno, .fail errno ∈ clientFd.stream.events → errno.retryable = true

/-- The socket behind so many bytes, with this much of the schedule left. -/
def ClientFd.advance (clientFd : ClientFd) (size : Nat) (events : List (Delivery Errno)) :
    ClientFd :=
  { clientFd with stream := ⟨clientFd.stream.pending.drop size, events⟩ }

theorem ClientFd.Unbroken.advance {clientFd : ClientFd} (unbroken : clientFd.Unbroken) {size : Nat}
    {events : List (Delivery Errno)} (remaining : events ⊆ clientFd.stream.events) :
    (clientFd.advance size events).Unbroken :=
  ⟨unbroken.opened, fun errno member => unbroken.retryable errno (remaining member)⟩

/-- The socket behind a packet with a payload of this size. -/
def ClientFd.behind (clientFd : ClientFd) (size : Nat) : ClientFd :=
  (clientFd.advance headerSize (afterFailures clientFd.stream.events).tail).advance size
    (spent size (afterFailures clientFd.stream.events).tail)

theorem ClientFd.pending_behind {clientFd : ClientFd} {payload rest : Bytes}
    (sent : clientFd.stream.pending = frame headerSize payload ++ rest) :
    (clientFd.behind payload.length).stream.pending = rest := by
  have length : (frame headerSize payload).length = headerSize + payload.length := by
    rw [frame, List.length_append, length_leBytes]
  simp only [ClientFd.behind, ClientFd.advance, List.drop_drop]
  rw [sent, List.drop_left' length]

theorem ClientFd.Unbroken.behind {clientFd : ClientFd} (unbroken : clientFd.Unbroken)
    (size : Nat) : (clientFd.behind size).Unbroken := by
  refine ClientFd.Unbroken.advance (unbroken.advance ?_) ?_
  · exact ((List.tail_suffix _).trans (afterFailures_suffix _)).subset
  · exact (spent_suffix _ _).subset

/-- A read that succeeds takes its allowance of the bytes that have been sent. -/
theorem ClientFd.read_ok {clientFd next : ClientFd} {len : Nat} {bytes : Bytes}
    (unbroken : clientFd.Unbroken) (success : clientFd.read len = (.ok bytes, next)) :
    clientFd.stream.pending ≠ [] ∧
      bytes = clientFd.stream.pending.take (allowance len clientFd.stream.events) ∧
      clientFd.stream.read len = (.ok bytes, next.stream) ∧
      next = clientFd.advance (allowance len clientFd.stream.events)
        clientFd.stream.events.tail ∧ next.Unbroken := by
  by_cases nothing : clientFd.stream.pending = []
  · rw [ClientFd.read, if_pos ⟨nothing, unbroken.opened⟩] at success
    cases success
  · rw [ClientFd.read, if_neg fun both => nothing both.1] at success
    cases attempt : clientFd.stream.read len with
    | mk result stream =>
      rw [attempt] at success
      cases success
      obtain ⟨got, rest, events⟩ := Source.read_ok attempt
      have moved : (⟨stream, clientFd.serverClosed⟩ : ClientFd) =
          clientFd.advance (allowance len clientFd.stream.events)
            clientFd.stream.events.tail := by
        rw [ClientFd.advance, ← rest, ← events]
      refine ⟨nothing, got, rfl, moved, ?_⟩
      rw [moved]
      exact unbroken.advance (List.tail_suffix _).subset

/-- A read that fails has found nothing to read, or uses up one failure. -/
theorem ClientFd.read_error {clientFd next : ClientFd} {len : Nat} {errno : Errno}
    (unbroken : clientFd.Unbroken) (failed : clientFd.read len = (.error errno, next)) :
    errno.retryable = true ∧ ((clientFd.stream.pending = [] ∧ next = clientFd) ∨
      ∃ events, clientFd.stream.events = .fail errno :: events ∧
        next = clientFd.advance 0 events ∧ next.Unbroken) := by
  by_cases nothing : clientFd.stream.pending = []
  · rw [ClientFd.read, if_pos ⟨nothing, unbroken.opened⟩] at failed
    cases failed
    exact ⟨rfl, .inl ⟨nothing, rfl⟩⟩
  · rw [ClientFd.read, if_neg fun both => nothing both.1] at failed
    cases attempt : clientFd.stream.read len with
    | mk result stream =>
      rw [attempt] at failed
      cases failed
      obtain ⟨events, rest⟩ := Source.read_error attempt
      have moved : (⟨stream, clientFd.serverClosed⟩ : ClientFd) =
          clientFd.advance 0 stream.events := by
        rw [ClientFd.advance, List.drop_zero, ← rest]
      refine ⟨unbroken.retryable errno (by simp [events]),
        .inr ⟨stream.events, events, moved, ?_⟩⟩
      rw [moved]
      exact unbroken.advance (events ▸ List.subset_cons_self _ _)

namespace BlockingRpcClient

/-! ### Fuel -/

theorem readHead_monotone (clientFd : ClientFd) (headBuffer : Bytes) (headRecvSize : Nat) :
    Monotone fun fuel => readHead fuel clientFd headBuffer headRecvSize := by
  intro fuel
  induction fuel generalizing clientFd headBuffer headRecvSize with
  | zero => exact .exhausted _
  | succ fuel inductionHypothesis =>
    simp only [readHead]
    refine .ite (.refl _) ?_
    cases clientFd.read headerSize with
    | mk result next =>
      cases result with
      | error errno => exact .ite (inductionHypothesis _ _ _) (.refl _)
      | ok bytes => exact .bind (.refl _) fun _ => inductionHypothesis _ _ _

theorem readBody_monotone (clientFd : ClientFd) (buffer : Bytes)
    (totalReadSize alreadyReadSize : Nat) :
    Monotone fun fuel => readBody fuel clientFd buffer totalReadSize alreadyReadSize := by
  intro fuel
  induction fuel generalizing clientFd buffer totalReadSize alreadyReadSize with
  | zero => exact .exhausted _
  | succ fuel inductionHypothesis =>
    simp only [readBody]
    refine .ite (.refl _) ?_
    rcases clientFd.read totalReadSize with ⟨errno | ⟨_ | ⟨first, others⟩⟩, next⟩
    · exact .ite (inductionHypothesis _ _ _ _) (.refl _)
    · exact .refl _
    · exact .bind (.refl _) fun _ => inductionHypothesis _ _ _ _

theorem readPacket_monotone (clientFd : ClientFd) (arguments : Arguments) :
    Monotone fun fuel => readPacket fuel clientFd arguments.buffer arguments.headBuffer := by
  intro fuel
  refine .bind (readHead_monotone _ _ _ fuel) fun value => ?_
  rcases value with ⟨_ | headBuffer, next⟩
  · exact .refl _
  · exact readBody_monotone _ _ _ _ fuel

/-- A call that ends, ends with this result. -/
def Returns (clientFd : ClientFd) (arguments : Arguments) (result : ReadResult) : Prop :=
  ∃ fuel, readPacket fuel clientFd arguments.buffer arguments.headBuffer = .ok result

theorem Returns.unique {clientFd : ClientFd} {arguments : Arguments} {first second : ReadResult}
    (one : Returns clientFd arguments first) (other : Returns clientFd arguments second) :
    first = second := by
  obtain ⟨fuel, one⟩ := one
  obtain ⟨enough, other⟩ := other
  have monotone := readPacket_monotone clientFd arguments
  have approximates := monotone.approximates (by rw [other]; exact nofun) fuel
  rw [one, other] at approximates
  exact Except.ok.inj (approximates.resolve_left nofun)

/-! ### Rounds of the loops -/

theorem storeWithin_fits {buffer bytes : Bytes} {offset : Nat}
    (fits : offset + bytes.length ≤ buffer.length) :
    storeWithin buffer offset bytes = .ok (store buffer offset bytes) := if_pos fits

theorem length_of_read {clientFd next : ClientFd} {len : Nat} {bytes : Bytes}
    (unbroken : clientFd.Unbroken) (success : clientFd.read len = (.ok bytes, next)) :
    bytes.length ≤ len := by
  obtain ⟨-, rfl, -, -, -⟩ := ClientFd.read_ok unbroken success
  exact (List.length_take_le _ _).trans (allowance_le _ _)

theorem readBody_done (fuel : Nat) (clientFd : ClientFd) {buffer : Bytes} {already : Nat}
    (size : buffer.length = already) :
    readBody (fuel + 1) clientFd buffer 0 already = .ok ⟨already, buffer, clientFd⟩ := by
  have same : resize buffer already 0 = buffer := by
    rw [resize, size, Nat.sub_self, List.replicate_zero, List.append_nil, ← size, List.take_length]
  rw [readBody, if_pos rfl, same]
  rfl

theorem readBody_again {clientFd next : ClientFd} {total : Nat} {errno : Errno}
    (unbroken : clientFd.Unbroken) (more : total ≠ 0)
    (attempt : clientFd.read total = (.error errno, next)) (fuel : Nat) (buffer : Bytes)
    (already : Nat) :
    readBody (fuel + 1) clientFd buffer total already =
      readBody fuel next buffer total already := by
  simp only [readBody, if_neg more, attempt, (ClientFd.read_error unbroken attempt).1, if_true]

theorem readBody_round {clientFd next : ClientFd} {total already : Nat} {buffer bytes : Bytes}
    (unbroken : clientFd.Unbroken) (more : total ≠ 0)
    (attempt : clientFd.read total = (.ok bytes, next)) (size : buffer.length = already + total)
    (fuel : Nat) :
    readBody (fuel + 1) clientFd buffer total already =
      readBody fuel next (store buffer already bytes) (total - bytes.length)
        (already + bytes.length) := by
  have limit := length_of_read unbroken attempt
  obtain ⟨sent, got, -, -, -⟩ := ClientFd.read_ok unbroken attempt
  cases bytes with
  | nil =>
    -- something has been sent, so something is read
    have positive := allowance_pos (Nat.pos_of_ne_zero more) clientFd.stream.events
    exact absurd (List.take_eq_nil_iff.mp got.symm) (not_or.mpr ⟨Nat.ne_of_gt positive, sent⟩)
  | cons first others =>
    simp only [readBody, if_neg more, attempt]
    rw [storeWithin_fits (by omega), ok_bind]

theorem readHead_again {clientFd next : ClientFd} {received : Nat} {errno : Errno}
    (unbroken : clientFd.Unbroken) (more : received ≠ headerSize)
    (attempt : clientFd.read headerSize = (.error errno, next)) (fuel : Nat)
    (headBuffer : Bytes) :
    readHead (fuel + 1) clientFd headBuffer received = readHead fuel next headBuffer received := by
  simp only [readHead, if_neg more, attempt, (ClientFd.read_error unbroken attempt).1, if_true]

theorem readHead_round {clientFd next : ClientFd} {received : Nat} {headBuffer bytes : Bytes}
    (unbroken : clientFd.Unbroken) (more : received ≠ headerSize)
    (attempt : clientFd.read headerSize = (.ok bytes, next))
    (size : headBuffer.length = headerSize) (fuel : Nat) :
    readHead (fuel + 1) clientFd headBuffer received =
      readHead fuel next (store headBuffer 0 bytes) ((received + bytes.length) % 2 ^ 64) := by
  have limit := length_of_read unbroken attempt
  simp only [readHead, if_neg more, attempt]
  rw [storeWithin_fits (by omega), ok_bind]

/-! ### The loop over the body -/

/-- A loop over the body that ends has read the bytes it was asked for. -/
theorem readBody_ok {fuel : Nat} {clientFd : ClientFd} {buffer : Bytes} {total already : Nat}
    {result : ReadResult} (unbroken : clientFd.Unbroken) (size : buffer.length = already + total)
    (ran : readBody fuel clientFd buffer total already = .ok result) :
    total ≤ clientFd.stream.pending.length ∧
      result = ⟨already + total, buffer.take already ++ clientFd.stream.pending.take total,
        clientFd.advance total (spent total clientFd.stream.events)⟩ := by
  induction fuel generalizing clientFd buffer total already with
  | zero => cases ran
  | succ fuel inductionHypothesis =>
    by_cases more : total = 0
    · subst more
      rw [Nat.add_zero] at size ⊢
      have full : buffer.take already = buffer := List.take_of_length_le (Nat.le_of_eq size)
      rw [readBody_done fuel clientFd size] at ran
      cases ran
      rw [full, List.take_zero, List.append_nil]
      simp only [spent, ClientFd.advance, List.drop_zero, Nat.zero_le, true_and]
    rcases attempt : clientFd.read total with ⟨errno | bytes, next⟩
    · rw [readBody_again unbroken more attempt] at ran
      obtain ⟨-, ⟨-, rfl⟩ | ⟨events, used, rfl, unbrokenNext⟩⟩ :=
        ClientFd.read_error unbroken attempt
      · exact inductionHypothesis unbroken size ran
      · have rest := inductionHypothesis unbrokenNext size ran
        simpa [ClientFd.advance, used, spent_fail more] using rest
    · have limit := length_of_read unbroken attempt
      rw [readBody_round unbroken more attempt size] at ran
      obtain ⟨sent, got, read, rfl, unbrokenNext⟩ := ClientFd.read_ok unbroken attempt
      have room : already + bytes.length ≤ buffer.length := by omega
      obtain ⟨enough, rfl⟩ := inductionHypothesis unbrokenNext
        (by rw [length_store room]; omega) ran
      have exactly : bytes.length = min _ clientFd.stream.pending.length :=
        (congrArg List.length got).trans List.length_take
      have atMost := allowance_le total clientFd.stream.events
      have schedule := Source.read_spent more read
      simp only [ClientFd.advance, List.length_drop] at enough schedule
      have count : bytes.length = allowance total clientFd.stream.events := by omega
      rw [← count] at schedule
      refine ⟨by omega, ?_⟩
      have sum : already + bytes.length + (total - bytes.length) = already + total := by omega
      have split : clientFd.stream.pending.take total =
          bytes ++ (clientFd.stream.pending.drop bytes.length).take (total - bytes.length) := by
        rw [← Nat.add_sub_of_le limit, List.take_add, Nat.add_sub_of_le limit, count, ← got]
      rw [take_store bytes (by omega), sum, split, List.append_assoc]
      simp only [ClientFd.advance, List.drop_drop, ← count, schedule, Nat.add_sub_of_le limit]

/-- The bytes that a loop over the body is asked for come in the end, if they are sent. -/
theorem readBody_ends {clientFd : ClientFd} {buffer : Bytes} {total already : Nat}
    (unbroken : clientFd.Unbroken) (size : buffer.length = already + total)
    (enough : total ≤ clientFd.stream.pending.length) :
    ∃ fuel result, readBody fuel clientFd buffer total already = .ok result := by
  by_cases more : total = 0
  · subst more
    exact ⟨1, _, readBody_done 0 clientFd size⟩
  rcases attempt : clientFd.read total with ⟨errno | bytes, next⟩
  · obtain ⟨-, ⟨nothing, -⟩ | ⟨events, used, rfl, unbrokenNext⟩⟩ :=
      ClientFd.read_error unbroken attempt
    · rw [nothing] at enough
      exact absurd (Nat.le_zero.mp enough) more
    · obtain ⟨fuel, result, ran⟩ := readBody_ends unbrokenNext size enough
      exact ⟨fuel + 1, result, (readBody_again unbroken more attempt fuel _ _).trans ran⟩
  · have limit := length_of_read unbroken attempt
    obtain ⟨-, got, -, rfl, unbrokenNext⟩ := ClientFd.read_ok unbroken attempt
    have exactly : bytes.length = min _ clientFd.stream.pending.length :=
      (congrArg List.length got).trans List.length_take
    have positive := allowance_pos (Nat.pos_of_ne_zero more) clientFd.stream.events
    have room : already + bytes.length ≤ buffer.length := by omega
    obtain ⟨fuel, result, ran⟩ := readBody_ends unbrokenNext
      (by rw [length_store room]; omega : (store buffer already bytes).length =
        already + bytes.length + (total - bytes.length))
      (by simp only [ClientFd.advance, List.length_drop]; omega)
    exact ⟨fuel + 1, result, (readBody_round unbroken more attempt size fuel).trans ran⟩
termination_by total + clientFd.stream.events.length
decreasing_by
  · simp only [ClientFd.advance, used, List.length_cons]
    omega
  · simp only [ClientFd.advance, List.length_tail]
    omega

/-! ### The loop over the header -/

/-- A header that arrives in one piece is read as it is. -/
theorem readHead_whole {clientFd : ClientFd} {headBuffer : Bytes} (unbroken : clientFd.Unbroken)
    (size : headBuffer.length = headerSize)
    (present : headerSize ≤ clientFd.stream.pending.length)
    (whole : allowance headerSize (afterFailures clientFd.stream.events) = headerSize) :
    ∃ fuel, readHead fuel clientFd headBuffer 0 =
      .ok (some (clientFd.stream.pending.take headerSize),
        clientFd.advance headerSize (afterFailures clientFd.stream.events).tail) := by
  have more : 0 ≠ headerSize := by decide
  rcases attempt : clientFd.read headerSize with ⟨errno | bytes, next⟩
  · obtain ⟨-, ⟨nothing, -⟩ | ⟨events, used, rfl, unbrokenNext⟩⟩ :=
      ClientFd.read_error unbroken attempt
    · rw [nothing] at present
      cases present
    · rw [used] at whole
      obtain ⟨fuel, ran⟩ := readHead_whole unbrokenNext size present whole
      rw [used]
      exact ⟨fuel + 1, (readHead_again unbroken more attempt fuel _).trans ran⟩
  · obtain ⟨-, rfl, read, rfl, -⟩ := ClientFd.read_ok unbroken attempt
    have front := Source.read_afterFailures read
    rw [front] at whole ⊢
    have length : (clientFd.stream.pending.take headerSize).length = headerSize :=
      List.length_take_of_le present
    refine ⟨2, (readHead_round unbroken more attempt size 1).trans ?_⟩
    rw [whole, length, readHead, if_pos (by decide), store, length, List.take_zero,
      List.nil_append, List.drop_of_length_le (Nat.le_of_eq (size.trans (Nat.zero_add _).symm)),
      List.append_nil]
    rfl
termination_by clientFd.stream.events.length
decreasing_by
  simp only [ClientFd.advance, used, List.length_cons]
  omega

/-- Fewer bytes than a header leave the last byte of `head_buffer` as it was. -/
theorem drop_store {headBuffer bytes : Bytes} (short : bytes.length < headerSize) :
    (store headBuffer 0 bytes).drop (headerSize - 1) = headBuffer.drop (headerSize - 1) := by
  rw [store, List.take_zero, List.nil_append, List.drop_append,
    List.drop_eq_nil_of_le (Nat.le_sub_one_of_lt short), List.nil_append, List.drop_drop]
  congr 1
  omega

/-- A loop over the header that ends has read some bytes; fewer than a header leave
the last byte of `head_buffer` as it was. -/
theorem readHead_ok {fuel : Nat} {clientFd next : ClientFd} {headBuffer : Bytes} {received : Nat}
    {header : Option Bytes} (unbroken : clientFd.Unbroken) (size : headBuffer.length = headerSize)
    (ran : readHead fuel clientFd headBuffer received = .ok (header, next)) :
    ∃ head count, header = some head ∧ head.length = headerSize ∧ next.Unbroken ∧
      next.stream.pending.length + count = clientFd.stream.pending.length ∧
      (count < headerSize → head.drop (headerSize - 1) = headBuffer.drop (headerSize - 1)) := by
  induction fuel generalizing clientFd headBuffer received with
  | zero => cases ran
  | succ fuel inductionHypothesis =>
    by_cases more : received = headerSize
    · rw [readHead, if_pos more] at ran
      cases ran
      exact ⟨headBuffer, 0, rfl, size, unbroken, rfl, fun _ => rfl⟩
    rcases attempt : clientFd.read headerSize with ⟨errno | bytes, later⟩
    · rw [readHead_again unbroken more attempt] at ran
      obtain ⟨-, ⟨-, rfl⟩ | ⟨events, used, rfl, unbrokenNext⟩⟩ :=
        ClientFd.read_error unbroken attempt
      · exact inductionHypothesis unbroken size ran
      · have rest := inductionHypothesis unbrokenNext size ran
        exact rest
    · have limit := length_of_read unbroken attempt
      rw [readHead_round unbroken more attempt size] at ran
      obtain ⟨-, got, -, rfl, unbrokenNext⟩ := ClientFd.read_ok unbroken attempt
      have exactly : bytes.length = min _ clientFd.stream.pending.length :=
        (congrArg List.length got).trans List.length_take
      obtain ⟨head, count, rfl, length, unbrokenLast, left, kept⟩ := inductionHypothesis
        unbrokenNext (by rw [length_store (by omega), size]) ran
      simp only [ClientFd.advance, List.length_drop] at left
      refine ⟨head, bytes.length + count, rfl, length, unbrokenLast, by omega, fun short => ?_⟩
      rw [kept (by omega), drop_store (by omega)]

/-- A loop over a header in pieces that ends without reading on has not touched the
last byte of `head_buffer`. -/
theorem readHead_pieces {fuel : Nat} {clientFd next : ClientFd} {headBuffer : Bytes}
    {header : Option Bytes} (unbroken : clientFd.Unbroken) (size : headBuffer.length = headerSize)
    (present : headerSize ≤ clientFd.stream.pending.length)
    (pieces : allowance headerSize (afterFailures clientFd.stream.events) ≠ headerSize)
    (ran : readHead fuel clientFd headBuffer 0 = .ok (header, next)) :
    ∃ head count, header = some head ∧ head.length = headerSize ∧ next.Unbroken ∧
      next.stream.pending.length + count = clientFd.stream.pending.length ∧
      (count ≤ headerSize → head.drop (headerSize - 1) = headBuffer.drop (headerSize - 1)) := by
  have more : 0 ≠ headerSize := by decide
  induction fuel generalizing clientFd with
  | zero => cases ran
  | succ fuel inductionHypothesis =>
    rcases attempt : clientFd.read headerSize with ⟨errno | bytes, later⟩
    · rw [readHead_again unbroken more attempt] at ran
      obtain ⟨-, ⟨-, rfl⟩ | ⟨events, used, rfl, unbrokenNext⟩⟩ :=
        ClientFd.read_error unbroken attempt
      · exact inductionHypothesis unbroken present pieces ran
      · rw [used] at pieces
        have rest := inductionHypothesis unbrokenNext present pieces ran
        exact rest
    · have limit := length_of_read unbroken attempt
      rw [readHead_round unbroken more attempt size] at ran
      obtain ⟨-, got, read, rfl, unbrokenNext⟩ := ClientFd.read_ok unbroken attempt
      rw [Source.read_afterFailures read] at pieces
      have exactly : bytes.length = min _ clientFd.stream.pending.length :=
        (congrArg List.length got).trans List.length_take
      have atMost := allowance_le headerSize clientFd.stream.events
      have positive := allowance_pos headerSize_pos clientFd.stream.events
      obtain ⟨head, count, rfl, length, unbrokenLast, left, kept⟩ := readHead_ok
        unbrokenNext (by rw [length_store (by omega), size]) ran
      simp only [ClientFd.advance, List.length_drop] at left
      refine ⟨head, bytes.length + count, rfl, length, unbrokenLast, by omega, fun short => ?_⟩
      rw [kept (by omega), drop_store (by omega)]

/-! ### One call -/

/-- A packet whose header arrives in one piece is returned, whatever `head_buffer`
holds. -/
theorem returns_whole {clientFd : ClientFd} {payload rest : Bytes} (unbroken : clientFd.Unbroken)
    (small : payload.length < 2 ^ 32)
    (sent : clientFd.stream.pending = frame headerSize payload ++ rest)
    (whole : allowance headerSize (afterFailures clientFd.stream.events) = headerSize)
    (arguments : Arguments) :
    Returns clientFd arguments
      ⟨payload.length, payload, clientFd.behind payload.length⟩ := by
  have present : headerSize ≤ clientFd.stream.pending.length := by
    rw [sent, frame, List.length_append, List.length_append, length_leBytes]
    omega
  have declares : leValue (clientFd.stream.pending.take headerSize) = payload.length := by
    rw [sent]
    exact declared_frame small rest
  have body : clientFd.stream.pending.drop headerSize = payload ++ rest := by
    rw [sent, frame, List.append_assoc, List.drop_left' (length_leBytes _ _)]
  let next := clientFd.advance headerSize (afterFailures clientFd.stream.events).tail
  have pending : next.stream.pending = payload ++ rest := body
  have unbrokenNext : next.Unbroken :=
    unbroken.advance fun _ member =>
      (afterFailures_suffix _).subset (List.mem_of_mem_tail member)
  have size : (resize arguments.buffer payload.length 0).length = 0 + payload.length := by
    rw [length_resize, Nat.zero_add]
  obtain ⟨fuelHead, ranHead⟩ :=
    readHead_whole unbroken arguments.headBuffer.property present whole
  obtain ⟨fuelBody, result, ranBody⟩ := readBody_ends unbrokenNext size (by
    rw [pending, List.length_append]
    omega)
  obtain ⟨-, rfl⟩ := readBody_ok unbrokenNext size ranBody
  rw [pending, List.take_left' rfl, List.take_zero, List.nil_append, Nat.zero_add] at ranBody
  refine ⟨max fuelHead fuelBody, ?_⟩
  have enoughHead :=
    (readHead_monotone _ _ _).ok_of_le (Nat.le_max_left fuelHead fuelBody) ranHead
  have enoughBody :=
    (readBody_monotone _ _ _ _).ok_of_le (Nat.le_max_right fuelHead fuelBody) ranBody
  rw [readPacket, enoughHead, ok_bind]
  simp only [declares]
  exact enoughBody

/-- A header in pieces leaves its trace in the size that is returned. -/
theorem size_of_pieces {clientFd : ClientFd} {arguments : Arguments} {result : ReadResult}
    (unbroken : clientFd.Unbroken)
    (present : headerSize ≤ clientFd.stream.pending.length)
    (pieces : allowance headerSize (afterFailures clientFd.stream.events) ≠ headerSize)
    (returns : Returns clientFd arguments result)
    (consumed : result.clientFd.stream.pending.length + (headerSize + result.size) =
      clientFd.stream.pending.length) :
    result.size / 256 ^ (headerSize - 1) =
      leValue (arguments.headBuffer.val.drop (headerSize - 1)) := by
  obtain ⟨fuel, ran⟩ := returns
  obtain ⟨⟨header, next⟩, ranHead, ran⟩ := bind_eq_ok.mp ran
  obtain ⟨head, count, rfl, length, unbrokenNext, left, kept⟩ :=
    readHead_pieces unbroken arguments.headBuffer.property present pieces ranHead
  obtain ⟨enough, rfl⟩ := readBody_ok unbrokenNext (by rw [length_resize, Nat.zero_add]) ran
  simp only [ClientFd.advance, List.length_drop] at consumed
  have low : (head.take (headerSize - 1)).length = headerSize - 1 :=
    List.length_take_of_le (length ▸ Nat.sub_le _ _)
  have bound := leValue_lt (head.take (headerSize - 1))
  have value := leValue_append (head.take (headerSize - 1)) (head.drop (headerSize - 1))
  rw [List.take_append_drop, low, kept (by omega)] at value
  rw [low] at bound
  rw [Nat.zero_add, value, Nat.add_mul_div_left _ _ (by decide), Nat.div_eq_of_lt bound,
    Nat.zero_add]

/-- A call that returns its packet whatever `head_buffer` holds, finds the header in
one piece. -/
theorem whole_of_returns {clientFd : ClientFd} (unbroken : clientFd.Unbroken)
    {payload rest : Bytes} (sent : clientFd.stream.pending = frame headerSize payload ++ rest)
    (returned : ∀ headBuffer : HeadBuffer, ∃ result, Returns clientFd ⟨[], headBuffer⟩ result ∧
      result.size = payload.length ∧ result.clientFd.stream.pending = rest) :
    allowance headerSize (afterFailures clientFd.stream.events) = headerSize := by
  by_contra pieces
  have length : clientFd.stream.pending.length = headerSize + payload.length + rest.length := by
    rw [sent, frame, List.length_append, List.length_append, length_leBytes]
  have trace : ∀ headBuffer : HeadBuffer, payload.length / 256 ^ (headerSize - 1) =
      leValue (headBuffer.val.drop (headerSize - 1)) := by
    intro headBuffer
    obtain ⟨result, returns, size, left⟩ := returned headBuffer
    rw [← size]
    refine size_of_pieces unbroken (by omega) pieces returns ?_
    rw [left, size, length]
    omega
  -- two contents of the memory would both be the size of the payload
  exact absurd ((trace ⟨[0, 0, 0, 0], rfl⟩).symm.trans (trace ⟨[0, 0, 0, 1], rfl⟩)) (by decide)

/-! ### Successive calls -/

/-- The calls end and return these payloads in order, each leaving the stream at the
header of the next packet. -/
def Received (tail : Bytes) : List Bytes → ClientFd → List Arguments → Prop
  | payload :: payloads, clientFd, arguments :: others =>
    ∃ result, Returns clientFd arguments result ∧ result.size = payload.length ∧
      result.buffer = payload ∧
      result.clientFd.stream.pending = frames headerSize payloads ++ tail ∧
      Received tail payloads result.clientFd others
  | [], _, [] => True
  | _, _, _ => False

/-- The first read that does not fail delivers the whole header, for each packet. -/
def HeadersWhole : List Bytes → List (Delivery Errno) → Prop
  | [], _ => True
  | payload :: payloads, events =>
    allowance headerSize (afterFailures events) = headerSize ∧
      HeadersWhole payloads (spent payload.length (afterFailures events).tail)

/-- Whatever `head_buffer` holds, successive calls return the packets that were sent
exactly when each header arrives in one piece. -/
theorem readPacket_received_iff (payloads : List Bytes) (tail : Bytes) (clientFd : ClientFd)
    (unbroken : clientFd.Unbroken) (small : ∀ payload ∈ payloads, payload.length < 2 ^ 32)
    (sent : clientFd.stream.pending = frames headerSize payloads ++ tail) :
    (∀ arguments : List Arguments, arguments.length = payloads.length →
      Received tail payloads clientFd arguments) ↔
      HeadersWhole payloads clientFd.stream.events := by
  induction payloads generalizing clientFd with
  | nil =>
    refine ⟨fun _ => trivial, fun _ arguments none => ?_⟩
    rw [List.length_eq_zero_iff.mp none]
    trivial
  | cons payload payloads inductionHypothesis =>
    rw [frames, List.flatMap_cons, List.append_assoc] at sent
    have smallFirst := small payload List.mem_cons_self
    have rest := inductionHypothesis _ (unbroken.behind payload.length)
      (fun other member => small other (List.mem_cons_of_mem _ member))
      (ClientFd.pending_behind sent)
    constructor
    · intro received
      have whole := whole_of_returns unbroken sent fun headBuffer => by
        obtain ⟨result, returns, size, -, left, -⟩ := received
          (⟨[], headBuffer⟩ :: List.replicate payloads.length ⟨[], headBuffer⟩) (by simp)
        exact ⟨result, returns, size, left⟩
      refine ⟨whole, rest.mp fun others calls => ?_⟩
      obtain ⟨result, returns, -, -, -, later⟩ := received
        (⟨[], ⟨[0, 0, 0, 0], rfl⟩⟩ :: others) (congrArg (· + 1) calls)
      have same := (returns_whole unbroken smallFirst sent whole _).unique returns
      rw [← same] at later
      exact later
    · rintro ⟨whole, later⟩ arguments calls
      obtain ⟨first, others, rfl⟩ := List.exists_cons_of_length_eq_add_one calls
      exact ⟨_, returns_whole unbroken smallFirst sent whole first, rfl, rfl,
        ClientFd.pending_behind sent, rest.mpr later others (Nat.succ.inj calls)⟩

/-- A packet whose body arrives in two pieces behind a failure, and an empty one. -/
theorem readPacket_received_hi :
    Received [] [ascii "hi", []]
      ⟨⟨frames headerSize [ascii "hi", []],
        [.fail .eagain, .deliver 4 (by decide), .deliver 1 (by decide)]⟩, false⟩
      [⟨[], ⟨[9, 9, 9, 9], rfl⟩⟩, ⟨ascii "hi", ⟨[2, 0, 0, 0], rfl⟩⟩] :=
  (readPacket_received_iff [ascii "hi", []] [] _ ⟨rfl, by simp [Errno.retryable]⟩ (by decide)
    (List.append_nil _).symm).mpr ⟨rfl, rfl, trivial⟩ _ rfl

/-- Once the size of the header is overshot, the loop over it reads on for ever. -/
theorem readHead_spins {clientFd : ClientFd} (unbroken : clientFd.Unbroken)
    (nothing : clientFd.stream.pending = []) {received : Nat} (more : received ≠ headerSize)
    (fuel : Nat) (headBuffer : Bytes) :
    readHead fuel clientFd headBuffer received = exhausted := by
  have again : clientFd.read headerSize = (.error .eagain, clientFd) :=
    if_pos ⟨nothing, unbroken.opened⟩
  induction fuel with
  | zero => rfl
  | succ fuel inductionHypothesis =>
    exact (readHead_again unbroken more again fuel headBuffer).trans inductionHypothesis

/-- A header that arrives in two pieces: the second read takes the payload as well, and
six bytes of a header never become four. -/
theorem readPacket_swallows :
    ¬ Received [] [ascii "hi"]
      ⟨⟨frames headerSize [ascii "hi"], [.deliver 2 (by decide)]⟩, false⟩
      [⟨[], ⟨[0, 0, 0, 0], rfl⟩⟩] := by
  rintro ⟨result, ⟨fuel, ran⟩, -⟩
  obtain ⟨header, ranHead, -⟩ := bind_eq_ok.mp ran
  match fuel with
  | 0 => cases ranHead
  | 1 => cases ranHead
  | fuel + 2 =>
    have overshot : readHead (fuel + 2)
        ⟨⟨frames headerSize [ascii "hi"], [.deliver 2 (by decide)]⟩, false⟩ [0, 0, 0, 0] 0 =
        readHead fuel ⟨⟨[], []⟩, false⟩ (0 :: 0 :: ascii "hi") 6 := rfl
    have spins := @readHead_spins ⟨⟨[], []⟩, false⟩ ⟨rfl, nofun⟩ rfl 6
      (by decide) fuel (0 :: 0 :: ascii "hi")
    cases (overshot.trans spins).symm.trans ranHead

end BlockingRpcClient

end Luce
