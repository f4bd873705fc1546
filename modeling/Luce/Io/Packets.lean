/-
This file relates `AsyncReadPacket` to length-prefixed framing. The loop over the
body collects exactly the bytes it is asked for, however they arrive. The header
is a single awaiter: a call is faithful to the framing exactly when that awaiter
is given the whole header, and a stream that ends early is noticed exactly when
the length that was put together asks for more than there is.
-/

import Luce.Io.Awaiter
import Luce.Library.Framing
import Luce.Library.Run

namespace Luce

open Library.Stream Library.Framing Library.LittleEndian Library.Run

/-! ### What an awaiter is given -/

/-- How much of `len` bytes the schedule lets an awaiter store: the allowance of
the first attempt, of the second after a failure, and nothing after two. -/
def granted (len : Nat) : List (Delivery Errno) → Nat
  | .fail _ :: .fail _ :: _ => 0
  | .fail _ :: events => allowance len events
  | events => allowance len events

theorem granted_of_ok {conn next : TcpConnection} {len : Nat} {bytes : Bytes}
    (attempt : conn.read len = (.ok bytes, next)) :
    granted len conn.socket.events = allowance len conn.socket.events := by
  obtain ⟨isClosed, pending, events⟩ := conn
  rcases events with _ | ⟨_ | _, _⟩ <;> cases attempt <;> rfl

theorem granted_of_retry {conn resumed next : TcpConnection} {len : Nat} {errno : Errno}
    {bytes : Bytes} (first : conn.read len = (.error errno, resumed))
    (second : resumed.read len = (.ok bytes, next)) :
    granted len conn.socket.events = allowance len resumed.socket.events := by
  rw [(TcpConnection.read_error first).1]
  obtain ⟨isClosed, pending, events⟩ := resumed
  rcases events with _ | ⟨_ | _, _⟩ <;> cases second <;> rfl

theorem granted_le (len : Nat) (events : List (Delivery Errno)) : granted len events ≤ len := by
  unfold granted
  split
  · exact Nat.zero_le _
  · exact allowance_le _ _
  · exact allowance_le _ _

/-- The connection is open and no read on it fails for good. -/
structure Unbroken (conn : TcpConnection) : Prop where
  opened : conn.isClosed = false
  retryable : ∀ errno, .fail errno ∈ conn.socket.events → errno.retryable = true

theorem Unbroken.next {conn next : TcpConnection} (unbroken : Unbroken conn)
    (same : next.isClosed = conn.isClosed)
    (remaining : next.socket.events <:+ conn.socket.events) : Unbroken next :=
  ⟨same.trans unbroken.opened,
    fun errno member => unbroken.retryable errno (remaining.subset member)⟩

/-- An awaiter that succeeds takes what it is granted, and waits until that is
something. -/
theorem readInnerAwaiter_ok {conn next : TcpConnection} {len : Nat} {bytes : Bytes}
    (unbroken : Unbroken conn) (asked : 0 < len)
    (awaited : readInnerAwaiter conn len = (.ok bytes, next)) :
    bytes = conn.socket.pending.take (granted len conn.socket.events) ∧
      next.socket.pending = conn.socket.pending.drop (granted len conn.socket.events) ∧
      0 < granted len conn.socket.events ∧ Unbroken next := by
  obtain ⟨closed, -, -⟩ | ⟨_, same, attempt⟩ | ⟨errno, resumed, first, second⟩ :=
    readInnerAwaiter_cases awaited
  · rw [unbroken.opened] at closed
    cases closed
  · cases same
    rw [granted_of_ok attempt]
    obtain ⟨got, rest, events, opened⟩ := TcpConnection.read_ok attempt
    exact ⟨got, rest, allowance_pos asked _,
      unbroken.next opened (events ▸ List.tail_suffix _)⟩
  · rw [granted_of_retry first second]
    obtain ⟨failed, kept, same⟩ := TcpConnection.read_error first
    obtain ⟨got, rest, events, opened⟩ := TcpConnection.read_ok second
    refine ⟨kept ▸ got, kept ▸ rest, allowance_pos asked _, ?_⟩
    refine unbroken.next (opened.trans same) ?_
    rw [failed, events]
    exact (List.tail_suffix _).trans (List.suffix_cons _ _)

/-- An awaiter that fails has made two attempts, and is given nothing. -/
theorem readInnerAwaiter_error {conn next : TcpConnection} {len : Nat} {errno : Errno}
    (unbroken : Unbroken conn) (awaited : readInnerAwaiter conn len = (.error errno, next)) :
    granted len conn.socket.events = 0 ∧ next.socket.pending = conn.socket.pending ∧
      errno.retryable = true ∧ Unbroken next := by
  obtain ⟨-, impossible, -⟩ | ⟨_, impossible, -⟩ | ⟨before, resumed, first, second⟩ :=
    readInnerAwaiter_cases awaited
  · cases impossible
  · cases impossible
  · obtain ⟨failed, kept, same⟩ := TcpConnection.read_error first
    obtain ⟨failedAgain, keptAgain, sameAgain⟩ := TcpConnection.read_error second
    have events : conn.socket.events = .fail before :: .fail errno :: next.socket.events := by
      rw [failed, failedAgain]
    refine ⟨?_, keptAgain.trans kept, ?_, ?_⟩
    · rw [events]
      rfl
    · exact unbroken.retryable errno (by simp [events])
    · refine unbroken.next (sameAgain.trans same) ?_
      rw [events]
      exact (List.suffix_cons _ _).trans (List.suffix_cons _ _)

/-- What an awaiter stores, whether it succeeds or not. -/
theorem readInnerAwaiter_stored {conn next : TcpConnection} {len : Nat}
    {result : Except Errno Bytes} (unbroken : Unbroken conn) (asked : 0 < len)
    (awaited : readInnerAwaiter conn len = (result, next)) :
    stored result = conn.socket.pending.take (granted len conn.socket.events) ∧
      next.socket.pending = conn.socket.pending.drop (granted len conn.socket.events) ∧
      Unbroken next := by
  cases result with
  | ok bytes =>
    obtain ⟨got, rest, -, unbrokenNext⟩ := readInnerAwaiter_ok unbroken asked awaited
    exact ⟨got, rest, unbrokenNext⟩
  | error errno =>
    obtain ⟨nothing, rest, -, unbrokenNext⟩ := readInnerAwaiter_error unbroken awaited
    rw [nothing]
    exact ⟨rfl, rest, unbrokenNext⟩

/-! ### The loop over the body -/

theorem take_store {buffer : Bytes} {offset : Nat} (bytes : Bytes)
    (inside : offset ≤ buffer.length) :
    (store buffer offset bytes).take (offset + bytes.length) = buffer.take offset ++ bytes := by
  have front : (buffer.take offset ++ bytes).length = offset + bytes.length := by
    rw [List.length_append, List.length_take_of_le inside]
  rw [store, List.take_left' front]

theorem length_store {buffer bytes : Bytes} {offset : Nat}
    (inside : offset + bytes.length ≤ buffer.length) :
    (store buffer offset bytes).length = buffer.length := by
  simp only [store, List.length_append, List.length_take, List.length_drop]
  omega

/-- What the loop owes: all it asks for, behind what was there, if that much is
still to come. -/
def Collects (pending buffer : Bytes) (total already : Nat) (result : PacketResult) : Prop :=
  if total ≤ pending.length then
    result.success = true ∧ result.buffer = buffer.take already ++ pending.take total ∧
      result.conn.socket.pending = pending.drop total
  else result.success = false

/-- One round: bytes that have been stored are bytes that need not be asked for. -/
theorem Collects.round {bytes rest buffer : Bytes} {total already : Nat} {result : PacketResult}
    (asked : bytes.length ≤ total) (inside : already ≤ buffer.length)
    (collects : Collects rest (store buffer already bytes) (total - bytes.length)
      (already + bytes.length) result) :
    Collects (bytes ++ rest) buffer total already result := by
  have enough : total - bytes.length ≤ rest.length ↔ total ≤ (bytes ++ rest).length := by
    rw [List.length_append]
    omega
  unfold Collects at collects ⊢
  simp only [enough, take_store bytes inside] at collects
  split at collects
  case isTrue whole =>
    obtain ⟨success, collected, left⟩ := collects
    rw [if_pos whole, List.take_append, List.take_of_length_le asked, List.drop_append,
      List.drop_of_length_le asked]
    exact ⟨success, collected.trans (List.append_assoc _ _ _), left⟩
  case isFalse cut =>
    rw [if_neg cut]
    exact collects

theorem readBody_collects (conn : TcpConnection) (buffer : Bytes) (total already : Nat)
    (unbroken : Unbroken conn) (size : buffer.length = already + total) :
    Collects conn.socket.pending buffer total already (readBody conn buffer total already) ∧
      Unbroken (readBody conn buffer total already).conn := by
  fun_induction readBody conn buffer total already with
  | case1 conn buffer already =>
    have full : buffer.take already = buffer := List.take_of_length_le (Nat.le_of_eq size)
    refine ⟨?_, unbroken⟩
    rw [Collects, if_pos (Nat.zero_le _), full, List.take_zero, List.append_nil, List.drop_zero]
    exact ⟨rfl, rfl, rfl⟩
  | case2 conn buffer total already more next awaited =>
    -- an awaiter that is given nothing although it may have something is at the end
    obtain ⟨got, -, positive, unbrokenNext⟩ :=
      readInnerAwaiter_ok unbroken (Nat.pos_of_ne_zero more) awaited
    have ended : conn.socket.pending = [] :=
      (List.take_eq_nil_iff.mp got.symm).resolve_left (Nat.ne_of_gt positive)
    refine ⟨?_, unbrokenNext⟩
    rw [Collects, if_neg (by rw [ended]; exact fun none => more (Nat.le_zero.mp none))]
  | case3 conn buffer total already more errno next awaited retryable inductionHypothesis =>
    obtain ⟨-, kept, -, unbrokenNext⟩ := readInnerAwaiter_error unbroken awaited
    rw [← kept]
    exact inductionHypothesis unbrokenNext size
  | case4 conn buffer total already more errno next awaited fatal =>
    exact absurd (readInnerAwaiter_error unbroken awaited).2.2.1 fatal
  | case5 conn buffer total already more first others next awaited res inductionHypothesis =>
    obtain ⟨got, rest, -, unbrokenNext⟩ :=
      readInnerAwaiter_ok unbroken (Nat.pos_of_ne_zero more) awaited
    have asked : (first :: others).length ≤ total := by
      rw [got]
      exact (List.length_take_le _ _).trans (granted_le _ _)
    have split : conn.socket.pending = (first :: others) ++ next.socket.pending := by
      rw [got, rest, List.take_append_drop]
    have room : already + (first :: others).length ≤ buffer.length := by omega
    obtain ⟨collects, unbrokenResult⟩ := inductionHypothesis unbrokenNext (by
      rw [length_store room]
      omega)
    rw [split]
    exact ⟨collects.round asked (by omega), unbrokenResult⟩

/-! ### One call -/

/-- What a call of `AsyncReadPacket` is given besides the connection: the buffer,
and what its `head_buffer` happens to hold. -/
structure Arguments where
  buffer : Bytes
  headBuffer : HeadBuffer

/-- A call, with the connection it finds. -/
abbrev Call := TcpConnection × Arguments

def Call.conn (call : Call) : TcpConnection := call.1

def Call.result (call : Call) : PacketResult :=
  asyncReadPacket call.conn call.2.buffer call.2.headBuffer

/-- What the framing asks of a call: the payload of the first packet, with the
stream left at the header of the next; or a refusal, when no packet is whole. -/
def Call.Faithful (call : Call) : Prop :=
  match unframe headerSize call.conn.socket.pending with
  | some (payload, rest) =>
    call.result.success = true ∧ call.result.buffer = payload ∧
      call.result.conn.socket.pending = rest
  | none => call.result.success = false

/-- How many bytes the awaiter for the header may store. -/
def Call.headerGranted (call : Call) : Nat := granted headerSize call.conn.socket.events

/-- The bytes of the stream behind those that the awaiter for the header stores. -/
def Call.behind (call : Call) : Bytes := call.conn.socket.pending.drop call.headerGranted

/-- The number in `head_buffer` once the awaiter has stored what it is granted over
what was there. -/
def Call.headerNumber (call : Call) : Nat :=
  leValue (store call.2.headBuffer.val 0 (call.conn.socket.pending.take call.headerGranted))

/-- The header arrives in one piece; where no packet is whole, the number in
`head_buffer` asks for more bytes than there are. -/
def Call.HeaderWhole (call : Call) : Prop :=
  if Incomplete headerSize call.conn.socket.pending then call.behind.length < call.headerNumber
  else call.headerGranted = headerSize

instance (call : Call) : Decidable call.HeaderWhole :=
  inferInstanceAs (Decidable (if Incomplete headerSize call.conn.socket.pending then
    call.behind.length < call.headerNumber else call.headerGranted = headerSize))

theorem Call.faithful_of_packet {call : Call} {payload rest : Bytes}
    (packet : unframe headerSize call.conn.socket.pending = some (payload, rest)) :
    call.Faithful ↔ call.result.success = true ∧ call.result.buffer = payload ∧
      call.result.conn.socket.pending = rest := by
  rw [Call.Faithful, packet]

theorem Call.faithful_of_end {call : Call}
    (ended : unframe headerSize call.conn.socket.pending = none) :
    call.Faithful ↔ call.result.success = false := by
  rw [Call.Faithful, ended]

theorem headerSize_pos : 0 < headerSize := by decide

theorem Call.result_collects (call : Call) (unbroken : Unbroken call.conn) :
    Collects call.behind (resize call.2.buffer call.headerNumber 0) call.headerNumber 0
        call.result ∧ Unbroken call.result.conn := by
  cases awaited : readInnerAwaiter call.conn headerSize with
  | mk header conn =>
    obtain ⟨got, rest, unbrokenNext⟩ :=
      readInnerAwaiter_stored unbroken headerSize_pos awaited
    have result : call.result = readBody conn (resize call.2.buffer call.headerNumber 0)
        call.headerNumber 0 := by
      simp only [Call.result, asyncReadPacket, awaited, Call.headerNumber, got, Call.headerGranted]
    have behind : call.behind = conn.socket.pending := rest.symm
    rw [result, behind]
    exact readBody_collects _ _ _ _ unbrokenNext (by rw [length_resize, Nat.zero_add])

theorem Call.headerNumber_of_whole {call : Call} (whole : call.headerGranted = headerSize)
    (present : headerSize ≤ call.conn.socket.pending.length) :
    call.headerNumber = declared headerSize call.conn.socket.pending := by
  have overwritten : call.2.headBuffer.val.drop headerSize = [] :=
    List.drop_eq_nil_of_le (Nat.le_of_eq call.2.headBuffer.property)
  rw [Call.headerNumber, whole, store, List.take_zero, List.nil_append,
    List.length_take_of_le present, Nat.zero_add, overwritten, List.append_nil, declared]

/-- A packet is read faithfully exactly when its header arrives in one piece. -/
theorem Call.faithful_iff_granted {call : Call} (unbroken : Unbroken call.conn)
    (whole : headerSize + declared headerSize call.conn.socket.pending ≤
      call.conn.socket.pending.length) :
    call.Faithful ↔ call.headerGranted = headerSize := by
  have collects := (call.result_collects unbroken).1
  have behind : call.behind.length = call.conn.socket.pending.length - call.headerGranted :=
    List.length_drop
  have atMost : call.headerGranted ≤ headerSize := granted_le _ _
  rw [Call.faithful_of_packet (unframe_whole whole)]
  constructor
  · rintro ⟨success, payload, rest⟩
    unfold Collects at collects
    split at collects
    case isTrue enough =>
      obtain ⟨-, collected, left⟩ := collects
      -- the payload fixes the number that was read, and the rest where reading began
      have size := congrArg List.length (collected.symm.trans payload)
      have remainder := congrArg List.length (left.symm.trans rest)
      simp only [List.take_zero, List.nil_append, List.length_take, List.length_drop] at size
      simp only [List.length_drop] at remainder
      omega
    case isFalse short =>
      rw [success] at collects
      cases collects
  · intro granted
    have size := Call.headerNumber_of_whole granted (Nat.le_of_add_right_le whole)
    have enough : call.headerNumber ≤ call.behind.length := by omega
    rw [Collects, if_pos enough, size, Call.behind, granted, List.drop_drop, List.take_zero,
      List.nil_append] at collects
    exact collects

theorem Call.faithful_iff_refused {call : Call} (unbroken : Unbroken call.conn)
    (cut : Incomplete headerSize call.conn.socket.pending) :
    call.Faithful ↔ call.behind.length < call.headerNumber := by
  have collects := (call.result_collects unbroken).1
  rw [Call.faithful_of_end (unframe_incomplete cut)]
  unfold Collects at collects
  split at collects
  case isTrue enough =>
    rw [collects.1]
    exact ⟨nofun, fun short => absurd enough (Nat.not_le.mpr short)⟩
  case isFalse short => exact ⟨fun _ => Nat.not_le.mp short, fun _ => collects⟩

theorem Call.faithful_iff {call : Call} (unbroken : Unbroken call.conn) :
    call.Faithful ↔ call.HeaderWhole := by
  unfold Call.HeaderWhole
  split
  case isTrue cut => exact Call.faithful_iff_refused unbroken cut
  case isFalse whole => exact Call.faithful_iff_granted unbroken (Nat.not_lt.mp whole)

/-! ### Successive calls -/

/-- Calls one after the other, on the connection as the one before leaves it. -/
def successive : TcpConnection → List Arguments → List Call :=
  history fun conn arguments => (Call.result (conn, arguments)).conn

/-- The calls return these payloads in order, each leaving the stream at the header
of the next packet, and the last call, which finds no whole packet, returns false. -/
def Delivered (tail : Bytes) : List Bytes → List Call → Prop
  | payload :: payloads, call :: calls =>
    (call.result.success = true ∧ call.result.buffer = payload ∧
      call.result.conn.socket.pending = frames headerSize payloads ++ tail) ∧
      Delivered tail payloads calls
  | [], [call] => call.result.success = false
  | _, _ => False

theorem Unbroken.successive {conn : TcpConnection} (unbroken : Unbroken conn)
    (arguments : List Arguments) : ∀ call ∈ successive conn arguments, Unbroken call.conn :=
  invariant_history _
    (fun conn arguments unbroken => (Call.result_collects (conn, arguments) unbroken).2)
    unbroken arguments

/-- On the packets that were sent, calls that are each faithful to the framing
deliver, and only those. -/
theorem delivered_iff_faithful {payloads : List Bytes} {tail : Bytes}
    (small : ∀ payload ∈ payloads, payload.length < 2 ^ 32) (cut : Incomplete headerSize tail)
    {conn : TcpConnection} (sent : conn.socket.pending = frames headerSize payloads ++ tail)
    {arguments : List Arguments} (calls : arguments.length = payloads.length + 1) :
    Delivered tail payloads (successive conn arguments) ↔
      ∀ call ∈ successive conn arguments, call.Faithful := by
  induction payloads generalizing conn arguments with
  | nil =>
    obtain ⟨only, rfl⟩ := List.length_eq_one_iff.mp calls
    have ended : unframe headerSize conn.socket.pending = none := by
      rw [sent]
      exact unframe_incomplete cut
    have faithful : Call.Faithful (conn, only) ↔ _ := Call.faithful_of_end ended
    simp only [successive, history, Delivered, List.forall_mem_singleton]
    exact faithful.symm
  | cons payload payloads inductionHypothesis =>
    obtain ⟨first, others, rfl⟩ := List.exists_cons_of_length_eq_add_one calls
    have packet : unframe headerSize conn.socket.pending =
        some (payload, frames headerSize payloads ++ tail) := by
      rw [sent, frames, List.flatMap_cons, List.append_assoc]
      exact unframe_frame (small payload List.mem_cons_self) _
    have faithful : Call.Faithful (conn, first) ↔ _ := Call.faithful_of_packet packet
    simp only [successive, history, Delivered, List.forall_mem_cons, faithful]
    -- what follows is on the packets that are left, once the first is read
    exact and_congr_right fun read => inductionHypothesis
      (fun other member => small other (List.mem_cons_of_mem _ member)) read.2.2
      (Nat.succ.inj calls)

/-- Successive calls return the packets that were sent, and notice the end of the
stream, exactly when each of them finds its header whole. -/
theorem successive_delivered_iff (payloads : List Bytes) (tail : Bytes) (conn : TcpConnection)
    (arguments : List Arguments) (unbroken : Unbroken conn)
    (small : ∀ payload ∈ payloads, payload.length < 2 ^ 32)
    (cut : Incomplete headerSize tail)
    (sent : conn.socket.pending = frames headerSize payloads ++ tail)
    (calls : arguments.length = payloads.length + 1) :
    Delivered tail payloads (successive conn arguments) ↔
      ∀ call ∈ successive conn arguments, call.HeaderWhole := by
  rw [delivered_iff_faithful small cut sent calls]
  exact forall₂_congr fun call member =>
    Call.faithful_iff (unbroken.successive arguments call member)

/-- A body in two pieces behind a whole header, and then the end of the stream. -/
theorem successive_delivered_hi :
    Delivered [] [ascii "hi"] (successive
      ⟨false, ⟨[2, 0, 0, 0] ++ ascii "hi", [.deliver 4 (by decide), .deliver 1 (by decide)]⟩⟩
      [⟨[], ⟨[0, 0, 0, 0], rfl⟩⟩, ⟨[], ⟨[1, 0, 0, 0], rfl⟩⟩]) :=
  (successive_delivered_iff _ _ _ _ ⟨rfl, by simp⟩ (by decide) (by decide) (by decide) rfl).mpr
    (by decide +kernel)

/-- A header that arrives in two pieces: its second half is returned as the payload. -/
theorem successive_misframes :
    ¬ Delivered [] [ascii "hi"] (successive
      ⟨false, ⟨[2, 0, 0, 0] ++ ascii "hi", [.deliver 2 (by decide)]⟩⟩
      [⟨[], ⟨[0, 0, 0, 0], rfl⟩⟩, ⟨[], ⟨[0, 0, 0, 0], rfl⟩⟩]) :=
  fun delivered => absurd delivered.1.2.1 (by decide +kernel)

end Luce
