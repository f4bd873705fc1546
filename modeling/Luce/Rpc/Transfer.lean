/-
This file models the loops that write and read a packet one call of `::write` or `::read` at
a time, so that the two ends of a connection can be interleaved.

Between two calls a writer is in front of its header or inside its body, and so is a reader.
What a reader has not read yet is a packet exactly when it ends with the packet's payload, if
each call for a header moves all of it.
-/

import Luce.Io.WriteAwaiter
import Luce.Io.Packets

namespace Luce

open Library.Framing Library.LittleEndian

/-! ### Writing -/

/-- Where a loop that writes a packet is. -/
inductive PacketWriter where
  | head (buffer : Bytes) (totalWriteSize : Nat)
  | body (buffer : Bytes) (totalWriteSize alreadyWriteSize : Nat)
deriving DecidableEq, Repr

namespace PacketWriter

/-- One call of `::write`, of which the socket takes at most so many bytes: what it takes,
and where the loop is then. -/
def write (count : Nat) : PacketWriter → Option (Bytes × PacketWriter)
  | .head buffer totalWriteSize =>
    if count = 0 then none
    else some ((leBytes headerSize totalWriteSize).take count, .body buffer totalWriteSize 0)
  | .body buffer totalWriteSize alreadyWriteSize =>
    if count = 0 ∨ totalWriteSize = 0 then none
    else
      let res := min count totalWriteSize
      some ((buffer.drop alreadyWriteSize).take res,
        .body buffer (totalWriteSize - res) (alreadyWriteSize + res))

/-- What is still to be written. -/
def unsent : PacketWriter → Bytes
  | .head buffer totalWriteSize => leBytes headerSize totalWriteSize ++ buffer
  | .body buffer totalWriteSize alreadyWriteSize =>
    (buffer.drop alreadyWriteSize).take totalWriteSize

/-- The writer writes the packet with this payload. -/
def Fits (payload : Bytes) : PacketWriter → Prop
  | .head buffer totalWriteSize => buffer = payload ∧ totalWriteSize = payload.length
  | .body buffer totalWriteSize alreadyWriteSize =>
    buffer = payload ∧ alreadyWriteSize + totalWriteSize = payload.length

/-- A call for the header takes all of it. -/
def Whole (count : Nat) : PacketWriter → Prop
  | .head _ _ => headerSize ≤ count
  | .body _ _ _ => True

instance (count : Nat) (writer : PacketWriter) : Decidable (writer.Whole count) :=
  match writer with
  | .head _ _ => inferInstanceAs (Decidable (headerSize ≤ count))
  | .body _ _ _ => isTrue trivial

variable {payload : Bytes} {count : Nat} {writer next : PacketWriter} {bytes : Bytes}

theorem fits_head {payload : Bytes} : (head payload payload.length).Fits payload := ⟨rfl, rfl⟩

/-- What is to be written is the whole packet, or no more than the payload. -/
theorem Fits.unsent_cases (fits : writer.Fits payload) :
    writer.unsent = frame headerSize payload ∨ writer.unsent.length ≤ payload.length := by
  cases writer with
  | head buffer total =>
    obtain ⟨rfl, rfl⟩ := fits
    exact .inl rfl
  | body buffer total already =>
    obtain ⟨rfl, sum⟩ := fits
    refine .inr ((List.length_take_le _ _).trans ?_)
    omega

/-- What is taken is the front of what was to be written. -/
theorem write_unsent (fits : writer.Fits payload) (whole : writer.Whole count)
    (wrote : writer.write count = some (bytes, next)) :
    bytes ++ next.unsent = writer.unsent ∧ bytes ≠ [] ∧ next.Fits payload := by
  cases writer with
  | head buffer total =>
    obtain ⟨rfl, rfl⟩ := fits
    obtain ⟨-, moved⟩ := Option.ite_none_left_eq_some.mp wrote
    cases moved
    have header : (leBytes headerSize buffer.length).take count =
        leBytes headerSize buffer.length :=
      List.take_of_length_le (by rw [length_leBytes]; exact whole)
    have length : (leBytes headerSize buffer.length).length = headerSize := length_leBytes _ _
    refine ⟨?_, fun nothing => ?_, rfl, Nat.zero_add _⟩
    · rw [header, unsent, unsent, List.drop_zero, List.take_length]
    · rw [header] at nothing
      rw [nothing] at length
      cases length
  | body buffer total already =>
    obtain ⟨rfl, sum⟩ := fits
    obtain ⟨more, moved⟩ := Option.ite_none_left_eq_some.mp wrote
    cases moved
    refine ⟨?_, fun nothing => ?_, rfl, ?_⟩
    · have split : min count total + (total - min count total) = total := by omega
      rw [unsent, unsent, ← List.drop_drop, ← List.take_add, split]
    · have length := congrArg List.length nothing
      rw [List.length_take, List.length_drop, List.length_nil] at length
      omega
    · omega

/-- A writer with something left to write can write. -/
theorem write_of_unsent (more : writer.unsent ≠ []) (positive : count ≠ 0) :
    ∃ moved, writer.write count = some moved := by
  cases writer with
  | head buffer total => exact ⟨_, if_neg positive⟩
  | body buffer total already =>
    refine ⟨_, if_neg (not_or.mpr ⟨positive, fun zero => more ?_⟩)⟩
    rw [unsent, zero, List.take_zero]

/-- A writer that has nothing left to write is at its end. -/
theorem Fits.body_of_unsent (fits : writer.Fits payload) (done : writer.unsent = []) :
    ∃ already, writer = .body payload 0 already := by
  cases writer with
  | head buffer total =>
    have length := congrArg List.length done
    rw [unsent, List.length_append, length_leBytes] at length
    cases (Nat.add_eq_zero_iff.mp length).1
  | body buffer total already =>
    obtain ⟨rfl, sum⟩ := fits
    have length := congrArg List.length done
    rw [unsent, List.length_take, List.length_drop, List.length_nil] at length
    obtain rfl : total = 0 := by omega
    exact ⟨already, rfl⟩

/-- A writer at its end has nothing left to write. -/
theorem unsent_body_zero (buffer : Bytes) (already : Nat) :
    (body buffer 0 already).unsent = [] := rfl

end PacketWriter

/-! ### Reading -/

/-- Where a loop that reads a packet is. -/
inductive PacketReader where
  | head (headBuffer : Bytes) (headRecvSize : Nat)
  | body (buffer : Bytes) (totalReadSize alreadyReadSize : Nat)
deriving DecidableEq, Repr

namespace PacketReader

/-- In front of a packet, with what `head_buffer` happens to hold. -/
def fresh (headBuffer : HeadBuffer) : PacketReader := .head headBuffer.val 0

/-- Behind the header, with the buffer in its size. -/
def ofHead (headBuffer : Bytes) : PacketReader :=
  .body (resize [] (leValue headBuffer) 0) (leValue headBuffer) 0

/-- One call of `::read` for the body, which moves at most so many bytes. -/
def readBody (count : Nat) (stream buffer : Bytes) (totalReadSize alreadyReadSize : Nat) :
    Option (PacketReader × Bytes) :=
  if count = 0 ∨ stream = [] ∨ totalReadSize = 0 then none
  else
    let bytes := stream.take (min count totalReadSize)
    some (.body (store buffer alreadyReadSize bytes) (totalReadSize - bytes.length)
      (alreadyReadSize + bytes.length), stream.drop (min count totalReadSize))

/-- A call of `::read` in `AsyncReadPacket`: one awaiter is for the header. -/
def asyncRead (count : Nat) (stream : Bytes) : PacketReader → Option (PacketReader × Bytes)
  | .head headBuffer _ =>
    if count = 0 ∨ stream = [] then none
    else
      some (.ofHead (store headBuffer 0 (stream.take (min count headerSize))),
        stream.drop (min count headerSize))
  | .body buffer totalReadSize alreadyReadSize =>
    readBody count stream buffer totalReadSize alreadyReadSize

/-- A call of `::read` in `ReadPacket`: the loop over the header reads each piece to the start
of `head_buffer`. -/
def read (count : Nat) (stream : Bytes) : PacketReader → Option (PacketReader × Bytes)
  | .head headBuffer headRecvSize =>
    if count = 0 ∨ stream = [] then none
    else
      let bytes := stream.take (min count headerSize)
      let headBuffer := store headBuffer 0 bytes
      let headRecvSize := (headRecvSize + bytes.length) % 2 ^ 64
      some (if headRecvSize = headerSize then .ofHead headBuffer else .head headBuffer headRecvSize,
        stream.drop (min count headerSize))
  | .body buffer totalReadSize alreadyReadSize =>
    readBody count stream buffer totalReadSize alreadyReadSize

/-- A call for the header may move all of it. -/
def Whole (count : Nat) : PacketReader → Prop
  | .head _ _ => headerSize ≤ count
  | .body _ _ _ => True

instance (count : Nat) (reader : PacketReader) : Decidable (reader.Whole count) :=
  match reader with
  | .head _ _ => inferInstanceAs (Decidable (headerSize ≤ count))
  | .body _ _ _ => isTrue trivial

/-- What is still to be read makes up a packet with this payload. -/
inductive Reads (payload : Bytes) : PacketReader → Bytes → Prop
  | head (headBuffer : HeadBuffer) : Reads payload (fresh headBuffer) (frame headerSize payload)
  | body {buffer rest : Bytes} {total already : Nat} (size : buffer.length = already + total)
    (remaining : rest.length = total) (content : buffer.take already ++ rest = payload) :
    Reads payload (.body buffer total already) rest

variable {payload stream later : Bytes} {count : Nat} {reader next : PacketReader} {rest : Bytes}

/-- A reader that has read everything has the payload. -/
theorem Reads.payload_eq {buffer rest : Bytes} {already : Nat}
    (reads : Reads payload (.body buffer 0 already) rest) :
    buffer = payload ∧ already = payload.length ∧ rest = [] := by
  cases reads with
  | body size remaining content =>
    have full : buffer.take already = buffer := List.take_of_length_le (Nat.le_of_eq size)
    have nothing := List.length_eq_zero_iff.mp remaining
    rw [nothing, List.append_nil, full] at content
    exact ⟨content, by rw [← content]; exact size.symm, nothing⟩

/-- In front of a packet some of which is there, its header is there. -/
theorem Reads.present {unsent : Bytes} (reads : Reads payload reader (stream ++ unsent))
    (sends : unsent = frame headerSize payload ∨ unsent.length ≤ payload.length)
    (some : stream ≠ []) : reader.Whole stream.length := by
  generalize sent : stream ++ unsent = all at reads
  cases reads with
  | body => trivial
  | head headBuffer =>
    have length := congrArg List.length sent
    rw [List.length_append, frame, List.length_append, length_leBytes] at length
    rcases sends with rfl | few
    · exact absurd (List.append_left_eq_self.mp sent) some
    · change headerSize ≤ stream.length
      omega

/-- The length that the header declares is what is read behind it. -/
theorem reads_ofHead (small : payload.length < 2 ^ 32) :
    Reads payload (ofHead (leBytes headerSize payload.length)) payload := by
  have value : leValue (leBytes headerSize payload.length) = payload.length :=
    leValue_leBytes_of_lt small
  rw [ofHead, value]
  refine .body ?_ rfl rfl
  rw [length_resize, Nat.zero_add]

/-- A whole header replaces what `head_buffer` has held. -/
theorem store_header {headBuffer bytes : Bytes} (held : headBuffer.length = headerSize)
    (size : bytes.length = headerSize) : store headBuffer 0 bytes = bytes := by
  have nothing : headBuffer.drop (0 + bytes.length) = [] :=
    List.drop_eq_nil_of_le (by omega)
  rw [store, List.take_zero, List.nil_append, nothing, List.append_nil]

/-- In front of a packet of which the header is there, a whole read gets just the header. -/
theorem header_take (some : headerSize ≤ stream.length) (whole : headerSize ≤ count)
    (sent : stream ++ later = frame headerSize payload) :
    stream.take (min count headerSize) = leBytes headerSize payload.length ∧
      stream.drop (min count headerSize) ++ later = payload := by
  have length : (leBytes headerSize payload.length).length = headerSize := length_leBytes _ _
  rw [Nat.min_eq_right whole]
  have header := congrArg (List.take headerSize) sent
  have body := congrArg (List.drop headerSize) sent
  rw [List.take_append_of_le_length some, frame, List.take_left' length] at header
  rw [List.drop_append_of_le_length some, frame, List.drop_left' length] at body
  exact ⟨header, body⟩

theorem readBody_reads {buffer : Bytes} {total already : Nat}
    (reads : Reads payload (.body buffer total already) (stream ++ later))
    (moved : readBody count stream buffer total already = some (next, rest)) :
    Reads payload next (rest ++ later) ∧ rest.length < stream.length := by
  obtain ⟨some, moved⟩ := Option.ite_none_left_eq_some.mp moved
  obtain ⟨positive, present, more⟩ := not_or.mp some |>.imp_right not_or.mp
  cases moved
  cases reads with
  | body size remaining content =>
    have length := List.length_take (i := min count total) (l := stream)
    have streamLength : stream.length ≠ 0 := fun zero => present (List.length_eq_zero_iff.mp zero)
    rw [List.length_append] at remaining
    refine ⟨.body ?_ ?_ ?_, ?_⟩
    · rw [length_store (by omega)]
      omega
    · rw [List.length_append, List.length_drop]
      omega
    · rw [take_store _ (by omega), List.append_assoc, ← List.append_assoc _ _ later,
        List.take_append_drop]
      exact content
    · rw [List.length_drop]
      omega

/-- What the server has not read yet still makes up the packet. -/
theorem asyncRead_reads (small : payload.length < 2 ^ 32)
    (reads : Reads payload reader (stream ++ later)) (whole : reader.Whole count)
    (present : reader.Whole stream.length)
    (moved : reader.asyncRead count stream = some (next, rest)) :
    Reads payload next (rest ++ later) ∧ rest.length < stream.length := by
  generalize sent : stream ++ later = all at reads
  cases reads with
  | body size remaining content =>
    subst sent
    exact readBody_reads (.body size remaining content) moved
  | head headBuffer =>
    obtain ⟨-, moved⟩ := Option.ite_none_left_eq_some.mp moved
    cases moved
    obtain ⟨header, body⟩ := header_take present whole sent
    rw [header, body, store_header headBuffer.property (length_leBytes _ _), List.length_drop]
    refine ⟨reads_ofHead small, ?_⟩
    change headerSize ≤ stream.length at present
    change headerSize ≤ count at whole
    have four : headerSize = 4 := rfl
    omega

/-- What the client has not read yet still makes up the packet. -/
theorem read_reads (small : payload.length < 2 ^ 32)
    (reads : Reads payload reader (stream ++ later)) (whole : reader.Whole count)
    (present : reader.Whole stream.length) (moved : reader.read count stream = some (next, rest)) :
    Reads payload next (rest ++ later) ∧ rest.length < stream.length := by
  generalize sent : stream ++ later = all at reads
  cases reads with
  | body size remaining content =>
    subst sent
    exact readBody_reads (.body size remaining content) moved
  | head headBuffer =>
    obtain ⟨-, moved⟩ := Option.ite_none_left_eq_some.mp moved
    obtain ⟨header, body⟩ := header_take present whole sent
    have received : (0 + (leBytes headerSize payload.length).length) % 2 ^ 64 = headerSize := by
      rw [length_leBytes]
      rfl
    rw [header, received, if_pos rfl,
      store_header headBuffer.property (length_leBytes _ _)] at moved
    cases moved
    rw [body, List.length_drop]
    refine ⟨reads_ofHead small, ?_⟩
    change headerSize ≤ stream.length at present
    change headerSize ≤ count at whole
    have four : headerSize = 4 := rfl
    omega

end PacketReader

end Luce
