/-
This file follows the buffer that the server reads requests into.

`AsyncRead` leaves the buffer with as many elements as there are bytes in it, so the
terminator that is then written behind the bytes is written behind the last element, after
each read. Behind the elements there is still the storage that the buffer was made with:
the byte falls into it unless the read has filled it.
-/

import Luce.Http.HttpServer

namespace Luce.Http

/-- A vector of bytes: its storage begins with its elements. -/
structure ReadBuffer where
  storage : Bytes
  size : Nat
  inside : size ≤ storage.length

namespace ReadBuffer

/-- A vector that is made with this size. -/
def new (size : Nat) : ReadBuffer := ⟨List.replicate size 0, size, by rw [List.length_replicate]⟩

/-- `resize` of a vector: elements that are given up stay in the storage, and new ones are
zero. -/
def resize (buffer : ReadBuffer) (size : Nat) : ReadBuffer :=
  if fits : size ≤ buffer.size then
    { buffer with size, inside := fits.trans buffer.inside }
  else
    { storage := Luce.resize (buffer.storage.take buffer.size) size 0 ++ buffer.storage.drop size
      size
      inside := by
        rw [List.length_append, length_resize]
        exact Nat.le_add_right _ _ }

/-- `buffer[index] = byte`, where there is storage at the index. -/
def put (buffer : ReadBuffer) (index : Nat) (byte : Byte) : ReadBuffer :=
  { buffer with
    storage := buffer.storage.set index byte
    inside := by
      rw [List.length_set]
      exact buffer.inside }

/-- `AsyncRead`, if the successful `::read` in it stores these bytes. -/
def asyncRead (buffer : ReadBuffer) (chunk : Bytes) : ReadBuffer :=
  resize
    { buffer with
      storage := chunk ++ buffer.storage.drop chunk.length
      inside := by
        have inside := buffer.inside
        rw [List.length_append, List.length_drop]
        omega }
    chunk.length

/-- The C string at the beginning of the storage. -/
def text (buffer : ReadBuffer) : Bytes := cString buffer.storage

@[simp] theorem length_storage_new (size : Nat) : (new size).storage.length = size :=
  List.length_replicate

theorem size_resize (buffer : ReadBuffer) (size : Nat) : (buffer.resize size).size = size := by
  unfold resize
  split <;> rfl

/-- A size that the storage has room for does not change its length. -/
theorem length_storage_resize (buffer : ReadBuffer) {size : Nat}
    (room : size ≤ buffer.storage.length) :
    (buffer.resize size).storage.length = buffer.storage.length := by
  unfold resize
  split
  · rfl
  · simp only [List.length_append, length_resize, List.length_drop]
    omega

variable (buffer : ReadBuffer) {chunk : Bytes}

/-- `AsyncRead` leaves as many elements as it has read bytes. -/
theorem size_asyncRead (chunk : Bytes) : (buffer.asyncRead chunk).size = chunk.length :=
  size_resize _ _

/-- The bytes are at the beginning of the storage, and the rest of it is as before. -/
theorem storage_asyncRead (fits : chunk.length ≤ buffer.size) :
    (buffer.asyncRead chunk).storage = chunk ++ buffer.storage.drop chunk.length := by
  rw [asyncRead, resize, dif_pos fits]

theorem length_storage_asyncRead (fits : chunk.length ≤ buffer.size) :
    (buffer.asyncRead chunk).storage.length = buffer.storage.length := by
  have inside := buffer.inside
  rw [storage_asyncRead buffer fits, List.length_append, List.length_drop]
  omega

/-- A terminator in the storage behind the bytes ends the text there at the latest. -/
theorem text_put (fits : chunk.length ≤ buffer.size) (room : chunk.length < buffer.storage.length) :
    ((buffer.asyncRead chunk).put chunk.length 0).text = cString chunk := by
  have behind : buffer.storage.drop chunk.length ≠ [] := by
    rw [ne_eq, List.drop_eq_nil_iff]
    omega
  obtain ⟨first, more, rest⟩ := List.exists_cons_of_ne_nil behind
  have written : ((buffer.asyncRead chunk).put chunk.length 0).storage = chunk ++ 0 :: more := by
    change (buffer.asyncRead chunk).storage.set chunk.length 0 = _
    rw [buffer.storage_asyncRead fits, rest, List.set_append_right _ _ le_rfl, Nat.sub_self]
    rfl
  rw [text, written]
  exact cString_append_zero chunk more

end ReadBuffer

/-! ### The terminators of a run -/

/-- `buffer[recv_len] = '\0'`. -/
structure Terminator where
  buffer : ReadBuffer
  recvLen : Nat

namespace Terminator

/-- It is one of the elements, and the text then ends at it at the latest. -/
def Inside (terminator : Terminator) : Prop :=
  terminator.recvLen < terminator.buffer.size ∧
    (terminator.buffer.put terminator.recvLen 0).text.length ≤ terminator.recvLen

end Terminator

/-- The coroutine with its buffer, and the terminators that it has written. -/
structure Reading where
  serving : Serving
  buffer : ReadBuffer
  terminators : List Terminator

namespace Reading

def initial : Reading := ⟨.initial, .new maxRequestSize, []⟩

/-- The buffer that `AsyncRead` is given: a new one for a request, and the same one at its
full size for the rest of a body. -/
def given (reading : Reading) : ReadBuffer :=
  match reading.serving.progress with
  | .receiving _ _ => reading.buffer.resize maxRequestSize
  | _ => .new maxRequestSize

/-- A terminator is written behind what has been read, and the coroutine goes on. -/
def terminate (reading : Reading) (chunk : Bytes) : Reading :=
  let buffer := reading.given.asyncRead chunk
  { serving := reading.serving.step chunk
    buffer := buffer.put chunk.length 0
    terminators := reading.terminators ++ [⟨buffer, chunk.length⟩] }

def step (reading : Reading) (chunk : Bytes) : Reading :=
  match reading.serving.progress with
  | .waiting =>
    if chunk.isEmpty then { reading with buffer := reading.given.asyncRead chunk }
    else reading.terminate chunk
  | .receiving _ _ => reading.terminate chunk
  | .returned | .failed _ => reading

/-- Nothing but the buffer is added to the coroutine. -/
theorem serving_step (reading : Reading) (chunk : Bytes) :
    (reading.step chunk).serving = reading.serving.step chunk := by
  cases progress : reading.serving.progress with
  | waiting =>
    simp only [step, progress]
    split
    case isTrue empty => simp only [Serving.step, progress, empty, if_true]
    case isFalse => rfl
  | receiving request contentLen =>
    simp only [step, progress]
    rfl
  | returned => simp only [step, progress, Serving.step]
  | failed fault => simp only [step, progress, Serving.step]

/-- The storage is the one that the buffer was made with. -/
def Kept (reading : Reading) : Prop := reading.buffer.storage.length = maxRequestSize

theorem Kept.given {reading : Reading} (kept : reading.Kept) :
    reading.given.storage.length = maxRequestSize ∧ reading.given.size = maxRequestSize := by
  unfold Reading.given
  split
  · have room : maxRequestSize ≤ reading.buffer.storage.length := kept.ge
    exact ⟨(reading.buffer.length_storage_resize room).trans kept, ReadBuffer.size_resize _ _⟩
  · exact ⟨ReadBuffer.length_storage_new _, rfl⟩

/-- What the coroutine takes for the text is what is at the beginning of the storage. -/
theorem received_eq {reading : Reading} (kept : reading.Kept) {chunk : Bytes}
    (fits : chunk.length ≤ maxRequestSize) :
    received chunk =
      if chunk.length < (reading.given.asyncRead chunk).storage.length then
        .ok ((reading.given.asyncRead chunk).put chunk.length 0).text
      else .error .bufferEnd := by
  obtain ⟨storage, size⟩ := kept.given
  have room : chunk.length ≤ reading.given.size := fits.trans size.ge
  rw [ReadBuffer.length_storage_asyncRead _ room, storage, received]
  split
  case isTrue less => rw [ReadBuffer.text_put _ room (less.trans_eq storage.symm)]
  case isFalse => rfl

/-- The buffer has its storage, and each terminator has been written behind the elements. -/
structure Sound (reading : Reading) : Prop where
  kept : reading.Kept
  behind : ∀ terminator ∈ reading.terminators, terminator.recvLen = terminator.buffer.size ∧
    terminator.buffer.storage.length = maxRequestSize

theorem Sound.terminate {reading : Reading} (sound : reading.Sound) {chunk : Bytes}
    (fits : chunk.length ≤ maxRequestSize) : (reading.terminate chunk).Sound := by
  obtain ⟨storage, size⟩ := sound.kept.given
  have length := (ReadBuffer.length_storage_asyncRead _ (fits.trans size.ge)).trans storage
  refine ⟨(List.length_set ..).trans length, fun terminator among => ?_⟩
  obtain earlier | here := List.mem_append.mp among
  · exact sound.behind terminator earlier
  · rw [List.mem_singleton.mp here]
    exact ⟨(ReadBuffer.size_asyncRead _ chunk).symm, length⟩

theorem Sound.step {reading : Reading} (sound : reading.Sound) {chunk : Bytes}
    (fits : chunk.length ≤ maxRequestSize) : (reading.step chunk).Sound := by
  cases progress : reading.serving.progress with
  | waiting =>
    simp only [Reading.step, progress]
    split
    case isTrue =>
      obtain ⟨storage, size⟩ := sound.kept.given
      exact ⟨(ReadBuffer.length_storage_asyncRead _ (fits.trans size.ge)).trans storage,
        sound.behind⟩
    case isFalse => exact sound.terminate fits
  | receiving request contentLen =>
    simp only [Reading.step, progress]
    exact sound.terminate fits
  | returned | failed fault =>
    simp only [Reading.step, progress]
    exact sound

theorem Sound.foldl {reading : Reading} (sound : reading.Sound) {reads : List Bytes}
    (fits : ∀ chunk ∈ reads, chunk.length ≤ maxRequestSize) :
    (reads.foldl Reading.step reading).Sound := by
  induction reads generalizing reading with
  | nil => exact sound
  | cons chunk reads inductionHypothesis =>
    obtain ⟨first, others⟩ := List.forall_mem_cons.mp fits
    exact inductionHypothesis (sound.step first) others

/-- Terminators that have been written stay written. -/
theorem terminators_prefix_step (reading : Reading) (chunk : Bytes) :
    reading.terminators <+: (reading.step chunk).terminators := by
  unfold step
  split
  · split
    · exact List.prefix_rfl
    · exact List.prefix_append _ _
  · exact List.prefix_append _ _
  · exact List.prefix_rfl
  · exact List.prefix_rfl

theorem terminators_prefix_foldl (reading : Reading) (reads : List Bytes) :
    reading.terminators <+: (reads.foldl step reading).terminators := by
  induction reads generalizing reading with
  | nil => exact List.prefix_rfl
  | cons chunk reads inductionHypothesis =>
    exact (reading.terminators_prefix_step chunk).trans (inductionHypothesis _)

/-- The buffer goes along with the coroutine. -/
theorem serving_foldl (reading : Reading) (reads : List Bytes) :
    (reads.foldl step reading).serving = reads.foldl Serving.step reading.serving := by
  induction reads generalizing reading with
  | nil => rfl
  | cons chunk reads inductionHypothesis =>
    rw [List.foldl_cons, List.foldl_cons, inductionHypothesis, serving_step]

end Reading

/-- The coroutine with its buffer, as far as these reads take it. -/
def readingAfter (reads : List Bytes) : Reading := reads.foldl Reading.step .initial

theorem readingAfter_serving (reads : List Bytes) :
    (readingAfter reads).serving = onRequest reads :=
  Reading.serving_foldl _ _

theorem Reading.initial_sound : Reading.initial.Sound where
  kept := ReadBuffer.length_storage_new _
  behind := fun _ among => nomatch among

theorem readingAfter_sound {reads : List Bytes}
    (fits : ∀ chunk ∈ reads, chunk.length ≤ maxRequestSize) : (readingAfter reads).Sound :=
  Reading.initial_sound.foldl fits

/-- A terminator is written behind the first read. -/
theorem exists_terminator {chunk : Bytes} (some : chunk ≠ []) (reads : List Bytes) :
    ∃ terminator, terminator ∈ (readingAfter (chunk :: reads)).terminators := by
  have nonempty : chunk.isEmpty = false := by simpa using some
  have first : (Reading.initial.step chunk).terminators =
      [⟨Reading.initial.given.asyncRead chunk, chunk.length⟩] := by
    simp only [Reading.step, Reading.initial, Serving.initial, nonempty]
    rfl
  have stays := (Reading.initial.step chunk).terminators_prefix_foldl reads
  rw [first] at stays
  exact ⟨_, stays.subset (List.mem_singleton_self _)⟩

/-- No terminator is written inside the buffer. -/
theorem not_inside {reads : List Bytes} (fits : ∀ chunk ∈ reads, chunk.length ≤ maxRequestSize)
    {terminator : Terminator} (among : terminator ∈ (readingAfter reads).terminators) :
    ¬ terminator.Inside :=
  fun inside => inside.1.ne ((readingAfter_sound fits).behind terminator among).1

/-- All terminators are written inside the buffer exactly if there is none, as nothing has
been read. -/
theorem terminators_inside_iff (reads : List Bytes)
    (lengths : ∀ chunk ∈ reads, 1 ≤ chunk.length ∧ chunk.length ≤ maxRequestSize) :
    (∀ terminator ∈ (readingAfter reads).terminators, terminator.Inside) ↔ reads = [] := by
  constructor
  · intro inside
    match reads with
    | [] => rfl
    | chunk :: reads =>
      have some := List.ne_nil_of_length_pos (lengths chunk (List.mem_cons_self ..)).1
      obtain ⟨terminator, among⟩ := exists_terminator some reads
      have outside := not_inside (fun chunk member => (lengths chunk member).2) among
      exact absurd (inside terminator among) outside
  · rintro rfl
    exact nofun

/-- A request for the start page in one read. -/
theorem terminators_inside_sample :
    (∀ terminator ∈ (readingAfter [ascii "GET / HTTP/1.1\r\n\r\n"]).terminators,
        terminator.Inside) ↔ [ascii "GET / HTTP/1.1\r\n\r\n"] = [] :=
  terminators_inside_iff _ (by decide)

/-- Its terminator is not inside the buffer. -/
theorem terminator_outside :
    ¬ ∀ terminator ∈ (readingAfter [ascii "GET / HTTP/1.1\r\n\r\n"]).terminators,
        terminator.Inside := by
  intro inside
  have some : ascii "GET / HTTP/1.1\r\n\r\n" ≠ [] := by decide
  obtain ⟨terminator, among⟩ := exists_terminator some []
  exact not_inside (by decide) among (inside terminator among)

end Luce.Http
