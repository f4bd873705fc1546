/-
This file is a theory of readers of binary formats.

A cursor is a buffer with a read position. A reader takes a value off the cursor
and advances it, or stops with a fault: it touched a symbol outside the buffer,
its position left the range of its counter, or it turned the input away. A
format says what a reader is for, without saying how it reads: which images
encode a value, and which inputs are turned away (with the number of symbols
that are read before they are). Both may depend on the position: a reader that
asks for something on its way may be granted it in one place and not in another.

A reader is exact for a format when its outcome is decided by the format alone:
it returns a value exactly from inputs that begin with an image of that value,
advanced by exactly the length of the image, and it refuses exactly the inputs
that the format turns away. Everything else is a fault. The rules build exact
readers from exact readers: one that is granted something first, one after
another where the first value decides how the rest is read, and one for each
element of a list.
-/

import Mathlib.Data.List.Basic

namespace Library.Binary

/-! ### Cursors and readers -/

/-- A buffer with a read position. -/
structure Cursor (Symbol : Type) where
  buffer : List Symbol
  position : Nat
deriving DecidableEq, Repr

/-- Why a reader stopped. -/
inductive Fault where
  /-- A symbol outside the buffer was read. -/
  | outOfBounds
  /-- The read position left the range of its counter. -/
  | overflow
  /-- The input was turned away. -/
  | refused
deriving DecidableEq, Repr

/-- A computation that takes a value off a cursor. -/
abbrev Reader (Symbol Value : Type) := Cursor Symbol → Except Fault (Value × Cursor Symbol)

variable {Symbol Value Header Last Target : Type}

namespace Cursor

/-- What is left to read. -/
def remaining (cursor : Cursor Symbol) : List Symbol := cursor.buffer.drop cursor.position

def advance (cursor : Cursor Symbol) (count : Nat) : Cursor Symbol :=
  { cursor with position := cursor.position + count }

/-- The position is inside the buffer and inside the range of its counter. -/
structure Inside (limit : Nat) (cursor : Cursor Symbol) : Prop where
  buffer : cursor.position ≤ cursor.buffer.length
  range : cursor.position < limit

/-- The next `count` symbols. -/
def take (limit count : Nat) : Reader Symbol {image : List Symbol // image.length = count} :=
  fun cursor =>
    if inside : count = 0 ∨ cursor.position + count ≤ cursor.buffer.length then
      if cursor.position + count < limit then
        .ok (⟨cursor.remaining.take count, by
          rw [remaining, List.length_take, List.length_drop]; omega⟩, cursor.advance count)
      else .error .overflow
    else .error .outOfBounds

@[simp] theorem advance_advance (cursor : Cursor Symbol) (first second : Nat) :
    (cursor.advance first).advance second = cursor.advance (first + second) := by
  simp [advance, Nat.add_assoc]

@[simp] theorem advance_position (cursor : Cursor Symbol) (count : Nat) :
    (cursor.advance count).position = cursor.position + count := rfl

theorem remaining_advance {cursor : Cursor Symbol} {image rest : List Symbol}
    (starts : cursor.remaining = image ++ rest) :
    (cursor.advance image.length).remaining = rest := by
  have dropped : (cursor.advance image.length).remaining =
      cursor.remaining.drop image.length := by
    simp only [remaining, advance, List.drop_drop]
  rw [dropped, starts, List.drop_left]

/-- A cursor that sees an image stays inside when it advances over it. -/
theorem Inside.advance {limit : Nat} {cursor : Cursor Symbol} (inside : cursor.Inside limit)
    {image rest : List Symbol} (starts : cursor.remaining = image ++ rest)
    (range : cursor.position + image.length < limit) :
    (cursor.advance image.length).Inside limit := by
  have length := congrArg List.length starts
  rw [remaining, List.length_drop, List.length_append] at length
  have := inside.buffer
  exact ⟨show cursor.position + image.length ≤ cursor.buffer.length by omega, range⟩

end Cursor

/-! ### Formats and exact readers -/

/-- What a reader is for, from each position: the images that encode a value, and the
inputs that are turned away, with the number of symbols read before they are. -/
structure Format (Symbol Value : Type) where
  encodes : Nat → Value → List Symbol → Prop
  refuses : Nat → List Symbol → Nat → Prop

/-- Input that begins with an image of this value, within the range of the
position counter. -/
def Format.Begins (format : Format Symbol Value) (limit : Nat) (cursor : Cursor Symbol)
    (value : Value) (image : List Symbol) : Prop :=
  format.encodes cursor.position value image ∧ (∃ rest, cursor.remaining = image ++ rest) ∧
    cursor.position + image.length < limit

/-- Input that is turned away, within the range of the position counter. -/
def Format.TurnsAway (format : Format Symbol Value) (limit : Nat) (cursor : Cursor Symbol) :
    Prop :=
  ∃ count, format.refuses cursor.position cursor.remaining count ∧
    cursor.position + count < limit

/-- The outcome of the reader is decided by the format, from every cursor whose
position is inside the buffer and the range of its counter. -/
structure Exact (limit : Nat) (reader : Reader Symbol Value) (format : Format Symbol Value) :
    Prop where
  accepts : ∀ cursor value image, format.Begins limit cursor value image →
    reader cursor = .ok (value, cursor.advance image.length)
  sound : ∀ cursor value next, cursor.Inside limit → reader cursor = .ok (value, next) →
    ∃ image, format.Begins limit cursor value image ∧ next = cursor.advance image.length
  refuses_iff : ∀ cursor, cursor.Inside limit →
    (reader cursor = .error .refused ↔ format.TurnsAway limit cursor)

namespace Exact

variable {limit : Nat} {reader : Reader Symbol Value} {format : Format Symbol Value}

/-- An exact reader touches nothing outside the buffer and keeps its position in
range exactly when the input begins with a value or is turned away. -/
theorem safe_iff (exact : Exact limit reader format) {cursor : Cursor Symbol}
    (inside : cursor.Inside limit) :
    (∀ fault, reader cursor = .error fault → fault = .refused) ↔
      (∃ value image, format.Begins limit cursor value image) ∨
        format.TurnsAway limit cursor := by
  constructor
  · intro safe
    cases outcome : reader cursor with
    | ok result =>
      obtain ⟨image, begins, _⟩ := exact.sound cursor result.1 result.2 inside outcome
      exact Or.inl ⟨result.1, image, begins⟩
    | error fault =>
      rw [safe fault outcome] at outcome
      exact Or.inr ((exact.refuses_iff cursor inside).mp outcome)
  · rintro (⟨value, image, begins⟩ | away) fault outcome
    · rw [exact.accepts cursor value image begins] at outcome
      cases outcome
    · rw [(exact.refuses_iff cursor inside).mpr away] at outcome
      cases outcome
      rfl

/-- An exact reader leaves the cursor inside. -/
theorem inside (exact : Exact limit reader format) {cursor next : Cursor Symbol}
    (start : cursor.Inside limit) {value : Value} (outcome : reader cursor = .ok (value, next)) :
    next.Inside limit := by
  obtain ⟨image, ⟨_, ⟨rest, starts⟩, range⟩, rfl⟩ := exact.sound cursor value next start outcome
  exact start.advance starts range

/-- The input decides the image a value was read from. -/
theorem image_unique (exact : Exact limit reader format) {cursor : Cursor Symbol}
    {first second : Value} {left right : List Symbol}
    (begins : format.Begins limit cursor first left)
    (again : format.Begins limit cursor second right) : first = second ∧ left = right := by
  have same := (exact.accepts cursor first left begins).symm.trans
    (exact.accepts cursor second right again)
  obtain ⟨rfl, advanced⟩ := Prod.mk.inj (Except.ok.inj same)
  have length : left.length = right.length := by
    have positions := congrArg Cursor.position advanced
    simpa using positions
  obtain ⟨_, ⟨rest, starts⟩, _⟩ := begins
  obtain ⟨_, ⟨tail, sameStart⟩, _⟩ := again
  exact ⟨rfl, (List.append_inj (starts.symm.trans sameStart) length).1⟩

end Exact

/-! ### Fixed-size images -/

/-- The format of a value that is its own image of `count` symbols. -/
def Format.fixed (count : Nat) : Format Symbol {image : List Symbol // image.length = count} where
  encodes _ value image := value.val = image
  refuses _ _ _ := False

/-- Taking a fixed number of symbols is exact. -/
theorem take_exact (limit count : Nat) :
    Exact limit (Cursor.take limit count) (Format.fixed count : Format Symbol _) where
  accepts cursor value image begins := by
    obtain ⟨held, rfl⟩ := value
    obtain ⟨same, ⟨rest, starts⟩, range⟩ := begins
    obtain rfl : held = image := same
    have length := congrArg List.length starts
    rw [Cursor.remaining, List.length_drop, List.length_append] at length
    unfold Cursor.take
    rw [dif_pos (by omega), if_pos range]
    simp only [starts, List.take_left]
  sound cursor value next _ outcome := by
    unfold Cursor.take at outcome
    split at outcome
    · split at outcome
      · rename_i range
        obtain ⟨rfl, rfl⟩ := Prod.mk.inj (Except.ok.inj outcome)
        have length : (cursor.remaining.take count).length = count := by
          rw [Cursor.remaining, List.length_take, List.length_drop]
          omega
        refine ⟨_, ⟨rfl, ⟨_, (List.take_append_drop count cursor.remaining).symm⟩, ?_⟩, ?_⟩
        · rwa [length]
        · rw [length]
      · cases outcome
    · cases outcome
  refuses_iff cursor _ := by
    simp only [Format.TurnsAway, Format.fixed, false_and, exists_false, iff_false]
    unfold Cursor.take
    split
    · split <;> exact fun outcome => by cases outcome
    · exact fun outcome => by cases outcome

/-! ### Readers that have to be granted something -/

/-- Reads if that is granted at the position. -/
def granted (grants : Nat → Bool) (reader : Reader Symbol Value) : Reader Symbol Value :=
  fun cursor => if grants cursor.position then reader cursor else .error .refused

/-- The format that is turned away at once where it is not granted. -/
def Format.granted (grants : Nat → Bool) (format : Format Symbol Value) :
    Format Symbol Value where
  encodes position value image := grants position = true ∧ format.encodes position value image
  refuses position input count := grants position = false ∧ count = 0 ∨
    grants position = true ∧ format.refuses position input count

/-- Reading what is granted is exact. -/
theorem Exact.granted {limit : Nat} {reader : Reader Symbol Value} {format : Format Symbol Value}
    (exact : Exact limit reader format) (grants : Nat → Bool) :
    Exact limit (Binary.granted grants reader) (format.granted grants) where
  accepts cursor value image begins := by
    obtain ⟨⟨given, encodes⟩, starts⟩ := begins
    rw [Binary.granted, if_pos given]
    exact exact.accepts cursor value image ⟨encodes, starts⟩
  sound cursor value next inside outcome := by
    unfold Binary.granted at outcome
    split at outcome
    case isTrue given =>
      obtain ⟨image, ⟨encodes, starts⟩, advanced⟩ := exact.sound cursor value next inside outcome
      exact ⟨image, ⟨⟨given, encodes⟩, starts⟩, advanced⟩
    case isFalse => cases outcome
  refuses_iff cursor inside := by
    unfold Binary.granted
    split
    case isTrue given =>
      rw [exact.refuses_iff cursor inside]
      simp only [Format.TurnsAway, Format.granted, given, Bool.true_eq_false, false_and, false_or,
        true_and]
    case isFalse withheld =>
      rw [Bool.not_eq_true] at withheld
      exact ⟨fun _ => ⟨0, .inl ⟨withheld, rfl⟩, inside.range⟩, fun _ => rfl⟩

/-! ### One reader after another -/

/-- Reads a header, then what the header announces, and combines the two. -/
def andThen (header : Reader Symbol Header) (body : Header → Reader Symbol Last)
    (combine : Header → Last → Value) : Reader Symbol Value := fun cursor =>
  match header cursor with
  | .error fault => .error fault
  | .ok (first, middle) =>
    match body first middle with
    | .error fault => .error fault
    | .ok (last, next) => .ok (combine first last, next)

/-- The format of a header followed by what the header announces. -/
def Format.andThen (header : Format Symbol Header) (body : Header → Format Symbol Last)
    (combine : Header → Last → Value) : Format Symbol Value where
  encodes position value image := ∃ first last left right, header.encodes position first left ∧
    (body first).encodes (position + left.length) last right ∧ value = combine first last ∧
      image = left ++ right
  refuses position input count := header.refuses position input count ∨
    ∃ first left rest further, header.encodes position first left ∧ input = left ++ rest ∧
      (body first).refuses (position + left.length) rest further ∧ count = left.length + further

/-- Reading a header and then what it announces is exact. -/
theorem Exact.andThen {limit : Nat} {headerReader : Reader Symbol Header}
    {header : Format Symbol Header} {bodyReader : Header → Reader Symbol Last}
    {body : Header → Format Symbol Last} (combine : Header → Last → Value)
    (headerExact : Exact limit headerReader header)
    (bodyExact : ∀ first, Exact limit (bodyReader first) (body first)) :
    Exact limit (Binary.andThen headerReader bodyReader combine)
      (header.andThen body combine) where
  accepts cursor value image begins := by
    obtain ⟨⟨first, last, left, right, isHeader, isBody, rfl, rfl⟩, ⟨rest, starts⟩, range⟩ :=
      begins
    rw [List.append_assoc] at starts
    rw [List.length_append] at range
    have read := headerExact.accepts cursor first left ⟨isHeader, ⟨_, starts⟩, by omega⟩
    have readBody := (bodyExact first).accepts (cursor.advance left.length) last right
      ⟨isBody, ⟨rest, Cursor.remaining_advance starts⟩, by rw [Cursor.advance_position]; omega⟩
    simp only [Binary.andThen, read, readBody, Cursor.advance_advance, List.length_append]
  sound cursor value next inside outcome := by
    cases read : headerReader cursor with
    | error fault =>
      simp only [Binary.andThen, read] at outcome
      cases outcome
    | ok result =>
      obtain ⟨first, middle⟩ := result
      obtain ⟨left, ⟨isHeader, ⟨rest, starts⟩, range⟩, rfl⟩ :=
        headerExact.sound cursor first middle inside read
      cases readBody : bodyReader first (cursor.advance left.length) with
      | error fault =>
        simp only [Binary.andThen, read, readBody] at outcome
        cases outcome
      | ok result =>
        obtain ⟨last, final⟩ := result
        obtain ⟨right, ⟨isBody, ⟨tail, tailStarts⟩, tailRange⟩, rfl⟩ :=
          (bodyExact first).sound _ last final (inside.advance starts range) readBody
        simp only [Binary.andThen, read, readBody] at outcome
        obtain ⟨rfl, rfl⟩ := Prod.mk.inj (Except.ok.inj outcome)
        rw [Cursor.remaining_advance starts] at tailStarts
        rw [Cursor.advance_position] at tailRange
        refine ⟨left ++ right, ⟨⟨first, last, left, right, isHeader, isBody, rfl, rfl⟩,
          ⟨tail, by rw [starts, tailStarts, List.append_assoc]⟩, ?_⟩, ?_⟩
        · rw [List.length_append]
          omega
        · rw [Cursor.advance_advance, List.length_append]
  refuses_iff cursor inside := by
    cases read : headerReader cursor with
    | error fault =>
      have outcome : Binary.andThen headerReader bodyReader combine cursor = .error .refused ↔
          headerReader cursor = .error .refused := by
        simp only [Binary.andThen, read, Except.error.injEq]
      rw [outcome, headerExact.refuses_iff cursor inside]
      constructor
      · rintro ⟨count, refuses, range⟩
        exact ⟨count, Or.inl refuses, range⟩
      · rintro ⟨count, refuses | ⟨first, left, rest, further, isHeader, starts, _, rfl⟩, range⟩
        · exact ⟨count, refuses, range⟩
        · rw [headerExact.accepts cursor first left ⟨isHeader, ⟨rest, starts⟩, by omega⟩] at read
          cases read
    | ok result =>
      obtain ⟨first, middle⟩ := result
      obtain ⟨left, begins, rfl⟩ := headerExact.sound cursor first middle inside read
      obtain ⟨isHeader, ⟨rest, starts⟩, range⟩ := begins
      have outcome : Binary.andThen headerReader bodyReader combine cursor = .error .refused ↔
          bodyReader first (cursor.advance left.length) = .error .refused := by
        simp only [Binary.andThen, read]
        cases bodyReader first (cursor.advance left.length) <;> simp
      rw [outcome, (bodyExact first).refuses_iff _ (inside.advance starts range),
        Format.TurnsAway, Cursor.remaining_advance starts, Cursor.advance_position]
      constructor
      · rintro ⟨further, refuses, bodyRange⟩
        exact ⟨_, Or.inr ⟨first, left, rest, further, isHeader, starts, refuses, rfl⟩, by omega⟩
      · rintro ⟨count, refuses | ⟨other, leftToo, tail, further, isToo, same, refuses, rfl⟩,
          countRange⟩
        · have refused := (headerExact.refuses_iff cursor inside).mpr ⟨count, refuses, countRange⟩
          rw [read] at refused
          cases refused
        · obtain ⟨rfl, rfl⟩ := headerExact.image_unique ⟨isHeader, ⟨rest, starts⟩, range⟩
            ⟨isToo, ⟨tail, same⟩, by omega⟩
          obtain rfl := List.append_cancel_left (starts.symm.trans same)
          exact ⟨further, refuses, by omega⟩

/-! ### One reader for each element -/

/-- Reads nothing. -/
def done (value : Value) : Reader Symbol Value := fun cursor => .ok (value, cursor)

/-- The format of a value that takes no room. -/
def Format.empty (only : Value) : Format Symbol Value where
  encodes _ value image := value = only ∧ image = []
  refuses _ _ _ := False

theorem done_exact (limit : Nat) (value : Value) :
    Exact limit (done value) (Format.empty value : Format Symbol Value) where
  accepts cursor other image begins := by
    obtain ⟨⟨rfl, rfl⟩, _, _⟩ := begins
    rfl
  sound cursor other next inside outcome := by
    obtain ⟨rfl, rfl⟩ := Prod.mk.inj (Except.ok.inj outcome)
    exact ⟨[], ⟨⟨rfl, rfl⟩, ⟨_, rfl⟩, inside.range⟩, rfl⟩
  refuses_iff cursor _ := by
    simp only [Format.TurnsAway, Format.empty, false_and, exists_false, iff_false]
    exact fun outcome => by cases outcome

/-- Reads a value for each target in turn. -/
def each (read : Target → Reader Symbol Value) : List Target → Reader Symbol (List Value)
  | [] => done []
  | target :: targets => andThen (read target) (fun _ => each read targets) List.cons

/-- The format of `count` values one after another. -/
def Format.copies (format : Format Symbol Value) : Nat → Format Symbol (List Value)
  | 0 => .empty []
  | count + 1 => format.andThen (fun _ => format.copies count) List.cons

/-- Reading one value for each target is exact, whatever the targets hold. -/
theorem each_exact {limit : Nat} {read : Target → Reader Symbol Value}
    {format : Format Symbol Value} (exact : ∀ target, Exact limit (read target) format)
    (targets : List Target) :
    Exact limit (each read targets) (format.copies targets.length) := by
  induction targets with
  | nil => exact done_exact limit []
  | cons target targets inductionHypothesis =>
    exact (exact target).andThen List.cons fun _ => inductionHypothesis

end Library.Binary
