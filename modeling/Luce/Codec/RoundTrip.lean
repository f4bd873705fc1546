/-
This file draws the two consequences of the exact wire format: values that were
serialized are read back, and what an arbitrary buffer does to the reader.

The round trip holds for every list of types and values, behind any prior buffer
content and before any following bytes, into any targets. Its only bounds are the
four-byte container lengths and the `int` position. Memory safety on an arbitrary
packet is another matter: nothing compares a length with the buffer, so the
reader stays inside exactly when the packet begins with complete encodings of
the requested types, or when `resize` throws before the bytes run out. That is
said for whatever `resize` may grant, the round trip for enough memory.
-/

import Luce.Codec.Format

namespace Luce

open Library.Binary

/-! ### Round trip -/

mutual

/-- Container lengths fit their four bytes, at every depth. -/
def Ty.Fits : (type : Ty) → type.Val → Prop
  | .arithmetic _, _ => True
  | .string, _ => True
  | .sequence _ element, value => SequenceValid (fun item => element.Fits item) value
  | .tuple elements, value => Ty.AllFit elements value
  | .user fields, value => Ty.AllFit fields value

def Ty.AllFit : (types : List Ty) → Ty.Vals types → Prop
  | [], _ => True
  | type :: types, values => type.Fits values.1 ∧ Ty.AllFit types values.2

end

theorem length_item_le {Element : Type} (image : Element → Bytes) {item : Element}
    {value : List Element} (member : item ∈ value) :
    (image item).length ≤ (sequenceImage image value).length := by
  have part : (image item).Sublist (value.flatMap image) :=
    List.sublist_flatten_of_mem (List.mem_map_of_mem member)
  rw [sequenceImage, List.length_append]
  exact part.length_le.trans (Nat.le_add_left _ _)

theorem StringValid.of_small (runtime : Runtime) {value : Bytes}
    (small : (stringImage value).length < 2 ^ 31) : StringValid runtime value := by
  have := runtime.large
  rw [stringImage, List.length_append] at small
  unfold StringValid
  omega

mutual

/-- A value whose containers fit and whose image is short is valid. -/
theorem valid_of_fits (runtime : Runtime) : ∀ (type : Ty) (value : type.Val),
    type.Fits value → (type.image value).length < 2 ^ 31 → type.Valid runtime value
  | .arithmetic _, _, _, _ => trivial
  | .string, _, _, small => StringValid.of_small runtime small
  | .sequence _ element, _, fits, small =>
    ⟨fits.1, fun item member => valid_of_fits runtime element item (fits.2 item member)
      ((length_item_le (fun item => element.image item) member).trans_lt small)⟩
  | .tuple elements, value, fits, small => allValid_of_allFit runtime elements value fits small
  | .user fields, value, fits, small => allValid_of_allFit runtime fields value fits small

theorem allValid_of_allFit (runtime : Runtime) : ∀ (types : List Ty) (values : Ty.Vals types),
    Ty.AllFit types values → (Ty.images types values).length < 2 ^ 31 →
      Ty.AllValid runtime types values
  | [], _, _, _ => trivial
  | type :: types, values, fits, small => by
    rw [Ty.images, List.length_append] at small
    exact ⟨valid_of_fits runtime type values.1 fits.1 (by omega),
      allValid_of_allFit runtime types values.2 fits.2 (by omega)⟩

end

/-- Reading a buffer that holds the image of a value at the cursor gives the value
and moves the cursor to the end of the image. -/
theorem deserialize_image (runtime : Runtime) (type : Ty) (value target : type.Val)
    (before following : Bytes) (fits : type.Fits value)
    (small : before.length + (type.image value).length < 2 ^ 31) :
    deserialize runtime type target
        ⟨before ++ type.image value ++ following, before.length⟩ =
      .ok (value, ⟨before ++ type.image value ++ following,
        before.length + (type.image value).length⟩) := by
  have valid := valid_of_fits runtime type value fits (by omega)
  refine (deserialize_exact runtime type target).accepts _ value (type.image value)
    ⟨(encodes_iff_valid runtime type _ value _).mpr ⟨valid, rfl⟩, ⟨following, ?_⟩, small⟩
  rw [Cursor.remaining, List.append_assoc, List.drop_left]

/-- Serializing values behind any buffer content and deserializing them where they
begin, into any targets and with any bytes following, gives exactly those values
and advances the position by exactly the bytes appended. -/
theorem deserialize_serialize (runtime : Runtime) (types : List Ty)
    (values targets : Ty.Vals types) (serializer : Serializer) (following : Bytes)
    (fits : Ty.AllFit types values)
    (small : ((serializeAll types values serializer).buffer ++ following).length < 2 ^ 31) :
    deserializeAll runtime types targets
        ⟨(serializeAll types values serializer).buffer ++ following, serializer.buffer.length⟩ =
      .ok (values, ⟨(serializeAll types values serializer).buffer ++ following,
        (serializeAll types values serializer).buffer.length⟩) := by
  rw [serializeAll_eq] at small ⊢
  simp only [append, List.length_append] at small ⊢
  exact deserialize_image runtime (.tuple types) values targets serializer.buffer following fits
    (show _ + (Ty.images types values).length < _ by omega)

/-- The limits of a 64-bit standard library. -/
def sixtyFourBit : Runtime := ⟨2 ^ 63 - 1, by decide, by decide⟩

/-- A named age and a container of short names, written behind one byte and read
into targets with old contents. -/
theorem deserialize_serialize_struct :
    deserializeAll sixtyFourBit [.user [.string, .arithmetic .int32], .sequence .list .string]
        ((ascii "old name", Arithmetic.int32.store 7, ()), [ascii "kept", ascii "dropped"], ())
        ⟨(serializeAll [.user [.string, .arithmetic .int32], .sequence .list .string]
          ((ascii "Alice", Arithmetic.int32.store 25, ()), [ascii "Bob"], ()) ⟨[1], 0⟩).buffer ++
            [2], 1⟩ =
      .ok (((ascii "Alice", Arithmetic.int32.store 25, ()), [ascii "Bob"], ()),
        ⟨(serializeAll [.user [.string, .arithmetic .int32], .sequence .list .string]
          ((ascii "Alice", Arithmetic.int32.store 25, ()), [ascii "Bob"], ()) ⟨[1], 0⟩).buffer ++
            [2], 33⟩) :=
  deserialize_serialize sixtyFourBit [.user [.string, .arithmetic .int32], .sequence .list .string]
    ((ascii "Alice", Arithmetic.int32.store 25, ()), [ascii "Bob"], ())
    ((ascii "old name", Arithmetic.int32.store 7, ()), [ascii "kept", ascii "dropped"], ())
    ⟨[1], 0⟩ [2] ⟨⟨trivial, trivial, trivial⟩, ⟨by decide, fun _ _ => trivial⟩, trivial⟩ (by decide)

/-! ### Memory safety -/

/-- Every byte read was inside the buffer, and the position stayed inside the
buffer and in the range of an `int`. -/
structure MemorySafe {Value : Type} (buffer : Bytes)
    (outcome : Except Fault (Value × Serializer)) : Prop where
  inBounds : outcome ≠ .error .outOfBounds
  inRange : outcome ≠ .error .overflow
  position : ∀ value next, outcome = .ok (value, next) → next.position ≤ buffer.length

/-- The packet begins with complete encodings of values of these types, whose lengths
`resize` grants, and they end within the range of an `int`. -/
def HoldsAll (resizing : Resizing) (types : List Ty) (packet : Bytes) : Prop :=
  ∃ values following, Ty.AllGranted resizing types 0 values ∧
    packet = Ty.images types values ++ following ∧ (Ty.images types values).length < 2 ^ 31

/-- What the packet holds is complete up to the length of a string or a container that
`resize` does not grant, within the range of an `int`: `resize` throws. -/
def Throws (resizing : Resizing) (types : List Ty) (packet : Bytes) : Prop :=
  ∃ count, (Ty.formats resizing types).refuses 0 packet count ∧ count < 2 ^ 31

/-- Whatever `resize` grants, deserializing a packet is memory safe exactly when the packet
holds all the values asked for or makes `resize` throw first. -/
theorem deserializeAll_memorySafe_iff (resizing : Resizing) (types : List Ty)
    (targets : Ty.Vals types) (packet : Bytes) :
    MemorySafe packet (deserializeAll resizing types targets ⟨packet, 0⟩) ↔
      HoldsAll resizing types packet ∨ Throws resizing types packet := by
  have exact := deserializeAll_exact resizing types targets
  have inside : Cursor.Inside positionLimit (⟨packet, 0⟩ : Serializer) :=
    ⟨Nat.zero_le _, show 0 < positionLimit by decide⟩
  have holds : (∃ values image,
      (Ty.formats resizing types).Begins positionLimit ⟨packet, 0⟩ values image) ↔
        HoldsAll resizing types packet := by
    simp only [Format.Begins, formats_encodes_iff, Cursor.remaining, List.drop_zero,
      positionLimit, HoldsAll, Nat.zero_add]
    constructor
    · rintro ⟨values, _, ⟨granted, rfl⟩, ⟨following, starts⟩, range⟩
      exact ⟨values, following, granted, starts, range⟩
    · rintro ⟨values, following, granted, starts, range⟩
      exact ⟨values, _, ⟨granted, rfl⟩, ⟨following, starts⟩, range⟩
  have throws : (Ty.formats resizing types).TurnsAway positionLimit ⟨packet, 0⟩ ↔
      Throws resizing types packet := by
    simp only [Format.TurnsAway, Cursor.remaining, List.drop_zero, positionLimit, Throws,
      Nat.zero_add]
  rw [← holds, ← throws, ← exact.safe_iff inside]
  constructor
  · intro safe fault outcome
    cases fault with
    | outOfBounds => exact absurd outcome safe.inBounds
    | overflow => exact absurd outcome safe.inRange
    | refused => rfl
  · intro safe
    refine ⟨fun outcome => absurd (safe _ outcome) (by decide),
      fun outcome => absurd (safe _ outcome) (by decide), fun value next outcome => ?_⟩
    obtain ⟨image, _, rfl⟩ := exact.sound _ value next inside outcome
    exact (exact.inside inside outcome).buffer

/-- A string of `2 ^ 62` characters that there is no memory for is turned away before the
bytes run out. -/
example : deserializeAll ⟨fun _ size => decide (size < 2 ^ 40), fun _ _ => true⟩ [.string]
    (([] : Bytes), ()) ⟨[0, 0, 0, 0, 0, 0, 0, 64], 0⟩ = .error .refused := rfl

/-- Reading the function name from an empty packet reads outside the buffer. -/
theorem empty_packet_unsafe :
    ¬ MemorySafe [] (deserializeAll sixtyFourBit [.string] (([] : Bytes), ()) ⟨[], 0⟩) :=
  fun safe => safe.inBounds rfl

end Luce
