/-
This file states what the serializer writes and proves that it reads exactly that.

`Ty.image` is the wire format: an arithmetic value is its object representation,
a string is its length in eight bytes and its characters, a container its length
in four bytes and its elements, a tuple or struct just its parts. `serialize`
appends the image of its argument. `Ty.format` is the same format as a reader
sees it, with the inputs that `resize` turns away, and `deserialize` is an exact
reader for it whatever its target holds and whatever `resize` grants.
-/

import Luce.Codec.Serializer

namespace Luce

open Library.Binary Library.LittleEndian

/-! ### The wire format -/

/-- A length in eight bytes, then the characters. -/
def stringImage (value : Bytes) : Bytes := leBytes 8 value.length ++ value

/-- A length in four bytes, then the elements. -/
def sequenceImage {Element : Type} (image : Element → Bytes) (value : List Element) : Bytes :=
  leBytes 4 value.length ++ value.flatMap image

mutual

/-- The bytes that stand for a value. -/
def Ty.image : (type : Ty) → type.Val → Bytes
  | .arithmetic _, value => value.val
  | .string, value => stringImage value
  | .sequence _ element, value => sequenceImage (fun item => element.image item) value
  | .tuple elements, value => Ty.images elements value
  | .user fields, value => Ty.images fields value

def Ty.images : (types : List Ty) → Ty.Vals types → Bytes
  | [], _ => []
  | type :: types, values => type.image values.1 ++ Ty.images types values.2

end

/-! ### Values that are read back -/

/-- The length fits its eight bytes and `resize` grants it. -/
def StringGranted (resizing : Resizing) (position : Nat) (value : Bytes) : Prop :=
  value.length < 2 ^ 64 ∧ resizing.string (position + 8) value.length = true

/-- Every element is granted at the position where its image begins. -/
def EachGranted {Element : Type} (granted : Nat → Element → Prop) (image : Element → Bytes) :
    Nat → List Element → Prop
  | _, [] => True
  | position, item :: items =>
    granted position item ∧ EachGranted granted image (position + (image item).length) items

/-- The length fits its four bytes, `resize` grants it, and every element is granted. -/
def SequenceGranted {Element : Type} (resizing : Resizing) (granted : Nat → Element → Prop)
    (image : Element → Bytes) (position : Nat) (value : List Element) : Prop :=
  value.length < 2 ^ 32 ∧ resizing.container (position + 4) value.length = true ∧
    EachGranted granted image (position + 4) value

mutual

/-- Lengths fit their bytes and `resize` grants them, at every depth of a value whose image
begins at this position. -/
def Ty.Granted (resizing : Resizing) : (type : Ty) → Nat → type.Val → Prop
  | .arithmetic _, _, _ => True
  | .string, position, value => StringGranted resizing position value
  | .sequence _ element, position, value =>
    SequenceGranted resizing (fun position item => element.Granted resizing position item)
      (fun item => element.image item) position value
  | .tuple elements, position, value => Ty.AllGranted resizing elements position value
  | .user fields, position, value => Ty.AllGranted resizing fields position value

def Ty.AllGranted (resizing : Resizing) : (types : List Ty) → Nat → Ty.Vals types → Prop
  | [], _, _ => True
  | type :: types, position, values =>
    type.Granted resizing position values.1 ∧
      Ty.AllGranted resizing types (position + (type.image values.1).length) values.2

end

/-- The length fits its four bytes and every element is as it should be. -/
def SequenceValid {Element : Type} (valid : Element → Prop) (value : List Element) : Prop :=
  value.length < 2 ^ 32 ∧ ∀ item ∈ value, valid item

/-- The length does not exceed `max_size()`. -/
def StringValid (runtime : Runtime) (value : Bytes) : Prop :=
  value.length ≤ runtime.stringMaxSize

mutual

/-- Container lengths fit their four bytes and no string exceeds `max_size()`. -/
def Ty.Valid (runtime : Runtime) : (type : Ty) → type.Val → Prop
  | .arithmetic _, _ => True
  | .string, value => StringValid runtime value
  | .sequence _ element, value => SequenceValid (fun item => element.Valid runtime item) value
  | .tuple elements, value => Ty.AllValid runtime elements value
  | .user fields, value => Ty.AllValid runtime fields value

def Ty.AllValid (runtime : Runtime) : (types : List Ty) → Ty.Vals types → Prop
  | [], _ => True
  | type :: types, values => type.Valid runtime values.1 ∧ Ty.AllValid runtime types values.2

end

theorem stringGranted_iff (runtime : Runtime) (position : Nat) (value : Bytes) :
    StringGranted runtime position value ↔ StringValid runtime value := by
  have small := runtime.small
  simp only [StringGranted, StringValid, Runtime.resizing, decide_eq_true_eq, and_iff_right_iff_imp]
  omega

/-- Where the position does not matter, every element is granted on its own. -/
theorem eachGranted_iff {Element : Type} {granted : Nat → Element → Prop} {valid : Element → Prop}
    (item_iff : ∀ position item, granted position item ↔ valid item) (image : Element → Bytes)
    (position : Nat) (value : List Element) :
    EachGranted granted image position value ↔ ∀ item ∈ value, valid item := by
  induction value generalizing position with
  | nil => simp only [EachGranted, List.not_mem_nil, false_implies, implies_true]
  | cons item items inductionHypothesis =>
    rw [EachGranted, item_iff, inductionHypothesis, List.forall_mem_cons]

mutual

/-- Where memory does not run out, what is valid is granted, wherever it begins. -/
theorem granted_iff (runtime : Runtime) : ∀ (type : Ty) (position : Nat) (value : type.Val),
    type.Granted runtime position value ↔ type.Valid runtime value
  | .arithmetic _, _, _ => Iff.rfl
  | .string, position, value => stringGranted_iff runtime position value
  | .sequence _ element, position, value => by
    have items := eachGranted_iff (fun position item => granted_iff runtime element position item)
      (fun item => element.image item) (position + 4) value
    constructor
    · rintro ⟨narrow, -, each⟩
      exact ⟨narrow, items.mp each⟩
    · rintro ⟨narrow, each⟩
      exact ⟨narrow, rfl, items.mpr each⟩
  | .tuple elements, position, value => allGranted_iff runtime elements position value
  | .user fields, position, value => allGranted_iff runtime fields position value

theorem allGranted_iff (runtime : Runtime) :
    ∀ (types : List Ty) (position : Nat) (values : Ty.Vals types),
      Ty.AllGranted runtime types position values ↔ Ty.AllValid runtime types values
  | [], _, _ => Iff.rfl
  | type :: types, position, values => by
    rw [Ty.AllGranted, granted_iff runtime type, allGranted_iff runtime types, Ty.AllValid]

end

/-! ### Serializing appends the image -/

@[simp] theorem append_append (serializer : Serializer) (first second : Bytes) :
    append (append serializer first) second = append serializer (first ++ second) := by
  simp [append]

@[simp] theorem append_nil (serializer : Serializer) : append serializer [] = serializer := by
  simp [append]

theorem leBytes_mod (width number : Nat) :
    leBytes width (number % 256 ^ width) = leBytes width number := by
  have image := leBytes_leValue (leBytes width number)
  rwa [length_leBytes, leValue_leBytes] at image

/-- Counting the elements one by one gives the length, reduced to 32 bits. -/
theorem containerSize_eq {Element : Type} (container : SequenceContainer) (value : List Element) :
    containerSize container value = value.length % 2 ^ 32 := by
  have count : ∀ (items : List Element) (start : Nat), start < 2 ^ 32 →
      items.foldl (fun size _ => (size + 1) % 2 ^ 32) start =
        (start + items.length) % 2 ^ 32 := by
    intro items
    induction items with
    | nil => exact fun start small => (Nat.mod_eq_of_lt small).symm
    | cons item items inductionHypothesis =>
      intro start _
      rw [List.foldl_cons, inductionHypothesis _ (Nat.mod_lt _ (by decide)), Nat.mod_add_mod,
        List.length_cons, Nat.add_assoc, Nat.add_comm 1]
  cases container with
  | forwardList =>
    rw [← Nat.zero_add value.length]
    exact count value 0 (by decide)
  | vector | deque | list => rfl

theorem serializeString_eq (value : Bytes) (serializer : Serializer) :
    serializeString value serializer = append serializer (stringImage value) := by
  simp only [serializeString, serializeArithmetic, append_append]
  rfl

theorem serializeSequence_eq {Element : Type} (container : SequenceContainer)
    {serializeItem : Element → Serializer → Serializer} {image : Element → Bytes}
    (item_eq : ∀ item serializer, serializeItem item serializer = append serializer (image item))
    (value : List Element) (serializer : Serializer) :
    serializeSequence container serializeItem value serializer =
      append serializer (sequenceImage image value) := by
  have elements : ∀ (items : List Element) (start : Serializer),
      items.foldl (fun serializer item => serializeItem item serializer) start =
        append start (items.flatMap image) := by
    intro items
    induction items with
    | nil => exact fun start => (append_nil start).symm
    | cons item items inductionHypothesis =>
      intro start
      rw [List.foldl_cons, inductionHypothesis, item_eq, append_append, List.flatMap_cons]
  simp only [serializeSequence, elements, serializeArithmetic, append_append, sequenceImage,
    Arithmetic.store, containerSize_eq]
  rw [← leBytes_mod 4 value.length]
  rfl

mutual

/-- Serializing a value appends its image. -/
theorem serialize_eq : ∀ (type : Ty) (value : type.Val) (serializer : Serializer),
    serialize type value serializer = append serializer (type.image value)
  | .arithmetic _, _, _ => rfl
  | .string, value, serializer => serializeString_eq value serializer
  | .sequence container element, value, serializer =>
    serializeSequence_eq container (fun item => serialize_eq element item) value serializer
  | .tuple elements, value, serializer => serializeAll_eq elements value serializer
  | .user fields, value, serializer => serializeAll_eq fields value serializer

theorem serializeAll_eq : ∀ (types : List Ty) (values : Ty.Vals types) (serializer : Serializer),
    serializeAll types values serializer = append serializer (Ty.images types values)
  | [], _, serializer => (append_nil serializer).symm
  | type :: types, values, serializer => by
    rw [serializeAll, serialize_eq type, serializeAll_eq types, append_append, Ty.images]

end

/-! ### Deserializing reads exactly the format -/

/-- A number of characters. -/
def charsFormat (size : Nat) : Format Byte Bytes where
  encodes _ value image := value.length = size ∧ value = image
  refuses _ _ _ := False

def stringFormat (resizing : Resizing) : Format Byte Bytes :=
  (Format.fixed 8).andThen
    (fun size => (charsFormat (leValue size.val)).granted fun position =>
      resizing.string position (leValue size.val))
    fun _ value => value

def sequenceFormat {Element : Type} (resizing : Resizing) (format : Format Byte Element) :
    Format Byte (List Element) :=
  (Format.fixed 4).andThen
    (fun size => (format.copies (leValue size.val)).granted fun position =>
      resizing.container position (leValue size.val))
    fun _ value => value

mutual

/-- The wire format of a type, with the inputs that are turned away. -/
def Ty.format (resizing : Resizing) : (type : Ty) → Format Byte type.Val
  | .arithmetic kind => .fixed kind.sizeof
  | .string => stringFormat resizing
  | .sequence _ element => sequenceFormat resizing (element.format resizing)
  | .tuple elements => Ty.formats resizing elements
  | .user fields => Ty.formats resizing fields

def Ty.formats (resizing : Resizing) : (types : List Ty) → Format Byte (Ty.Vals types)
  | [] => .empty ()
  | type :: types => (type.format resizing).andThen (fun _ => Ty.formats resizing types) Prod.mk

end

/-- Copying characters over a target of their number is exact. -/
theorem copyChars_exact {target : Bytes} {size : Nat} (length : target.length = size) :
    Exact positionLimit (copyChars target size) (charsFormat size) := by
  have taken : Exact positionLimit (Cursor.take positionLimit size)
      (Format.fixed size : Format Byte _) := take_exact _ _
  constructor
  · rintro serializer value image ⟨⟨rfl, rfl⟩, starts⟩
    have read := taken.accepts serializer ⟨value, rfl⟩ value ⟨rfl, starts⟩
    have overwritten : target.drop value.length = [] := List.drop_eq_nil_of_le length.le
    simp only [copyChars, read, overwritten, List.append_nil]
  · intro serializer value next inside outcome
    cases read : Cursor.take positionLimit size serializer with
    | error fault =>
      simp only [copyChars, read] at outcome
      cases outcome
    | ok result =>
      obtain ⟨⟨bytes, same⟩, final⟩ := result
      obtain ⟨image, ⟨rfl, starts⟩, rfl⟩ := taken.sound serializer _ _ inside read
      have overwritten : target.drop bytes.length = [] :=
        List.drop_eq_nil_of_le (length.trans same.symm).le
      simp only [copyChars, read, overwritten, List.append_nil] at outcome
      obtain ⟨rfl, rfl⟩ := Prod.mk.inj (Except.ok.inj outcome)
      exact ⟨bytes, ⟨⟨same, rfl⟩, starts⟩, rfl⟩
  · intro serializer inside
    have notRefused : Cursor.take positionLimit size serializer ≠ .error .refused := by
      intro refused
      obtain ⟨_, impossible, _⟩ := (taken.refuses_iff serializer inside).mp refused
      exact impossible
    simp only [Format.TurnsAway, charsFormat, false_and, exists_false, iff_false]
    intro outcome
    cases read : Cursor.take positionLimit size serializer with
    | error fault =>
      simp only [copyChars, read] at outcome
      exact notRefused (read.trans (congrArg _ (Except.error.inj outcome)))
    | ok result =>
      simp only [copyChars, read] at outcome
      cases outcome

theorem deserializeString_exact (resizing : Resizing) (target : Bytes) :
    Exact positionLimit (deserializeString resizing target) (stringFormat resizing) :=
  (take_exact positionLimit 8).andThen _ fun _ => (copyChars_exact (length_resize ..)).granted _

theorem deserializeSequence_exact {Element : Type} (resizing : Resizing)
    {read : Element → Reader Byte Element} {format : Format Byte Element}
    (exact : ∀ item, Exact positionLimit (read item) format) (fill : Element)
    (target : List Element) :
    Exact positionLimit (deserializeSequence resizing read fill target)
      (sequenceFormat resizing format) := by
  refine (take_exact positionLimit 4).andThen _ fun size => Exact.granted ?_ _
  have elements := each_exact exact (resize target (leValue size.val) fill)
  rwa [length_resize] at elements

mutual

/-- Deserializing reads exactly the format, whatever the target holds. -/
theorem deserialize_exact (resizing : Resizing) : ∀ (type : Ty) (target : type.Val),
    Exact positionLimit (deserialize resizing type target) (type.format resizing)
  | .arithmetic kind, _ => take_exact positionLimit kind.sizeof
  | .string, target => deserializeString_exact resizing target
  | .sequence _ element, target =>
    deserializeSequence_exact resizing (fun item => deserialize_exact resizing element item) _
      target
  | .tuple elements, target => deserializeAll_exact resizing elements target
  | .user fields, target => deserializeAll_exact resizing fields target

theorem deserializeAll_exact (resizing : Resizing) :
    ∀ (types : List Ty) (targets : Ty.Vals types),
      Exact positionLimit (deserializeAll resizing types targets) (Ty.formats resizing types)
  | [], _ => done_exact positionLimit ()
  | type :: types, targets =>
    (deserialize_exact resizing type targets.1).andThen _
      fun _ => deserializeAll_exact resizing types targets.2

end

/-! ### The format encodes by the image -/

/-- When a format encodes by an image function, so do its copies. -/
theorem copies_encodes_iff {Element : Type} {format : Format Byte Element}
    {granted : Nat → Element → Prop} {image : Element → Bytes}
    (item_iff : ∀ position item bytes,
      format.encodes position item bytes ↔ granted position item ∧ bytes = image item)
    (count position : Nat) (value : List Element) (bytes : Bytes) :
    (format.copies count).encodes position value bytes ↔
      value.length = count ∧ EachGranted granted image position value ∧
        bytes = value.flatMap image := by
  induction count generalizing position value bytes with
  | zero =>
    simp only [Format.copies, Format.empty]
    constructor
    · rintro ⟨rfl, rfl⟩
      exact ⟨rfl, trivial, rfl⟩
    · rintro ⟨length, _, rfl⟩
      obtain rfl := List.length_eq_zero_iff.mp length
      exact ⟨rfl, rfl⟩
  | succ count inductionHypothesis =>
    simp only [Format.copies, Format.andThen, item_iff, inductionHypothesis]
    constructor
    · rintro ⟨first, last, _, _, ⟨grantedFirst, rfl⟩, ⟨rfl, grantedLast, rfl⟩, rfl, rfl⟩
      exact ⟨rfl, ⟨grantedFirst, grantedLast⟩, rfl⟩
    · rintro ⟨length, allGranted, rfl⟩
      obtain ⟨first, last, rfl⟩ := List.exists_cons_of_length_eq_add_one length
      obtain ⟨grantedFirst, grantedLast⟩ := allGranted
      exact ⟨first, last, _, _, ⟨grantedFirst, rfl⟩,
        ⟨Nat.succ.inj length, grantedLast, rfl⟩, rfl, rfl⟩

theorem stringFormat_encodes_iff (resizing : Resizing) (position : Nat) (value bytes : Bytes) :
    (stringFormat resizing).encodes position value bytes ↔
      StringGranted resizing position value ∧ bytes = stringImage value := by
  simp only [stringFormat, Format.andThen, Format.fixed, Format.granted, charsFormat,
    StringGranted, stringImage]
  constructor
  · rintro ⟨⟨header, eight⟩, last, _, _, rfl, ⟨given, length, rfl⟩, rfl, rfl⟩
    have spelled := leBytes_leValue header
    have room := leValue_lt header
    rw [eight, ← length] at spelled room
    rw [eight, ← length] at given
    exact ⟨⟨room, given⟩, by rw [spelled]⟩
  · rintro ⟨⟨room, given⟩, rfl⟩
    have spelled := leValue_leBytes_of_lt (show value.length < 256 ^ 8 from room)
    refine ⟨⟨leBytes 8 value.length, length_leBytes _ _⟩, value, _, _, rfl,
      ⟨?_, spelled.symm, rfl⟩, rfl, rfl⟩
    rw [length_leBytes]
    rwa [spelled]

theorem sequenceFormat_encodes_iff {Element : Type} (resizing : Resizing)
    {format : Format Byte Element} {granted : Nat → Element → Prop} {image : Element → Bytes}
    (item_iff : ∀ position item bytes,
      format.encodes position item bytes ↔ granted position item ∧ bytes = image item)
    (position : Nat) (value : List Element) (bytes : Bytes) :
    (sequenceFormat resizing format).encodes position value bytes ↔
      SequenceGranted resizing granted image position value ∧
        bytes = sequenceImage image value := by
  simp only [sequenceFormat, Format.andThen, Format.fixed, Format.granted,
    copies_encodes_iff item_iff, SequenceGranted, sequenceImage]
  constructor
  · rintro ⟨⟨header, four⟩, last, _, _, rfl, ⟨given, length, allGranted, rfl⟩, rfl, rfl⟩
    have spelled := leBytes_leValue header
    have bound := leValue_lt header
    rw [four, ← length] at spelled bound
    rw [four] at allGranted
    rw [four, ← length] at given
    exact ⟨⟨bound, given, allGranted⟩, by rw [spelled]⟩
  · rintro ⟨⟨bound, given, allGranted⟩, rfl⟩
    have spelled : leValue (leBytes 4 value.length) = value.length :=
      leValue_leBytes_of_lt bound
    refine ⟨⟨leBytes 4 value.length, length_leBytes _ _⟩, value, _, _, rfl,
      ⟨?_, spelled.symm, ?_, rfl⟩, rfl, rfl⟩
    · rw [length_leBytes]
      rwa [spelled]
    · rwa [length_leBytes]

mutual

/-- The format encodes exactly the granted values, each by its image. -/
theorem format_encodes_iff (resizing : Resizing) :
    ∀ (type : Ty) (position : Nat) (value : type.Val) (bytes : Bytes),
      (type.format resizing).encodes position value bytes ↔
        type.Granted resizing position value ∧ bytes = type.image value
  | .arithmetic _, position, value, bytes => by
    simp only [Ty.format, Format.fixed, Ty.Granted, Ty.image, true_and, eq_comm]
  | .string, position, value, bytes => stringFormat_encodes_iff resizing position value bytes
  | .sequence _ element, position, value, bytes =>
    sequenceFormat_encodes_iff resizing
      (fun position item => format_encodes_iff resizing element position item) position value bytes
  | .tuple elements, position, value, bytes =>
    formats_encodes_iff resizing elements position value bytes
  | .user fields, position, value, bytes =>
    formats_encodes_iff resizing fields position value bytes

theorem formats_encodes_iff (resizing : Resizing) :
    ∀ (types : List Ty) (position : Nat) (values : Ty.Vals types) (bytes : Bytes),
      (Ty.formats resizing types).encodes position values bytes ↔
        Ty.AllGranted resizing types position values ∧ bytes = Ty.images types values
  | [], position, values, bytes => by
    simp only [Ty.formats, Format.empty, Ty.AllGranted, Ty.images, true_and]
    exact ⟨And.right, fun empty => ⟨rfl, empty⟩⟩
  | type :: types, position, values, bytes => by
    simp only [Ty.formats, Format.andThen, format_encodes_iff resizing type,
      formats_encodes_iff resizing types, Ty.AllGranted, Ty.images]
    constructor
    · rintro ⟨first, last, _, _, ⟨grantedFirst, rfl⟩, ⟨grantedLast, rfl⟩, rfl, rfl⟩
      exact ⟨⟨grantedFirst, grantedLast⟩, rfl⟩
    · rintro ⟨⟨grantedFirst, grantedLast⟩, rfl⟩
      exact ⟨values.1, values.2, _, _, ⟨grantedFirst, rfl⟩, ⟨grantedLast, rfl⟩, rfl, rfl⟩

end

/-- Where memory does not run out, the format encodes exactly the valid values. -/
theorem encodes_iff_valid (runtime : Runtime) (type : Ty) (position : Nat) (value : type.Val)
    (bytes : Bytes) :
    (type.format runtime).encodes position value bytes ↔
      type.Valid runtime value ∧ bytes = type.image value := by
  rw [format_encodes_iff, granted_iff]

end Luce
