/-
This file models the binary serializer: an append-only buffer that is read back
through one cursor.

The overloads of `serialize` and `deserialize` are chosen by the static type of
their argument. The types they support are a grammar, `Ty`, and each type has its
values, `Ty.Val`; an overload set is one function by recursion over the grammar.
A user struct is the list of the fields that its two methods visit, in order. An
arithmetic value is its object representation, a fixed number of bytes.

`deserialize` checks no length against the buffer. A read outside the buffer and
an update of `deserialize_pos_` that does not fit an `int` are faults of the
reader, and so are the exceptions by which `resize` turns a length away:
`std::length_error` where it exceeds `max_size()`, `std::bad_alloc` where there is
no memory for it. Which lengths those are is not for the serializer to say.
-/

import Luce.Byte
import Luce.Library.Binary
import Luce.Library.LittleEndian

namespace Luce

open Library.Binary Library.LittleEndian

/-! ### The supported types and their values -/

/-- The arithmetic types. -/
inductive Arithmetic where
  | bool | char | int8 | uint8 | int16 | uint16 | int32 | uint32 | int64 | uint64
  | float | double | longDouble
deriving DecidableEq, Repr

def Arithmetic.sizeof : Arithmetic → Nat
  | .bool | .char | .int8 | .uint8 => 1
  | .int16 | .uint16 => 2
  | .int32 | .uint32 | .float => 4
  | .int64 | .uint64 | .double => 8
  | .longDouble => 16

/-- An arithmetic value as its object representation. -/
abbrev Arithmetic.Val (kind : Arithmetic) : Type :=
  {image : Bytes // image.length = kind.sizeof}

/-- The value of an unsigned type that holds this number, reduced to its width. -/
def Arithmetic.store (kind : Arithmetic) (number : Nat) : kind.Val :=
  ⟨leBytes kind.sizeof number, length_leBytes _ _⟩

def Arithmetic.load {kind : Arithmetic} (value : kind.Val) : Nat := leValue value.val

/-- The sequence containers. -/
inductive SequenceContainer where
  | vector | deque | list | forwardList
deriving DecidableEq, Repr

/-- The types with a `serialize` and a `deserialize` overload. -/
inductive Ty where
  | arithmetic (kind : Arithmetic)
  | string
  | sequence (container : SequenceContainer) (element : Ty)
  | tuple (elements : List Ty)
  | user (fields : List Ty)

mutual

/-- The values of a type. -/
def Ty.Val : Ty → Type
  | .arithmetic kind => kind.Val
  | .string => Bytes
  | .sequence _ element => List element.Val
  | .tuple elements => Ty.Vals elements
  | .user fields => Ty.Vals fields

/-- One value of each type. -/
def Ty.Vals : List Ty → Type
  | [] => Unit
  | type :: types => type.Val × Ty.Vals types

end

mutual

/-- The value-initialised object of a type. -/
def Ty.default : (type : Ty) → type.Val
  | .arithmetic kind => kind.store 0
  | .string => ([] : Bytes)
  | .sequence _ element => ([] : List element.Val)
  | .tuple elements => Ty.defaults elements
  | .user fields => Ty.defaults fields

def Ty.defaults : (types : List Ty) → Ty.Vals types
  | [] => ()
  | type :: types => (type.default, Ty.defaults types)

end

/-! ### Serializing -/

/-- `buffer_` with `deserialize_pos_`. -/
abbrev Serializer := Cursor Byte

/-- `buffer_.insert(buffer_.end(), ..)`. -/
def append (serializer : Serializer) (bytes : Bytes) : Serializer :=
  { serializer with buffer := serializer.buffer ++ bytes }

def serializeArithmetic (kind : Arithmetic) (value : kind.Val) (serializer : Serializer) :
    Serializer :=
  append serializer value.val

def serializeString (value : Bytes) (serializer : Serializer) : Serializer :=
  append (serializeArithmetic .uint64 (Arithmetic.uint64.store value.length) serializer) value

/-- The local `size` of the container overload: `size()`, or a count where the
container has no such method, in a `uint32_t` either way. -/
def containerSize {Element : Type} (container : SequenceContainer) (value : List Element) : Nat :=
  match container with
  | .forwardList => value.foldl (fun size _ => (size + 1) % 2 ^ 32) 0
  | _ => value.length % 2 ^ 32

/-- The container overload, given the overload for the elements. -/
def serializeSequence {Element : Type} (container : SequenceContainer)
    (serializeItem : Element → Serializer → Serializer) (value : List Element)
    (serializer : Serializer) : Serializer :=
  let size := Arithmetic.uint32.store (containerSize container value)
  value.foldl (fun serializer item => serializeItem item serializer)
    (serializeArithmetic .uint32 size serializer)

mutual

def serialize : (type : Ty) → type.Val → Serializer → Serializer
  | .arithmetic kind, value, serializer => serializeArithmetic kind value serializer
  | .string, value, serializer => serializeString value serializer
  | .sequence container element, value, serializer =>
    serializeSequence container (fun item => serialize element item) value serializer
  | .tuple elements, value, serializer => serializeAll elements value serializer
  | .user fields, value, serializer => serializeAll fields value serializer

/-- Successive `serialize` calls. -/
def serializeAll : (types : List Ty) → Ty.Vals types → Serializer → Serializer
  | [], _, serializer => serializer
  | type :: types, values, serializer =>
    serializeAll types values.2 (serialize type values.1 serializer)

end

/-! ### Deserializing -/

/-- Which calls of `resize` return; the others throw. A length is read in front of each
call, so the position tells all calls of a run apart, and what is granted may depend on
whatever has gone before. -/
structure Resizing where
  /-- `std::string::resize` at this position, to this size. -/
  string : Nat → Nat → Bool
  /-- `resize` of a sequence container at this position, to this size. -/
  container : Nat → Nat → Bool

/-- What the serializer relies on of the standard library, where memory does not run out. -/
structure Runtime where
  /-- `std::string::max_size()`: a longer `resize` throws `std::length_error`. -/
  stringMaxSize : Nat
  large : 2 ^ 32 ≤ stringMaxSize
  small : stringMaxSize < 2 ^ 63

/-- Only strings that exceed `max_size()` are turned away. -/
def Runtime.resizing (runtime : Runtime) : Resizing where
  string _ size := decide (size ≤ runtime.stringMaxSize)
  container _ _ := true

instance : Coe Runtime Resizing := ⟨Runtime.resizing⟩

/-- `deserialize_pos_` is an `int`. -/
def positionLimit : Nat := 2 ^ 31

def deserializeArithmetic (kind : Arithmetic) : Reader Byte kind.Val :=
  Cursor.take positionLimit kind.sizeof

/-- `std::copy` of `size` bytes of the buffer over the front of the target. -/
def copyChars (target : Bytes) (size : Nat) : Reader Byte Bytes := fun serializer =>
  match Cursor.take positionLimit size serializer with
  | .error fault => .error fault
  | .ok (bytes, next) => .ok (bytes.val ++ target.drop bytes.val.length, next)

/-- Resizes the target and copies `size` bytes of the buffer over its front. -/
def deserializeChars (resizing : Resizing) (target : Bytes) (size : Nat) : Reader Byte Bytes :=
  granted (fun position => resizing.string position size) (copyChars (resize target size 0) size)

def deserializeString (resizing : Resizing) (target : Bytes) : Reader Byte Bytes :=
  andThen (deserializeArithmetic .uint64)
    (fun size => deserializeChars resizing target (Arithmetic.load size)) fun _ value => value

/-- Resizes the target and deserializes its elements, given the overload for them: their
targets are what `resize` leaves of the old ones, filled up with new ones. -/
def deserializeItems {Element : Type} (resizing : Resizing)
    (deserializeItem : Element → Reader Byte Element) (fill : Element) (target : List Element)
    (size : Nat) : Reader Byte (List Element) :=
  granted (fun position => resizing.container position size)
    (each deserializeItem (resize target size fill))

/-- The container overload. -/
def deserializeSequence {Element : Type} (resizing : Resizing)
    (deserializeItem : Element → Reader Byte Element) (fill : Element) (target : List Element) :
    Reader Byte (List Element) :=
  andThen (deserializeArithmetic .uint32)
    (fun size => deserializeItems resizing deserializeItem fill target (Arithmetic.load size))
    fun _ value => value

mutual

/-- Overwrites the target in place. -/
def deserialize (resizing : Resizing) : (type : Ty) → type.Val → Reader Byte type.Val
  | .arithmetic kind, _ => deserializeArithmetic kind
  | .string, target => deserializeString resizing target
  | .sequence _ element, target =>
    deserializeSequence resizing (fun item => deserialize resizing element item) element.default
      target
  | .tuple elements, target => deserializeAll resizing elements target
  | .user fields, target => deserializeAll resizing fields target

/-- Successive `deserialize` calls. -/
def deserializeAll (resizing : Resizing) : (types : List Ty) → Ty.Vals types →
    Reader Byte (Ty.Vals types)
  | [], _ => done ()
  | type :: types, targets =>
    andThen (deserialize resizing type targets.1)
      (fun _ => deserializeAll resizing types targets.2) Prod.mk

end

end Luce
