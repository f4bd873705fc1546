/-
This file is length-prefixed framing: a payload travels behind its length, which
is a little-endian header of a fixed width. A stream of frames can be read in one
way only; a stream that does not begin with a whole frame is incomplete.
-/

import Luce.Library.LittleEndian

namespace Library.Framing

open Library.LittleEndian

def frame (width : Nat) (payload : List UInt8) : List UInt8 :=
  leBytes width payload.length ++ payload

/-- The frames of successive payloads. -/
def frames (width : Nat) (payloads : List (List UInt8)) : List UInt8 :=
  payloads.flatMap (frame width)

/-- The length that the header at the front of a stream declares. -/
def declared (width : Nat) (stream : List UInt8) : Nat := leValue (stream.take width)

/-- The payload of the first frame with what follows it, if the frame is whole. -/
def unframe (width : Nat) (stream : List UInt8) : Option (List UInt8 × List UInt8) :=
  if width + declared width stream ≤ stream.length then
    some ((stream.drop width).take (declared width stream),
      stream.drop (width + declared width stream))
  else none

/-- The stream ends before its first frame is whole. -/
def Incomplete (width : Nat) (stream : List UInt8) : Prop :=
  stream.length < width + declared width stream

instance (width : Nat) (stream : List UInt8) : Decidable (Incomplete width stream) :=
  inferInstanceAs (Decidable (_ < _))

theorem unframe_whole {width : Nat} {stream : List UInt8}
    (whole : width + declared width stream ≤ stream.length) :
    unframe width stream = some ((stream.drop width).take (declared width stream),
      stream.drop (width + declared width stream)) := if_pos whole

theorem unframe_incomplete {width : Nat} {stream : List UInt8} (cut : Incomplete width stream) :
    unframe width stream = none := if_neg (Nat.not_le.mpr cut)

theorem declared_frame {width : Nat} {payload : List UInt8} (small : payload.length < 256 ^ width)
    (rest : List UInt8) : declared width (frame width payload ++ rest) = payload.length := by
  rw [declared, frame, List.append_assoc, List.take_left' (length_leBytes _ _),
    leValue_leBytes_of_lt small]

/-- The frame that was sent first is the frame that is read first. -/
theorem unframe_frame {width : Nat} {payload : List UInt8} (small : payload.length < 256 ^ width)
    (rest : List UInt8) : unframe width (frame width payload ++ rest) = some (payload, rest) := by
  have length : (frame width payload).length = width + payload.length := by
    rw [frame, List.length_append, length_leBytes]
  have whole : width + payload.length ≤ (frame width payload ++ rest).length := by
    rw [List.length_append, length]
    exact Nat.le_add_right _ _
  rw [← declared_frame small rest] at whole
  rw [unframe_whole whole, declared_frame small rest, List.drop_left' length]
  rw [frame, List.append_assoc, List.drop_left' (length_leBytes _ _), List.take_left]

end Library.Framing
