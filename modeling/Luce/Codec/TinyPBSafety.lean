/-
This file says on which buffers the TinyPB decoder stays inside its memory.

The decoder looks whether a field begins before the last byte, but not whether the field's
number and the bytes that it announces lie inside the buffer, nor whether they fit the array
they are copied to. So a buffer does no harm if it is turned away before a field is reached
that does not fit, and otherwise only if all of them fit.
-/

import Luce.Codec.TinyPBPackets

namespace Luce.Codec

open Library.LittleEndian Library.Layout

/-! ### The condition -/

/-- The number in the four bytes from this index on. -/
def Buffer.int32At (inBuffer : Buffer) (index : Nat) : Int32 :=
  getInt32ForNetByte ((inBuffer.bytes.drop index).take 4)

/-- Where a text ends whose length stands at this index. -/
def Buffer.behind (inBuffer : Buffer) (index : Nat) : Nat :=
  index + 4 + (inBuffer.int32At index).toInt.toNat

/-- A length stands at this index, it is not negative, and so many bytes follow and can go
through an array of `capacity` bytes. -/
structure FieldFits (inBuffer : Buffer) (index capacity : Nat) : Prop where
  length : index + 4 ≤ inBuffer.bytes.length
  nonneg : 0 ≤ (inBuffer.int32At index).toInt
  inside : inBuffer.behind index ≤ inBuffer.bytes.length
  terminated : Terminated capacity
    ((inBuffer.bytes.drop (index + 4)).take (inBuffer.int32At index).toInt.toNat)

/-- Each field fits that begins before the last byte, and behind the last field there is room
for the check sum and the end. -/
def FieldsFit (inBuffer : Buffer) : Prop :=
  let methodName := inBuffer.behind 5
  let errCode := inBuffer.behind methodName
  let errInfo := errCode + 4
  FieldFits inBuffer 5 100 ∧ (methodName + 1 < inBuffer.bytes.length →
    FieldFits inBuffer methodName 512 ∧ (errCode + 1 < inBuffer.bytes.length →
      errInfo ≤ inBuffer.bytes.length ∧ (errInfo + 1 < inBuffer.bytes.length →
        FieldFits inBuffer errInfo 512 ∧ inBuffer.behind errInfo + 5 ≤ inBuffer.bytes.length)))

/-- A buffer that begins with the start mark has a length behind it, which is not the least
`int`; and if that is the length of the buffer, and the buffer ends with the end mark and is
longer than six bytes, then its fields fit. -/
def Harmless (inBuffer : Buffer) : Prop :=
  inBuffer.bytes.take 1 = [pbStart] →
    5 ≤ inBuffer.bytes.length ∧ inBuffer.int32At 1 ≠ Int32.minValue ∧
      ((inBuffer.int32At 1).toInt = inBuffer.bytes.length →
        inBuffer.bytes.drop (inBuffer.bytes.length - 1) = [pbEnd] →
        6 < inBuffer.bytes.length → FieldsFit inBuffer)

/-! ### Outcomes without a fault -/

def Faultless {Value : Type} (outcome : Except Stop Value) : Prop :=
  ∀ fault, outcome ≠ .error (.fault fault)

section

variable {Value Result : Type}

theorem faultless_ok (value : Value) : Faultless (.ok value : Except Stop Value) :=
  fun _ same => by cases same

theorem faultless_bind {outcome : Except Stop Value} {next : Value → Except Stop Result} :
    Faultless (outcome >>= next) ↔
      Faultless outcome ∧ ∀ value, outcome = .ok value → Faultless (next value) := by
  cases outcome with
  | ok value =>
    refine ⟨fun after => ⟨faultless_ok value, ?_⟩, fun both => both.2 value rfl⟩
    rintro _ ⟨⟩
    exact after
  | error stop =>
    refine ⟨fun before => ⟨fun fault same => before fault ?_, ?_⟩, fun both fault same => ?_⟩
    · cases same
      rfl
    · rintro _ ⟨⟩
    · cases same
      exact both.1 fault rfl

theorem faultless_rejectIf_bind {condition : Prop} [Decidable condition]
    {next : Unit → Except Stop Result} :
    Faultless (rejectIf condition >>= next) ↔ (¬ condition → Faultless (next ())) := by
  have rejects : Faultless (rejectIf condition) := by
    rw [rejectIf]
    split <;> intro fault same <;> cases same
  simp only [faultless_bind, rejects, rejectIf_eq_ok, true_and]
  exact ⟨fun all no => all () no, fun all _ no => all no⟩

/-- A step that has no fault just under this condition, and then this value. -/
theorem faultless_bind_iff {condition : Prop} {outcome : Except Stop Value} {value : Value}
    {next : Value → Except Stop Result} (needs : Faultless outcome → condition)
    (returns : condition → outcome = .ok value) :
    Faultless (outcome >>= next) ↔ condition ∧ Faultless (next value) := by
  rw [faultless_bind]
  constructor
  · exact fun ⟨safe, all⟩ => ⟨needs safe, all value (returns (needs safe))⟩
  · rintro ⟨holds, rest⟩
    rw [returns holds]
    refine ⟨faultless_ok value, ?_⟩
    rintro _ ⟨⟩
    exact rest

variable {inBuffer : Buffer} {index : Nat}

theorem faultless_fetch_bind {size : Nat} {next : Bytes → Except Stop Result} :
    Faultless (fetch inBuffer index size >>= next) ↔
      index + size ≤ inBuffer.bytes.length ∧
        Faultless (next ((inBuffer.bytes.drop index).take size)) := by
  refine faultless_bind_iff (fun safe => ?_) fun inside => if_pos inside
  by_contra outside
  exact safe .outsideBuffer (if_neg outside)

theorem fetchInt32_eq (inside : index + 4 ≤ inBuffer.bytes.length) :
    fetchInt32 inBuffer index = .ok (inBuffer.int32At index) := by
  rw [fetchInt32, fetch, if_pos inside]
  rfl

theorem faultless_fetchInt32_bind {next : Int32 → Except Stop Result} :
    Faultless (fetchInt32 inBuffer index >>= next) ↔
      index + 4 ≤ inBuffer.bytes.length ∧ Faultless (next (inBuffer.int32At index)) := by
  refine faultless_bind_iff (fun safe => ?_) fetchInt32_eq
  rw [fetchInt32, faultless_fetch_bind] at safe
  exact safe.1

theorem faultless_lastIndex_bind {pkLen : Int32} {next : Int → Except Stop Result} :
    Faultless (lastIndex pkLen >>= next) ↔
      pkLen ≠ Int32.minValue ∧ Faultless (next (pkLen.toInt - 1)) :=
  faultless_bind_iff (fun safe least => safe .overflow (if_pos least)) fun proper => if_neg proper

theorem faultless_throughArray_bind {capacity : Nat} {data : Bytes}
    {next : Bytes → Except Stop Result} :
    Faultless (throughArray capacity data >>= next) ↔
      Terminated capacity data ∧ Faultless (next (cString data)) := by
  refine faultless_bind_iff (fun safe => ?_) fun terminated =>
    throughArray_eq_ok.mpr ⟨terminated, rfl⟩
  rw [throughArray] at safe
  split at safe
  case isTrue => exact absurd rfl (safe .outsideArray)
  case isFalse short =>
    rw [← terminated_iff (Nat.le_of_not_lt short)]
    by_contra absent
    exact safe .unterminated (if_neg absent)

theorem faultless_fetchField_bind {capacity : Nat} {next : Field → Except Stop Result} :
    Faultless (fetchField inBuffer index capacity >>= next) ↔
      FieldFits inBuffer index capacity ∧ Faultless (next ⟨inBuffer.int32At index,
        cString ((inBuffer.bytes.drop (index + 4)).take (inBuffer.int32At index).toInt.toNat),
        inBuffer.behind index⟩) := by
  have bound := inBuffer.fits
  have upper := (inBuffer.int32At index).toInt_lt
  refine faultless_bind_iff (fun safe => ?_) fun fieldFits => ?_
  · rw [fetchField, faultless_fetchInt32_bind, faultless_fetch_bind, faultless_throughArray_bind]
      at safe
    obtain ⟨length, inside, terminated, -⟩ := safe
    have nonneg : 0 ≤ (inBuffer.int32At index).toInt := by
      by_contra negative
      have := le_asSize_of_neg (Int.not_le.mp negative)
      omega
    rw [asSize_of_nonneg nonneg (by omega)] at inside terminated
    exact ⟨length, nonneg, inside, terminated⟩
  · have size := asSize_of_nonneg fieldFits.nonneg (by omega)
    simp only [fetchField, bind_eq_ok]
    exact ⟨_, fetchInt32_eq fieldFits.length, _, by rw [size]; exact if_pos fieldFits.inside, _,
      throughArray_eq_ok.mpr ⟨fieldFits.terminated, rfl⟩, by rw [size]; rfl⟩

theorem faultless_fetchString_bind {len : Int} (small : len < 2 ^ 63)
    {next : Bytes → Except Stop Result} :
    Faultless (fetchString inBuffer index len >>= next) ↔
      (0 ≤ len ∧ index + len.toNat ≤ inBuffer.bytes.length) ∧
        Faultless (next ((inBuffer.bytes.drop index).take len.toNat)) := by
  refine faultless_bind_iff (fun safe => ?_) fun ⟨nonneg, inside⟩ => ?_
  · rw [fetchString] at safe
    split at safe
    case isTrue => exact absurd rfl (safe .badLength)
    case isFalse nonneg =>
      rw [Int.not_lt] at nonneg
      rw [asSize_of_nonneg nonneg small] at safe
      refine ⟨nonneg, ?_⟩
      by_contra outside
      exact safe .outsideBuffer (if_neg outside)
  · rw [fetchString, if_neg (Int.not_lt.mpr nonneg), asSize_of_nonneg nonneg small, fetch,
      if_pos inside]

theorem faultless_return (value : Value) : Faultless (pure value : Except Stop Value) :=
  faultless_ok value

end

/-! ### The decoder -/

/-- The length in the packet is that of the buffer. -/
theorem lastIndex_matches_iff {inBuffer : Buffer} (nonempty : 0 < inBuffer.bytes.length)
    (proper : inBuffer.int32At 1 ≠ Int32.minValue) :
    inBuffer.bytes.length - 1 = asSize ((inBuffer.int32At 1).toInt - 1) ↔
      (inBuffer.int32At 1).toInt = inBuffer.bytes.length := by
  have bound := inBuffer.fits
  have upper := (inBuffer.int32At 1).toInt_lt
  constructor
  · intro matching
    obtain ⟨small, same, -⟩ := (lastIndex_eq_ok nonempty bound).mp ⟨if_neg proper, matching⟩
    rw [same, Int32.toInt_ofNat_of_lt small]
  · intro whole
    rw [whole, asSize_of_nonneg (by omega) (by omega)]
    omega

/-- The payload takes what the other fields leave, if they leave enough. -/
theorem payload_iff {inBuffer : Buffer} {methodName errInfo : Nat}
    (whole : (inBuffer.int32At 1).toInt = inBuffer.bytes.length)
    (follows : methodName = inBuffer.behind 5) (last : errInfo = inBuffer.behind methodName + 4)
    (msgIdFits : FieldFits inBuffer 5 100) (methodNameFits : FieldFits inBuffer methodName 512)
    (errInfoFits : FieldFits inBuffer errInfo 512) {next : Bytes → TinyPBProtocol} :
    (Faultless do
      let pbData ← fetchString inBuffer (inBuffer.behind errInfo) ((inBuffer.int32At 1).toInt -
        (inBuffer.int32At methodName).toInt - (inBuffer.int32At 5).toInt -
          (inBuffer.int32At errInfo).toInt - 2 - 24)
      pure (next pbData)) ↔ inBuffer.behind errInfo + 5 ≤ inBuffer.bytes.length := by
  have bound := (inBuffer.int32At 1).toInt_lt
  have first := msgIdFits.nonneg
  have second := methodNameFits.nonneg
  have third := errInfoFits.nonneg
  rw [faultless_fetchString_bind (by omega), and_iff_left (faultless_return _)]
  simp only [Buffer.behind] at follows last ⊢
  omega

theorem faultless_decodeMessage_iff {inBuffer : Buffer} :
    Faultless (decodeMessage inBuffer) ↔ Harmless inBuffer := by
  simp only [decodeMessage, faultless_rejectIf_bind, faultless_fetch_bind,
    faultless_fetchInt32_bind, faultless_lastIndex_bind, faultless_fetchField_bind, not_ne_iff]
  by_cases empty : inBuffer.bytes.length = 0
  · rw [Harmless, List.length_eq_zero_iff.mp empty]
    simp
  have nonempty : 0 < inBuffer.bytes.length := Nat.pos_of_ne_zero empty
  rw [Harmless, forall_prop_of_true (Nat.not_le.mpr nonempty),
    and_iff_right (show 0 + 1 ≤ inBuffer.bytes.length from nonempty), List.drop_zero]
  refine imp_congr Iff.rfl (and_congr (by omega) (and_congr_right fun proper => ?_))
  rw [lastIndex_matches_iff nonempty proper]
  refine forall_congr' fun whole => ?_
  have last : asSize ((inBuffer.int32At 1).toInt - 1) = inBuffer.bytes.length - 1 :=
    ((lastIndex_matches_iff nonempty proper).mpr whole).symm
  have one : (inBuffer.bytes.drop (inBuffer.bytes.length - 1)).take 1 =
      inBuffer.bytes.drop (inBuffer.bytes.length - 1) :=
    List.take_of_length_le (by rw [List.length_drop]; omega)
  rw [last, one, and_iff_right (by omega)]
  refine imp_congr Iff.rfl (imp_congr (by omega) (and_congr_right fun msgIdFits =>
    imp_congr (by omega) (and_congr_right fun methodNameFits => imp_congr (by omega)
      (and_congr_right fun _ => imp_congr (by omega) (and_congr_right fun errInfoFits => ?_)))))
  exact payload_iff whole rfl rfl msgIdFits methodNameFits errInfoFits

/-- The buffer is turned away and the message is left as it is, or the buffer is accepted;
nothing goes wrong. -/
def DecodesSafely (inBuffer : Buffer) : Prop :=
  (∀ outMessage, decode inBuffer outMessage = .ok outMessage) ∨
    ∃ message : TinyPBProtocol, message.parseSuccess = true ∧
      ∀ outMessage, decode inBuffer outMessage = .ok (some message)

/-- The decoder reads inside the buffer, writes inside its arrays, finds every text terminated
and computes a length that the payload has, or turns the buffer away, just for the buffers
that do no harm. -/
theorem decodesSafely_iff (inBuffer : Buffer) : DecodesSafely inBuffer ↔ Harmless inBuffer := by
  rw [← faultless_decodeMessage_iff]
  constructor
  · intro safely fault same
    have fails : decode inBuffer none = .error fault := by rw [decode, same]
    obtain rejected | ⟨message, -, accepted⟩ := safely
    · cases (rejected none).symm.trans fails
    · cases (accepted none).symm.trans fails
  · intro faultless
    cases decoded : decodeMessage inBuffer with
    | ok message =>
      obtain ⟨packet, -, -, rfl⟩ := readable_of_decodeMessage decoded
      exact .inr ⟨packet.message, rfl, fun outMessage => by rw [decode, decoded]⟩
    | error stop =>
      cases stop with
      | rejected => exact .inl fun outMessage => by rw [decode, decoded]
      | fault fault => exact absurd decoded (faultless fault)

/-- The length of the first text is negative, and a `size_t` for `memcpy`. -/
theorem not_decodesSafely : ¬ ∀ inBuffer : Buffer, DecodesSafely inBuffer := by
  intro safely
  have fails : decode ⟨[2, 0, 0, 0, 26, 255, 255, 255, 255, 0, 0, 0, 0, 0, 0, 0, 0, 0, 0, 0, 0, 0, 0, 0,
      0, 3], by decide⟩ none = .error .outsideBuffer := by decide
  obtain rejected | ⟨message, -, accepted⟩ := safely ⟨[2, 0, 0, 0, 26, 255, 255, 255, 255, 0, 0, 0, 0,
    0, 0, 0, 0, 0, 0, 0, 0, 0, 0, 0, 0, 3], by decide⟩
  · cases (rejected none).symm.trans fails
  · cases (accepted none).symm.trans fails

end Luce.Codec
