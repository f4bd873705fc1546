/-
This file models how structs are mapped to JSON texts and back.

A struct with a mapping is the list of its members as its macros name them, in their order: a
member has a key, and is of a basic type or a struct itself. `operator[]` makes a member that is
missing, so an object that is read from may have more members afterwards.
-/

import Luce.Json.RoundTrip

namespace Luce.TinyJson

open Library Library.Fuel

variable {Double : Type}

/-! ### Access to an object -/

namespace JObject

/-- `operator[]`: the object, in which the member exists then, and the member. -/
def index (obj : JObject Double) (key : Bytes) : Run (JObject Double × JObject Double) :=
  match obj with
  | .dict members =>
    match SortedMap.lookup members key with
    | some value => pure (.dict members, value)
    | none => pure (.dict (setMember members key .null), .null)
  | _ => raise (.logicError "not dict type! JObject::operator[]")

/-- `obj[key] = value`. -/
def assign (obj : JObject Double) (key : Bytes) (value : JObject Double) : Run (JObject Double) :=
  match obj with
  | .dict members => pure (.dict (setMember members key value))
  | _ => raise (.logicError "not dict type! JObject::operator[]")

/-- `Value<int_t>()`. -/
def intValue : JObject Double → Run Int32
  | .int value => pure value
  | _ => raise (.logicError "type error in get INT value!")

/-- `Value<bool_t>()`. -/
def boolValue : JObject Double → Run Bool
  | .bool value => pure value
  | _ => raise (.logicError "type error in get BOOL value!")

/-- `Value<double_t>()`. -/
def doubleValue : JObject Double → Run Double
  | .double value => pure value
  | _ => raise (.logicError "type error in get DOUBLE value!")

end JObject

open JObject

/-! ### Structs and their values -/

/-- What a member of a struct is. -/
inductive Shape where
  | int | bool | double | str
  | struct (fields : List (Bytes × Shape))

mutual

def Shape.Val (Double : Type) : Shape → Type
  | .int => Int32
  | .bool => Bool
  | .double => Double
  | .str => Bytes
  | .struct fields => Shape.Vals Double fields

/-- One value for each member. -/
def Shape.Vals (Double : Type) : List (Bytes × Shape) → Type
  | [] => Unit
  | (_, shape) :: fields => Shape.Val Double shape × Shape.Vals Double fields

end

/-! ### Writing -/

mutual

/-- What is assigned to a member of the object. -/
def Shape.toObject : (shape : Shape) → shape.Val Double → Run (JObject Double)
  | .int, value => pure (.int value)
  | .bool, value => pure (.bool value)
  | .double, value => pure (.double value)
  | .str, value => pure (.str value)
  | .struct fields, values => Shape.toJson fields values (.dict [])

/-- The method `_to_json` of a struct with these members. -/
def Shape.toJson : (fields : List (Bytes × Shape)) → Shape.Vals Double fields → JObject Double →
    Run (JObject Double)
  | [], _, obj => pure obj
  | (key, shape) :: fields, values, obj => do
    let tmp ← shape.toObject values.1
    let obj ← obj.assign key tmp
    Shape.toJson fields values.2 obj

end

/-- `ToJSON` of a struct. -/
def toJSON (ops : FloatOps Double) (fields : List (Bytes × Shape))
    (src : Shape.Vals Double fields) : Run Bytes := do
  let obj ← Shape.toJson fields src (.dict [])
  pure (obj.toText ops)

/-! ### Reading -/

mutual

/-- The value of a member, and the member as reading leaves it. -/
def Shape.ofObject : (shape : Shape) → JObject Double → Run (shape.Val Double × JObject Double)
  | .int, obj => do
    let value ← obj.intValue
    pure (value, obj)
  | .bool, obj => do
    let value ← obj.boolValue
    pure (value, obj)
  | .double, obj => do
    let value ← obj.doubleValue
    pure (value, obj)
  | .str, obj => do
    let value ← stringValue obj
    pure (value, obj)
  | .struct fields, obj => Shape.fromJson fields obj

/-- The method `_from_json` of a struct with these members. -/
def Shape.fromJson : (fields : List (Bytes × Shape)) → JObject Double →
    Run (Shape.Vals Double fields × JObject Double)
  | [], obj => pure ((), obj)
  | (key, shape) :: fields, obj => do
    let (obj, member) ← obj.index key
    let (value, member) ← shape.ofObject member
    let obj ← obj.assign key member
    let (values, obj) ← Shape.fromJson fields obj
    pure ((value, values), obj)

end

/-- `FromJson` of a struct. -/
def fromJson (ops : FloatOps Double) (fuel : Nat) (fields : List (Bytes × Shape)) (src : Bytes) :
    Run (Shape.Vals Double fields) := do
  let obj ← fromString ops fuel src
  match obj with
  | .dict _ => do
    let (ret, _) ← Shape.fromJson fields obj
    pure ret
  | _ => raise (.logicError "not dict type fromjson")

/-! ### What an object holds -/

/-- A member of a map, which is null where it is missing. -/
def memberOf (members : List (Bytes × JObject Double)) (key : Bytes) : JObject Double :=
  (SortedMap.lookup members key).getD .null

mutual

/-- The object holds this value. It may have more members than the struct. -/
def Shape.Holds : (shape : Shape) → shape.Val Double → JObject Double → Prop
  | .int, value, obj => obj = .int value
  | .bool, value, obj => obj = .bool value
  | .double, value, obj => obj = .double value
  | .str, value, obj => obj = .str value
  | .struct fields, values, obj => Shape.HoldsAll fields values obj

def Shape.HoldsAll : (fields : List (Bytes × Shape)) → Shape.Vals Double fields →
    JObject Double → Prop
  | [], _, _ => True
  | (key, shape) :: fields, values, obj =>
    (∃ members, obj = .dict members ∧ shape.Holds values.1 (memberOf members key)) ∧
      Shape.HoldsAll fields values.2 obj

end

/-- Two objects hold the same. -/
def HoldsSame (obj other : JObject Double) : Prop :=
  ∀ (shape : Shape) (value : shape.Val Double), shape.Holds value obj ↔ shape.Holds value other

theorem HoldsSame.refl (obj : JObject Double) : HoldsSame obj obj := fun _ _ => .rfl

theorem wellFormed_dict {members : List (Bytes × JObject Double)} :
    (JObject.dict members).WellFormed ↔ SortedMap.Sorted keyBefore members ∧
      ∀ member ∈ members, member.2.WellFormed := by
  rw [JObject.WellFormed, membersWellFormed_iff]

theorem wellFormed_memberOf {members : List (Bytes × JObject Double)}
    (wellFormed : (JObject.dict members).WellFormed) (key : Bytes) :
    (memberOf members key).WellFormed := by
  obtain ⟨sorted, all⟩ := wellFormed_dict.mp wellFormed
  rw [memberOf]
  cases found : SortedMap.lookup members key with
  | none => trivial
  | some value => exact all _ ((SortedMap.lookup_eq_some_iff sorted).mp found)

theorem wellFormed_setMember {members : List (Bytes × JObject Double)}
    (wellFormed : (JObject.dict members).WellFormed) (key : Bytes) {value : JObject Double}
    (valueWellFormed : value.WellFormed) :
    (JObject.dict (setMember members key value)).WellFormed := by
  obtain ⟨sorted, all⟩ := wellFormed_dict.mp wellFormed
  refine wellFormed_dict.mpr ⟨sorted.assign key value, fun member among => ?_⟩
  rcases (SortedMap.mem_assign sorted key value member).mp among with rfl | ⟨isOld, -⟩
  · exact valueWellFormed
  · exact all member isOld

theorem memberOf_setMember {members : List (Bytes × JObject Double)}
    (wellFormed : (JObject.dict members).WellFormed) (key : Bytes) (value : JObject Double)
    (other : Bytes) :
    memberOf (setMember members key value) other =
      if other = key then value else memberOf members other := by
  rw [memberOf, setMember, SortedMap.lookup_assign (wellFormed_dict.mp wellFormed).1]
  split <;> rfl

/-- Objects hold the same if their members do. -/
theorem holdsSame_dict {members others : List (Bytes × JObject Double)}
    (alike : ∀ key, HoldsSame (memberOf members key) (memberOf others key)) :
    HoldsSame (.dict members) (.dict others) := by
  intro shape given
  cases shape with
  | int | bool | double | str => exact iff_of_false nofun nofun
  | struct fields =>
    rw [Shape.Holds, Shape.Holds]
    induction fields with
    | nil => exact .rfl
    | cons field fields inductionHypothesis =>
      simp only [Shape.HoldsAll, JObject.dict.injEq, exists_eq_left', inductionHypothesis given.2]
      exact and_congr_left fun _ => alike field.1 field.2 given.1

/-- A member may be replaced by one that holds the same. -/
theorem holdsSame_setMember {members others : List (Bytes × JObject Double)}
    (wellFormed : (JObject.dict others).WellFormed)
    (same : ∀ key, memberOf others key = memberOf members key) {key : Bytes}
    {value : JObject Double} (alike : HoldsSame (memberOf members key) value) :
    HoldsSame (.dict members) (.dict (setMember others key value)) := by
  refine holdsSame_dict fun other => ?_
  rw [memberOf_setMember wellFormed]
  split
  case isTrue here => rwa [here]
  case isFalse =>
    rw [same]
    exact .refl _

/-! ### Reading -/

/-- `operator[]` finds the member, and makes it if need be. -/
theorem index_dict {members : List (Bytes × JObject Double)}
    (wellFormed : (JObject.dict members).WellFormed) (key : Bytes) :
    ∃ others, (JObject.dict members).index key = .ok (.dict others, memberOf members key) ∧
      (JObject.dict others).WellFormed ∧
        ∀ other, memberOf others other = memberOf members other := by
  have looked : memberOf members key = (SortedMap.lookup members key).getD .null := rfl
  cases found : SortedMap.lookup members key with
  | some value =>
    rw [found] at looked
    refine ⟨members, ?_, wellFormed, fun _ => rfl⟩
    rw [JObject.index, found, looked]
    rfl
  | none =>
    rw [found] at looked
    refine ⟨setMember members key .null, ?_, wellFormed_setMember wellFormed key trivial, ?_⟩
    · rw [JObject.index, found, looked]
      rfl
    · intro other
      rw [memberOf_setMember wellFormed]
      split
      case isTrue same =>
        rw [same, looked]
        rfl
      case isFalse => rfl

mutual

/-- What is read is what the object holds, and it holds the same afterwards. -/
theorem Shape.ofObject_sound : ∀ (shape : Shape) {obj left : JObject Double}
    {value : shape.Val Double}, obj.WellFormed → shape.ofObject obj = .ok (value, left) →
      shape.Holds value obj ∧ left.WellFormed ∧ HoldsSame obj left
  | .int, obj, left, value, wellFormed, read => by
    obtain ⟨found, outcome, same⟩ := bind_eq_ok.mp read
    cases same
    cases obj with
    | int => cases outcome; exact ⟨rfl, wellFormed, .refl _⟩
    | _ => cases outcome
  | .bool, obj, left, value, wellFormed, read => by
    obtain ⟨found, outcome, same⟩ := bind_eq_ok.mp read
    cases same
    cases obj with
    | bool => cases outcome; exact ⟨rfl, wellFormed, .refl _⟩
    | _ => cases outcome
  | .double, obj, left, value, wellFormed, read => by
    obtain ⟨found, outcome, same⟩ := bind_eq_ok.mp read
    cases same
    cases obj with
    | double => cases outcome; exact ⟨rfl, wellFormed, .refl _⟩
    | _ => cases outcome
  | .str, obj, left, value, wellFormed, read => by
    obtain ⟨found, outcome, same⟩ := bind_eq_ok.mp read
    cases same
    cases obj with
    | str => cases outcome; exact ⟨rfl, wellFormed, .refl _⟩
    | _ => cases outcome
  | .struct fields, obj, left, values, wellFormed, read =>
    Shape.fromJson_sound fields wellFormed read

theorem Shape.fromJson_sound : ∀ (fields : List (Bytes × Shape)) {obj left : JObject Double}
    {values : Shape.Vals Double fields}, obj.WellFormed →
      Shape.fromJson fields obj = .ok (values, left) →
        Shape.HoldsAll fields values obj ∧ left.WellFormed ∧ HoldsSame obj left
  | [], obj, left, values, wellFormed, read => by
    cases read
    exact ⟨trivial, wellFormed, .refl _⟩
  | (key, shape) :: fields, obj, left, values, wellFormed, read => by
    obtain ⟨⟨before, member⟩, indexed, read⟩ := bind_eq_ok.mp read
    obtain ⟨⟨value, memberLeft⟩, memberRead, read⟩ := bind_eq_ok.mp read
    obtain ⟨after, assigned, read⟩ := bind_eq_ok.mp read
    obtain ⟨⟨others, rest⟩, fieldsRead, read⟩ := bind_eq_ok.mp read
    cases read
    cases obj with
    | dict members =>
      obtain ⟨made, found, madeWellFormed, same⟩ := index_dict wellFormed key
      cases found.symm.trans indexed
      obtain ⟨holds, leftWellFormed, alike⟩ :=
        shape.ofObject_sound (wellFormed_memberOf wellFormed key) memberRead
      cases assigned
      have next := holdsSame_setMember madeWellFormed same alike
      obtain ⟨holdsAll, restWellFormed, restAlike⟩ :=
        Shape.fromJson_sound fields (wellFormed_setMember madeWellFormed key leftWellFormed)
          fieldsRead
      exact ⟨⟨⟨members, rfl, holds⟩, (next (.struct fields) others).mpr holdsAll⟩, restWellFormed,
        fun shape value => (next shape value).trans (restAlike shape value)⟩
    | _ => cases indexed

end

mutual

/-- What the object holds is read. -/
theorem Shape.ofObject_complete : ∀ (shape : Shape) {obj : JObject Double}
    {value : shape.Val Double}, obj.WellFormed → shape.Holds value obj →
      ∃ left, shape.ofObject obj = .ok (value, left)
  | .int, _, _, _, rfl => ⟨_, rfl⟩
  | .bool, _, _, _, rfl => ⟨_, rfl⟩
  | .double, _, _, _, rfl => ⟨_, rfl⟩
  | .str, _, _, _, rfl => ⟨_, rfl⟩
  | .struct fields, _, _, wellFormed, holds => Shape.fromJson_complete fields wellFormed holds

theorem Shape.fromJson_complete : ∀ (fields : List (Bytes × Shape)) {obj : JObject Double}
    {values : Shape.Vals Double fields}, obj.WellFormed → Shape.HoldsAll fields values obj →
      ∃ left, Shape.fromJson fields obj = .ok (values, left)
  | [], obj, _, _, _ => ⟨obj, rfl⟩
  | (key, shape) :: fields, obj, values, wellFormed, holdsBoth => by
    obtain ⟨⟨members, rfl, holds⟩, holdsAll⟩ := holdsBoth
    obtain ⟨made, indexed, madeWellFormed, same⟩ := index_dict wellFormed key
    have memberWellFormed := wellFormed_memberOf wellFormed key
    obtain ⟨memberLeft, memberRead⟩ := shape.ofObject_complete memberWellFormed holds
    obtain ⟨-, leftWellFormed, alike⟩ := shape.ofObject_sound memberWellFormed memberRead
    have next := holdsSame_setMember madeWellFormed same alike
    obtain ⟨left, fieldsRead⟩ := Shape.fromJson_complete fields
      (wellFormed_setMember madeWellFormed key leftWellFormed)
      ((next (.struct fields) values.2).mp holdsAll)
    refine ⟨left, bind_eq_ok.mpr ⟨_, indexed, bind_eq_ok.mpr ⟨_, memberRead, ?_⟩⟩⟩
    exact bind_eq_ok.mpr ⟨_, rfl, bind_eq_ok.mpr ⟨_, fieldsRead, rfl⟩⟩

end

/-! ### Parsed objects are well formed -/

/-- Whatever value comes out is well formed. -/
def YieldsWellFormed (run : Run (JObject Double × Nat)) : Prop :=
  ∀ value idx, run = .ok (value, idx) → value.WellFormed

variable {ops : FloatOps Double} {str : Bytes} {parseItem : Nat → Run (JObject Double × Nat)}

theorem allWellFormed_iff (items : List (JObject Double)) :
    AllWellFormed items ↔ ∀ item ∈ items, item.WellFormed := by
  induction items with
  | nil => simp [AllWellFormed]
  | cons item items inductionHypothesis => simp [AllWellFormed, inductionHypothesis]

theorem listLoop_wellFormed (yields : ∀ idx, YieldsWellFormed (parseItem idx)) :
    ∀ (fuel : Nat) {arr items : List (JObject Double)} {idx next : Nat},
      (∀ item ∈ arr, item.WellFormed) → listLoop str parseItem fuel arr idx = .ok (items, next) →
        ∀ item ∈ items, item.WellFormed
  | 0, _, _, _, _, _, ran => by cases ran
  | fuel + 1, arr, items, idx, next, all, ran => by
    obtain ⟨⟨item, behind⟩, parsed, ran⟩ := bind_eq_ok.mp ran
    obtain ⟨⟨ch, behindItem⟩, token, ran⟩ := bind_eq_ok.mp ran
    have longer : ∀ other ∈ arr ++ [item], other.WellFormed :=
      List.forall_mem_append.mpr
        ⟨all, List.forall_mem_singleton.mpr (yields idx item behind parsed)⟩
    dsimp only at ran
    split at ran
    case isTrue =>
      cases ran
      exact longer
    case isFalse =>
      split at ran
      case isTrue => cases ran
      case isFalse => exact listLoop_wellFormed yields fuel longer ran

theorem dictLoop_wellFormed (yields : ∀ idx, YieldsWellFormed (parseItem idx)) :
    ∀ (fuel : Nat) {entries members : List (Bytes × JObject Double)} {idx next : Nat},
      (JObject.dict entries).WellFormed →
        dictLoop str parseItem fuel entries idx = .ok (members, next) →
          (JObject.dict members).WellFormed
  | 0, _, _, _, _, _, ran => by cases ran
  | fuel + 1, entries, members, idx, next, wellFormed, ran => by
    obtain ⟨⟨keyObject, behindKey⟩, -, ran⟩ := bind_eq_ok.mp ran
    obtain ⟨key, -, ran⟩ := bind_eq_ok.mp ran
    obtain ⟨⟨colon, atColon⟩, -, ran⟩ := bind_eq_ok.mp ran
    dsimp only at ran
    split at ran
    case isTrue => cases ran
    case isFalse =>
    obtain ⟨⟨value, behindValue⟩, parsed, ran⟩ := bind_eq_ok.mp ran
    obtain ⟨⟨ch, behindItem⟩, -, ran⟩ := bind_eq_ok.mp ran
    have longer := wellFormed_setMember wellFormed key (yields _ value behindValue parsed)
    dsimp only at ran
    split at ran
    case isTrue =>
      cases ran
      exact longer
    case isFalse =>
      split at ran
      case isTrue => cases ran
      case isFalse => exact dictLoop_wellFormed yields fuel longer ran

theorem parseNumber_wellFormed (idx : Nat) : YieldsWellFormed (parseNumber ops str idx) := by
  intro value next ran
  obtain ⟨first, -, ran⟩ := bind_eq_ok.mp ran
  split at ran
  · cases ran
  obtain ⟨behind, -, ran⟩ := bind_eq_ok.mp ran
  obtain ⟨point, -, ran⟩ := bind_eq_ok.mp ran
  split at ran
  · cases ran
    trivial
  obtain ⟨fraction, -, ran⟩ := bind_eq_ok.mp ran
  split at ran
  · cases ran
  obtain ⟨behindFraction, -, ran⟩ := bind_eq_ok.mp ran
  cases ran
  trivial

theorem parseString_wellFormed (idx : Nat) :
    YieldsWellFormed (parseString str idx : Run (JObject Double × Nat)) := by
  intro value next ran
  unfold parseString at ran
  dsimp only at ran
  split at ran
  · cases ran
  · obtain ⟨pos, -, ran⟩ := bind_eq_ok.mp ran
    cases ran
    trivial

theorem parseList_wellFormed (yields : ∀ idx, YieldsWellFormed (parseItem idx)) (fuel idx : Nat) :
    YieldsWellFormed (parseList str parseItem fuel idx) := by
  intro value next ran
  obtain ⟨⟨ch, behindBrace⟩, -, ran⟩ := bind_eq_ok.mp ran
  dsimp only at ran
  split at ran
  · cases ran
    trivial
  · obtain ⟨⟨items, behind⟩, loop, ran⟩ := bind_eq_ok.mp ran
    cases ran
    exact (allWellFormed_iff items).mpr
      (listLoop_wellFormed yields fuel (List.forall_mem_nil _) loop)

theorem parseDict_wellFormed (yields : ∀ idx, YieldsWellFormed (parseItem idx)) (fuel idx : Nat) :
    YieldsWellFormed (parseDict str parseItem fuel idx) := by
  have empty : (JObject.dict ([] : List (Bytes × JObject Double))).WellFormed :=
    wellFormed_dict.mpr ⟨.nil, nofun⟩
  intro value next ran
  obtain ⟨⟨ch, behindBrace⟩, -, ran⟩ := bind_eq_ok.mp ran
  dsimp only at ran
  split at ran
  · cases ran
    exact empty
  · obtain ⟨⟨members, behind⟩, loop, ran⟩ := bind_eq_ok.mp ran
    cases ran
    exact dictLoop_wellFormed yields fuel empty loop

theorem parseToken_wellFormed (yields : ∀ idx, YieldsWellFormed (parseItem idx)) (fuel : Nat)
    (token : Byte) (idx : Nat) :
    YieldsWellFormed (parseToken ops str parseItem fuel token idx) := by
  intro value next ran
  unfold parseToken at ran
  split at ran
  · obtain ⟨isNull, -, ran⟩ := bind_eq_ok.mp ran
    split at ran <;> cases ran
    trivial
  split at ran
  · obtain ⟨isTrue, -, ran⟩ := bind_eq_ok.mp ran
    split at ran
    · cases ran
      trivial
    · obtain ⟨isFalse, -, ran⟩ := bind_eq_ok.mp ran
      split at ran <;> cases ran
      trivial
  split at ran
  · exact parseNumber_wellFormed idx value next ran
  split at ran
  · exact parseString_wellFormed idx value next ran
  split at ran
  · exact parseList_wellFormed yields fuel idx value next ran
  split at ran
  · exact parseDict_wellFormed yields fuel idx value next ran
  · cases ran

theorem parse_wellFormed : ∀ (fuel idx : Nat), YieldsWellFormed (parse ops str fuel idx)
  | 0, _ => fun _ _ ran => by cases ran
  | fuel + 1, idx => fun value next ran => by
    obtain ⟨⟨token, behind⟩, -, ran⟩ := bind_eq_ok.mp ran
    exact parseToken_wellFormed (parse_wellFormed fuel) fuel token behind value next ran

theorem fromString_wellFormed {fuel : Nat} {content : Bytes} {value : JObject Double}
    (ran : fromString ops fuel content = .ok value) : value.WellFormed := by
  obtain ⟨⟨parsed, behind⟩, outcome, same⟩ := bind_eq_ok.mp ran
  cases same
  exact parse_wellFormed fuel 0 value behind outcome

/-! ### What is accepted -/

/-- `FromJson` returns a value exactly if the text is an object that holds it. -/
theorem fromJson_eq_ok_iff (ops : FloatOps Double) (fuel : Nat) (fields : List (Bytes × Shape))
    (src : Bytes) (values : Shape.Vals Double fields) :
    fromJson ops fuel fields src = .ok values ↔
      ∃ members, fromString ops fuel src = .ok (.dict members) ∧
        Shape.HoldsAll fields values (.dict members) := by
  constructor
  · intro ran
    obtain ⟨obj, parsed, ran⟩ := bind_eq_ok.mp ran
    cases obj with
    | dict members =>
      obtain ⟨⟨found, left⟩, read, same⟩ := bind_eq_ok.mp ran
      cases same
      exact ⟨members, parsed, (Shape.fromJson_sound fields (fromString_wellFormed parsed) read).1⟩
    | _ => cases ran
  · rintro ⟨members, parsed, holds⟩
    obtain ⟨left, read⟩ := Shape.fromJson_complete fields (fromString_wellFormed parsed) holds
    exact bind_eq_ok.mpr ⟨_, parsed, bind_eq_ok.mpr ⟨_, read, rfl⟩⟩

/-! ### Writing -/

mutual

/-- The keys of each struct are distinct. -/
def Shape.Distinct : Shape → Prop
  | .int | .bool | .double | .str => True
  | .struct fields => (fields.map Prod.fst).Nodup ∧ Shape.AllDistinct fields

def Shape.AllDistinct : List (Bytes × Shape) → Prop
  | [] => True
  | (_, shape) :: fields => shape.Distinct ∧ Shape.AllDistinct fields

end

mutual

/-- No double, no negative integer, and every string and key well escaped. -/
def Shape.Printable : (shape : Shape) → shape.Val Double → Prop
  | .int, value => 0 ≤ Int32.toInt value
  | .bool, _ => True
  | .double, _ => False
  | .str, value => WellEscaped value
  | .struct fields, values => Shape.AllPrintable fields values

def Shape.AllPrintable : (fields : List (Bytes × Shape)) → Shape.Vals Double fields → Prop
  | [], _ => True
  | (key, shape) :: fields, values =>
    WellEscaped key ∧ shape.Printable values.1 ∧ Shape.AllPrintable fields values.2

end

theorem roundTrips_setMember {members : List (Bytes × JObject Double)}
    (wellFormed : (JObject.dict members).WellFormed)
    (roundTrips : (JObject.dict members).RoundTrips) {key : Bytes} (escaped : WellEscaped key)
    {value : JObject Double} (valueRoundTrips : value.RoundTrips) :
    (JObject.dict (setMember members key value)).RoundTrips := by
  have sorted := (wellFormed_dict.mp wellFormed).1
  rw [JObject.RoundTrips, membersRoundTrip_iff] at roundTrips ⊢
  intro member among
  rcases (SortedMap.mem_assign sorted key value member).mp among with rfl | ⟨isOld, -⟩
  · exact ⟨escaped, valueRoundTrips⟩
  · exact roundTrips member isOld

mutual

/-- What is assigned to a member holds its value, and can be printed. -/
theorem Shape.toObject_holds : ∀ (shape : Shape) (value : shape.Val Double), shape.Distinct →
    shape.Printable value → ∃ obj, shape.toObject value = .ok obj ∧ obj.WellFormed ∧
      obj.RoundTrips ∧ shape.Holds value obj
  | .int, _, _, nonnegative => ⟨_, rfl, trivial, nonnegative, rfl⟩
  | .bool, _, _, _ => ⟨_, rfl, trivial, trivial, rfl⟩
  | .double, _, _, impossible => absurd impossible id
  | .str, _, _, escaped => ⟨_, rfl, trivial, escaped, rfl⟩
  | .struct fields, values, distinct, printable => by
    obtain ⟨members, written, wellFormed, roundTrips, holds, -⟩ := Shape.toJson_holds fields values
      distinct.1 distinct.2 printable (wellFormed_dict.mpr ⟨.nil, nofun⟩) trivial
    exact ⟨_, written, wellFormed, roundTrips, holds⟩

theorem Shape.toJson_holds : ∀ (fields : List (Bytes × Shape)) (values : Shape.Vals Double fields),
    (fields.map Prod.fst).Nodup → Shape.AllDistinct fields → Shape.AllPrintable fields values →
      ∀ {members : List (Bytes × JObject Double)}, (JObject.dict members).WellFormed →
        (JObject.dict members).RoundTrips →
          ∃ others, Shape.toJson fields values (.dict members) = .ok (.dict others) ∧
            (JObject.dict others).WellFormed ∧ (JObject.dict others).RoundTrips ∧
            Shape.HoldsAll fields values (.dict others) ∧
            ∀ key ∉ fields.map Prod.fst, memberOf others key = memberOf members key
  | [], _, _, _, _, members, wellFormed, roundTrips =>
    ⟨members, rfl, wellFormed, roundTrips, trivial, fun _ _ => rfl⟩
  | (key, shape) :: fields, values, nodup, distinct, printable, members, wellFormed,
      roundTrips => by
    obtain ⟨fresh, nodup⟩ := List.nodup_cons.mp nodup
    obtain ⟨escaped, valuePrintable, othersPrintable⟩ := printable
    obtain ⟨tmp, assigned, tmpWellFormed, tmpRoundTrips, holds⟩ :=
      shape.toObject_holds values.1 distinct.1 valuePrintable
    obtain ⟨others, written, othersWellFormed, othersRoundTrip, holdsAll, kept⟩ :=
      Shape.toJson_holds fields values.2 nodup distinct.2 othersPrintable
        (wellFormed_setMember wellFormed key tmpWellFormed)
        (roundTrips_setMember wellFormed roundTrips escaped tmpRoundTrips)
    have here : memberOf others key = tmp := by
      rw [kept key fresh, memberOf_setMember wellFormed, if_pos rfl]
    refine ⟨others, bind_eq_ok.mpr ⟨tmp, assigned, bind_eq_ok.mpr ⟨_, rfl, written⟩⟩,
      othersWellFormed, othersRoundTrip, ⟨⟨others, rfl, here ▸ holds⟩, holdsAll⟩, ?_⟩
    intro other absent
    obtain ⟨differs, absent⟩ := not_or.mp (List.mem_cons.not.mp absent)
    rw [kept other absent, memberOf_setMember wellFormed, if_neg differs]

end

/-- A struct without doubles and negative numbers, whose strings and keys are well escaped, is
mapped to a text that is mapped back to the same struct. -/
theorem fromJson_toJSON (ops : FloatOps Double) (fields : List (Bytes × Shape))
    (distinct : (Shape.struct fields).Distinct) (values : Shape.Vals Double fields)
    (printable : Shape.AllPrintable fields values) :
    ∃ text, toJSON ops fields values = .ok text ∧
      ∀ fuel, text.length < fuel → fromJson ops fuel fields text = .ok values := by
  obtain ⟨members, written, wellFormed, roundTrips, holds, -⟩ := Shape.toJson_holds fields values
    distinct.1 distinct.2 printable (wellFormed_dict.mpr ⟨.nil, nofun⟩) trivial
  refine ⟨_, bind_eq_ok.mpr ⟨_, written, rfl⟩, fun fuel fits => ?_⟩
  have parsed := fromString_toText ops wellFormed roundTrips fits
  obtain ⟨left, read⟩ := Shape.fromJson_complete fields wellFormed holds
  exact bind_eq_ok.mpr ⟨_, parsed, bind_eq_ok.mpr ⟨_, read, rfl⟩⟩

/-- A struct with a struct in it, whose members are not in the order of their keys. -/
theorem fromJson_toJSON_nested :
    let fields : List (Bytes × Shape) :=
      [(ascii "name", .str), (ascii "at", .struct [(ascii "port", .int), (ascii "ssl", .bool)])]
    let values : Shape.Vals ℚ fields := (ascii "luce", ((80 : Int32), true, ()), ())
    ∃ text, toJSON rationals fields values = .ok text ∧
      ∀ fuel, text.length < fuel → fromJson rationals fuel fields text = .ok values := by
  intro fields values
  have inner : Shape.Distinct (.struct [(ascii "port", .int), (ascii "ssl", .bool)]) :=
    ⟨by decide, trivial, trivial, trivial⟩
  have distinct : (Shape.struct fields).Distinct := ⟨by decide, trivial, inner, trivial⟩
  have printable : Shape.AllPrintable fields values :=
    ⟨by decide, show WellEscaped (ascii "luce") by decide, by decide,
      ⟨by decide, show 0 ≤ (80 : Int32).toInt by decide, by decide, trivial, trivial⟩, trivial⟩
  exact fromJson_toJSON rationals fields distinct values printable

end Luce.TinyJson
