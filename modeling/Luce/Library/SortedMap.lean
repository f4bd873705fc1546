/-
This file is a theory of maps kept as lists of entries in the order of their keys.

Assigning to a key puts a new entry in its place or replaces the value of the
entry that is there. The entries stay sorted, so a map is decided by which
entries it has, and assigning the entries of a map one by one builds the map
again, whatever order they come in.
-/

import Mathlib.Data.List.Nodup
import Mathlib.Data.List.Perm.Basic
import Mathlib.Order.RelClasses

namespace Library.SortedMap

variable {Key Value : Type} (before : Key → Key → Prop) [DecidableRel before]

/-- Makes this the value of the key. -/
def assign (entries : List (Key × Value)) (key : Key) (value : Value) : List (Key × Value) :=
  match entries with
  | [] => [(key, value)]
  | entry :: rest =>
    if before key entry.1 then (key, value) :: entry :: rest
    else if before entry.1 key then entry :: assign rest key value
    else (key, value) :: rest

/-- The map that these assignments build, later ones overriding. -/
def build (entries : List (Key × Value)) : List (Key × Value) :=
  entries.foldl (fun map entry => assign before map entry.1 entry.2) []

omit [DecidableRel before] in
/-- The entries are in the order of their keys. -/
def Sorted (entries : List (Key × Value)) : Prop :=
  entries.Pairwise fun first second => before first.1 second.1

variable {before} [IsStrictTotalOrder Key before]

/-- The entries after an assignment: the new one, and the old ones of other keys. -/
theorem mem_assign {entries : List (Key × Value)} (sorted : Sorted before entries) (key : Key)
    (value : Value) (entry : Key × Value) :
    entry ∈ assign before entries key value ↔
      entry = (key, value) ∨ entry ∈ entries ∧ entry.1 ≠ key := by
  induction entries with
  | nil => simp [assign]
  | cons head rest inductionHypothesis =>
    obtain ⟨first, sortedRest⟩ := List.pairwise_cons.mp sorted
    unfold assign
    split
    · rename_i earlier
      have others : ∀ other ∈ head :: rest, other.1 ≠ key := by
        rintro other member rfl
        rcases List.mem_cons.mp member with rfl | member
        · exact irrefl _ earlier
        · exact irrefl _ (trans_of before earlier (first other member))
      rw [List.mem_cons]
      exact or_congr_right ⟨fun member => ⟨member, others entry member⟩, And.left⟩
    · rename_i notEarlier
      split
      · rename_i later
        have headOther : head.1 ≠ key := fun same => irrefl _ (same ▸ later)
        rw [List.mem_cons, inductionHypothesis sortedRest, List.mem_cons]
        constructor
        · rintro (rfl | rfl | ⟨member, other⟩)
          · exact Or.inr ⟨Or.inl rfl, headOther⟩
          · exact Or.inl rfl
          · exact Or.inr ⟨Or.inr member, other⟩
        · rintro (rfl | ⟨rfl | member, other⟩)
          · exact Or.inr (Or.inl rfl)
          · exact Or.inl rfl
          · exact Or.inr (Or.inr ⟨member, other⟩)
      · rename_i notLater
        have same : head.1 = key := (Std.Trichotomous.trichotomous _ _ notEarlier notLater).symm
        rw [List.mem_cons, List.mem_cons]
        constructor
        · rintro (rfl | member)
          · exact Or.inl rfl
          · have headFirst := first entry member
            rw [same] at headFirst
            exact Or.inr ⟨Or.inr member, fun equal => irrefl key (equal ▸ headFirst)⟩
        · rintro (rfl | ⟨rfl | member, other⟩)
          · exact Or.inl rfl
          · exact absurd same other
          · exact Or.inr member

/-- Assigning keeps the entries sorted. -/
theorem Sorted.assign {entries : List (Key × Value)} (sorted : Sorted before entries) (key : Key)
    (value : Value) : Sorted before (assign before entries key value) := by
  induction entries with
  | nil => exact List.pairwise_singleton _ _
  | cons head rest inductionHypothesis =>
    obtain ⟨first, sortedRest⟩ := List.pairwise_cons.mp sorted
    unfold SortedMap.assign
    split
    · rename_i earlier
      refine List.pairwise_cons.mpr ⟨fun other member => ?_, sorted⟩
      rcases List.mem_cons.mp member with rfl | member
      · exact earlier
      · exact trans_of before earlier (first other member)
    · rename_i notEarlier
      split
      · rename_i later
        refine List.pairwise_cons.mpr ⟨fun other member => ?_, inductionHypothesis sortedRest⟩
        rcases (mem_assign sortedRest key value other).mp member with rfl | ⟨member, _⟩
        · exact later
        · exact first other member
      · rename_i notLater
        have same : head.1 = key := (Std.Trichotomous.trichotomous _ _ notEarlier notLater).symm
        exact List.pairwise_cons.mpr ⟨same ▸ first, sortedRest⟩

omit [DecidableRel before] in
/-- The keys of a map are distinct. -/
theorem Sorted.keys_nodup {entries : List (Key × Value)} (sorted : Sorted before entries) :
    (entries.map Prod.fst).Nodup :=
  List.pairwise_map.mpr (sorted.imp ne_of_irrefl)

omit [DecidableRel before] in
/-- Two maps with the same entries are the same. -/
theorem Sorted.ext {first second : List (Key × Value)} (left : Sorted before first)
    (right : Sorted before second) (same : ∀ entry, entry ∈ first ↔ entry ∈ second) :
    first = second := by
  have permuted : first.Perm second :=
    (List.perm_ext_iff_of_nodup (List.Nodup.of_map _ left.keys_nodup)
      (List.Nodup.of_map _ right.keys_nodup)).mpr same
  refine permuted.eq_of_pairwise (fun a b _ _ earlier later => ?_) left right
  exact absurd (trans_of before earlier later) (irrefl a.1)

/-- Assigning new keys one by one adds their entries. -/
theorem foldl_assign : ∀ {entries map : List (Key × Value)}, Sorted before map →
    (entries.map Prod.fst).Nodup →
    (∀ entry ∈ entries, ∀ old ∈ map, old.1 ≠ entry.1) →
      Sorted before (entries.foldl (fun map entry => assign before map entry.1 entry.2) map) ∧
        ∀ entry, entry ∈ entries.foldl (fun map entry => assign before map entry.1 entry.2) map ↔
          entry ∈ map ∨ entry ∈ entries
  | [], map, sorted, _, _ => ⟨sorted, fun _ => (or_iff_left List.not_mem_nil).symm⟩
  | head :: rest, map, sorted, distinct, fresh => by
    rw [List.map_cons, List.nodup_cons] at distinct
    obtain ⟨headFresh, freshRest⟩ := List.forall_mem_cons.mp fresh
    have assigned := mem_assign sorted head.1 head.2
    have stillFresh : ∀ entry ∈ rest, ∀ old ∈ assign before map head.1 head.2,
        old.1 ≠ entry.1 := by
      intro entry member old isOld
      rcases (assigned old).mp isOld with rfl | ⟨isOld, _⟩
      · exact fun same => distinct.1 (same ▸ List.mem_map_of_mem member)
      · exact freshRest entry member old isOld
    obtain ⟨sortedAll, members⟩ := foldl_assign (sorted.assign head.1 head.2) distinct.2 stillFresh
    refine ⟨sortedAll, fun entry => ?_⟩
    rw [List.foldl_cons, members entry, assigned entry, List.mem_cons]
    constructor
    · rintro ((rfl | ⟨isOld, _⟩) | member)
      · exact Or.inr (Or.inl rfl)
      · exact Or.inl isOld
      · exact Or.inr (Or.inr member)
    · rintro (isOld | rfl | member)
      · exact Or.inl (Or.inr ⟨isOld, headFresh entry isOld⟩)
      · exact Or.inl (Or.inl rfl)
      · exact Or.inr member

/-- Assigning the entries of a map in any order builds the map. -/
theorem build_eq {entries shuffled : List (Key × Value)} (sorted : Sorted before entries)
    (permuted : shuffled.Perm entries) : build before shuffled = entries := by
  have distinct : (shuffled.map Prod.fst).Nodup :=
    (permuted.map Prod.fst).nodup_iff.mpr sorted.keys_nodup
  have empty : Sorted before ([] : List (Key × Value)) := List.Pairwise.nil
  obtain ⟨sortedBuild, members⟩ :=
    foldl_assign empty distinct fun _ _ _ isOld => by cases isOld
  refine Sorted.ext sortedBuild sorted fun entry => ?_
  exact (members entry).trans ((or_iff_right List.not_mem_nil).trans permuted.mem_iff)

/-! ### Lookup -/

omit [IsStrictTotalOrder Key before] in
/-- The value of the key, if it has one. -/
def lookup [DecidableEq Key] (entries : List (Key × Value)) (key : Key) : Option Value :=
  (entries.find? fun entry => entry.1 = key).map Prod.snd

variable [DecidableEq Key]

omit [DecidableRel before] in
theorem lookup_eq_some_iff {entries : List (Key × Value)} (sorted : Sorted before entries)
    {key : Key} {value : Value} : lookup entries key = some value ↔ (key, value) ∈ entries := by
  unfold lookup
  constructor
  · intro found
    obtain ⟨entry, first, rfl⟩ := Option.map_eq_some_iff.mp found
    have same : entry.1 = key := by simpa using List.find?_some first
    exact same ▸ List.mem_of_find?_eq_some first
  · intro member
    cases found : entries.find? fun entry => entry.1 = key with
    | none => exact absurd (decide_eq_true rfl) (List.find?_eq_none.mp found _ member)
    | some entry =>
      have same : entry.1 = key := by simpa using List.find?_some found
      have one : entry = (key, value) := List.inj_on_of_nodup_map sorted.keys_nodup
        (List.mem_of_find?_eq_some found) member same
      rw [one]
      rfl

theorem lookup_assign {entries : List (Key × Value)} (sorted : Sorted before entries)
    (key : Key) (value : Value) (other : Key) :
    lookup (assign before entries key value) other =
      if other = key then some value else lookup entries other := by
  refine Option.ext fun found => ?_
  rw [lookup_eq_some_iff (sorted.assign key value), mem_assign sorted]
  split
  case isTrue same =>
    subst same
    simp [eq_comm]
  case isFalse differs =>
    rw [lookup_eq_some_iff sorted]
    simp [differs]

end Library.SortedMap
