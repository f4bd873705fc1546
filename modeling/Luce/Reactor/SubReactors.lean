/-
This file settles when a server has a sub-reactor to select, for every number of threads.

The constructor makes `thread_num / 2 - 1` of them, which is computed as a `size_t`. With
fewer than two threads the subtraction wraps and the loop goes on beyond all bounds; with two
or three it makes none, and the selection divides by zero. With more, a selection computes its
index from `cnt_`, and however often `cnt_` is incremented and wraps, by this call or by others,
the index is that of a sub-reactor.
-/

import Luce.Library.Transition
import Mathlib.Algebra.GroupWithZero.Nat
import Mathlib.Logic.Function.Basic

namespace Luce

open Library.Transition

variable {Reactor : Type}

/-- How far a call of `GetSubReactor` is. -/
inductive SelectPhase (Reactor : Type) where
  | idle
  /-- It has the index and is about to increment `cnt_`. -/
  | indexed (index : UInt64)
  /-- It is about to access the vector. -/
  | counted (index : UInt64)
  | returned (reactor : Reactor)
deriving DecidableEq, Repr

/-- The members of a server that `GetSubReactor` uses, with its last call in each thread. -/
structure SubReactors (Reactor : Type) where
  subReactors : List Reactor
  cnt : UInt64
  calls : Nat → SelectPhase Reactor
  /-- It has been divided by zero, or accessed what is behind the end. -/
  undefined : Bool

inductive SelectStep where
  /-- `auto index = cnt_ % sub_reactors_.size()`. -/
  | index (thread : Nat)
  /-- `cnt_++`. -/
  | count (thread : Nat)
  /-- `return *sub_reactors_[index]`. -/
  | select (thread : Nat)
deriving DecidableEq, Repr

namespace SubReactors

/-- A loop variable below its bound does not wrap. -/
theorem toNat_succ {i bound : UInt64} (below : i < bound) : (i + 1).toNat = i.toNat + 1 := by
  have largest := bound.toNat_lt
  rw [UInt64.lt_iff_toNat_lt] at below
  rw [UInt64.toNat_add]
  exact Nat.mod_eq_of_lt (show i.toNat + 1 < 2 ^ 64 by omega)

/-- The loop of the constructor, from `i` on; `create` is told which one it makes. -/
def emplace (create : UInt64 → Reactor) (bound i : UInt64) (subReactors : List Reactor) :
    List Reactor :=
  if i < bound then emplace create bound (i + 1) (subReactors ++ [create i]) else subReactors
termination_by bound.toNat - i.toNat
decreasing_by
  rename_i below
  have next := toNat_succ below
  rw [UInt64.lt_iff_toNat_lt] at below
  omega

/-- The constructor of the server. -/
def construct (create : UInt64 → Reactor) (threadNum : UInt64) : SubReactors Reactor :=
  ⟨emplace create (threadNum / 2 - 1) 0 [], 0, fun _ => .idle, false⟩

def setCall (server : SubReactors Reactor) (thread : Nat) (phase : SelectPhase Reactor) :
    SubReactors Reactor :=
  { server with calls := Function.update server.calls thread phase }

/-- `sub_reactors_.size()`. -/
def size (server : SubReactors Reactor) : UInt64 := UInt64.ofNat server.subReactors.length

def step (server : SubReactors Reactor) (label : SelectStep) : Option (SubReactors Reactor) :=
  if server.undefined then none
  else
    match label with
    | .index thread =>
      match server.calls thread with
      | .idle | .returned _ =>
        if server.size = 0 then some { server with undefined := true }
        else some (server.setCall thread (.indexed (server.cnt % server.size)))
      | _ => none
    | .count thread =>
      match server.calls thread with
      | .indexed index =>
        some ({ server with cnt := server.cnt + 1 }.setCall thread (.counted index))
      | _ => none
    | .select thread =>
      match server.calls thread with
      | .counted index =>
        match server.subReactors[index.toNat]? with
        | some reactor => some (server.setCall thread (.returned reactor))
        | none => some { server with undefined := true }
      | _ => none

/-- Nothing undefined has happened, and what has been returned is a sub-reactor. -/
structure Selects (server : SubReactors Reactor) : Prop where
  defined : server.undefined = false
  element : ∀ thread reactor, server.calls thread = .returned reactor →
    reactor ∈ server.subReactors

/-! ### How many there are -/

theorem length_emplace (create : UInt64 → Reactor) (bound i : UInt64)
    (subReactors : List Reactor) :
    (emplace create bound i subReactors).length =
      subReactors.length + (bound.toNat - i.toNat) := by
  fun_induction emplace create bound i subReactors with
  | case1 i subReactors below inductionHypothesis =>
    have next := toNat_succ below
    rw [UInt64.lt_iff_toNat_lt] at below
    rw [inductionHypothesis, next, List.length_append, List.length_singleton]
    omega
  | case2 i subReactors outside =>
    rw [UInt64.lt_iff_toNat_lt] at outside
    omega

theorem length_construct (create : UInt64 → Reactor) (threadNum : UInt64) :
    (construct create threadNum).subReactors.length = (threadNum / 2 - 1).toNat :=
  (length_emplace create _ 0 []).trans (Nat.zero_add _)

/-- From two threads on the subtraction does not wrap. -/
theorem toNat_bound {threadNum : UInt64} (two : 2 ≤ threadNum) :
    (threadNum / 2 - 1).toNat = threadNum.toNat / 2 - 1 := by
  rw [UInt64.le_iff_toNat_le] at two
  have half : (threadNum / 2).toNat = threadNum.toNat / 2 := UInt64.toNat_div ..
  have one : 1 ≤ threadNum / 2 := by
    rw [UInt64.le_iff_toNat_le, half]
    exact Nat.div_pos two (by decide)
  rw [UInt64.toNat_sub_of_le _ _ one, half]
  rfl

/-- With fewer it does. -/
theorem toNat_bound_of_lt {threadNum : UInt64} (few : threadNum < 2) :
    (threadNum / 2 - 1).toNat = 2 ^ 64 - 1 := by
  have none : threadNum / 2 = 0 := by
    rw [UInt64.lt_iff_toNat_lt] at few
    refine UInt64.toNat_inj.mp ((UInt64.toNat_div ..).trans (Nat.div_eq_of_lt few))
  rw [none]
  rfl

/-! ### What is selected -/

/-- The index that a call has is that of a sub-reactor, or its result is one. -/
def Fits (subReactors : List Reactor) : SelectPhase Reactor → Prop
  | .idle => True
  | .indexed index | .counted index => index.toNat < subReactors.length
  | .returned reactor => reactor ∈ subReactors

/-- There are sub-reactors, and all calls fit them. -/
structure Sound (server : SubReactors Reactor) : Prop where
  defined : server.undefined = false
  nonempty : 0 < server.subReactors.length
  narrow : server.subReactors.length < 2 ^ 64
  fits : ∀ thread, Fits server.subReactors (server.calls thread)

theorem Sound.selects {server : SubReactors Reactor} (sound : server.Sound) :
    server.Selects where
  defined := sound.defined
  element thread reactor returned := by
    have fits := sound.fits thread
    rwa [returned] at fits

theorem Sound.setCall {server : SubReactors Reactor} (sound : server.Sound) (thread : Nat)
    {phase : SelectPhase Reactor} (fits : Fits server.subReactors phase) :
    (server.setCall thread phase).Sound where
  defined := sound.defined
  nonempty := sound.nonempty
  narrow := sound.narrow
  fits other := by
    by_cases same : other = thread
    · subst same
      simpa [SubReactors.setCall] using fits
    · simpa [SubReactors.setCall, same] using sound.fits other

theorem Sound.toNat_size {server : SubReactors Reactor} (sound : server.Sound) :
    server.size.toNat = server.subReactors.length :=
  UInt64.toNat_ofNat_of_lt' sound.narrow

/-- Whatever `cnt_` is, the remainder is the index of a sub-reactor. -/
theorem Sound.index_lt {server : SubReactors Reactor} (sound : server.Sound) :
    (server.cnt % server.size).toNat < server.subReactors.length := by
  rw [UInt64.toNat_mod, sound.toNat_size]
  exact Nat.mod_lt _ sound.nonempty

theorem Sound.size_ne_zero {server : SubReactors Reactor} (sound : server.Sound) :
    server.size ≠ 0 := by
  intro zero
  have size := sound.toNat_size
  rw [zero] at size
  exact absurd sound.nonempty (size ▸ Nat.lt_irrefl _)

theorem Sound.step {server next : SubReactors Reactor} {label : SelectStep}
    (sound : server.Sound) (taken : server.step label = some next) : next.Sound := by
  unfold SubReactors.step at taken
  rw [if_neg (Bool.eq_false_iff.mp sound.defined)] at taken
  cases label with
  | index thread =>
    have indexed : (server.setCall thread (.indexed (server.cnt % server.size))).Sound :=
      sound.setCall thread sound.index_lt
    simp only [if_neg sound.size_ne_zero] at taken
    split at taken
    case h_1 | h_2 =>
      cases taken
      exact indexed
    case h_3 => cases taken
  | count thread =>
    dsimp only at taken
    split at taken
    case h_1 index indexed =>
      cases taken
      have fits := sound.fits thread
      rw [indexed] at fits
      have counted : Sound { server with cnt := server.cnt + 1 } :=
        ⟨sound.defined, sound.nonempty, sound.narrow, sound.fits⟩
      exact counted.setCall thread fits
    case h_2 => cases taken
  | select thread =>
    dsimp only at taken
    split at taken
    case h_1 index counted =>
      have fits := sound.fits thread
      rw [counted] at fits
      rw [List.getElem?_eq_getElem fits] at taken
      cases taken
      exact sound.setCall thread (List.getElem_mem fits)
    case h_2 => cases taken

/-- Without sub-reactors the first selection divides by zero. -/
theorem index_undefined {create : UInt64 → Reactor} {threadNum : UInt64}
    (none : (construct create threadNum).subReactors.length = 0) :
    run step (construct create threadNum) [.index 0] =
      some { construct create threadNum with undefined := true } := by
  have zero : (construct create threadNum).size = 0 := by
    rw [size, none]
    rfl
  exact (run_cons step).mpr ⟨_, if_pos zero, rfl⟩

end SubReactors

/-- For every number of threads: no more sub-reactors are made than there are threads, and
whatever is called in whatever order, nothing undefined happens and what is returned is a
sub-reactor, exactly when there are at least four threads. -/
theorem subReactors_selects_iff (create : UInt64 → Reactor) (threadNum : UInt64) :
    ((SubReactors.construct create threadNum).subReactors.length ≤ threadNum.toNat ∧
      ∀ steps reached,
        run SubReactors.step (SubReactors.construct create threadNum) steps = some reached →
          reached.Selects) ↔ 4 ≤ threadNum := by
  have length := SubReactors.length_construct create threadNum
  have bounded := threadNum.toNat_lt
  rw [UInt64.le_iff_toNat_le, show (4 : UInt64).toNat = 4 from rfl]
  constructor
  · rintro ⟨few, selects⟩
    by_contra less
    by_cases two : 2 ≤ threadNum
    · have none : (SubReactors.construct create threadNum).subReactors.length = 0 := by
        rw [length, SubReactors.toNat_bound two]
        omega
      have undefined := (selects _ _ (SubReactors.index_undefined none)).defined
      cases undefined
    · rw [length, SubReactors.toNat_bound_of_lt (UInt64.not_le.mp two)] at few
      omega
  · intro four
    have two : 2 ≤ threadNum := UInt64.le_iff_toNat_le.mpr (Nat.le_trans (by decide) four)
    rw [SubReactors.toNat_bound two] at length
    refine ⟨by omega, fun steps reached ran => ?_⟩
    have sound : (SubReactors.construct create threadNum).Sound :=
      ⟨rfl, by omega, by omega, fun _ => trivial⟩
    exact (invariant_run SubReactors.step (fun _ _ _ sound taken => sound.step taken) sound
      ran).selects

/-- With one thread the loop is to make `2 ^ 64 - 1` sub-reactors, and with two it makes none to
select from. -/
theorem subReactors_wrap :
    ¬ ((SubReactors.construct (fun i => i) 1).subReactors.length ≤ 1) ∧
      ∃ reached, run SubReactors.step (SubReactors.construct (fun i => i) 2) [.index 0] =
        some reached ∧ ¬ reached.Selects := by
  constructor
  · rw [SubReactors.length_construct]
    decide
  · refine ⟨_, SubReactors.index_undefined ?_, fun selects => ?_⟩
    · rw [SubReactors.length_construct]
      decide
    · exact Bool.noConfusion selects.defined

end Luce
