/-
This file proves what the free lists of the pool are: lists of blank buffers, each under the key
that is the capacity of its buffers, so that no buffer is in two of them. The constructor fills
them and accounts for the memory of all their buffers.
-/

import Luce.Io.BufPool
import Luce.Library.LinkedList
import Mathlib.Algebra.BigOperators.Group.Finset.Basic

namespace Luce

open Library.LinkedList

namespace BufPool

@[simp] theorem memory_newBuf (pool : BufPool) (size : Nat) :
    (pool.newBuf size).2.memory =
      Function.update pool.memory pool.created (some ⟨none, size, 0, 0⟩) := rfl

@[simp] theorem memory_setBuf (pool : BufPool) (address : BufAddress) (buffer : IOBuf) :
    (pool.setBuf address buffer).memory = Function.update pool.memory address (some buffer) := rfl

@[simp] theorem pool_setPool (pool : BufPool) (key : Nat) (link : Option BufAddress) :
    (pool.setPool key link).pool = Function.update pool.pool key (some link) := rfl

/-- No key goes. -/
theorem exists_pool_setPool {pool : BufPool} {other : Nat} {head : Option BufAddress}
    (before : pool.pool other = some head) {key : Nat} {link : Option BufAddress} :
    ∃ after, (pool.setPool key link).pool other = some after := by
  rw [pool_setPool, Function.update_apply]
  split
  · exact ⟨link, rfl⟩
  · exact ⟨head, before⟩

/-- The memory of all buffers, in units of 1024 bytes. -/
def held (pool : BufPool) : Nat :=
  ∑ address ∈ Finset.range pool.created, (pool.memory address).elim 0 (·.capacity / 1024)

/-- Under each key there is the list of these buffers, which are blank and have that capacity.
Where nothing has been created there is nothing. -/
structure Listed (pool : BufPool) (free : Nat → List BufAddress) : Prop where
  fresh : ∀ address, pool.created ≤ address → pool.memory address = none
  chain : ∀ key link, pool.pool key = some link → Chain IOBuf.next pool.memory link (free key)
  blank : ∀ key link, pool.pool key = some link → ∀ address ∈ free key,
    ∃ next, pool.memory address = some ⟨next, key, 0, 0⟩

variable {pool : BufPool} {free : Nat → List BufAddress}

namespace Listed

/-- What is there has been created. -/
theorem created (listed : pool.Listed free) {address : BufAddress} {buffer : IOBuf}
    (found : pool.memory address = some buffer) : address < pool.created := by
  by_contra outside
  rw [listed.fresh address (Nat.not_lt.mp outside)] at found
  cases found

/-- The capacity of a free buffer is the key of its list. -/
theorem capacity (listed : pool.Listed free) {key : Nat} {link : Option BufAddress}
    (under : pool.pool key = some link) {address : BufAddress} (among : address ∈ free key)
    {buffer : IOBuf} (found : pool.memory address = some buffer) : buffer.capacity = key := by
  obtain ⟨next, blank⟩ := listed.blank key link under address among
  rw [found] at blank
  cases blank
  rfl

/-- A buffer in no list may be changed. -/
theorem update (listed : pool.Listed free) {address : BufAddress} (buffer : IOBuf)
    (old : address < pool.created)
    (apart : ∀ key link, pool.pool key = some link → address ∉ free key) :
    (pool.setBuf address buffer).Listed free where
  fresh other outside := by
    have differs : other ≠ address := Nat.ne_of_gt (Nat.lt_of_lt_of_le old outside)
    exact (Function.update_of_ne differs _ _).trans (listed.fresh other outside)
  chain key link under := (listed.chain key link under).update_of_not_mem (apart key link under)
  blank key link under other among := by
    obtain ⟨next, blank⟩ := listed.blank key link under other among
    have differs : other ≠ address := ne_of_mem_of_not_mem among (apart key link under)
    exact ⟨next, (Function.update_of_ne differs _ _).trans blank⟩

theorem newBuf (listed : pool.Listed free) (size : Nat) : (pool.newBuf size).2.Listed free where
  fresh other outside := by
    have differs : other ≠ pool.created := Nat.ne_of_gt outside
    exact (Function.update_of_ne differs _ _).trans
      (listed.fresh other (Nat.le_of_succ_le outside))
  chain key link under := by
    refine (listed.chain key link under).update_of_not_mem fun among => ?_
    obtain ⟨next, blank⟩ := listed.blank key link under _ among
    exact Nat.lt_irrefl _ (listed.created blank)
  blank key link under other among := by
    obtain ⟨next, blank⟩ := listed.blank key link under other among
    have differs : other ≠ pool.created := Nat.ne_of_lt (listed.created blank)
    exact ⟨next, (Function.update_of_ne differs _ _).trans blank⟩

/-- Another list is put under a key. -/
theorem setPool (listed : pool.Listed free) {key : Nat} {link : Option BufAddress}
    {addresses : List BufAddress} (chain : Chain IOBuf.next pool.memory link addresses)
    (blank : ∀ address ∈ addresses, ∃ next, pool.memory address = some ⟨next, key, 0, 0⟩) :
    (pool.setPool key link).Listed (Function.update free key addresses) where
  fresh := listed.fresh
  chain other found under := by
    by_cases same : other = key
    · subst same
      rw [Function.update_self]
      rw [pool_setPool, Function.update_self] at under
      cases under
      exact chain
    · rw [pool_setPool, Function.update_of_ne same] at under
      rw [Function.update_of_ne same]
      exact listed.chain other found under
  blank other found under := by
    by_cases same : other = key
    · subst same
      rw [Function.update_self]
      exact blank
    · rw [pool_setPool, Function.update_of_ne same] at under
      rw [Function.update_of_ne same]
      exact listed.blank other found under

end Listed

/-! ### Accounting -/

theorem held_newBuf (pool : BufPool) (size : Nat) :
    (pool.newBuf size).2.held = pool.held + size / 1024 := by
  have more : (pool.newBuf size).2.created = pool.created + 1 := rfl
  rw [held, more, Finset.sum_range_succ, memory_newBuf, Function.update_self, held]
  congr 1
  refine Finset.sum_congr rfl fun address among => ?_
  rw [Function.update_of_ne (Nat.ne_of_lt (Finset.mem_range.mp among))]

theorem held_setBuf {address : BufAddress} {before : IOBuf}
    (found : pool.memory address = some before) (after : IOBuf)
    (same : after.capacity = before.capacity) :
    (pool.setBuf address after).held = pool.held := by
  refine Finset.sum_congr rfl fun other _ => ?_
  by_cases here : other = address
  · rw [here, memory_setBuf, Function.update_self, found, Option.elim_some, Option.elim_some, same]
  · rw [memory_setBuf, Function.update_of_ne here]

/-! ### The constructor -/

/-- One round of the loop of `AllocPoolMem`: a new buffer behind the last one of the list. -/
theorem Listed.link (listed : pool.Listed free) {key : Nat} {link : Option BufAddress}
    {front : List BufAddress} {prev : BufAddress} (under : pool.pool key = some link)
    (behind : free key = front ++ [prev]) :
    ∃ buffer, (pool.newBuf key).2.deref prev = .ok buffer ∧
      ((pool.newBuf key).2.setBuf prev { buffer with next := some pool.created }).Listed
        (Function.update free key (front ++ [prev] ++ [pool.created])) ∧
      ((pool.newBuf key).2.setBuf prev { buffer with next := some pool.created }).held =
        pool.held + key / 1024 := by
  have among : prev ∈ free key := by simp [behind]
  obtain ⟨next, found⟩ := listed.blank key link under prev among
  have apart : prev ≠ pool.created := Nat.ne_of_lt (listed.created found)
  have kept : (pool.newBuf key).2.memory prev = some ⟨next, key, 0, 0⟩ :=
    (Function.update_of_ne apart _ _).trans found
  refine ⟨⟨next, key, 0, 0⟩, by rw [deref, kept], ?_, ?_⟩
  · constructor
    case fresh =>
      intro address outside
      have notPrev : address ≠ prev :=
        Nat.ne_of_gt (Nat.lt_of_lt_of_le (Nat.lt_succ_of_lt (listed.created found)) outside)
      exact (Function.update_of_ne notPrev _ _).trans ((listed.newBuf key).fresh address outside)
    case chain =>
      intro other head underOther
      by_cases same : other = key
      · subst same
        cases under.symm.trans underOther
        rw [Function.update_self]
        have chain := listed.chain other link under
        rw [behind] at chain
        refine chain.concat rfl rfl fun met => ?_
        obtain ⟨next, there⟩ := listed.blank other link under pool.created (behind ▸ met)
        exact Nat.lt_irrefl _ (listed.created there)
      · rw [Function.update_of_ne same]
        refine ((listed.newBuf key).chain other head underOther).update_of_not_mem fun met => same ?_
        exact (listed.capacity underOther met found).symm
    case blank =>
      intro other head underOther address met
      by_cases same : other = key
      · subst same
        rw [Function.update_self, List.mem_append, List.mem_singleton] at met
        rw [memory_setBuf, memory_newBuf]
        by_cases last : address = prev
        · rw [last, Function.update_self]
          exact ⟨_, rfl⟩
        · rw [Function.update_of_ne last]
          obtain earlier | rfl := met
          · obtain ⟨next, there⟩ := listed.blank other link under address (behind ▸ earlier)
            rw [Function.update_of_ne (Nat.ne_of_lt (listed.created there))]
            exact ⟨next, there⟩
          · rw [Function.update_self]
            exact ⟨_, rfl⟩
      · rw [Function.update_of_ne same] at met
        obtain ⟨next, there⟩ := (listed.newBuf key).blank other head underOther address met
        have notPrev : address ≠ prev := by
          rintro rfl
          exact same (listed.capacity underOther met found).symm
        exact ⟨next, (Function.update_of_ne notPrev _ _).trans there⟩
  · exact (held_setBuf kept ⟨pool.created, key, 0, 0⟩ rfl).trans (held_newBuf pool key)

theorem linkBufs_ok {key rounds : Nat} {link : Option BufAddress} {front : List BufAddress}
    {prev : BufAddress} (listed : pool.Listed free) (under : pool.pool key = some link)
    (behind : free key = front ++ [prev]) :
    ∃ after lists, linkBufs key rounds pool prev = .ok after ∧ after.Listed lists ∧
      after.pool = pool.pool ∧ after.held = pool.held + rounds * (key / 1024) ∧
      after.totalMem = pool.totalMem := by
  induction rounds generalizing pool free front prev with
  | zero => exact ⟨pool, free, rfl, listed, rfl, by rw [Nat.zero_mul, Nat.add_zero], rfl⟩
  | succ rounds inductionHypothesis =>
    obtain ⟨buffer, found, linked, more⟩ := listed.link under behind
    obtain ⟨after, lists, ran, listedAfter, same, held, total⟩ :=
      inductionHypothesis linked under (Function.update_self ..)
    refine ⟨after, lists, ?_, listedAfter, same, ?_, total⟩
    · rw [linkBufs]
      exact (congrArg (· >>= _) found).trans ran
    · rw [held, more, Nat.succ_mul]
      omega

/-- The pool has been given the buffers of these classes, and this memory. -/
structure Stocked (pool : BufPool) (classes : List MemCap) (mem : Nat) : Prop where
  listed : ∃ free, pool.Listed free
  keyed : ∀ memCap ∈ classes, ∃ link, pool.pool memCap.toNat = some link
  held : pool.held = mem
  totalMem : pool.totalMem = mem

theorem Stocked.allocPoolMem {classes : List MemCap} {mem : Nat}
    (stocked : pool.Stocked classes mem) (memCap : MemCap) {num more : Nat} (positive : 0 < num)
    (amount : more = num * (memCap.toNat / 1024)) :
    ∃ after, pool.allocPoolMem memCap num = .ok after ∧
      (after.addMem more).Stocked (memCap :: classes) (mem + more) := by
  obtain ⟨free, listed⟩ := stocked.listed
  have first : ((pool.newBuf memCap.toNat).2.setPool memCap.toNat pool.created).Listed
      (Function.update free memCap.toNat [pool.created]) := by
    have found : (pool.newBuf memCap.toNat).2.memory pool.created =
        some ⟨none, memCap.toNat, 0, 0⟩ := Function.update_self ..
    refine (listed.newBuf memCap.toNat).setPool ⟨rfl, _, found, rfl⟩ fun address among => ?_
    rw [List.mem_singleton.mp among]
    exact ⟨none, found⟩
  have under : ((pool.newBuf memCap.toNat).2.setPool memCap.toNat pool.created).pool
      memCap.toNat = some (some pool.created) := Function.update_self ..
  have single : Function.update free memCap.toNat [pool.created] memCap.toNat =
      [] ++ [pool.created] := Function.update_self ..
  obtain ⟨after, lists, ran, listedAfter, same, held, total⟩ := linkBufs_ok first under single
  have start : ((pool.newBuf memCap.toNat).2.setPool memCap.toNat pool.created).held =
      mem + memCap.toNat / 1024 := (held_newBuf pool memCap.toNat).trans (by rw [stocked.held])
  refine ⟨after, ran, ⟨lists, ⟨listedAfter.fresh, listedAfter.chain, listedAfter.blank⟩⟩, ?_, ?_, ?_⟩
  · intro other among
    have keyed : ∃ link, after.pool other.toNat = some link := by
      rw [same, pool_setPool]
      by_cases here : other.toNat = memCap.toNat
      · rw [here, Function.update_self]
        exact ⟨_, rfl⟩
      · rw [Function.update_of_ne here]
        obtain rfl | earlier := List.mem_cons.mp among
        · exact absurd rfl here
        · exact stocked.keyed other earlier
    exact keyed
  · have sum : num * (memCap.toNat / 1024) =
        (num - 1) * (memCap.toNat / 1024) + memCap.toNat / 1024 := by
      rw [← Nat.succ_mul, Nat.succ_eq_add_one, Nat.sub_add_cancel positive]
    have heldAfter : (after.addMem more).held = after.held := rfl
    rw [heldAfter, held, start, amount, sum]
    omega
  · exact congrArg (· + more) (total.trans stocked.totalMem)

theorem bind_of_ok {Value Result : Type} {run : Except PoolHalt Value} {value : Value}
    (ran : run = .ok value) (next : Value → Except PoolHalt Result) :
    run >>= next = next value := by
  rw [ran]
  rfl

/-- The constructor comes to its end, with all classes. -/
theorem create_ok : ∃ pool, create = .ok pool ∧ ∃ classes,
    (∀ memCap, memCap ∈ classes) ∧ pool.Stocked classes 334240 := by
  have empty : (⟨fun _ => none, 0, fun _ => none, 0⟩ : BufPool).Stocked [] 0 :=
    ⟨⟨fun _ => [], ⟨fun _ _ => rfl, nofun, nofun⟩⟩, nofun, rfl, rfl⟩
  obtain ⟨_, ran4K, stocked⟩ := empty.allocPoolMem .m4K (by decide) (rfl : 4 * 5000 = 5000 * _)
  obtain ⟨_, ran16K, stocked⟩ :=
    stocked.allocPoolMem .m16K (by decide) (rfl : 16 * 1000 = 1000 * _)
  obtain ⟨_, ran64K, stocked⟩ :=
    stocked.allocPoolMem .m64K (by decide) (rfl : 64 * 500 = 500 * _)
  obtain ⟨_, ran256K, stocked⟩ :=
    stocked.allocPoolMem .m256K (by decide) (rfl : 256 * 200 = 200 * _)
  obtain ⟨_, ran1M, stocked⟩ :=
    stocked.allocPoolMem .m1M (by decide) (rfl : 1024 * 50 = 50 * _)
  obtain ⟨_, ran4M, stocked⟩ :=
    stocked.allocPoolMem .m4M (by decide) (rfl : 4 * 1024 * 20 = 20 * _)
  obtain ⟨_, ran8M, stocked⟩ :=
    stocked.allocPoolMem .m8M (by decide) (rfl : 8 * 1024 * 10 = 10 * _)
  refine ⟨_, ?_, _, fun memCap => ?_, stocked⟩
  · rw [create, bind_of_ok ran4K, bind_of_ok ran16K, bind_of_ok ran64K, bind_of_ok ran256K,
      bind_of_ok ran1M, bind_of_ok ran4M, bind_of_ok ran8M]
    rfl
  · cases memCap <;> simp

end BufPool

end Luce
