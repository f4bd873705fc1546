/-
This file proves what holds of the pool of buffers whatever is allocated, reverted and used: the
free lists are separate lists of blank buffers of their capacity, no buffer is free and handed
out or handed out twice, the memory is accounted for, and an allocation hands out an empty
buffer of the smallest class that is large enough.
-/

import Luce.Io.FreeLists

namespace Luce

open Library.LinkedList Library.Transition

namespace BufPool

variable {pool : BufPool}

/-- `AllocBuf` looks in the smallest class that is large enough, if there is one. -/
theorem keyFor_eq_some {size : Int} {memCap : MemCap} (key : keyFor size = some memCap) :
    size ≤ memCap.toNat ∧ ∀ other : MemCap, size ≤ other.toNat → memCap.toNat ≤ other.toNat := by
  unfold keyFor at key
  split_ifs at key <;> cases key
  all_goals
    refine ⟨by assumption, fun other fits => ?_⟩
    cases other <;> simp only [MemCap.toNat] at * <;> omega

theorem keyFor_eq_none_iff {size : Int} : keyFor size = none ↔ MemCap.m8M.toNat < size := by
  unfold keyFor
  split_ifs <;> simp only [MemCap.toNat, false_iff, true_iff] at * <;> omega

theorem subscript_of_some {key : Nat} {link : Option BufAddress}
    (under : pool.pool key = some link) : pool.subscript key = (link, pool) := by
  rw [subscript, under]

theorem deref_of_some {address : BufAddress} {buffer : IOBuf}
    (found : pool.memory address = some buffer) : pool.deref address = .ok buffer := by
  rw [deref, found]

/-- A buffer that has been reverted is the next one of its class that is handed out. -/
theorem allocBuf_of_revert {next : BufPool} {address : BufAddress} {buffer : IOBuf}
    {memCap : MemCap} {size : Int} (found : pool.memory address = some buffer)
    (capacity : buffer.capacity = memCap.toNat) (key : keyFor size = some memCap)
    (reverted : pool.revert address = .ok next) :
    ∃ after, next.allocBuf size = .ok (some address, after) := by
  obtain ⟨given, head, there⟩ : ∃ given, next.pool memCap.toNat = some (some address) ∧
      next.memory address = some given := by
    rw [revert, deref_of_some found, bind_of_ok rfl] at reverted
    rw [← capacity]
    cases under : pool.pool buffer.capacity with
    | none =>
      simp only [under] at reverted
      cases reverted
    | some link =>
      simp only [under] at reverted
      cases reverted
      exact ⟨_, Function.update_self .., Function.update_self ..⟩
  rw [allocBuf, key]
  simp only [subscript_of_some head, deref_of_some there]
  exact ⟨_, rfl⟩

end BufPool

namespace BufUsage

open BufPool

/-- What every operation keeps. -/
structure Kept (usage : BufUsage) (free : Nat → List BufAddress) : Prop where
  listed : usage.pool.Listed free
  keyed : ∀ memCap : MemCap, ∃ link, usage.pool.pool memCap.toNat = some link
  out : ∀ address ∈ usage.handedOut, ∃ buffer, usage.pool.memory address = some buffer ∧
    ∃ link, usage.pool.pool buffer.capacity = some link
  apart : ∀ key link, usage.pool.pool key = some link → ∀ address ∈ free key,
    address ∉ usage.handedOut
  once : usage.handedOut.Nodup
  accounted : usage.pool.totalMem = usage.pool.held
  limited : usage.pool.totalMem < memLimit

namespace Kept

variable {usage : BufUsage} {free : Nat → List BufAddress}

/-- A new buffer is handed out. -/
theorem allocNew (kept : usage.Kept free) {key : Nat} {link : Option BufAddress}
    (under : usage.pool.pool key = some link)
    (room : usage.pool.totalMem + key / 1024 < memLimit) :
    Kept ⟨(usage.pool.newBuf key).2.addMem (key / 1024),
      usage.pool.created :: usage.handedOut⟩ free where
  listed :=
    let listed := kept.listed.newBuf key
    ⟨listed.fresh, listed.chain, listed.blank⟩
  keyed := kept.keyed
  out address among := by
    obtain rfl | among := List.mem_cons.mp among
    · exact ⟨_, Function.update_self .., link, under⟩
    · obtain ⟨buffer, found, keyed⟩ := kept.out address among
      have differs : address ≠ usage.pool.created := Nat.ne_of_lt (kept.listed.created found)
      exact ⟨buffer, (Function.update_of_ne differs _ _).trans found, keyed⟩
  apart other head underOther address met among := by
    obtain ⟨next, blank⟩ := kept.listed.blank other head underOther address met
    obtain rfl | among := List.mem_cons.mp among
    · exact Nat.lt_irrefl _ (kept.listed.created blank)
    · exact kept.apart other head underOther address met among
  once := by
    refine List.nodup_cons.mpr ⟨fun among => ?_, kept.once⟩
    obtain ⟨buffer, found, -⟩ := kept.out _ among
    exact Nat.lt_irrefl _ (kept.listed.created found)
  accounted := by
    have heldAfter : ((usage.pool.newBuf key).2.addMem (key / 1024)).held =
        (usage.pool.newBuf key).2.held := rfl
    rw [heldAfter, held_newBuf, ← kept.accounted]
    rfl
  limited := room

/-- The first buffer of a free list is handed out. -/
theorem allocFree (kept : usage.Kept free) {key : Nat} {target : BufAddress} {buffer : IOBuf}
    {rest : List BufAddress} (under : usage.pool.pool key = some (some target))
    (found : usage.pool.memory target = some buffer) (lists : free key = target :: rest)
    (chain : Chain IOBuf.next usage.pool.memory buffer.next rest) :
    Kept ⟨(usage.pool.setPool key buffer.next).setBuf target { buffer with next := none },
      target :: usage.handedOut⟩ (Function.update free key rest) := by
  have distinct : (target :: rest).Nodup := lists ▸ (kept.listed.chain key _ under).nodup
  have among : target ∈ free key := by simp [lists]
  have capacity : buffer.capacity = key := kept.listed.capacity under among found
  have popped : (usage.pool.setPool key buffer.next).Listed (Function.update free key rest) := by
    refine kept.listed.setPool chain fun address met => ?_
    exact kept.listed.blank key _ under address (by simp [lists, met])
  -- under which key a link is after the step, something was before
  have before : ∀ other link, (usage.pool.setPool key buffer.next).pool other = some link →
      ∃ head, usage.pool.pool other = some head := by
    intro other link after
    by_cases same : other = key
    · exact ⟨_, same ▸ under⟩
    · exact ⟨link, by rwa [pool_setPool, Function.update_of_ne same] at after⟩
  have lone : ∀ other link, (usage.pool.setPool key buffer.next).pool other = some link →
      target ∉ Function.update free key rest other := by
    intro other link later met
    by_cases same : other = key
    · rw [same, Function.update_self] at met
      exact (List.nodup_cons.mp distinct).1 met
    · rw [Function.update_of_ne same] at met
      obtain ⟨head, underOther⟩ := before other link later
      exact same ((kept.listed.capacity underOther met found).symm.trans capacity)
  constructor
  case listed => exact popped.update _ (kept.listed.created found) lone
  case keyed =>
    intro memCap
    obtain ⟨head, keyed⟩ := kept.keyed memCap
    exact exists_pool_setPool keyed
  case out =>
    intro address out
    by_cases same : address = target
    · exact ⟨{ buffer with next := none }, by rw [memory_setBuf, same, Function.update_self],
        exists_pool_setPool (capacity ▸ under)⟩
    · obtain ⟨other, there, head, keyed⟩ :=
        kept.out address ((List.mem_cons.mp out).resolve_left same)
      exact ⟨other, (Function.update_of_ne same _ _).trans there, exists_pool_setPool keyed⟩
  case apart =>
    intro other link later address met out
    obtain rfl | out := List.mem_cons.mp out
    · exact lone other link later met
    · by_cases same : other = key
      · rw [same, Function.update_self] at met
        exact kept.apart key _ under address (by simp [lists, met]) out
      · rw [Function.update_of_ne same] at met
        obtain ⟨head, underOther⟩ := before other link later
        exact kept.apart other head underOther address met out
  case once => exact List.nodup_cons.mpr ⟨kept.apart key _ under target among, kept.once⟩
  case accounted =>
    have same : (usage.pool.setPool key buffer.next).memory target = some buffer := found
    exact kept.accounted.trans (held_setBuf same { buffer with next := none } rfl).symm
  case limited => exact kept.limited

/-- What `AllocBuf` does with a size that has a class: it gives up where nothing is free and the
limit is reached, and otherwise hands out an empty buffer that nothing is linked to. -/
theorem alloc (kept : usage.Kept free) {size : Int} {memCap : MemCap}
    (key : keyFor size = some memCap) :
    (usage.pool.pool memCap.toNat = some none ∧
      memLimit ≤ usage.pool.totalMem + memCap.toNat / 1024 ∧
      usage.pool.allocBuf size = .error .exited) ∨
    ∃ address next lists, usage.pool.allocBuf size = .ok (some address, next) ∧
      next.memory address = some ⟨none, memCap.toNat, 0, 0⟩ ∧ address ∉ usage.handedOut ∧
      Kept ⟨next, address :: usage.handedOut⟩ lists := by
  obtain ⟨link, under⟩ := kept.keyed memCap
  simp only [allocBuf, key, subscript_of_some under]
  cases link with
  | none =>
    by_cases full : memLimit ≤ usage.pool.totalMem + memCap.toNat / 1024
    · exact .inl ⟨under, full, if_pos full⟩
    · have handed := kept.allocNew under (Nat.not_le.mp full)
      exact .inr ⟨_, _, free, if_neg full, Function.update_self ..,
        (List.nodup_cons.mp handed.once).1, handed⟩
  | some target =>
    obtain ⟨buffer, rest, found, lists, chain⟩ :=
      Chain.some_iff.mp (kept.listed.chain _ _ under)
    have among : target ∈ free memCap.toNat := by simp [lists]
    obtain ⟨link, blank⟩ := kept.listed.blank _ _ under target among
    cases found.symm.trans blank
    have handed := kept.allocFree under found lists chain
    refine .inr ⟨target, _, _, ?_, Function.update_self .., (List.nodup_cons.mp handed.once).1,
      handed⟩
    simp only [deref_of_some found]
    rfl

/-- What has been handed out is in no list. -/
theorem not_mem_of_out (kept : usage.Kept free) {address : BufAddress}
    (out : address ∈ usage.handedOut) (key : Nat) (link : Option BufAddress)
    (under : usage.pool.pool key = some link) : address ∉ free key :=
  fun met => kept.apart key link under address met out

/-- A buffer that has been handed out is taken back. -/
theorem revert (kept : usage.Kept free) {address : BufAddress}
    (out : address ∈ usage.handedOut) :
    ∃ next lists, usage.pool.revert address = .ok next ∧
      Kept ⟨next, usage.handedOut.erase address⟩ lists := by
  obtain ⟨buffer, found, link, under⟩ := kept.out address out
  have lone := kept.not_mem_of_out out
  let blank : IOBuf := { buffer with head := 0, length := 0, next := link }
  have held : (usage.pool.setBuf address blank).held = usage.pool.held := held_setBuf found blank rfl
  have changed := kept.listed.update blank (kept.listed.created found) lone
  have chain : Chain IOBuf.next (usage.pool.setBuf address blank).memory address
      (address :: free buffer.capacity) := (kept.listed.chain _ _ under).push (lone _ _ under) rfl
  have listed : ((usage.pool.setBuf address blank).setPool buffer.capacity address).Listed
      (Function.update free buffer.capacity (address :: free buffer.capacity)) := by
    refine changed.setPool chain fun other met => ?_
    obtain rfl | met := List.mem_cons.mp met
    · exact ⟨link, Function.update_self ..⟩
    · exact changed.blank _ _ under other met
  refine ⟨(usage.pool.setBuf address blank).setPool buffer.capacity address,
    Function.update free buffer.capacity (address :: free buffer.capacity), ?_, ?_⟩
  · simp only [BufPool.revert, deref_of_some found, bind, Except.bind, under]
    rfl
  constructor
  case listed => exact listed
  case keyed =>
    intro memCap
    obtain ⟨head, keyed⟩ := kept.keyed memCap
    exact exists_pool_setPool keyed
  case out =>
    intro other among
    obtain ⟨differs, among⟩ := (List.Nodup.mem_erase_iff kept.once).mp among
    obtain ⟨there, stands, head, keyed⟩ := kept.out other among
    exact ⟨there, (Function.update_of_ne differs _ _).trans stands, exists_pool_setPool keyed⟩
  case apart =>
    intro key head later other met among
    obtain ⟨differs, among⟩ := (List.Nodup.mem_erase_iff kept.once).mp among
    by_cases same : key = buffer.capacity
    · rw [same, Function.update_self] at met
      exact kept.apart _ _ under other ((List.mem_cons.mp met).resolve_left differs) among
    · rw [pool_setPool, Function.update_of_ne same] at later
      rw [Function.update_of_ne same] at met
      exact kept.apart key head later other met among
  case once => exact kept.once.erase address
  case accounted => exact kept.accounted.trans held.symm
  case limited => exact kept.limited

/-- Whoever has a buffer changes it. -/
theorem use (kept : usage.Kept free) {address : BufAddress} (out : address ∈ usage.handedOut)
    (next : Option BufAddress) (length head : Nat) :
    ∃ buffer, usage.pool.deref address = .ok buffer ∧
      Kept { usage with pool := usage.pool.setBuf address ⟨next, buffer.capacity, length, head⟩ }
        free := by
  obtain ⟨buffer, found, link, under⟩ := kept.out address out
  refine ⟨buffer, deref_of_some found, ?_⟩
  constructor
  case listed =>
    exact kept.listed.update _ (kept.listed.created found) (kept.not_mem_of_out out)
  case keyed => exact kept.keyed
  case out =>
    intro other among
    by_cases same : other = address
    · exact ⟨⟨next, buffer.capacity, length, head⟩, by rw [memory_setBuf, same, Function.update_self],
        link, under⟩
    · obtain ⟨there, stands, keyed⟩ := kept.out other among
      exact ⟨there, (Function.update_of_ne same _ _).trans stands, keyed⟩
  case apart => exact kept.apart
  case once => exact kept.once
  case accounted =>
    exact kept.accounted.trans
      (held_setBuf found ⟨next, buffer.capacity, length, head⟩ rfl).symm
  case limited => exact kept.limited

theorem step (kept : usage.Kept free) {label : BufStep} {next : BufUsage}
    (taken : usage.step label = some next) : ∃ lists, next.Kept lists := by
  cases label with
  | alloc size =>
    simp only [BufUsage.step] at taken
    cases key : keyFor size with
    | none =>
      simp only [allocBuf, key] at taken
      cases taken
      exact ⟨free, kept⟩
    | some memCap =>
      obtain ⟨-, -, exited⟩ | ⟨address, pool, lists, handed, -, -, keptNext⟩ := kept.alloc key
      · rw [exited] at taken
        cases taken
      · rw [handed] at taken
        cases taken
        exact ⟨lists, keptNext⟩
  | revert address =>
    simp only [BufUsage.step] at taken
    by_cases out : address ∈ usage.handedOut
    · obtain ⟨pool, lists, reverted, keptNext⟩ := kept.revert out
      rw [if_pos out, reverted] at taken
      cases taken
      exact ⟨lists, keptNext⟩
    · rw [if_neg out] at taken
      cases taken
  | use address link length head =>
    simp only [BufUsage.step] at taken
    by_cases out : address ∈ usage.handedOut
    · obtain ⟨buffer, found, keptNext⟩ := kept.use out link length head
      rw [if_pos out, found] at taken
      cases taken
      exact ⟨free, keptNext⟩
    · rw [if_neg out] at taken
      cases taken

end Kept

/-! ### Runs -/

/-- What `AllocBuf` does with this size. -/
def Allocates (usage : BufUsage) (size : Int) : Prop :=
  (MemCap.m8M.toNat < size ∧ usage.pool.allocBuf size = .ok (none, usage.pool)) ∨
  ∃ memCap : MemCap, (size ≤ memCap.toNat ∧
    ∀ other : MemCap, size ≤ other.toNat → memCap.toNat ≤ other.toNat) ∧
    ((usage.pool.pool memCap.toNat = some none ∧
      memLimit ≤ usage.pool.totalMem + memCap.toNat / 1024 ∧
      usage.pool.allocBuf size = .error .exited) ∨
    ∃ address next, usage.pool.allocBuf size = .ok (some address, next) ∧
      next.memory address = some ⟨none, memCap.toNat, 0, 0⟩ ∧ address ∉ usage.handedOut)

/-- The buffers of a free list, which ends, are met once and are blank, and none is handed
out. -/
structure FreeList (usage : BufUsage) (memCap : MemCap) (addresses : List BufAddress) : Prop where
  chain : ∃ link, usage.pool.pool memCap.toNat = some link ∧
    Chain IOBuf.next usage.pool.memory link addresses
  acyclic : addresses.Nodup
  blank : ∀ address ∈ addresses, ∃ next,
    usage.pool.memory address = some ⟨next, memCap.toNat, 0, 0⟩
  apart : addresses.Disjoint usage.handedOut

structure Sound (usage : BufUsage) : Prop where
  lists : ∃ free : MemCap → List BufAddress, (∀ memCap, usage.FreeList memCap (free memCap)) ∧
    ∀ memCap other, memCap ≠ other → (free memCap).Disjoint (free other)
  once : usage.handedOut.Nodup
  accounted : usage.pool.totalMem = usage.pool.held
  limited : usage.pool.totalMem < memLimit
  allocates : ∀ size, usage.Allocates size
  reverts : ∀ address ∈ usage.handedOut, ∃ next, usage.pool.revert address = .ok next

theorem toNat_injective : Function.Injective MemCap.toNat := by
  intro memCap other same
  cases memCap <;> cases other <;> first | rfl | cases same

theorem Kept.sound {usage : BufUsage} {free : Nat → List BufAddress} (kept : usage.Kept free) :
    usage.Sound where
  lists := by
    refine ⟨fun memCap => free memCap.toNat, fun memCap => ?_, fun memCap other differs => ?_⟩
    · obtain ⟨link, under⟩ := kept.keyed memCap
      have chain := kept.listed.chain _ _ under
      exact ⟨⟨link, under, chain⟩, chain.nodup, kept.listed.blank _ _ under,
        fun address met => kept.apart _ _ under address met⟩
    · obtain ⟨link, under⟩ := kept.keyed memCap
      obtain ⟨head, underOther⟩ := kept.keyed other
      intro address met metOther
      obtain ⟨next, found⟩ := kept.listed.blank _ _ under address met
      exact differs (toNat_injective (kept.listed.capacity underOther metOther found))
  once := kept.once
  accounted := kept.accounted
  limited := kept.limited
  allocates size := by
    cases key : keyFor size with
    | none => exact .inl ⟨keyFor_eq_none_iff.mp key, by rw [allocBuf, key]⟩
    | some memCap =>
      refine .inr ⟨memCap, keyFor_eq_some key, ?_⟩
      obtain exits | ⟨address, next, lists, handed, blank, fresh, -⟩ := kept.alloc key
      · exact .inl exits
      · exact .inr ⟨address, next, handed, blank, fresh⟩
  reverts address out := by
    obtain ⟨next, lists, reverted, -⟩ := kept.revert out
    exact ⟨next, reverted⟩

/-- The constructor gives a pool, and whatever is done with it keeps it sound. -/
theorem sound_of_run : ∃ pool, create = .ok pool ∧
    ∀ (labels : List BufStep) (final : BufUsage), run step ⟨pool, []⟩ labels = some final →
      final.Sound := by
  obtain ⟨pool, created, classes, all, stocked⟩ := create_ok
  obtain ⟨free, listed⟩ := stocked.listed
  have limit : 334240 < memLimit := by decide
  have initially : Kept ⟨pool, []⟩ free :=
    ⟨listed, fun memCap => stocked.keyed memCap (all memCap), nofun, fun _ _ _ _ _ => nofun, .nil,
      stocked.totalMem.trans stocked.held.symm, stocked.totalMem ▸ limit⟩
  have preserved : ∀ (usage : BufUsage) (label : BufStep) (next : BufUsage),
      (∃ free, usage.Kept free) → usage.step label = some next → ∃ free, next.Kept free :=
    fun usage label next ⟨free, kept⟩ taken => kept.step taken
  refine ⟨pool, created, fun labels final ran => ?_⟩
  obtain ⟨lists, kept⟩ := invariant_run step preserved ⟨free, initially⟩ ran
  exact kept.sound

/-- A buffer for 5000 bytes is handed out, filled and given back, and the next one of its class is
the same one, blank again. -/
theorem sound_of_run_alloc : ∃ pool final address, create = .ok pool ∧
    run step ⟨pool, []⟩ [.alloc 5000, .use address (some address) 7 3, .revert address,
      .alloc 6000] = some final ∧ final.handedOut = [address] ∧ final.Sound := by
  obtain ⟨pool, created, sound⟩ := sound_of_run
  obtain ⟨same, again, classes, -, stocked⟩ := create_ok
  cases created.symm.trans again
  obtain ⟨large, -⟩ | ⟨memCap, ⟨fits, least⟩, ⟨-, full, -⟩ | ⟨address, next, handed, blank, -⟩⟩ :=
    (sound [] ⟨pool, []⟩ rfl).allocates 5000
  · exact absurd large (by decide)
  · rw [stocked.totalMem] at full
    cases memCap <;> exact absurd full (by decide)
  obtain rfl : memCap = .m16K := by
    cases memCap <;> first | rfl | exact absurd fits (by decide) |
      exact absurd (least .m16K (by decide)) (by decide)
  have filled : (next.setBuf address ⟨some address, MemCap.m16K.toNat, 7, 3⟩).memory address =
      some ⟨some address, MemCap.m16K.toNat, 7, 3⟩ := Function.update_self ..
  have used : run step ⟨pool, []⟩ [.alloc 5000, .use address (some address) 7 3] =
      some ⟨next.setBuf address ⟨some address, MemCap.m16K.toNat, 7, 3⟩, [address]⟩ := by
    simp only [run, step, handed, Option.bind_some, List.mem_singleton, if_true,
      deref_of_some blank]
  obtain ⟨given, reverted⟩ := (sound _ _ used).reverts address List.mem_cons_self
  obtain ⟨last, found⟩ := allocBuf_of_revert filled rfl (show keyFor 6000 = some .m16K from rfl)
    reverted
  have ran : run step ⟨pool, []⟩ ([.alloc 5000, .use address (some address) 7 3] ++
      [.revert address, .alloc 6000]) = some ⟨last, [address]⟩ := by
    refine (run_append step).mpr ⟨_, used, ?_⟩
    simp only [run, step, List.mem_singleton, if_true, reverted, Option.bind_some,
      List.erase_cons_head, found]
  exact ⟨pool, _, address, created, ran, rfl, sound _ _ ran⟩

end BufUsage

end Luce
