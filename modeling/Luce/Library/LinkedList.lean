/-
This file is the theory of singly linked lists whose nodes stand in a memory.

A chain is the list of the addresses that are met from a link on, up to a node without a
successor. The memory and the link decide the chain, so no address is met twice, and a chain is
left as it was by whatever leaves its nodes alone.
-/

import Mathlib.Data.List.Nodup

namespace Library.LinkedList

variable {Address Node : Type*} (next : Node → Option Address)

/-- From this link on these addresses are met, and then the end. -/
def Chain (memory : Address → Option Node) : Option Address → List Address → Prop
  | link, [] => link = none
  | link, address :: rest =>
    link = some address ∧ ∃ node, memory address = some node ∧ Chain memory (next node) rest

variable {next} {memory changed : Address → Option Node} {link : Option Address}
  {addresses : List Address}

theorem Chain.none_iff : Chain next memory none addresses ↔ addresses = [] := by
  cases addresses with
  | nil => exact iff_of_true rfl rfl
  | cons address rest => exact iff_of_false (fun chain => nomatch chain.1) (List.cons_ne_nil _ _)

theorem Chain.some_iff {address : Address} :
    Chain next memory (some address) addresses ↔ ∃ node rest, memory address = some node ∧
      addresses = address :: rest ∧ Chain next memory (next node) rest := by
  cases addresses with
  | nil =>
    refine iff_of_false (fun chain => nomatch chain) ?_
    rintro ⟨node, rest, -, nothing, -⟩
    cases nothing
  | cons first rest =>
    constructor
    · rintro ⟨same, node, found, chain⟩
      cases same
      exact ⟨node, rest, found, rfl, chain⟩
    · rintro ⟨node, others, found, same, chain⟩
      cases same
      exact ⟨rfl, node, found, chain⟩

/-- The link decides the chain. -/
theorem Chain.unique {others : List Address} (chain : Chain next memory link addresses)
    (other : Chain next memory link others) : addresses = others := by
  induction addresses generalizing link others with
  | nil =>
    cases chain
    exact (Chain.none_iff.mp other).symm
  | cons address rest inductionHypothesis =>
    obtain ⟨rfl, node, found, chain⟩ := chain
    obtain ⟨again, tail, foundAgain, rfl, other⟩ := Chain.some_iff.mp other
    cases found.symm.trans foundAgain
    rw [inductionHypothesis chain other]

/-- From each of its addresses on a chain goes on with what is behind it. -/
theorem Chain.from_mem {address : Address} (chain : Chain next memory link addresses)
    (among : address ∈ addresses) :
    ∃ rest, Chain next memory (some address) (address :: rest) ∧
      (address :: rest).length ≤ addresses.length := by
  induction addresses generalizing link with
  | nil => cases among
  | cons first rest inductionHypothesis =>
    obtain ⟨rfl, node, found, behind⟩ := chain
    obtain rfl | among := List.mem_cons.mp among
    · exact ⟨rest, ⟨rfl, node, found, behind⟩, Nat.le_refl _⟩
    · obtain ⟨tail, goesOn, shorter⟩ := inductionHypothesis behind among
      exact ⟨tail, goesOn, Nat.le_succ_of_le shorter⟩

/-- No address is met twice. -/
theorem Chain.nodup (chain : Chain next memory link addresses) : addresses.Nodup := by
  induction addresses generalizing link with
  | nil => exact .nil
  | cons address rest inductionHypothesis =>
    obtain ⟨rfl, node, found, behind⟩ := chain
    refine List.nodup_cons.mpr ⟨fun again => ?_, inductionHypothesis behind⟩
    -- the chain from the second occurrence on is shorter, and the same
    obtain ⟨tail, goesOn, shorter⟩ := behind.from_mem again
    have whole : Chain next memory (some address) (address :: rest) := ⟨rfl, node, found, behind⟩
    rw [← whole.unique goesOn] at shorter
    exact Nat.not_succ_le_self _ shorter

/-- Whatever leaves its nodes alone leaves a chain alone. -/
theorem Chain.congr (chain : Chain next memory link addresses)
    (same : ∀ address ∈ addresses, changed address = memory address) :
    Chain next changed link addresses := by
  induction addresses generalizing link with
  | nil => exact chain
  | cons address rest inductionHypothesis =>
    obtain ⟨rfl, node, found, behind⟩ := chain
    obtain ⟨first, others⟩ := List.forall_mem_cons.mp same
    exact ⟨rfl, node, first.trans found, inductionHypothesis behind others⟩

variable [DecidableEq Address]

theorem Chain.update_of_not_mem {address : Address} {node : Option Node}
    (chain : Chain next memory link addresses) (apart : address ∉ addresses) :
    Chain next (Function.update memory address node) link addresses :=
  chain.congr fun _ among =>
    Function.update_of_ne (ne_of_mem_of_not_mem among apart) _ _

/-- A node in front of a chain. -/
theorem Chain.push {address : Address} {node : Node} (chain : Chain next memory link addresses)
    (fresh : address ∉ addresses) (linked : next node = link) :
    Chain next (Function.update memory address (some node)) (some address)
      (address :: addresses) :=
  ⟨rfl, node, Function.update_self .., linked ▸ chain.update_of_not_mem fresh⟩

/-- A node behind the last one of a chain. -/
theorem Chain.concat {last address : Address} {linked final : Node}
    (chain : Chain next memory link (addresses ++ [last])) (links : next linked = some address)
    (ends : next final = none) (fresh : address ∉ addresses ++ [last]) :
    Chain next (Function.update (Function.update memory address (some final)) last (some linked))
      link (addresses ++ [last] ++ [address]) := by
  have apart : address ≠ last := fun same => fresh (by simp [same])
  induction addresses generalizing link with
  | nil =>
    obtain ⟨rfl, -⟩ := chain
    refine ⟨rfl, linked, Function.update_self .., links, final, ?_, ends⟩
    rw [Function.update_of_ne apart, Function.update_self]
  | cons first rest inductionHypothesis =>
    have distinct := (List.nodup_cons.mp chain.nodup).1
    rw [List.cons_append, List.mem_cons, not_or] at fresh
    obtain ⟨rfl, node, found, behind⟩ := chain
    refine ⟨rfl, node, ?_, inductionHypothesis behind fresh.2⟩
    have notLast : first ≠ last := fun same => distinct (by simp [same])
    rw [Function.update_of_ne notLast, Function.update_of_ne (Ne.symm fresh.1), found]

end Library.LinkedList
