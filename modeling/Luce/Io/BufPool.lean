/-
This file models the pool of buffers, and those who use it.

Buffers are created and never destroyed. The pool links the free buffers of each capacity
through the buffers themselves, and what is handed out may be linked, filled and emptied by
whoever has it. Both operations on the pool run under its mutex, so they come one after the
other.
-/

import Luce.Library.Transition
import Mathlib.Logic.Function.Basic

namespace Luce

/-- An `IOBuf *` that is not null. -/
abbrev BufAddress := Nat

/-- `IOBuf` without its data, which the pool does not touch. -/
structure IOBuf where
  next : Option BufAddress
  capacity : Nat
  length : Nat
  head : Nat
deriving DecidableEq, Repr

inductive MemCap where
  | m4K | m16K | m64K | m256K | m1M | m4M | m8M
deriving DecidableEq, Repr

def MemCap.toNat : MemCap → Nat
  | .m4K => 4096
  | .m16K => 16384
  | .m64K => 65536
  | .m256K => 262144
  | .m1M => 1048576
  | .m4M => 4194304
  | .m8M => 8388608

/-- `MEM_LIMIT`, in units of 1024 bytes. -/
def memLimit : Nat := 5 * 1024 * 1024

inductive PoolHalt where
  /-- `exit(1)`. -/
  | exited
  /-- A pointer that points to no buffer, or an assertion that fails. -/
  | fault
deriving DecidableEq, Repr

structure BufPool where
  /-- The buffers that have been created. -/
  memory : BufAddress → Option IOBuf
  /-- How many; the next address. -/
  created : BufAddress
  /-- `pool_`. -/
  pool : Nat → Option (Option BufAddress)
  totalMem : Nat

namespace BufPool

/-- `new IOBuf(size)`. -/
def newBuf (pool : BufPool) (size : Nat) : BufAddress × BufPool :=
  (pool.created, { pool with
    memory := Function.update pool.memory pool.created (some ⟨none, size, 0, 0⟩)
    created := pool.created + 1 })

def deref (pool : BufPool) (address : BufAddress) : Except PoolHalt IOBuf :=
  match pool.memory address with
  | some buffer => .ok buffer
  | none => .error .fault

def setBuf (pool : BufPool) (address : BufAddress) (buffer : IOBuf) : BufPool :=
  { pool with memory := Function.update pool.memory address (some buffer) }

def setPool (pool : BufPool) (key : Nat) (link : Option BufAddress) : BufPool :=
  { pool with pool := Function.update pool.pool key (some link) }

/-- `pool_[key]`, which inserts a null pointer if there is nothing under the key. -/
def subscript (pool : BufPool) (key : Nat) : Option BufAddress × BufPool :=
  match pool.pool key with
  | some link => (link, pool)
  | none => (none, pool.setPool key none)

/-- The loop of `AllocPoolMem`, with as many rounds to go. -/
def linkBufs (memCap : Nat) : Nat → BufPool → BufAddress → Except PoolHalt BufPool
  | 0, pool, _ => .ok pool
  | rounds + 1, pool, prev => do
    let (address, pool) := pool.newBuf memCap
    let buffer ← pool.deref prev
    linkBufs memCap rounds (pool.setBuf prev { buffer with next := some address }) address

def allocPoolMem (pool : BufPool) (memCap : MemCap) (num : Nat) : Except PoolHalt BufPool :=
  let (address, pool) := pool.newBuf memCap.toNat
  linkBufs memCap.toNat (num - 1) (pool.setPool memCap.toNat (some address)) address

def addMem (pool : BufPool) (mem : Nat) : BufPool := { pool with totalMem := pool.totalMem + mem }

/-- The constructor. -/
def create : Except PoolHalt BufPool := do
  let pool : BufPool := ⟨fun _ => none, 0, fun _ => none, 0⟩
  let pool ← pool.allocPoolMem .m4K 5000
  let pool := pool.addMem (4 * 5000)
  let pool ← pool.allocPoolMem .m16K 1000
  let pool := pool.addMem (16 * 1000)
  let pool ← pool.allocPoolMem .m64K 500
  let pool := pool.addMem (64 * 500)
  let pool ← pool.allocPoolMem .m256K 200
  let pool := pool.addMem (256 * 200)
  let pool ← pool.allocPoolMem .m1M 50
  let pool := pool.addMem (1024 * 50)
  let pool ← pool.allocPoolMem .m4M 20
  let pool := pool.addMem (4 * 1024 * 20)
  let pool ← pool.allocPoolMem .m8M 10
  return pool.addMem (8 * 1024 * 10)

/-- The class that `AllocBuf` looks in. -/
def keyFor (size : Int) : Option MemCap :=
  if size ≤ MemCap.m4K.toNat then some .m4K
  else if size ≤ MemCap.m16K.toNat then some .m16K
  else if size ≤ MemCap.m64K.toNat then some .m64K
  else if size ≤ MemCap.m256K.toNat then some .m256K
  else if size ≤ MemCap.m1M.toNat then some .m1M
  else if size ≤ MemCap.m4M.toNat then some .m4M
  else if size ≤ MemCap.m8M.toNat then some .m8M
  else none

def allocBuf (pool : BufPool) (size : Int) : Except PoolHalt (Option BufAddress × BufPool) :=
  match keyFor size with
  | none => .ok (none, pool)
  | some memCap =>
    let key := memCap.toNat
    match pool.subscript key with
    | (none, pool) =>
      if memLimit ≤ pool.totalMem + key / 1024 then .error .exited
      else
        let (address, pool) := pool.newBuf key
        .ok (some address, pool.addMem (key / 1024))
    | (some target, pool) => do
      let buffer ← pool.deref target
      let pool := pool.setPool key buffer.next
      .ok (some target, pool.setBuf target { buffer with next := none })

def revert (pool : BufPool) (address : BufAddress) : Except PoolHalt BufPool := do
  let buffer ← pool.deref address
  let key := buffer.capacity
  match pool.pool key with
  | none => .error .fault
  | some link =>
    let buffer := { buffer with head := 0, length := 0, next := link }
    .ok ((pool.setBuf address buffer).setPool key (some address))

end BufPool

/-- A pool, and the buffers that it has handed out and not got back. -/
structure BufUsage where
  pool : BufPool
  handedOut : List BufAddress

inductive BufStep where
  | alloc (size : Int)
  | revert (address : BufAddress)
  /-- Whoever has the buffer changes it, and keeps its capacity. -/
  | use (address : BufAddress) (next : Option BufAddress) (length head : Nat)
deriving DecidableEq, Repr

namespace BufUsage

def step (usage : BufUsage) : BufStep → Option BufUsage
  | .alloc size =>
    match usage.pool.allocBuf size with
    | .ok (none, pool) => some { usage with pool }
    | .ok (some address, pool) => some ⟨pool, address :: usage.handedOut⟩
    | .error _ => none
  | .revert address =>
    if address ∈ usage.handedOut then
      match usage.pool.revert address with
      | .ok pool => some ⟨pool, usage.handedOut.erase address⟩
      | .error _ => none
    else none
  | .use address next length head =>
    if address ∈ usage.handedOut then
      match usage.pool.deref address with
      | .ok buffer =>
        some { usage with pool := usage.pool.setBuf address ⟨next, buffer.capacity, length, head⟩ }
      | .error _ => none
    else none

end BufUsage

end Luce
