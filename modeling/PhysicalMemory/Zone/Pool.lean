import PhysicalMemory.Action
import PhysicalMemory.Zone.Basic

/-!
# Pools

A pool is a zone together with the memory its free blocks lie in.  The actions
here change one area at a time: they put a block on a free list, take one off,
and flip a pair bit.  They halt where the order has no area, where the bitmap
does not reach the frame, and where a list is longer than its count.
-/

namespace PhysicalMemory

/-- A zone and the memory that holds its free blocks. -/
structure Pool where
  ram : Ram
  zone : Zone

namespace Pool

def blocks (pool : Pool) (order : Nat) : Checked (List Nat) := do
  let area ← pool.zone.area order
  return area.free.toList pool.ram

def setFree (pool : Pool) (order : Nat) (area : FreeArea) (free : FreeList) : Pool :=
  { pool with zone := pool.zone.setArea order { area with free := free } }

def push (order block : Nat) : Action Pool Unit := do
  let pool ← get
  let area ← pool.zone.area order
  let (free, ram) := area.free.push pool.ram block
  set { pool.setFree order area free with ram := ram }

/-- Halt if a list that just lost a block was already counted as empty. -/
def countDown (before : FreeList) : Action Pool Unit := do
  let _ ← Word.sub before.length 1

def pop (order : Nat) : Action Pool (Option Nat) := do
  let pool ← get
  let area ← pool.zone.area order
  match area.free.pop? pool.ram with
  | none => return none
  | some (block, free) => do
      set (pool.setFree order area free)
      countDown area.free
      return some block

/-- Take a block off the free list of an order, wherever it is, and tell whether it was there. -/
def remove (order block : Nat) : Action Pool Bool := do
  let pool ← get
  let area ← pool.zone.area order
  match area.free.remove? pool.ram block with
  | none => return false
  | some (free, ram) => do
      set { pool.setFree order area free with ram := ram }
      countDown area.free
      return true

def toggle (order frame : Nat) : Action Pool Bool := do
  let pool ← get
  let area ← pool.zone.area order
  let (bit, pairs) ← area.pairs.toggle frame
  set { pool with zone := pool.zone.setArea order { area with pairs := pairs } }
  return bit

/-- Where the order has an area, pushing changes that area's list and one link. -/
theorem run_push {pool : Pool} {order : Nat} (h : order < orderCount) (block : Nat) :
    (push order block).run pool =
      ⟨.ok (), { pool.setFree order pool.zone.areas[order]
          (pool.zone.areas[order].free.push pool.ram block).1 with
        ram := (pool.zone.areas[order].free.push pool.ram block).2 }, []⟩ := by
  simp [push, Action.run_bind, Zone.area_of_lt pool.zone h, MonadLift.monadLift, liftM,
    monadLift]

end Pool

end PhysicalMemory
