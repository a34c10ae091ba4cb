import PhysicalMemory.Zone.Pool

/-!
# Taking a block

A block of some order is the first block of the first non-empty free list from
that order up.  A larger block is halved until it has the wanted order: each
upper half goes to the free list of its own order and the lower half goes on.
Every block that leaves or enters a list flips the bit of its pair.
-/

namespace PhysicalMemory

namespace Pool

/-- The first block of the first non-empty list among some orders, taken off it. -/
def popFirst : List Nat → Action Pool (Option (Nat × Nat))
  | [] => return none
  | order :: rest => do
      match ← pop order with
      | some block => return some (block, order)
      | none => popFirst rest

/-- Halve a block that is `levels` orders above `order`, keeping its lower half each time. -/
def split (block order : Nat) : Nat → Action Pool Unit
  | 0 => return
  | levels + 1 => do
      let geometry := (← get).zone.geometry
      let upper ← geometry.buddyOf block (order + levels)
      push (order + levels) upper
      let _ ← toggle (order + levels) (geometry.frameOf upper)
      split block order levels

def take (order : Nat) : Action Pool (Option (Nat × Nat)) := do
  match ← popFirst (List.range' order (orderCount - order)) with
  | none => return none
  | some (block, found) => do
      let geometry := (← get).zone.geometry
      let _ ← toggle found (geometry.frameOf block)
      split block order (found - order)
      return some (block, found)

end Pool

end PhysicalMemory
