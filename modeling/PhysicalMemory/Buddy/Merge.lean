import PhysicalMemory.Zone.Pool

/-!
# Giving a block back

A freed block flips the bit of its pair.  If the bit was set then its buddy is
free: the buddy leaves its list and the two halves go on as one block of the
next order.  Otherwise, and always at the largest order, the block goes on the
free list where it is.
-/

namespace PhysicalMemory

namespace Pool

/--
Free a block whose order is `levels` below the largest, merging it with free
buddies; the answer is the block that went on a free list and its order.
-/
def merge (block order : Nat) : Nat → Action Pool (Nat × Nat)
  | 0 => do
      let geometry := (← get).zone.geometry
      let _ ← toggle order (geometry.frameOf block)
      push order block
      return (block, order)
  | levels + 1 => do
      let geometry := (← get).zone.geometry
      let buddyFree ← toggle order (geometry.frameOf block)
      if buddyFree then
        let buddy ← geometry.buddyOf block order
        let found ← remove order buddy
        if found then merge (min block buddy) (order + 1) levels
        else Action.violate (.buddyMissing buddy block order)
      else
        push order block
        return (block, order)

def give (block order : Nat) : Action Pool (Nat × Nat) :=
  merge block order (topOrder - order)

end Pool

end PhysicalMemory
