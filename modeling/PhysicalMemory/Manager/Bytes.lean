import PhysicalMemory.Tiers

/-!
# Allocating bytes

A request of at least a page, or of a size that no slab holds, gets whole pages
and any other request gets an object of exactly its size.  A smaller aligned
request gets an object with room to move up to the alignment.  What is given
back goes to the tier that holds its page; pointers that nobody holds are
ignored.
-/

namespace PhysicalMemory

namespace Tiers

def geometry (tiers : Tiers) : Geometry :=
  tiers.buddy.geometry

def needsPages (tiers : Tiers) (size : Nat) : Bool :=
  tiers.geometry.size ≤ size || !tiers.slab.fits size

def allocateBlock (size : Nat) : Attempt Tiers Nat := do
  let order ← (← get).geometry.orderForSize size
  let page ← tryBuddy (BuddyAllocator.allocate order)
  Attempt.report (.bytesAsBlock size order page.start)
  if page.start = 0 then Attempt.violate .nullBlock
  return page.start

def allocate (size : Nat) : Attempt Tiers Nat := do
  if size = 0 then throw .zeroSize
  if (← get).needsPages size then allocateBlock size
  else allocateObject size

/-- Allocate `size` bytes at a multiple of an alignment no larger than a page. -/
def allocateAligned (size alignment : Nat) : Attempt Tiers Nat := do
  let tiers ← get
  if !Word.isPowerOfTwo alignment || tiers.geometry.size < alignment then
    throw (.invalidAlignment alignment)
  if size = 0 then throw .zeroSize
  let padded := Word.addSaturating size (alignment - 1)
  if tiers.needsPages padded then allocateBlock size
  else do
    let object ← allocateObject padded
    Address.alignUp object alignment

/-- Give back what was allocated at an address. -/
def release (address : Nat) : Action Tiers Unit := do
  if address = 0 then return
  let pages := (← get).buddy.pages
  if !pages.contains address then
    Action.report (.freeOutsideRam address)
  else
    let page ← pages.ofAddress address
    match page.owner with
    | .buddy => inBuddy (BuddyAllocator.free page.start page.order)
    | .slab => do
        if page.cache.isNone then Action.violate (.freeInPageWithoutCache page.start)
        freeObject address page
    | .unowned => Action.report (.freeInUnownedPage address)

end Tiers

end PhysicalMemory
