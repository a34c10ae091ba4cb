import PhysicalMemory.Action
import PhysicalMemory.Page.Descriptor
import PhysicalMemory.Slab.Cache

/-!
# Freeing objects

An address in a slab page belongs to the object whose bytes include it; an
address before the first object or past the last belongs to none and is
ignored.  A freed object goes in front of its slab's chain.  The slab stays on
the list that it is on.
-/

namespace PhysicalMemory

namespace SlabAllocator

/-- Free the object that an address belongs to, in the slab of a page. -/
def free (allocator : SlabAllocator) (address : Nat) (page : Page) : Action Ram Unit := do
  match page.cache with
  | none => Action.violate (.slabPageWithoutCache page.start)
  | some cache => do
      let ram ← get
      let objectSize := Cache.objectSize ram cache
      let capacity := allocator.capacityFor objectSize
      let slab := page.start
      if slab = 0 then Action.violate .slabWithoutStart
      match ← Slab.partAt ram slab objectSize capacity address with
      | .metadata => Action.report (.freeInSlabMetadata address)
      | .rest => Action.report (.freePastLastObject address)
      | .object index => modify fun ram => Slab.pushFree ram slab (index % Slab.linkLimit)

end SlabAllocator

end PhysicalMemory
