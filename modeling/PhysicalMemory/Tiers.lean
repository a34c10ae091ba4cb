import PhysicalMemory.Slab.Allocate
import PhysicalMemory.Slab.Free

/-!
# The two tiers

Whole blocks of pages come from the buddy allocator and small objects from the
slab allocator, which takes its own pages from the buddy allocator.  The slab
allocator only knows where its first record stands; everything else that it
keeps is in the memory of the page tier, so acting on that tier is acting on
both.
-/

namespace PhysicalMemory

/-- The page tier and the object tier. -/
structure Tiers where
  buddy : BuddyAllocator
  slab : SlabAllocator
  deriving Inhabited

namespace Tiers

variable {α : Type}

def ram (tiers : Tiers) : Ram :=
  tiers.buddy.ram

def setRam (tiers : Tiers) (ram : Ram) : Tiers :=
  { tiers with buddy := { tiers.buddy with ram := ram } }

def inBuddy (action : Action BuddyAllocator α) : Action Tiers α :=
  fun ⟨buddy, slab⟩ =>
    match action buddy with
    | ⟨result, buddy, log⟩ => ⟨result, ⟨buddy, slab⟩, log⟩

def tryBuddy (attempt : Attempt BuddyAllocator α) : Attempt Tiers α :=
  ExceptT.mk (inBuddy attempt.outcome)

@[simp] theorem run_inBuddy (action : Action BuddyAllocator α) (tiers : Tiers) :
    (inBuddy action).run tiers =
      ⟨(action.run tiers.buddy).result, ⟨(action.run tiers.buddy).state, tiers.slab⟩,
        (action.run tiers.buddy).log⟩ :=
  rfl

@[simp] theorem outcome_tryBuddy (attempt : Attempt BuddyAllocator α) :
    (tryBuddy attempt).outcome = inBuddy attempt.outcome :=
  rfl

def allocateObject (size : Nat) : Attempt Tiers Nat := do
  let slab := (← get).slab
  tryBuddy (slab.allocate size)

def freeObject (address : Nat) (page : Page) : Action Tiers Unit := do
  let slab := (← get).slab
  inBuddy (BuddyAllocator.inRam (slab.free address page))

end Tiers

end PhysicalMemory
