import PhysicalMemory.Boot.Start
import PhysicalMemory.Manager.Bytes

/-!
# The manager

The manager hands out pages and bytes and takes them back.  It answers in the
words of its two tiers and remembers the layout that it was booted for.
-/

namespace PhysicalMemory

namespace Manager

variable {α : Type}

def inTiers (action : Action Tiers α) : Action Manager α :=
  fun ⟨layout, tiers⟩ =>
    match action tiers with
    | ⟨result, tiers, log⟩ => ⟨result, ⟨layout, tiers⟩, log⟩

def tryTiers (attempt : Attempt Tiers α) : Attempt Manager α :=
  ExceptT.mk (inTiers attempt.outcome)

def allocatePages (order : Nat) : Attempt Manager Page :=
  tryTiers (Tiers.tryBuddy (BuddyAllocator.allocate order))

/-- Give back a block of `2 ^ order` pages by a copy of its descriptor. -/
def releasePages (page : Page) (order : Nat) : Action Manager Unit :=
  inTiers (Tiers.inBuddy (BuddyAllocator.free page.start order))

def allocate (size : Nat) : Attempt Manager Nat :=
  tryTiers (Tiers.allocate size)

def allocateAligned (size alignment : Nat) : Attempt Manager Nat :=
  tryTiers (Tiers.allocateAligned size alignment)

def release (address : Nat) : Action Manager Unit :=
  inTiers (Tiers.release address)

/-- Bytes on the free lists; free objects do not count. -/
def freeBytes (manager : Manager) : Checked Nat :=
  manager.tiers.buddy.freeBytes

def ram (manager : Manager) : Ram :=
  manager.tiers.ram

def setRam (manager : Manager) (ram : Ram) : Manager :=
  { manager with tiers := manager.tiers.setRam ram }

@[simp] theorem run_inTiers (action : Action Tiers α) (manager : Manager) :
    (inTiers action).run manager =
      ⟨(action.run manager.tiers).result, ⟨manager.layout, (action.run manager.tiers).state⟩,
        (action.run manager.tiers).log⟩ :=
  rfl

end Manager

end PhysicalMemory
