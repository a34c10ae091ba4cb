import PhysicalMemory.Proofs.Buddy.Run

/-!
# What stays for good

Whatever an allocator hands out or takes back, its zones keep their bounds, every
descriptor keeps the start and the zone of its page, and a page that serves a
slab keeps serving it.  A page that nobody owns has no order and no cache: what
the last owner left in the descriptor is wiped.
-/

namespace PhysicalMemory

namespace Page

def place (page : Page) : Nat × ZoneId :=
  (page.start, page.zone)

end Page

namespace DescriptorTable

/-- The descriptors of pages that nobody owns keep nothing of an owner. -/
def UnownedBare (table : DescriptorTable) : Prop :=
  ∀ frame page, table.page? frame = some page → page.owner = .unowned →
    page.order = 0 ∧ page.cache = none

variable {table : DescriptorTable} {frame : Nat} {old page : Page}

theorem Regular.place_set (regular : table.Regular) (found : table.page? frame = some old)
    (place : page.place = old.place) (other : Nat) :
    ((table.set frame page).page? other).map Page.place = (table.page? other).map Page.place := by
  rw [regular.page?_set found]
  split
  · next same =>
      rw [same, found]
      exact congrArg some place
  · rfl

/-- A table stays so when the new descriptor of a page keeps nothing of an owner, either. -/
theorem UnownedBare.set (unownedBare : table.UnownedBare) (regular : table.Regular)
    (found : table.page? frame = some old)
    (own : page.owner = .unowned → page.order = 0 ∧ page.cache = none) :
    (table.set frame page).UnownedBare := by
  intro other page' found' unowned
  rw [regular.page?_set found] at found'
  split at found'
  · obtain rfl := Option.some.inj found'
    exact own unowned
  · exact unownedBare other page' found' unowned

end DescriptorTable

namespace BuddyAllocator

/-- The later allocator has the zones, the pages and the slabs of the earlier one. -/
structure Onward (buddy after : BuddyAllocator) : Prop where
  alike : ∀ id, Zone.Alike (buddy.zones.get id) (after.zones.get id)
  geometry_eq : after.geometry = buddy.geometry
  size_eq : after.pages.pages.size = buddy.pages.pages.size
  table_eq : after.pages.place = buddy.pages.place
  placed : ∀ frame, (after.pages.page? frame).map Page.place =
    (buddy.pages.page? frame).map Page.place
  slabs : ∀ frame page, page.owner = .slab → buddy.pages.page? frame = some page →
    after.pages.page? frame = some page

variable {buddy after : BuddyAllocator} {order cell head : Nat} {id : ZoneId} {live : Page}

namespace Onward

theorem of_ram (buddy : BuddyAllocator) (ram : Ram) :
    buddy.Onward ⟨ram, buddy.zones, buddy.pages⟩ :=
  ⟨fun _ => .refl _, rfl, rfl, rfl, fun _ => rfl, fun _ _ _ found => found⟩

theorem refl (buddy : BuddyAllocator) : buddy.Onward buddy :=
  of_ram buddy buddy.ram

theorem trans {last : BuddyAllocator} (first : buddy.Onward after) (second : after.Onward last) :
    buddy.Onward last where
  alike := fun id => (first.alike id).trans (second.alike id)
  geometry_eq := second.geometry_eq.trans first.geometry_eq
  size_eq := second.size_eq.trans first.size_eq
  table_eq := second.table_eq.trans first.table_eq
  placed := fun frame => (second.placed frame).trans (first.placed frame)
  slabs := fun frame page owner found =>
    second.slabs frame page owner (first.slabs frame page owner found)

end Onward

namespace Handed

variable (handed : buddy.Handed after order id cell) (sound : buddy.Sound)

include handed

theorem geometry_eq : after.geometry = buddy.geometry := by
  rw [geometry, handed.pages_eq]
  rfl

theorem unowned {old : Page} (found : buddy.pages.page? (cell <<< order) = some old) :
    old.owner = .unowned := by
  by_contra owned
  exact (handed.within _ (Cell.shiftLeft_shiftRight _ _)).2 ⟨_, _, ⟨old, found, owned, rfl⟩, rfl⟩

include sound

theorem page?_eq (frame : Nat) :
    after.pages.page? frame = if frame = cell <<< order then
      some ⟨id, buddy.geometry.blockAt order cell, .buddy, order, none⟩
    else buddy.pages.page? frame := by
  obtain ⟨old, found⟩ := handed.found
  rw [handed.pages_eq, sound.regular.page?_set found]

theorem taken_iff (frame : Nat) :
    after.pages.Taken frame ↔ buddy.pages.Taken frame ∨ frame >>> order = cell := by
  obtain ⟨old, found⟩ := handed.found
  rw [handed.pages_eq, sound.regular.taken_set_of_held found (handed.unowned found) (by simp)]
  rw [Cell.shiftLeft_shiftRight]

theorem exists_old : ∃ old, buddy.pages.page? (cell <<< order) = some old ∧
    old.place = (buddy.geometry.blockAt order cell, id) := by
  obtain ⟨old, found, tag⟩ := sound.tagged id handed.allocatable _
    (handed.within _ (Cell.shiftLeft_shiftRight cell order)).1
  refine ⟨old, found, ?_⟩
  rw [Page.place, sound.regular.placed _ _ found, Geometry.blockAt_eq_mul, tag]
  rfl

theorem onward : buddy.Onward after where
  alike := handed.alike
  geometry_eq := handed.geometry_eq
  size_eq := by rw [handed.pages_eq, DescriptorTable.size_set]
  table_eq := by
    rw [handed.pages_eq]
    rfl
  placed := by
    obtain ⟨old, found, place⟩ := handed.exists_old sound
    rw [handed.pages_eq]
    exact sound.regular.place_set found place.symm
  slabs := by
    intro frame page owner found
    rw [handed.page?_eq sound, if_neg]
    · exact found
    · rintro rfl
      rw [handed.unowned found] at owner
      cases owner

theorem unownedBare (unownedBare : buddy.pages.UnownedBare) : after.pages.UnownedBare := by
  obtain ⟨old, found⟩ := handed.found
  rw [handed.pages_eq]
  exact unownedBare.set sound.regular found (by rintro ⟨⟩)

end Handed

namespace Recovered

variable (recovered : buddy.Recovered after head live) (sound : buddy.Sound)

include recovered

theorem geometry_eq : after.geometry = buddy.geometry := by
  rw [geometry, recovered.pages_eq]
  rfl

include sound

theorem page?_eq (frame : Nat) :
    after.pages.page? frame =
      if frame = head then some live.release else buddy.pages.page? frame := by
  rw [recovered.pages_eq, sound.regular.page?_set recovered.found]

theorem onward : buddy.Onward after where
  alike := recovered.alike
  geometry_eq := recovered.geometry_eq
  size_eq := by rw [recovered.pages_eq, DescriptorTable.size_set]
  table_eq := by
    rw [recovered.pages_eq]
    rfl
  placed := by
    rw [recovered.pages_eq]
    exact sound.regular.place_set recovered.found rfl
  slabs := by
    intro frame page owner found
    rw [recovered.page?_eq sound, if_neg]
    · exact found
    · rintro rfl
      rw [recovered.found] at found
      rw [← Option.some.inj found, recovered.owner_eq] at owner
      cases owner

theorem unownedBare (unownedBare : buddy.pages.UnownedBare) : after.pages.UnownedBare := by
  rw [recovered.pages_eq]
  exact unownedBare.set sound.regular recovered.found fun _ => ⟨rfl, rfl⟩

end Recovered

/-- Nobody owns a page of an allocator that was just built, and no descriptor says otherwise. -/
theorem Built.unownedBare {raw : BuddyAllocator} (built : raw.Built buddy) :
    buddy.pages.UnownedBare := by
  obtain ⟨start, length, zoneOf, place, aligned, described⟩ := built.prepared.described
  obtain ⟨-, -, read⟩ := DescriptorTable.describe_eq_ok aligned described
  intro frame page found unowned
  rw [built.sound.2.1, read] at found
  split at found
  · obtain rfl := Option.some.inj found
    exact ⟨rfl, rfl⟩
  · cases found

theorem Sound.run_unownedBare (sound : buddy.Sound) (unownedBare : buddy.pages.UnownedBare)
    (calls : List Call) :
    (buddy.run calls).pages.UnownedBare := by
  induction calls generalizing buddy with
  | nil => exact unownedBare
  | cons call rest ih =>
      apply ih (sound.perform call)
      rcases sound.perform_cases call with same | ⟨order, id, cell, handed⟩ |
        ⟨head, live, recovered⟩ | written
      · rwa [same]
      · exact handed.unownedBare sound unownedBare
      · exact recovered.unownedBare sound unownedBare
      · rwa [written.pages_eq]

end BuddyAllocator

end PhysicalMemory
