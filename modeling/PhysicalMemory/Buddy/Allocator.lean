import PhysicalMemory.Buddy.Merge
import PhysicalMemory.Buddy.Seed
import PhysicalMemory.Buddy.Split
import PhysicalMemory.Page.Table

/-!
# The buddy allocator

The allocator owns both zones, the memory in them and the descriptors of all
pages.  A block handed out is recorded in the descriptor of its first page, and
only a block that its descriptor confirms can be given back.  Every check of a
block that is given back comes before the first change.
-/

namespace PhysicalMemory

structure ZonePair where
  noHeap : Zone
  heap : Zone
  deriving Inhabited

namespace ZonePair

def get (zones : ZonePair) : ZoneId → Zone
  | .noHeap => zones.noHeap
  | .heap => zones.heap

def set (zones : ZonePair) (id : ZoneId) (zone : Zone) : ZonePair :=
  match id with
  | .noHeap => { zones with noHeap := zone }
  | .heap => { zones with heap := zone }

def toList (zones : ZonePair) : List Zone :=
  ZoneId.all.map zones.get

@[simp] theorem get_set (zones : ZonePair) (id : ZoneId) (zone : Zone) :
    (zones.set id zone).get id = zone := by
  cases id <;> rfl

theorem get_set_of_ne (zones : ZonePair) {id other : ZoneId} (zone : Zone) (h : id ≠ other) :
    (zones.set id zone).get other = zones.get other := by
  cases id <;> cases other <;> simp_all [get, set]

end ZonePair

/-- The zones, the memory in them and the descriptors of its pages. -/
structure BuddyAllocator where
  ram : Ram
  zones : ZonePair
  pages : DescriptorTable
  deriving Inhabited

namespace BuddyAllocator

def geometry (buddy : BuddyAllocator) : Geometry :=
  buddy.pages.geometry

def pool (buddy : BuddyAllocator) (id : ZoneId) : Pool :=
  ⟨buddy.ram, buddy.zones.get id⟩

def inZone {α : Type} (id : ZoneId) (action : Action Pool α) : Action BuddyAllocator α :=
  fun ⟨ram, zones, pages⟩ =>
    match action ⟨ram, zones.get id⟩ with
    | ⟨result, ⟨ram, zone⟩, log⟩ => ⟨result, ⟨ram, zones.set id zone, pages⟩, log⟩

def updatePage (frame : Nat) (change : Page → Page) : Action BuddyAllocator Page :=
  fun ⟨ram, zones, pages⟩ =>
    match pages.ofFrame frame with
    | .error halt => ⟨.error halt, ⟨ram, zones, pages⟩, []⟩
    | .ok page => ⟨.ok (change page), ⟨ram, zones, pages.set frame (change page)⟩, []⟩

def seedZones : List ZoneId → Action BuddyAllocator Unit
  | [] => return
  | id :: rest => do
      if ((← get).zones.get id).allocatable then inZone id Pool.seed
      seedZones rest

def seed : Action BuddyAllocator Unit :=
  seedZones ZoneId.all

/-- A block of an order from the first allocatable zone, among some, that has one. -/
def takeFrom (order : Nat) : List ZoneId → Action BuddyAllocator (Option (Nat × Nat))
  | [] => return none
  | id :: rest => do
      if ((← get).zones.get id).allocatable then
        match ← inZone id (Pool.take order) with
        | some taken => return some taken
        | none => takeFrom order rest
      else
        takeFrom order rest

/-- Hand out a block of `2 ^ order` pages, as the descriptor of its first page. -/
def allocate (order : Nat) : Attempt BuddyAllocator Page := do
  if order ≥ orderCount then throw (.orderTooLarge order topOrder)
  match ← takeFrom order ZoneId.all with
  | some (block, found) => do
      let geometry := (← get).geometry
      let page ← updatePage (geometry.frameOf block) (·.assignToBuddy order)
      Attempt.report (.blockAllocated block order found)
      return page
  | none => do
      Attempt.report (.outOfMemory order)
      throw (.outOfMemory order)

/--
The live descriptor of a block that is given back at an order, once everything
about it has been confirmed.
-/
def confirm (buddy : BuddyAllocator) (start order : Nat) : Checked Page := do
  if !buddy.pages.contains start then
    throw (.violation (.freeOutsideRam start))
  let live ← buddy.pages.ofAddress start
  if live.owner ≠ .buddy then
    throw (.violation (.freeNotBuddy start live.owner))
  if live.order ≠ order then
    throw (.violation (.freeAtWrongOrder start order live.order))
  let zone := buddy.zones.get live.zone
  if !zone.allocatable then
    throw (.violation (.freeOutsideZone start zone.id))
  let inside ← zone.contains start
  if !inside then
    throw (.violation (.freeOutsideZone start zone.id))
  return live

/-- Take back the block of `2 ^ order` pages that starts in the page of an address. -/
def free (start order : Nat) : Action BuddyAllocator Unit := do
  let live ← (← get).confirm start order
  let (block, merged) ← inZone live.zone (Pool.give live.start order)
  let geometry := (← get).geometry
  let _ ← updatePage (geometry.frameOf start) Page.release
  Action.report (.blockFreed start order block merged)

def assignToSlab (address cache : Nat) : Action BuddyAllocator Unit := do
  let geometry := (← get).geometry
  let _ ← updatePage (geometry.frameOf address) (·.assignToSlab cache)

def addFreeBytes : Nat → List Zone → Checked Nat
  | sum, [] => .ok sum
  | sum, zone :: rest => do
      let bytes ← zone.freeBytes
      let sum ← Word.add sum bytes
      addFreeBytes sum rest

def freeBytes (buddy : BuddyAllocator) : Checked Nat :=
  addFreeBytes 0 buddy.zones.toList

def zoneNumbered (buddy : BuddyAllocator) (number : Nat) : Except ZoneFailure Zone :=
  match ZoneId.ofNumber? number with
  | some id => .ok (buddy.zones.get id)
  | none => .error (.notFound number)

@[simp] theorem run_inZone {α : Type} (id : ZoneId) (action : Action Pool α)
    (buddy : BuddyAllocator) :
    (inZone id action).run buddy =
      ⟨((action.run (buddy.pool id)).result),
        ⟨(action.run (buddy.pool id)).state.ram,
          buddy.zones.set id (action.run (buddy.pool id)).state.zone, buddy.pages⟩,
        (action.run (buddy.pool id)).log⟩ :=
  rfl

end BuddyAllocator

end PhysicalMemory
