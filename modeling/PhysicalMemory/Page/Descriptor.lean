import PhysicalMemory.Address.Basic
import PhysicalMemory.Page.Flags

/-!
# Page descriptors

Every page of memory has a descriptor.  Its start and zone never change; its
owner, order and cache record who holds the page now.  A page held by the buddy
allocator is the head of a block and keeps that block's order; a page held by a
slab keeps the place of the cache it serves.
-/

namespace PhysicalMemory

/-- What is known of one page. -/
structure Page where
  zone : ZoneId
  start : Nat
  owner : Owner
  order : Nat
  cache : Option Nat
  deriving DecidableEq

namespace Page

def unowned (zone : ZoneId) (start : Nat) : Page :=
  ⟨zone, start, .unowned, 0, none⟩

instance : Inhabited Page :=
  ⟨unowned .noHeap 0⟩

def assignToBuddy (page : Page) (order : Nat) : Page :=
  { page with owner := .buddy, order := order, cache := none }

def assignToSlab (page : Page) (cache : Nat) : Page :=
  { page with owner := .slab, order := 0, cache := some cache }

def release (page : Page) : Page :=
  { page with owner := .unowned, order := 0, cache := none }

/-- The page with its cache forgotten and all else kept. -/
def detachCache (page : Page) : Page :=
  { page with cache := none }

/-- The packed form of the page's order, zone and owner. -/
def flags (page : Page) : PageFlags :=
  .pack page.order page.zone page.owner

def inspect (page : Page) : String :=
  let cache :=
    match page.cache with
    | none => "None"
    | some place => "Some(" ++ hex place ++ ")"
  "Page \x7b flags: " ++ page.flags.inspect ++ ", cache: " ++ cache ++ ", start: " ++
    Address.inspect page.start ++ " \x7d"

@[simp] theorem release_assignToBuddy (page : Page) (order : Nat) :
    (page.assignToBuddy order).release = page.release :=
  rfl

theorem release_unowned (zone : ZoneId) (start : Nat) :
    (unowned zone start).release = unowned zone start :=
  rfl

end Page

end PhysicalMemory
