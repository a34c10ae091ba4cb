import PhysicalMemory.Buddy.Allocator
import PhysicalMemory.Slab.Cache

/-!
# Allocating objects

An object comes from the first partly full slab of its cache.  Without one the
first empty slab becomes partly full, and without that either, a page of the
buddy allocator becomes a new slab.  A slab whose last free object is handed
out moves to the full ones and stays there.  The first request of a size makes
its cache, whose record is itself an object of the bootstrap cache.  All of
this stands in the memory that the buddy allocator keeps, and every step works
on what is there when the step is made.
-/

namespace PhysicalMemory

namespace Cache

def popSlab (cache : Nat) (fill : Fill) : Action Ram (Option Nat) := do
  match popSlab? (← get) cache fill with
  | none => return none
  | some (slab, ram) => do
      set ram
      return some slab

/-- Take the first free object of a slab that serves the cache at a place. -/
def takeObject (cache slab : Nat) : Action Ram Nat := do
  let index := Slab.cursor (← get) slab
  modify fun ram => Slab.setCursor ram slab (Slab.link ram slab index)
  let handedOut ← Word.addWithin 32 (Slab.handedOut (← get) slab) 1
  modify fun ram => Slab.setHandedOut ram slab handedOut
  let ram ← get
  let object ← Slab.objectAt ram slab (objectSize ram cache) index
  if Slab.cursor ram slab = Slab.endMark then modify fun ram => retire ram cache
  if object = 0 then Action.violate .nullObject
  return object

end Cache

namespace BuddyAllocator

variable {α : Type}

def inRam (action : Action Ram α) : Action BuddyAllocator α := fun ⟨ram, zones, pages⟩ =>
  match action ram with
  | ⟨result, ram, log⟩ => ⟨result, ⟨ram, zones, pages⟩, log⟩

def onRam (action : Action Ram α) : Attempt BuddyAllocator α :=
  ExceptT.lift (inRam action)

@[simp] theorem run_inRam (action : Action Ram α) (buddy : BuddyAllocator) :
    (inRam action).run buddy =
      ⟨(action.run buddy.ram).result,
        ⟨(action.run buddy.ram).state, buddy.zones, buddy.pages⟩,
        (action.run buddy.ram).log⟩ :=
  rfl

@[simp] theorem outcome_onRam (action : Action Ram α) :
    (onRam action).outcome = (do return .ok (← inRam action)) :=
  rfl

/-- Turn a page into a slab of free objects for the cache at a place. -/
def createSlab (cache objectSize : Nat) : Attempt BuddyAllocator Nat := do
  let page ← allocate 0
  let slab := page.start
  assignToSlab slab cache
  if slab = 0 then Attempt.violate .nullSlabPage
  let capacity := Slab.capacity (← get).geometry.size objectSize
  onRam do modify fun ram => Slab.chainInOrder ram slab capacity
  let objects ← Word.add slab (Slab.metadataSize capacity)
  onRam do modify fun ram => Slab.writeHeader ram slab objects
  Attempt.report (.slabCreated slab objectSize capacity)
  return slab

/-- The first partly full slab of the cache at a place, made partly full if need be. -/
def partlyFullSlab (cache : Nat) : Attempt BuddyAllocator Nat := do
  match Cache.firstSlab (← get).ram cache .partly with
  | some slab => return slab
  | none => do
      let slab ←
        match ← onRam (Cache.popSlab cache .empty) with
        | some slab => pure slab
        | none => createSlab cache (Cache.objectSize (← get).ram cache)
      onRam do modify fun ram => Cache.pushSlab ram cache .partly slab
      return slab

def allocateFrom (cache : Nat) : Attempt BuddyAllocator Nat := do
  let slab ← partlyFullSlab cache
  onRam (Cache.takeObject cache slab)

end BuddyAllocator

namespace SlabAllocator

/--
The slab allocator that begins with the bootstrap cache alone, its record at
the given place and one empty slab in it.
-/
def bootstrap (place : Nat) : Attempt BuddyAllocator SlabAllocator := do
  let pageSize := (← get).geometry.size
  let capacity := Slab.capacity pageSize CacheRecord.objectSize
  if capacity = 0 then throw (.objectTooLarge CacheRecord.objectSize)
  BuddyAllocator.onRam do
    modify fun ram => Cache.writeRecord ram place place CacheRecord.objectSize
  let slab ← BuddyAllocator.createSlab place CacheRecord.objectSize
  BuddyAllocator.onRam do modify fun ram => Cache.setFirstSlab ram place .empty (some slab)
  Attempt.report (.bootstrapCacheReady capacity)
  return ⟨pageSize, place⟩

/-- Make a cache for objects of a size, right behind the bootstrap cache. -/
def createCache (allocator : SlabAllocator) (size : Nat) : Attempt BuddyAllocator Nat := do
  let object ← BuddyAllocator.allocateFrom allocator.head
  let place ← Address.alignUp object CacheRecord.alignment
  if place = 0 then Attempt.violate .nullCacheRecord
  BuddyAllocator.onRam do
    modify fun ram => Cache.writeRecord ram place (Cache.next ram allocator.head) size
    modify fun ram => Cache.setNext ram allocator.head place
  Attempt.report (.cacheCreated size)
  let slab ← BuddyAllocator.createSlab place size
  BuddyAllocator.onRam do modify fun ram => Cache.setFirstSlab ram place .empty (some slab)
  return place

/-- An object of exactly `size` bytes. -/
def allocate (allocator : SlabAllocator) (size : Nat) : Attempt BuddyAllocator Nat := do
  if size = 0 then throw .zeroSize
  if !allocator.fits size then throw (.objectTooLarge size)
  match allocator.find? (← get).ram size with
  | some cache => BuddyAllocator.allocateFrom cache
  | none => do
      let cache ← allocator.createCache size
      BuddyAllocator.allocateFrom cache

end SlabAllocator

end PhysicalMemory
