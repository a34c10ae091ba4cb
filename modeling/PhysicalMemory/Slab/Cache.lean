import PhysicalMemory.Slab.Basic

/-!
# Slab caches

A cache serves objects of one size from three lists of slabs.  The records of
all caches form a ring: each names the next, and the last names the first, the
bootstrap cache, whose objects hold the records of all the others.  Slabs and
records are known by the address at which they stand in memory.
-/

namespace PhysicalMemory

inductive Fill where
  | full
  | partly
  | empty
  deriving DecidableEq

namespace Fill

def all : List Fill :=
  [.full, .partly, .empty]

end Fill

namespace Cache

def listField : Fill → Nat
  | .full => 8
  | .partly => 16
  | .empty => 24

def objectSizeField : Nat :=
  32

def next (ram : Ram) (cache : Nat) : Nat :=
  ram.word cache

def objectSize (ram : Ram) (cache : Nat) : Nat :=
  ram.word (cache + objectSizeField)

def firstSlab (ram : Ram) (cache : Nat) (fill : Fill) : Option Nat :=
  Chain.link ram (listField fill) cache

def slabs (ram : Ram) (cache : Nat) (fill : Fill) : List Nat :=
  Chain.toList ram Slab.nextField (firstSlab ram cache fill)

def handedOut (ram : Ram) (cache : Nat) : Nat :=
  (Fill.all.flatMap (slabs ram cache)).foldl
    (fun total slab => total + Slab.handedOut ram slab) 0

def setNext (ram : Ram) (cache next : Nat) : Ram :=
  ram.setWord cache next

def setFirstSlab (ram : Ram) (cache : Nat) (fill : Fill) (slab : Option Nat) : Ram :=
  Chain.setLink ram (listField fill) cache slab

def writeRecord (ram : Ram) (cache next objectSize : Nat) : Ram :=
  let ram := Fill.all.foldl (fun ram fill => setFirstSlab ram cache fill none)
    (setNext ram cache next)
  ram.setWord (cache + objectSizeField) objectSize

def pushSlab (ram : Ram) (cache : Nat) (fill : Fill) (slab : Nat) : Ram :=
  let ram := Chain.setLink ram Slab.nextField slab (firstSlab ram cache fill)
  setFirstSlab ram cache fill (some slab)

def popSlab? (ram : Ram) (cache : Nat) (fill : Fill) : Option (Nat × Ram) :=
  (firstSlab ram cache fill).map fun slab =>
    (slab, setFirstSlab ram cache fill (Chain.link ram Slab.nextField slab))

/-- Move the first partly full slab of the cache at a place to the full ones. -/
def retire (ram : Ram) (cache : Nat) : Ram :=
  match popSlab? ram cache .partly with
  | none => ram
  | some (slab, ram) => pushSlab ram cache .full slab

theorem firstSlab_setFirstSlab {ram : Ram} {cache : Nat} {fill : Fill} {slab : Option Nat}
    (h : ∀ address ∈ slab, address < Word.limit ∧ address ≠ 0) :
    firstSlab (setFirstSlab ram cache fill slab) cache fill = slab :=
  Chain.link_setLink h

theorem firstSlab_setFirstSlab_of_ne {ram : Ram} {cache : Nat} {fill other : Fill}
    {slab : Option Nat} (apart : fill ≠ other) :
    firstSlab (setFirstSlab ram cache fill slab) cache other = firstSlab ram cache other := by
  have words : cache + listField other + 8 ≤ cache + listField fill ∨
      cache + listField fill + 8 ≤ cache + listField other := by
    cases fill <;> cases other <;> simp_all [listField]
  simp [firstSlab, setFirstSlab, Chain.link, Chain.setLink, Ram.word_setWord_of_disjoint words]

@[simp] theorem objectSize_setFirstSlab (ram : Ram) (cache : Nat) (fill : Fill)
    (slab : Option Nat) :
    objectSize (setFirstSlab ram cache fill slab) cache = objectSize ram cache := by
  rw [objectSize, objectSize, setFirstSlab, Chain.setLink, Ram.word_setWord_of_disjoint]
  cases fill <;> simp only [listField, objectSizeField] <;> omega

@[simp] theorem next_setFirstSlab (ram : Ram) (cache : Nat) (fill : Fill)
    (slab : Option Nat) : next (setFirstSlab ram cache fill slab) cache = next ram cache := by
  rw [next, next, setFirstSlab, Chain.setLink, Ram.word_setWord_of_disjoint]
  cases fill <;> simp only [listField] <;> omega

theorem objectSize_writeRecord {ram : Ram} {cache next objectSize : Nat}
    (h : objectSize < Word.limit) :
    Cache.objectSize (writeRecord ram cache next objectSize) cache = objectSize :=
  Ram.word_setWord h

end Cache

/-- The ring of caches, known by its first record, and the size of a slab's page. -/
structure SlabAllocator where
  pageSize : Nat
  head : Nat
  deriving DecidableEq, Inhabited

namespace SlabAllocator

/-- The records from one on until the ring closes, at most `fuel` of them. -/
def ringFrom (allocator : SlabAllocator) (ram : Ram) : Nat → Nat → List Nat
  | 0, _ => []
  | fuel + 1, cache =>
      let next := Cache.next ram cache
      cache :: if next = allocator.head then [] else ringFrom allocator ram fuel next

def ring (allocator : SlabAllocator) (ram : Ram) : List Nat :=
  allocator.ringFrom ram (ram.written + 1) allocator.head

/--
The first cache, among at most `fuel` from one on, that serves objects of a
size.
-/
def findFrom? (allocator : SlabAllocator) (ram : Ram) (size : Nat) : Nat → Nat → Option Nat
  | 0, _ => none
  | fuel + 1, cache =>
      if Cache.objectSize ram cache = size then some cache
      else
        let next := Cache.next ram cache
        if next = allocator.head then none else findFrom? allocator ram size fuel next

def find? (allocator : SlabAllocator) (ram : Ram) (size : Nat) : Option Nat :=
  allocator.findFrom? ram size (ram.written + 1) allocator.head

def cacheFor? (allocator : SlabAllocator) (ram : Ram) (size : Nat) : Option Nat :=
  (allocator.ring ram).find? fun cache => Cache.objectSize ram cache = size

def capacityFor (allocator : SlabAllocator) (size : Nat) : Nat :=
  Slab.capacity allocator.pageSize size

def fits (allocator : SlabAllocator) (size : Nat) : Bool :=
  0 < allocator.capacityFor size

/-- Looking a size up from a record on meets the records that going on from it does. -/
theorem findFrom?_eq_find?_ringFrom (allocator : SlabAllocator) (ram : Ram)
    (size fuel cache : Nat) :
    allocator.findFrom? ram size fuel cache =
      (allocator.ringFrom ram fuel cache).find? fun cache =>
        Cache.objectSize ram cache = size := by
  induction fuel generalizing cache with
  | zero => rfl
  | succ fuel ih =>
      by_cases found : Cache.objectSize ram cache = size
      · simp [findFrom?, ringFrom, found]
      · by_cases closed : Cache.next ram cache = allocator.head <;>
          simp [findFrom?, ringFrom, found, closed, ih]

/-- Looking a size up is looking along the ring. -/
theorem find?_eq_find?_ring (allocator : SlabAllocator) (ram : Ram) (size : Nat) :
    allocator.find? ram size =
      (allocator.ring ram).find? fun cache => Cache.objectSize ram cache = size :=
  allocator.findFrom?_eq_find?_ringFrom ram size _ _

end SlabAllocator

end PhysicalMemory
