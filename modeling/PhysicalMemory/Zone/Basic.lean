import PhysicalMemory.FreeList
import PhysicalMemory.Geometry
import PhysicalMemory.Board
import PhysicalMemory.PairBitmap
import PhysicalMemory.Zone.Id

/-!
# Zones

A zone is a stretch of memory with a free area for every block order: the list
of its free blocks and the pair bits of that order.  A reserved zone is never
allocated from and has areas that cover nothing.
-/

namespace PhysicalMemory

structure FreeArea where
  free : FreeList
  pairs : PairBitmap
  deriving DecidableEq

namespace FreeArea

def ofPairs (pairs : PairBitmap) : FreeArea :=
  ⟨{}, pairs⟩

def order (area : FreeArea) : Nat :=
  area.pairs.order

instance : Inhabited FreeArea :=
  ⟨ofPairs (.empty 0)⟩

end FreeArea

/-- A stretch of memory and its free areas. -/
structure Zone where
  id : ZoneId
  allocatable : Bool
  start : Nat
  size : Nat
  geometry : Geometry
  areas : Vector FreeArea orderCount

namespace Zone

def reserved (id : ZoneId) (start size : Nat) (geometry : Geometry) : Zone where
  id := id
  allocatable := false
  start := start
  size := size
  geometry := geometry
  areas := Vector.ofFn fun order => .ofPairs (.empty order)

/-- A zone to allocate from, without free blocks yet, whose pair bits count from a base frame. -/
def unseeded (id : ZoneId) (start size : Nat) (geometry : Geometry) (base : Nat)
    (words : Vector Nat orderCount) (places : Vector Nat orderCount := .replicate _ 0) :
    Zone where
  id := id
  allocatable := true
  start := start
  size := size
  geometry := geometry
  areas := Vector.ofFn fun order => .ofPairs (.clear order base words[order] places[order])

instance : Inhabited Zone :=
  ⟨reserved .noHeap 0 0 default⟩

def stop (zone : Zone) : Checked Nat :=
  Word.add zone.start zone.size

def contains (zone : Zone) (address : Nat) : Checked Bool :=
  if zone.start ≤ address then do
    let stop ← zone.stop
    return address < stop
  else
    return false

def area (zone : Zone) (order : Nat) : Checked FreeArea :=
  if h : order < orderCount then .ok zone.areas[order]
  else .error (.outOfBounds orderCount order)

def setArea (zone : Zone) (order : Nat) (area : FreeArea) : Zone :=
  { zone with areas := zone.areas.setIfInBounds order area }

def freeBlocks (zone : Zone) (order : Nat) : Checked Nat := do
  let area ← zone.area order
  return area.free.length

def addFreeBytes (geometry : Geometry) : Nat → List FreeArea → Checked Nat
  | sum, [] => .ok sum
  | sum, area :: rest => do
      let size ← geometry.blockSize area.order
      let bytes ← Word.mul area.free.length size
      let sum ← Word.add sum bytes
      addFreeBytes geometry sum rest

def freeBytes (zone : Zone) : Checked Nat :=
  addFreeBytes zone.geometry 0 zone.areas.toList

theorem area_of_lt (zone : Zone) {order : Nat} (h : order < orderCount) :
    zone.area order = .ok zone.areas[order] := by
  simp [area, h]

theorem area_setArea (zone : Zone) (area : FreeArea) {order : Nat} (h : order < orderCount) :
    (zone.setArea order area).area order = .ok area := by
  simp [Zone.area, setArea, h]

theorem area_setArea_of_ne (zone : Zone) (area : FreeArea) {order other : Nat}
    (h : order ≠ other) : (zone.setArea order area).area other = zone.area other := by
  by_cases inside : other < orderCount
  · simp [Zone.area, setArea, inside, Vector.getElem_setIfInBounds_ne, h]
  · simp [Zone.area, inside]

end Zone

end PhysicalMemory
