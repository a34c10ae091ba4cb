import PhysicalMemory.Board
import PhysicalMemory.Failure
import PhysicalMemory.Page.Table
import PhysicalMemory.PairBitmap
import PhysicalMemory.Slab.Shape

/-!
# The boot plan

The manager's own records are carved out of memory right behind the kernel
image: eleven pair bitmaps, one descriptor per page and the record of the
bootstrap cache, each at the next multiple of eight.  The heap begins at the
first page boundary behind them.  The plan fixes all places, or says why the
layout cannot be used, before anything is written.
-/

namespace PhysicalMemory

abbrev Planning (α : Type) : Type :=
  ExceptT BootFailure Checked α

structure Region where
  start : Nat
  stop : Nat
  deriving DecidableEq

structure Room where
  count : Nat
  itemSize : Nat
  deriving DecidableEq

structure BootPlan where
  layout : MemoryLayout
  geometry : Geometry
  ramEnd : Nat
  totalPages : Nat
  base : Nat
  span : Nat
  regions : List Region
  metadataEnd : Nat
  heapStart : Nat
  deriving DecidableEq

namespace BootPlan

def minPageSize : Nat :=
  512

def recordAlignment : Nat :=
  8

def wordSize : Nat :=
  8

def pagesOf (layout : MemoryLayout) : Planning Geometry :=
  match Geometry.ofSize? layout.pageSize with
  | none => throw (.invalidPageSize layout.pageSize)
  | some geometry =>
      if geometry.size < minPageSize then throw (.invalidPageSize layout.pageSize)
      else return geometry

/-- Refuse memory that does not consist of whole pages below the last address. -/
def checkWindow (layout : MemoryLayout) (geometry : Geometry) : Planning Unit := do
  let aligned ← geometry.isAligned layout.ramStart
  if layout.ramSize = 0 ∨ !aligned ∨ layout.ramSize % geometry.size ≠ 0 ∨
      Word.limit ≤ layout.ramStart + layout.ramSize then
    throw (.unalignedRam layout.ramStart layout.ramSize)

def checkKernel (layout : MemoryLayout) : Planning Unit := do
  if layout.kernelEnd = 0 then throw (.kernelEndOutOfRange layout.kernelEnd)
  let inside ← layout.contains layout.kernelEnd
  if !inside then throw (.kernelEndOutOfRange layout.kernelEnd)

/-- Carve room from a cursor on, which must not pass the end of memory. -/
def carve (ramEnd cursor : Nat) (room : Room) : Planning Region := do
  let start ← Address.alignUp cursor recordAlignment
  let bytes ← Word.mul room.count room.itemSize
  if start + bytes ≤ ramEnd then return ⟨start, start + bytes⟩
  else throw (.metadataExhaustsRam (Word.addSaturating start bytes) ramEnd)

/-- Carve one room behind the other; the answer includes where the last one stops. -/
def carveAll (ramEnd : Nat) : Nat → List Room → Planning (List Region × Nat)
  | cursor, [] => return ([], cursor)
  | cursor, room :: rest => do
      let region ← carve ramEnd cursor room
      let (regions, stop) ← carveAll ramEnd region.stop rest
      return (region :: regions, stop)

/-- The room that the records of a layout need, in the order they are carved. -/
def rooms (span totalPages : Nat) : List Room :=
  (List.range orderCount).map (fun order =>
    ⟨PairBitmap.wordsCovering span order, wordSize⟩) ++
  [⟨totalPages, DescriptorTable.descriptorSize⟩, ⟨1, CacheRecord.size⟩]

/-- The first frame that pairs are counted from: the kernel's last, at a largest block. -/
def baseFrame (geometry : Geometry) (kernelEnd : Nat) : Nat :=
  geometry.frameOf kernelEnd >>> orderCount <<< orderCount

/-- Fix all places for a layout. -/
def ofLayout (layout : MemoryLayout) : Planning BootPlan := do
  let geometry ← pagesOf layout
  checkWindow layout geometry
  checkKernel layout
  let ramEnd ← layout.ramEnd
  let totalPages ← layout.totalPages
  let base := baseFrame geometry layout.kernelEnd
  let span ← Word.sub (geometry.frameOf ramEnd) base
  let (regions, metadataEnd) ← carveAll ramEnd layout.kernelEnd (rooms span totalPages)
  let heapStart ← geometry.alignUp metadataEnd
  if ramEnd ≤ heapStart then throw (.metadataExhaustsRam metadataEnd ramEnd)
  return {
    layout := layout
    geometry := geometry
    ramEnd := ramEnd
    totalPages := totalPages
    base := base
    span := span
    regions := regions
    metadataEnd := metadataEnd
    heapStart := heapStart }

/-- Where the region with a number begins: the bitmap of that order, or the descriptors. -/
def recordPlace (plan : BootPlan) (number : Nat) : Nat :=
  match plan.regions[number]? with
  | some region => region.start
  | none => 0

def cachePlace (plan : BootPlan) : Nat :=
  match plan.regions.getLast? with
  | some region => region.start
  | none => 0

def zoneOf (plan : BootPlan) (address : Nat) : ZoneId :=
  if address < plan.heapStart then .noHeap else .heap

end BootPlan

end PhysicalMemory
