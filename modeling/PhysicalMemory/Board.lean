import PhysicalMemory.Geometry

/-!
# The board and its memory

The constants of the board the kernel is built for, the sizes that the boot
metadata is measured in, and the description of memory that the boot sequence
hands over once it knows where the kernel image ends.
-/

namespace PhysicalMemory

/-- Number of block orders: blocks span `2 ^ 0` to `2 ^ 10` pages. -/
def orderCount : Nat :=
  11

def topOrder : Nat :=
  orderCount - 1

namespace Board

def ramStart : Nat :=
  0x40000000

def ramSize : Nat :=
  0x100000000

def ramEnd : Nat :=
  ramStart + ramSize

def pageShift : Nat :=
  12

def pageSize : Nat :=
  1 <<< pageShift

end Board

structure MemoryLayout where
  ramStart : Nat
  ramSize : Nat
  kernelEnd : Nat
  pageSize : Nat
  deriving DecidableEq, Inhabited

namespace MemoryLayout

def ofKernelEnd (kernelEnd : Nat) : MemoryLayout where
  ramStart := Board.ramStart
  ramSize := Board.ramSize
  kernelEnd := kernelEnd
  pageSize := Board.pageSize

def ramEnd (layout : MemoryLayout) : Checked Nat :=
  Word.add layout.ramStart layout.ramSize

def totalPages (layout : MemoryLayout) : Checked Nat :=
  Word.div layout.ramSize layout.pageSize

/-- Whether an address lies in memory; the end is only needed at or above the start. -/
def contains (layout : MemoryLayout) (address : Nat) : Checked Bool :=
  if layout.ramStart ≤ address then do
    let ramEnd ← layout.ramEnd
    return address < ramEnd
  else
    return false

def inspect (layout : MemoryLayout) : String :=
  "MemoryLayout \x7b ram_start: " ++ toString layout.ramStart ++
    ", ram_size: " ++ toString layout.ramSize ++
    ", kernel_end: " ++ toString layout.kernelEnd ++
    ", page_size: " ++ toString layout.pageSize ++ " \x7d"

/-- Where the end of memory is a word, an address is in memory between start and end. -/
theorem contains_of_lt {layout : MemoryLayout} {address : Nat}
    (h : layout.ramStart + layout.ramSize < Word.limit) :
    layout.contains address = .ok (decide
      (layout.ramStart ≤ address ∧ address < layout.ramStart + layout.ramSize)) := by
  by_cases hstart : layout.ramStart ≤ address <;>
    simp [contains, hstart, ramEnd, Word.add_of_lt h, bind, Except.bind, pure, Except.pure]

end MemoryLayout

end PhysicalMemory
