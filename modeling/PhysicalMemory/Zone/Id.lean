/-!
# Zone identities

Physical memory is divided into two zones.  The first holds the kernel image
and the boot metadata and is never allocated from; the second is the heap.
The order of the constructors is the order in which zones are searched.
-/

namespace PhysicalMemory

inductive ZoneId where
  | noHeap
  | heap
  deriving DecidableEq, Inhabited

namespace ZoneId

def all : List ZoneId :=
  [.noHeap, .heap]

def index : ZoneId → Nat
  | .noHeap => 0
  | .heap => 1

def ofNumber? : Nat → Option ZoneId
  | 0 => some .noHeap
  | 1 => some .heap
  | _ => none

/-- The zone that a stored byte stands for: every value but zero is the heap. -/
def ofByte : Nat → ZoneId
  | 0 => .noHeap
  | _ => .heap

def name : ZoneId → String
  | .noHeap => "NoHeap"
  | .heap => "Heap"

@[simp] theorem ofNumber?_index (id : ZoneId) : ofNumber? id.index = some id := by
  cases id <;> rfl

@[simp] theorem ofByte_index (id : ZoneId) : ofByte id.index = id := by
  cases id <;> rfl

theorem mem_all (id : ZoneId) : id ∈ all := by
  cases id <;> decide

end ZoneId

end PhysicalMemory
