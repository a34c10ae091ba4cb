/-!
# Page owners

A page is the head of a block handed out by the buddy allocator, or backs a
slab, or belongs to nobody.  The pages behind the head of a larger block count
as belonging to nobody, as do free pages and pages outside the heap.
-/

namespace PhysicalMemory

inductive Owner where
  | buddy
  | slab
  | unowned
  deriving DecidableEq, Inhabited

namespace Owner

def byte : Owner → Nat
  | .buddy => 0
  | .slab => 1
  | .unowned => 2

/-- The owner a stored byte stands for: unknown values mean nobody. -/
def ofByte : Nat → Owner
  | 0 => .buddy
  | 1 => .slab
  | _ => .unowned

def name : Owner → String
  | .buddy => "Buddy"
  | .slab => "Slab"
  | .unowned => "Unowned"

@[simp] theorem ofByte_byte (owner : Owner) : ofByte owner.byte = owner := by
  cases owner <;> rfl

end Owner

end PhysicalMemory
