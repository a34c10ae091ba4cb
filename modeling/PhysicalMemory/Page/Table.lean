import PhysicalMemory.Geometry
import PhysicalMemory.Page.Descriptor

/-!
# Descriptor tables

The descriptors of memory stand in one array, in address order from the first
frame of memory on.  A frame's slot is its distance from the first frame on the
circle of words, so a frame below the first has a slot far past the end and is
refused like every frame above memory.
-/

namespace PhysicalMemory

/-- The descriptors of a run of pages, one behind the other from a place on. -/
structure DescriptorTable where
  geometry : Geometry
  first : Nat
  pages : Array Page
  place : Nat

namespace DescriptorTable

instance : Inhabited DescriptorTable :=
  ⟨⟨default, 0, #[], 0⟩⟩

def descriptorSize : Nat :=
  24

def storageSize (pages : Nat) : Checked Nat :=
  Word.mul pages descriptorSize

/--
Descriptors for `length` pages from `start` up, each in the zone of its first
byte.  The address past the last page has to be a word.
-/
def describe (geometry : Geometry) (start length : Nat) (zoneOf : Nat → ZoneId)
    (place : Nat := 0) : Checked DescriptorTable :=
  if length ≠ 0 ∧ Word.limit ≤ start + length * geometry.size then
    .error (.overflow .add)
  else
    .ok {
      geometry := geometry
      first := geometry.frameOf start
      pages := Array.ofFn fun slot : Fin length =>
        let address := start + slot * geometry.size
        Page.unowned (zoneOf address) address
      place := place }

def contains (table : DescriptorTable) (address : Nat) : Bool :=
  let frame := table.geometry.frameOf address
  table.first ≤ frame && frame - table.first < table.pages.size

def slot (table : DescriptorTable) (frame : Nat) : Nat :=
  Word.subWrapping frame table.first

def ofFrame (table : DescriptorTable) (frame : Nat) : Checked Page :=
  match table.pages[table.slot frame]? with
  | some page => .ok page
  | none => .error (.outOfBounds table.pages.size (table.slot frame))

def ofAddress (table : DescriptorTable) (address : Nat) : Checked Page :=
  table.ofFrame (table.geometry.frameOf address)

def set (table : DescriptorTable) (frame : Nat) (page : Page) : DescriptorTable :=
  { table with pages := table.pages.setIfInBounds (table.slot frame) page }

def owned (table : DescriptorTable) : List Page :=
  table.pages.toList.filter (·.owner ≠ .unowned)

theorem slot_of_le {table : DescriptorTable} {frame : Nat} (low : table.first ≤ frame)
    (high : frame < Word.limit) : table.slot frame = frame - table.first := by
  have : table.first % Word.limit = table.first := Nat.mod_eq_of_lt (by omega)
  rw [slot, Word.subWrapping, this]
  have sum : frame + (Word.limit - table.first) =
      (frame - table.first) + Word.limit := by omega
  rw [sum, Nat.add_mod_right, Nat.mod_eq_of_lt (by omega)]

theorem ofFrame_set {table : DescriptorTable} {frame : Nat} {old : Page}
    (h : table.ofFrame frame = .ok old) (page : Page) :
    (table.set frame page).ofFrame frame = .ok page := by
  have inside : table.slot frame < table.pages.size := by
    apply Decidable.byContradiction
    intro outside
    simp [ofFrame, Array.getElem?_eq_none (Nat.not_lt.1 outside)] at h
  have sameSlot : (table.set frame page).slot frame = table.slot frame := rfl
  simp only [ofFrame, sameSlot]
  simp [set, inside]

theorem ofFrame_set_of_ne {table : DescriptorTable} {frame other : Nat} (page : Page)
    (apart : table.slot frame ≠ table.slot other) :
    (table.set frame page).ofFrame other = table.ofFrame other := by
  have sameSlot : (table.set frame page).slot other = table.slot other := rfl
  simp only [ofFrame, sameSlot]
  simp [set, Array.getElem?_setIfInBounds_ne apart]

end DescriptorTable

end PhysicalMemory
