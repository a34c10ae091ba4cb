import PhysicalMemory.Geometry
import PhysicalMemory.Proofs.Buddy.Cell

/-!
# The places of blocks

A cell of frames is a block of memory, which begins at the first byte of the
cell's first frame.  Flipping the bit that tells the halves of a parent apart
leads from a block to its buddy, and the lower of the two begins where the
parent does.
-/

namespace PhysicalMemory

namespace Geometry

variable (geometry : Geometry) {order order' cell cell' : Nat}

def blockAt (order cell : Nat) : Nat :=
  cell <<< (geometry.shift + order)

variable {geometry} in
theorem frameOf_eq_of_page {frame byte : Nat} (low : frame * geometry.size ≤ byte)
    (high : byte < frame * geometry.size + geometry.size) : geometry.frameOf byte = frame := by
  rw [frameOf, Nat.div_eq_iff geometry.size_pos]
  constructor <;> omega

theorem frameOf_eq_shiftRight (address : Nat) :
    geometry.frameOf address = address >>> geometry.shift := by
  rw [frameOf, size, Nat.one_shiftLeft, Nat.shiftRight_eq_div_pow]

theorem blockAt_eq_mul (order cell : Nat) :
    geometry.blockAt order cell = cell <<< order * geometry.size := by
  rw [blockAt, Nat.add_comm, Nat.shiftLeft_add, size, Nat.shiftLeft_eq _ geometry.shift,
    Nat.one_shiftLeft]

@[simp] theorem frameOf_blockAt (order cell : Nat) :
    geometry.frameOf (geometry.blockAt order cell) = cell <<< order := by
  rw [blockAt_eq_mul, frameOf_mul]

theorem blockAt_succ (order cell : Nat) :
    geometry.blockAt (order + 1) cell = geometry.blockAt order (2 * cell) := by
  rw [blockAt, blockAt, ← Nat.add_assoc, Nat.add_comm (geometry.shift + order) 1,
    Nat.shiftLeft_add, Nat.shiftLeft_eq cell 1, Nat.mul_comm cell]

theorem blockAt_add (order levels cell : Nat) :
    geometry.blockAt (order + levels) cell = geometry.blockAt order (cell <<< levels) := by
  rw [blockAt, blockAt, ← Nat.shiftLeft_add]
  congr 1
  omega

theorem blockAt_add_one (order cell : Nat) :
    geometry.blockAt order (cell + 1) =
      geometry.blockAt order cell + 1 <<< (geometry.shift + order) := by
  simp only [blockAt, Nat.shiftLeft_eq, Nat.add_mul]

theorem blockAt_injective (same : geometry.blockAt order cell = geometry.blockAt order cell') :
    cell = cell' := by
  have frames := congrArg geometry.frameOf same
  rw [frameOf_blockAt, frameOf_blockAt] at frames
  rw [← Cell.shiftLeft_shiftRight cell order, frames, Cell.shiftLeft_shiftRight]

theorem blockAt_mod_size (order cell : Nat) : geometry.blockAt order cell % geometry.size = 0 := by
  rw [blockAt_eq_mul]
  exact Nat.mul_mod_left _ _

theorem blockAt_of_aligned {place : Nat}
    (aligned : place % 1 <<< (geometry.shift + order) = 0) :
    geometry.blockAt order (geometry.frameOf place >>> order) = place := by
  rw [frameOf_eq_shiftRight, ← Nat.shiftRight_add, blockAt]
  rw [Nat.one_shiftLeft] at aligned
  rw [Nat.shiftRight_eq_div_pow, Nat.shiftLeft_eq]
  exact Nat.div_mul_cancel (Nat.dvd_of_mod_eq_zero aligned)

theorem blockAt_aligned (order cell : Nat) :
    geometry.blockAt order cell % 1 <<< (geometry.shift + order) = 0 := by
  rw [blockAt, Nat.shiftLeft_eq, Nat.one_shiftLeft]
  exact Nat.mul_mod_left _ _

private theorem xor_shiftLeft (cell exponent : Nat) :
    cell <<< exponent ^^^ 1 <<< exponent = (cell ^^^ 1) <<< exponent := by
  rw [← Nat.shiftLeft_xor_distrib]

/-- Where the block size fits a word, flipping its bit leads to the other half of the parent. -/
theorem buddyOf_blockAt (h : geometry.shift + order < 64) (cell : Nat) :
    geometry.buddyOf (geometry.blockAt order cell) order =
      .ok (geometry.blockAt order (cell ^^^ 1)) := by
  rw [buddyOf, blockSize_of_lt h, blockAt, blockAt, ← xor_shiftLeft]
  rfl

theorem min_blockAt_buddy (order cell : Nat) :
    min (geometry.blockAt order cell) (geometry.blockAt order (cell ^^^ 1)) =
      geometry.blockAt (order + 1) (cell / 2) := by
  have grows : ∀ {low high : Nat}, low ≤ high →
      geometry.blockAt order low ≤ geometry.blockAt order high := by
    intro low high less
    rw [blockAt, blockAt, Nat.shiftLeft_eq, Nat.shiftLeft_eq]
    exact Nat.mul_le_mul_right _ less
  rw [blockAt_succ, Cell.xor_one_eq]
  split
  · next even =>
      rw [Nat.min_eq_left (grows (Nat.le_succ cell)), show 2 * (cell / 2) = cell by omega]
  · next odd =>
      rw [Nat.min_eq_right (grows (Nat.sub_le cell 1)), show 2 * (cell / 2) = cell - 1 by omega]

theorem frameOf_eq_of_link (h : 8 ≤ geometry.size) {byte : Nat}
    (low : geometry.blockAt order cell ≤ byte) (high : byte < geometry.blockAt order cell + 8) :
    geometry.frameOf byte = cell <<< order := by
  rw [blockAt_eq_mul] at low high
  rw [frameOf]
  apply Nat.div_eq_of_lt_le
  · exact low
  · rw [Nat.add_mul]
    omega

theorem size_mod_eight (h : 8 ≤ geometry.size) : geometry.size % 8 = 0 := by
  rw [size, Nat.one_shiftLeft] at *
  have wide : 3 ≤ geometry.shift := by
    by_contra narrow
    have : 2 ^ geometry.shift ≤ 2 ^ 2 := Nat.pow_le_pow_right (by decide) (by omega)
    omega
  exact Nat.mod_eq_zero_of_dvd (Nat.pow_dvd_pow 2 wide)

theorem blockAt_mod_eight (h : 8 ≤ geometry.size) (order cell : Nat) :
    geometry.blockAt order cell % 8 = 0 := by
  have aligned := Nat.dvd_of_mod_eq_zero (geometry.blockAt_mod_size order cell)
  exact Nat.mod_eq_zero_of_dvd ((Nat.dvd_of_mod_eq_zero (geometry.size_mod_eight h)).trans aligned)

end Geometry

end PhysicalMemory
