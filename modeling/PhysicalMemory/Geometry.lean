import PhysicalMemory.Address.Alignment

/-!
# Page geometry

The page size is a power of two that fits a word and is fixed at boot.  It
converts between addresses and frames, and it gives every block order its size
and every block its buddy: the block of the same order that differs from it in
the one address bit of that size.
-/

namespace PhysicalMemory

/-- A page size, kept as its logarithm. -/
structure Geometry where
  shift : Nat
  shift_lt : shift < 64 := by omega
  deriving DecidableEq

namespace Geometry

instance : Inhabited Geometry :=
  ⟨⟨0, by decide⟩⟩

def size (geometry : Geometry) : Nat :=
  1 <<< geometry.shift

/-- The geometry with pages of `size` bytes, if that is a power of two. -/
def ofSize? (size : Nat) : Option Geometry :=
  if h : Word.isPowerOfTwo size = true ∧ size.log2 < 64 then some ⟨size.log2, h.2⟩ else none

theorem size_pos (geometry : Geometry) : 0 < geometry.size := by
  rw [size, Nat.one_shiftLeft]
  exact Nat.two_pow_pos _

theorem size_lt_limit (geometry : Geometry) : geometry.size < Word.limit :=
  Word.one_shiftLeft_lt geometry.shift_lt

theorem ofSize?_eq_some_iff {size : Nat} {geometry : Geometry} :
    ofSize? size = some geometry ↔ size = geometry.size := by
  constructor
  · intro h
    unfold ofSize? at h
    split at h
    · next hsize =>
        obtain ⟨k, rfl⟩ := Word.isPowerOfTwo_iff.1 hsize.1
        have hshift : k = geometry.shift := by
          have := congrArg Geometry.shift (Option.some.inj h)
          simpa [Nat.one_shiftLeft, Nat.log2_two_pow] using this
        rw [hshift]
        rfl
    · cases h
  · rintro rfl
    have power : Word.isPowerOfTwo geometry.size = true :=
      Word.isPowerOfTwo_iff.2 ⟨_, rfl⟩
    have exponent : geometry.size.log2 = geometry.shift := by
      rw [size, Nat.one_shiftLeft, Nat.log2_two_pow]
    simp [ofSize?, power, exponent, geometry.shift_lt]

def inspect (geometry : Geometry) : String :=
  "PageGeometry \x7b size: " ++ toString geometry.size ++ ", shift: " ++
    toString geometry.shift ++ " \x7d"

def frameOf (geometry : Geometry) (address : Nat) : Nat :=
  address / geometry.size

def baseOf (geometry : Geometry) (frame : Nat) : Nat :=
  frame * geometry.size % Word.limit

def isAligned (geometry : Geometry) (address : Nat) : Checked Bool :=
  Address.isAligned address geometry.size

def alignUp (geometry : Geometry) (address : Nat) : Checked Nat :=
  Address.alignUp address geometry.size

/-- Bytes in a block of `2 ^ order` pages, less the bits above a word. -/
def blockSize (geometry : Geometry) (order : Nat) : Checked Nat :=
  Word.shiftLeft geometry.size order

/-- The other half of a block's parent. -/
def buddyOf (geometry : Geometry) (block : Nat) (order : Nat) : Checked Nat := do
  let size ← geometry.blockSize order
  return block ^^^ size

def pagesFor (geometry : Geometry) (bytes : Nat) : Nat :=
  max 1 (Word.ceilDiv bytes geometry.size)

/-- The smallest order whose blocks hold a number of bytes. -/
def orderForSize (geometry : Geometry) (bytes : Nat) : Checked Nat := do
  let pages ← Word.nextPowerOfTwo (geometry.pagesFor bytes)
  return Word.trailingZeros pages

@[simp] theorem isAligned_eq (geometry : Geometry) (address : Nat) :
    geometry.isAligned address = .ok (address % geometry.size == 0) :=
  Address.isAligned_one_shiftLeft address geometry.shift

theorem frameOf_mul (geometry : Geometry) (frame : Nat) :
    geometry.frameOf (frame * geometry.size) = frame :=
  Nat.mul_div_cancel frame geometry.size_pos

theorem blockSize_of_lt {geometry : Geometry} {order : Nat}
    (h : geometry.shift + order < 64) :
    geometry.blockSize order = .ok (1 <<< (geometry.shift + order)) := by
  have bound : geometry.size <<< order < Word.limit := by
    rw [size, ← Nat.shiftLeft_add]
    exact Word.one_shiftLeft_lt h
  rw [blockSize, Word.shiftLeft_of_lt (by omega) bound, size, ← Nat.shiftLeft_add]

/-- The order for a size is the least whose blocks have the pages for it. -/
theorem orderForSize_eq_ok {geometry : Geometry} {bytes order : Nat}
    (h : geometry.orderForSize bytes = .ok order) :
    order < 64 ∧ ∀ k, order ≤ k ↔ geometry.pagesFor bytes ≤ 1 <<< k := by
  unfold orderForSize at h
  cases rounded : Word.nextPowerOfTwo (geometry.pagesFor bytes) with
  | error halt => simp [rounded, bind, Except.bind] at h
  | ok pages =>
      obtain ⟨k, narrow, rfl, least⟩ := Word.nextPowerOfTwo_eq_ok rounded
      obtain rfl : k = order := by
        simpa [rounded, bind, Except.bind, pure, Except.pure,
          Word.trailingZeros_one_shiftLeft narrow] using h
      exact ⟨narrow, least⟩

theorem orderForSize_of_le {geometry : Geometry} {bytes : Nat}
    (h : geometry.pagesFor bytes ≤ 1 <<< 63) :
    ∃ order, geometry.orderForSize bytes = .ok order := by
  obtain ⟨pages, rounded⟩ := Word.nextPowerOfTwo_of_le h
  exact ⟨Word.trailingZeros pages, by rw [orderForSize, rounded]; rfl⟩

theorem orderForSize_of_lt {geometry : Geometry} {bytes : Nat}
    (h : 1 <<< 63 < geometry.pagesFor bytes) :
    geometry.orderForSize bytes = .error (.overflow .add) := by
  rw [orderForSize, Word.nextPowerOfTwo_of_lt h]
  rfl

end Geometry

end PhysicalMemory
