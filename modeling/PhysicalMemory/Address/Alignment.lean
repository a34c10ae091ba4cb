import PhysicalMemory.Word

/-!
# Alignment

An alignment is meant to be a power of two, and the operations here mask the
bits below it.  They are defined for every word: an alignment of zero halts,
rounding up past the last word halts, and an alignment that is no power of two
masks whatever bits its predecessor has.
-/

namespace PhysicalMemory

namespace Address

def isAligned (address alignment : Nat) : Checked Bool := do
  let mask ← Word.sub alignment 1
  return address &&& mask == 0

def alignDown (address alignment : Nat) : Checked Nat := do
  let mask ← Word.sub alignment 1
  return address &&& Word.complement mask

/-- The first aligned address that is not below the given one. -/
def alignUp (address alignment : Nat) : Checked Nat := do
  let mask ← Word.sub alignment 1
  let raised ← Word.add address mask
  return raised &&& Word.complement mask

/-- At a power of two, aligned means divisible. -/
theorem isAligned_one_shiftLeft (address k : Nat) :
    isAligned address (1 <<< k) = .ok (address % 1 <<< k == 0) := by
  have positive : 1 ≤ 2 ^ k := Nat.one_le_two_pow
  simp [isAligned, Nat.one_shiftLeft, Word.sub_of_le positive, Nat.and_two_pow_sub_one_eq_mod,
    bind, Except.bind, pure, Except.pure]

theorem and_complement_mask {address k : Nat} (haddress : address < Word.limit) :
    address &&& Word.complement (1 <<< k - 1) = address >>> k <<< k := by
  apply Nat.eq_of_testBit_eq
  intro i
  have below : address.testBit i = true → i < 64 := by
    intro h
    apply Decidable.byContradiction
    intro hi
    have : address < 2 ^ i :=
      Nat.lt_of_lt_of_le haddress (Nat.pow_le_pow_right (by decide : 0 < 2) (Nat.not_lt.1 hi))
    simp [Nat.testBit_lt_two_pow this] at h
  have ones : Word.last = 2 ^ 64 - 1 := rfl
  simp only [Word.complement, ones, Nat.one_shiftLeft, Nat.testBit_and, Nat.testBit_xor,
    Nat.testBit_two_pow_sub_one, Nat.testBit_shiftLeft, Nat.testBit_shiftRight]
  by_cases hk : k ≤ i
  · have sum : k + (i - k) = i := by omega
    cases hbit : address.testBit i with
    | false => simp [sum, hbit]
    | true => simp [hk, sum, hbit, below hbit, Nat.not_lt.2 hk]
  · have hik : i < k := by omega
    cases hbit : address.testBit i with
    | false => simp [hk]
    | true => simp [hk, hik, below hbit]

theorem alignDown_one_shiftLeft {address k : Nat} (haddress : address < Word.limit) :
    alignDown address (1 <<< k) = .ok (address >>> k <<< k) := by
  have positive : 1 ≤ 1 <<< k := by
    rw [Nat.one_shiftLeft]
    exact Nat.one_le_two_pow
  simp [alignDown, Word.sub_of_le positive, and_complement_mask haddress, bind, Except.bind,
    pure, Except.pure]

/-- At a power of two, rounding up rounds the sum with the mask down, if it fits. -/
theorem alignUp_one_shiftLeft {address k : Nat} (h : address + (1 <<< k - 1) < Word.limit) :
    alignUp address (1 <<< k) = .ok ((address + (1 <<< k - 1)) >>> k <<< k) := by
  have positive : 1 ≤ 1 <<< k := by
    rw [Nat.one_shiftLeft]
    exact Nat.one_le_two_pow
  simp [alignUp, Word.sub_of_le positive, Word.add_of_lt h, and_complement_mask h, bind,
    Except.bind, pure, Except.pure]

end Address

end PhysicalMemory
