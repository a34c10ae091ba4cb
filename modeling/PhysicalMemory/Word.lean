import PhysicalMemory.Halt

/-!
# Checked word arithmetic

Words are natural numbers of at most 64 bits.  Sums, differences and products that
leave the word halt instead of wrapping, as do shifts by the whole width or
more; a left shift within the width drops the bits that it moves out.  Each
operation comes with the exact condition under which it answers.
-/

namespace PhysicalMemory

namespace Word

def limit : Nat :=
  0x10000000000000000

def last : Nat :=
  limit - 1

/-- The sum in a word of the given number of bits. -/
def addWithin (bits a b : Nat) : Checked Nat :=
  if a + b < 1 <<< bits then .ok (a + b) else .error (.overflow .add)

def add (a b : Nat) : Checked Nat :=
  addWithin 64 a b

def sub (a b : Nat) : Checked Nat :=
  if b ≤ a then .ok (a - b) else .error (.overflow .subtract)

def mul (a b : Nat) : Checked Nat :=
  if a * b < limit then .ok (a * b) else .error (.overflow .multiply)

/-- The word moved up, less the bits moved out at the top. -/
def shiftLeft (a amount : Nat) : Checked Nat :=
  if amount < 64 then .ok ((a <<< amount) % limit) else .error (.overflow .shiftLeft)

def shiftRight (a amount : Nat) : Checked Nat :=
  if amount < 64 then .ok (a >>> amount) else .error (.overflow .shiftRight)

def div (a b : Nat) : Checked Nat :=
  if b = 0 then .error .divisionByZero else .ok (a / b)

def addSaturating (a b : Nat) : Nat :=
  min (a + b) last

/-- The distance from `b` up to `a` on the circle of words. -/
def subWrapping (a b : Nat) : Nat :=
  (a + (limit - b % limit)) % limit

def complement (a : Nat) : Nat :=
  a ^^^ last

def ceilDiv (a b : Nat) : Nat :=
  (a + b - 1) / b

def isPowerOfTwo (a : Nat) : Bool :=
  a != 0 && a == 1 <<< a.log2

/-- The first power of two that is not below a word. -/
def nextPowerOfTwo (a : Nat) : Checked Nat :=
  add (if a ≤ 1 then 0 else last >>> (63 - (a - 1).log2)) 1

def trailingZeros (a : Nat) : Nat :=
  ((List.range 64).find? a.testBit).getD 64

@[simp] theorem addWithin_eq_ok_iff {bits a b c : Nat} :
    addWithin bits a b = .ok c ↔ a + b < 1 <<< bits ∧ c = a + b := by
  by_cases h : a + b < 1 <<< bits <;> simp [addWithin, h, eq_comm]

@[simp] theorem add_eq_ok_iff {a b c : Nat} :
    add a b = .ok c ↔ a + b < limit ∧ c = a + b :=
  addWithin_eq_ok_iff

@[simp] theorem sub_eq_ok_iff {a b c : Nat} : sub a b = .ok c ↔ b ≤ a ∧ c = a - b := by
  by_cases h : b ≤ a <;> simp [sub, h, eq_comm]

@[simp] theorem mul_eq_ok_iff {a b c : Nat} :
    mul a b = .ok c ↔ a * b < limit ∧ c = a * b := by
  by_cases h : a * b < limit <;> simp [mul, h, eq_comm]

@[simp] theorem div_eq_ok_iff {a b c : Nat} : div a b = .ok c ↔ b ≠ 0 ∧ c = a / b := by
  by_cases h : b = 0 <;> simp [div, h, eq_comm]

theorem add_of_lt {a b : Nat} (h : a + b < limit) : add a b = .ok (a + b) :=
  add_eq_ok_iff.2 ⟨h, rfl⟩

theorem sub_of_le {a b : Nat} (h : b ≤ a) : sub a b = .ok (a - b) :=
  sub_eq_ok_iff.2 ⟨h, rfl⟩

theorem mul_of_lt {a b : Nat} (h : a * b < limit) : mul a b = .ok (a * b) :=
  mul_eq_ok_iff.2 ⟨h, rfl⟩

theorem one_shiftLeft_lt {k : Nat} (h : k < 64) : 1 <<< k < limit := by
  rw [Nat.one_shiftLeft]
  exact (Nat.pow_lt_pow_iff_right (by decide : 1 < 2)).2 h

theorem shiftLeft_of_lt {a amount : Nat} (hamount : amount < 64)
    (h : a <<< amount < limit) : shiftLeft a amount = .ok (a <<< amount) := by
  simp [shiftLeft, hamount, Nat.mod_eq_of_lt h]

theorem shiftRight_of_lt {a amount : Nat} (h : amount < 64) :
    shiftRight a amount = .ok (a >>> amount) := by
  simp [shiftRight, h]

/-- A word with one bit set is the power of two that its logarithm names. -/
theorem isPowerOfTwo_iff {a : Nat} : isPowerOfTwo a = true ↔ ∃ k, a = 1 <<< k := by
  constructor
  · intro h
    have parts : a ≠ 0 ∧ a = 1 <<< a.log2 := by simpa [isPowerOfTwo] using h
    exact ⟨a.log2, parts.2⟩
  · rintro ⟨k, rfl⟩
    simp [isPowerOfTwo, Nat.one_shiftLeft, Nat.log2_two_pow]

theorem last_shiftRight {k : Nat} (h : k ≤ 64) : last >>> (64 - k) = 1 <<< k - 1 := by
  have whole : last = 2 ^ (64 - k) * 2 ^ k - 1 := by
    rw [← Nat.pow_add, Nat.sub_add_cancel h]
    rfl
  rw [Nat.shiftRight_eq_div_pow, Nat.one_shiftLeft, whole,
    Nat.mul_sub_div 0 _ _ (Nat.mul_pos (Nat.two_pow_pos _) (Nat.two_pow_pos _)), Nat.zero_div]

/-- The next power of two is the least that reaches the word, and is a word itself. -/
theorem nextPowerOfTwo_eq_ok {a b : Nat} (h : nextPowerOfTwo a = .ok b) :
    ∃ k < 64, b = 1 <<< k ∧ ∀ j, k ≤ j ↔ a ≤ 1 <<< j := by
  obtain ⟨fits, rfl⟩ := add_eq_ok_iff.1 h
  by_cases small : a ≤ 1
  · refine ⟨0, by decide, by simp [small], fun j => ⟨fun _ => ?_, fun _ => Nat.zero_le j⟩⟩
    rw [Nat.one_shiftLeft]
    exact Nat.le_trans small Nat.one_le_two_pow
  · rw [if_neg small] at fits ⊢
    have narrow : (a - 1).log2 < 63 := by
      refine Nat.lt_of_not_le fun wide => ?_
      rw [Nat.sub_eq_zero_of_le wide] at fits
      exact absurd fits (by decide)
    have mask : last >>> (63 - (a - 1).log2) = 1 <<< ((a - 1).log2 + 1) - 1 := by
      rw [← last_shiftRight (by omega)]
      congr 1
      omega
    refine ⟨(a - 1).log2 + 1, by omega, ?_, fun j => ?_⟩
    · rw [mask, Nat.one_shiftLeft]
      exact Nat.sub_add_cancel Nat.one_le_two_pow
    · rw [Nat.add_one_le_iff, Nat.log2_lt (by omega), Nat.one_shiftLeft]
      omega

/-- The next power of two is a word for exactly the words that the highest bit is not below. -/
theorem nextPowerOfTwo_of_le {a : Nat} (h : a ≤ 1 <<< 63) : ∃ b, nextPowerOfTwo a = .ok b := by
  refine ⟨_, add_of_lt ?_⟩
  split
  · decide
  · next large =>
      have narrow : (a - 1).log2 < 63 := (Nat.log2_lt (by omega)).2 (by
        rw [Nat.one_shiftLeft] at h
        omega)
      have shifted : last >>> (63 - (a - 1).log2) ≤ last >>> 1 := by
        rw [Nat.shiftRight_eq_div_pow, Nat.shiftRight_eq_div_pow]
        exact Nat.div_le_div_left (Nat.pow_le_pow_right (by decide) (by omega)) (by decide)
      exact Nat.lt_of_le_of_lt (Nat.add_le_add_right shifted 1) (by decide)

theorem nextPowerOfTwo_of_lt {a : Nat} (h : 1 <<< 63 < a) :
    nextPowerOfTwo a = .error (.overflow .add) := by
  have large : ¬ a ≤ 1 := Nat.not_le.2 (Nat.lt_trans (by decide) h)
  have wide : 63 ≤ (a - 1).log2 := (Nat.le_log2 (by omega)).2 (by
    rw [Nat.one_shiftLeft] at h
    omega)
  rw [nextPowerOfTwo, if_neg large, Nat.sub_eq_zero_of_le wide]
  rfl

theorem trailingZeros_one_shiftLeft {k : Nat} (h : k < 64) : trailingZeros (1 <<< k) = k := by
  have lowest : (List.range 64).find? (1 <<< k).testBit = some k := by
    rw [List.find?_range_eq_some]
    simp [Nat.one_shiftLeft, Nat.testBit_two_pow, h]
    omega
  rw [trailingZeros, lowest]
  rfl

end Word

end PhysicalMemory
