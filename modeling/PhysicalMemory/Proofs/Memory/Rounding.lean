import Mathlib
import PhysicalMemory.Geometry

/-!
# Rounding

An address that is rounded up at a power of two moves by less than that power,
and halting is only for addresses so high that the sum leaves the word.  The
order that a size is rounded up to is the least whose blocks hold the size, also
where such a block is larger than any word.  Every size that a word can say has
one, except for sizes beyond `2 ^ 63` in pages of a single byte.
-/

namespace PhysicalMemory

namespace Word

variable {number multiple : Nat}

def roundUp (number multiple : Nat) : Nat :=
  ceilDiv number multiple * multiple

theorem ceilDiv_le (number : Nat) (positive : 0 < multiple) : ceilDiv number multiple ≤ number := by
  rw [ceilDiv]
  refine Nat.le_of_lt_succ ((Nat.div_lt_iff_lt_mul positive).2 ?_)
  have grown := Nat.le_mul_of_pos_right number positive
  rw [Nat.succ_mul]
  omega

theorem le_roundUp (number : Nat) (positive : 0 < multiple) :
    number ≤ roundUp number multiple := by
  have division := Nat.div_add_mod' (number + multiple - 1) multiple
  have rest := Nat.mod_lt (number + multiple - 1) positive
  rw [roundUp, ceilDiv]
  omega

theorem roundUp_lt (number : Nat) (positive : 0 < multiple) :
    roundUp number multiple < number + multiple := by
  have division := Nat.div_mul_le_self (number + multiple - 1) multiple
  rw [roundUp, ceilDiv]
  omega

theorem roundUp_mod (number multiple : Nat) : roundUp number multiple % multiple = 0 :=
  Nat.mul_mod_left _ _

theorem roundUp_of_mod_eq_zero (positive : 0 < multiple) (whole : number % multiple = 0) :
    roundUp number multiple = number := by
  obtain ⟨count, rfl⟩ := Nat.dvd_of_mod_eq_zero whole
  rw [roundUp, ceilDiv, Nat.add_sub_assoc positive, Nat.mul_add_div positive,
    Nat.div_eq_of_lt (Nat.sub_one_lt (Nat.ne_of_gt positive)), Nat.add_zero, Nat.mul_comm]

theorem add_of_le {a b : Nat} (large : limit ≤ a + b) : add a b = .error (.overflow .add) := by
  have words : 1 <<< 64 = limit := rfl
  rw [add, addWithin, words, if_neg (Nat.not_lt.2 large)]

/-- A block that begins below the end of all addresses, and is aligned, does not reach over it. -/
theorem add_one_shiftLeft_le {address k : Nat} (narrow : k ≤ 64)
    (aligned : address % 1 <<< k = 0) (word : address < limit) : address + 1 <<< k ≤ limit := by
  have whole : limit = 1 <<< k * 2 ^ (64 - k) := by
    rw [Nat.one_shiftLeft, ← Nat.pow_add, Nat.add_sub_cancel' narrow]
    rfl
  obtain ⟨count, rfl⟩ := Nat.dvd_of_mod_eq_zero aligned
  rw [whole] at word ⊢
  rw [← Nat.mul_succ]
  exact Nat.mul_le_mul_left _ (Nat.lt_of_mul_lt_mul_left word)

end Word

namespace Address

/-- Rounding an address up at a power of two is exact where the sum with the mask is a word. -/
theorem alignUp_eq_roundUp {address k : Nat}
    (fits : address + (1 <<< k - 1) < Word.limit) :
    alignUp address (1 <<< k) = .ok (Word.roundUp address (1 <<< k)) := by
  have positive : 1 ≤ 1 <<< k := by
    rw [Nat.one_shiftLeft]
    exact Nat.one_le_two_pow
  rw [alignUp_one_shiftLeft fits, Word.roundUp, Word.ceilDiv, Nat.add_sub_assoc positive,
    Nat.shiftLeft_eq, Nat.shiftRight_eq_div_pow, ← Nat.one_shiftLeft]

theorem alignUp_eq_ok {address k aligned : Nat}
    (rounded : alignUp address (1 <<< k) = .ok aligned) :
    address ≤ aligned ∧ aligned < address + 1 <<< k ∧ aligned % 1 <<< k = 0 := by
  have positive : 1 ≤ 1 <<< k := by
    rw [Nat.one_shiftLeft]
    exact Nat.one_le_two_pow
  by_cases fits : address + (1 <<< k - 1) < Word.limit
  · rw [alignUp_eq_roundUp fits] at rounded
    obtain rfl := Except.ok.inj rounded
    exact ⟨Word.le_roundUp _ positive, Word.roundUp_lt _ positive, Word.roundUp_mod _ _⟩
  · have overflow := Word.add_of_le (Nat.le_of_not_lt fits)
    rw [alignUp, Word.sub_of_le positive] at rounded
    simp [overflow, bind, Except.bind] at rounded

theorem exists_alignUp {address k : Nat} (fits : address + (1 <<< k - 1) < Word.limit) :
    ∃ aligned, alignUp address (1 <<< k) = .ok aligned ∧ address ≤ aligned ∧
      aligned < address + 1 <<< k ∧ aligned % 1 <<< k = 0 :=
  ⟨_, alignUp_one_shiftLeft fits, alignUp_eq_ok (alignUp_one_shiftLeft fits)⟩

end Address

namespace Geometry

variable {geometry : Geometry} {bytes order : Nat}

theorem le_pagesFor_mul (geometry : Geometry) (bytes : Nat) :
    bytes ≤ geometry.pagesFor bytes * geometry.size :=
  Nat.le_trans (Word.le_roundUp bytes geometry.size_pos)
    (Nat.mul_le_mul_right _ (Nat.le_max_right _ _))

/-- Blocks of the order hold a number of bytes, and no smaller blocks do. -/
def IsOrderFor (geometry : Geometry) (bytes order : Nat) : Prop :=
  bytes ≤ geometry.size <<< order ∧ ∀ smaller < order, geometry.size <<< smaller < bytes

instance (geometry : Geometry) (bytes order : Nat) : Decidable (geometry.IsOrderFor bytes order) :=
  inferInstanceAs (Decidable (_ ∧ _))

theorem isOrderFor_block (geometry : Geometry) (order : Nat) :
    geometry.IsOrderFor (geometry.size <<< order) order := by
  refine ⟨Nat.le_refl _, fun smaller less => ?_⟩
  rw [Nat.shiftLeft_eq, Nat.shiftLeft_eq]
  exact Nat.mul_lt_mul_of_pos_left (Nat.pow_lt_pow_right (by decide) less) geometry.size_pos

theorem IsOrderFor.unique {other : Nat} (least : geometry.IsOrderFor bytes order)
    (least' : geometry.IsOrderFor bytes other) : order = other := by
  rcases Nat.lt_trichotomy order other with lower | same | higher
  · exact absurd least.1 (Nat.not_le.2 (least'.2 order lower))
  · exact same
  · exact absurd least'.1 (Nat.not_le.2 (least.2 other higher))

theorem mul_lt_of_lt_pagesFor {count : Nat} (positive : 0 < count)
    (few : count < geometry.pagesFor bytes) : count * geometry.size < bytes := by
  have rounded : count + 1 ≤ Word.ceilDiv bytes geometry.size := by
    rw [pagesFor] at few
    omega
  rw [Word.ceilDiv, Nat.le_div_iff_mul_le geometry.size_pos, Nat.succ_mul] at rounded
  have := geometry.size_pos
  omega

theorem isOrderFor_of_orderForSize (rounded : geometry.orderForSize bytes = .ok order) :
    geometry.IsOrderFor bytes order := by
  have reaches := (orderForSize_eq_ok rounded).2
  constructor
  · have pages := (reaches order).1 (Nat.le_refl order)
    rw [Nat.shiftLeft_eq, Nat.mul_comm, ← Nat.one_shiftLeft]
    exact Nat.le_trans (geometry.le_pagesFor_mul bytes) (Nat.mul_le_mul_right _ pages)
  · intro smaller less
    have few := Nat.lt_of_not_le fun reach =>
      absurd ((reaches smaller).2 reach) (Nat.not_le.2 less)
    rw [Nat.shiftLeft_eq, Nat.mul_comm, ← Nat.one_shiftLeft]
    refine mul_lt_of_lt_pagesFor ?_ few
    rw [Nat.one_shiftLeft]
    exact Nat.two_pow_pos _

theorem pagesFor_le (paired : 2 ≤ geometry.size) (word : bytes < Word.limit) :
    geometry.pagesFor bytes ≤ 1 <<< 63 := by
  refine Nat.le_of_not_lt fun many => ?_
  have limit : Word.limit = 1 <<< 63 * 2 := by decide
  have enough : 1 <<< 63 * geometry.size < bytes := mul_lt_of_lt_pagesFor (by decide) many
  have doubled := Nat.mul_le_mul_left (1 <<< 63) paired
  omega

theorem exists_orderForSize (linkable : 8 ≤ geometry.size) (word : bytes < Word.limit) :
    ∃ order, geometry.orderForSize bytes = .ok order :=
  orderForSize_of_le (pagesFor_le (Nat.le_trans (by decide) linkable) word)

theorem orderForSize_overflows_iff (word : bytes < Word.limit) :
    geometry.orderForSize bytes = .error (.overflow .add) ↔
      geometry.size = 1 ∧ 1 <<< 63 < bytes := by
  by_cases single : geometry.size = 1
  · have pages : geometry.pagesFor bytes = max 1 bytes := by
      rw [pagesFor, single, Word.ceilDiv, Nat.add_sub_cancel, Nat.div_one]
    simp only [single, true_and]
    constructor
    · intro halted
      refine Nat.lt_of_not_le fun few => ?_
      have fits : geometry.pagesFor bytes ≤ 1 <<< 63 := by
        rw [pages]
        omega
      obtain ⟨order, rounded⟩ := orderForSize_of_le fits
      rw [halted] at rounded
      cases rounded
    · intro many
      exact orderForSize_of_lt (by rw [pages]; omega)
  · have paired : 2 ≤ geometry.size := Nat.lt_of_le_of_ne geometry.size_pos (Ne.symm single)
    obtain ⟨order, rounded⟩ := orderForSize_of_le (pagesFor_le paired word)
    simp [rounded, single]

/-- The least order is least among the exponents that reach the bytes, without a bound. -/
theorem IsOrderFor.isLeast (least : geometry.IsOrderFor bytes order) :
    IsLeast {k : Nat | bytes ≤ geometry.size * 2 ^ k} order := by
  constructor
  · have holds := least.1
    rwa [Nat.shiftLeft_eq] at holds
  · intro k reaches
    refine Nat.le_of_not_lt fun smaller => ?_
    have short := least.2 k smaller
    rw [Nat.shiftLeft_eq] at short
    exact Nat.not_le.2 short reaches

/--
In pages of two bytes or more the order for a size that a word can say is found, and is
the least exponent whose power of two counts pages enough, whatever size they have together.
-/
theorem orderForSize_least {pageSize bytes : Nat} (power : ∃ exponent, pageSize = 2 ^ exponent)
    (paired : 2 ≤ pageSize) (page : pageSize < Word.limit) (word : bytes < Word.limit) :
    ∃ geometry order, ofSize? pageSize = some geometry ∧
      geometry.orderForSize bytes = .ok order ∧ order < 64 ∧
        IsLeast {k : Nat | bytes ≤ pageSize * 2 ^ k} order := by
  obtain ⟨exponent, rfl⟩ := power
  have narrow : exponent < 64 := (Nat.pow_lt_pow_iff_right (by decide : 1 < 2)).1 page
  let geometry : Geometry := ⟨exponent, narrow⟩
  have size_eq : geometry.size = 2 ^ exponent := Nat.one_shiftLeft exponent
  obtain ⟨order, rounded⟩ := orderForSize_of_le (pagesFor_le (size_eq.symm ▸ paired) word)
  refine ⟨geometry, order, ofSize?_eq_some_iff.2 size_eq.symm, rounded,
    (orderForSize_eq_ok rounded).1, ?_⟩
  rw [← size_eq]
  exact (isOrderFor_of_orderForSize rounded).isLeast

/-- The largest size needs a block that fills all addresses, larger than any word. -/
theorem orderForSize_least_last :
    (∃ exponent, 2 = 2 ^ exponent) ∧ 2 ≤ 2 ∧ 2 < Word.limit ∧ Word.last < Word.limit ∧
      ∃ geometry, ofSize? 2 = some geometry ∧ geometry.orderForSize Word.last = .ok 63 ∧
        IsLeast {k : Nat | Word.last ≤ 2 * 2 ^ k} 63 := by
  have power : ∃ exponent, 2 = 2 ^ exponent := ⟨1, rfl⟩
  have page : 2 < Word.limit := by decide
  have word : Word.last < Word.limit := by decide
  obtain ⟨geometry, order, made, rounded, -, least⟩ :=
    orderForSize_least power (Nat.le_refl 2) page word
  obtain rfl : (⟨1, by decide⟩ : Geometry) = geometry :=
    Option.some.inj (Eq.trans (by decide) made)
  obtain rfl : 63 = order := Except.ok.inj (Eq.trans (by decide) rounded)
  exact ⟨power, Nat.le_refl 2, page, word, _, made, rounded, least⟩

end Geometry

end PhysicalMemory
