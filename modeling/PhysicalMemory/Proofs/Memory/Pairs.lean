import PhysicalMemory.PairBitmap

/-!
# Where the bit of a pair is kept

A bitmap finds the pair of a frame by counting from its base.  From a base that a whole
pair begins at, frames share a pair just if they lie in the same cell of the next order,
and a bitmap of as many words as its pages need has a word for every pair they reach.
-/

namespace PhysicalMemory

namespace PairBitmap

theorem covers_clear {order base pages place offset : Nat} (h : offset < pages) :
    (clear order base (wordsCovering pages order) place).covers (offset >>> (order + 1)) =
      true := by
  have grows : ∀ {count bound divisor : Nat}, 0 < divisor → count < bound →
      count / divisor < Word.ceilDiv bound divisor := by
    intro count bound divisor positive below
    rw [Word.ceilDiv, Nat.lt_iff_add_one_le, Nat.le_div_iff_mul_le positive, Nat.succ_mul]
    have := Nat.div_mul_le_self count divisor
    omega
  have positive : 0 < 1 <<< (order + 1) := by
    rw [Nat.one_shiftLeft]
    exact Nat.two_pow_pos _
  simp only [covers, clear, Array.size_replicate, decide_eq_true_eq, wordsCovering]
  rw [Nat.shiftRight_eq_div_pow, ← Nat.one_shiftLeft]
  exact grows (by decide) (grows positive h)

theorem sub_shiftRight {base exponent : Nat} (aligned : base % 1 <<< exponent = 0)
    (frame : Nat) : (frame - base) >>> exponent = frame >>> exponent - base >>> exponent := by
  obtain ⟨count, rfl⟩ := Nat.dvd_of_mod_eq_zero aligned
  have positive : 0 < 1 <<< exponent := by
    rw [Nat.one_shiftLeft]
    exact Nat.two_pow_pos _
  have whole : ∀ value, value >>> exponent = value / 1 <<< exponent := by
    intro value
    rw [Nat.one_shiftLeft, Nat.shiftRight_eq_div_pow]
  rw [whole, whole, whole, Nat.sub_mul_div, Nat.mul_div_cancel_left _ positive]

/-- The pair of a frame is found if the bitmap begins below it and reaches it. -/
theorem locate_of_covers {bitmap : PairBitmap} {frame : Nat} (narrow : bitmap.order < 63)
    (above : bitmap.base ≤ frame)
    (covered : bitmap.covers ((frame - bitmap.base) >>> (bitmap.order + 1)) = true) :
    bitmap.locate frame = .ok ((frame - bitmap.base) >>> (bitmap.order + 1)) := by
  have exponent : Word.addWithin 8 bitmap.order 1 = .ok (bitmap.order + 1) :=
    Word.addWithin_eq_ok_iff.2
      ⟨Nat.lt_trans (Nat.succ_lt_succ narrow) (by decide), rfl⟩
  simp [locate, pairOf, Word.sub_of_le above, exponent,
    Word.shiftRight_of_lt (Nat.succ_lt_succ narrow), covered, bind, Except.bind, pure, Except.pure]

end PairBitmap

end PhysicalMemory
