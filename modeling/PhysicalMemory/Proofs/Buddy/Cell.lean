import Mathlib
import PhysicalMemory.Board

/-!
# Cells

Frames fall into cells: the cell of a frame at an order is what is left of the
frame's number without its lowest bits, as many as the order says.  Two cells
are apart or one lies in the other, and the two halves of a cell differ in one
bit.  The largest cells inside a set of frames therefore cover it once, and
taking one of them out of the set, or putting one in beside no whole buddy,
changes the largest cells by just that one.
-/

namespace PhysicalMemory

namespace Cell

def Within (frames : Nat → Prop) (order cell : Nat) : Prop :=
  ∀ frame, frame >>> order = cell → frames frame

/-- The cell lies in the set and, short of the largest order, its parent does not. -/
def Maximal (frames : Nat → Prop) (order cell : Nat) : Prop :=
  Within frames order cell ∧ (order < topOrder → ¬ Within frames (order + 1) (cell / 2))

def without (frames : Nat → Prop) (order cell : Nat) : Nat → Prop :=
  fun frame => frames frame ∧ frame >>> order ≠ cell

def joined (frames : Nat → Prop) (order cell : Nat) : Nat → Prop :=
  fun frame => frames frame ∨ frame >>> order = cell

def Outside (frames : Nat → Prop) (order cell : Nat) : Prop :=
  ∀ frame, frame >>> order = cell → ¬ frames frame

variable {frames frames' : Nat → Prop} {order order' cell cell' frame : Nat}

theorem shiftRight_succ (frame order : Nat) : frame >>> (order + 1) = frame >>> order / 2 :=
  Nat.shiftRight_succ frame order

theorem shiftRight_of_le (h : order ≤ order') (frame : Nat) :
    frame >>> order' = frame >>> order >>> (order' - order) := by
  rw [← Nat.shiftRight_add]
  congr 1
  omega

theorem shiftLeft_shiftRight (cell order : Nat) : cell <<< order >>> order = cell :=
  Nat.shiftLeft_shiftRight cell order

theorem shiftRight_eq_iff :
    frame >>> order = cell ↔ cell <<< order ≤ frame ∧ frame < (cell + 1) <<< order := by
  rw [Nat.shiftRight_eq_div_pow, Nat.shiftLeft_eq, Nat.shiftLeft_eq,
    Nat.div_eq_iff (Nat.two_pow_pos order), Nat.add_mul]
  have positive := Nat.two_pow_pos order
  omega

theorem shiftRight_eq_of_le (h : order ≤ order') {other : Nat}
    (same : frame >>> order = other >>> order) : frame >>> order' = other >>> order' := by
  rw [shiftRight_of_le h, shiftRight_of_le h, same]

theorem within_congr (h : ∀ frame, frames frame ↔ frames' frame) :
    Within frames order cell ↔ Within frames' order cell :=
  forall_congr' fun frame => imp_congr_right fun _ => h frame

theorem maximal_congr (h : ∀ frame, frames frame ↔ frames' frame) :
    Maximal frames order cell ↔ Maximal frames' order cell :=
  and_congr (within_congr h) (imp_congr_right fun _ => not_congr (within_congr h))

theorem Within.mono (within : Within frames order cell)
    (h : ∀ frame, frames frame → frames' frame) : Within frames' order cell :=
  fun frame inside => h frame (within frame inside)

theorem Within.of_le (within : Within frames order' (frame >>> order')) (h : order ≤ order') :
    Within frames order (frame >>> order) :=
  fun _ inside => within _ (shiftRight_eq_of_le h inside)

/-- A set has a cell when it has both halves. -/
theorem within_succ_iff :
    Within frames (order + 1) cell ↔
      Within frames order (2 * cell) ∧ Within frames order (2 * cell + 1) := by
  constructor
  · intro within
    refine ⟨fun frame inside => within frame ?_, fun frame inside => within frame ?_⟩ <;>
      rw [shiftRight_succ] <;> omega
  · rintro ⟨lower, upper⟩ frame inside
    rw [shiftRight_succ] at inside
    rcases Nat.mod_two_eq_zero_or_one (frame >>> order) with even | odd
    · exact lower frame (by omega)
    · exact upper frame (by omega)

theorem xor_one_div_two (cell : Nat) : (cell ^^^ 1) / 2 = cell / 2 := by
  rw [Nat.xor_div_two]
  simp

theorem xor_one_eq (cell : Nat) : cell ^^^ 1 = if cell % 2 = 0 then cell + 1 else cell - 1 := by
  have half := xor_one_div_two cell
  have parity : (cell ^^^ 1) % 2 = (cell + 1) % 2 := by
    rw [Nat.xor_mod_two_eq]
  split <;> omega

/-- Cells with the same parent are the same cell or buddies. -/
theorem half_eq_iff : cell' / 2 = cell / 2 ↔ cell' = cell ∨ cell' = cell ^^^ 1 := by
  rw [xor_one_eq]
  split <;> omega

theorem within_parent_iff :
    Within frames (order + 1) (cell / 2) ↔
      Within frames order cell ∧ Within frames order (cell ^^^ 1) := by
  rw [within_succ_iff, xor_one_eq]
  split
  · next even =>
      rw [show 2 * (cell / 2) = cell by omega]
  · next odd =>
      rw [show 2 * (cell / 2) = cell - 1 by omega, show cell - 1 + 1 = cell by omega, and_comm]

/-- The largest cells of a set that share a frame are the same one. -/
theorem Maximal.unique (first : Maximal frames order (frame >>> order))
    (second : Maximal frames order' (frame >>> order')) (h : order ≤ topOrder)
    (h' : order' ≤ topOrder) : order = order' := by
  rcases Nat.lt_trichotomy order order' with less | same | more
  · have parent := second.1.of_le less
    rw [shiftRight_succ] at parent
    exact absurd parent (first.2 (by omega))
  · exact same
  · have parent := first.1.of_le more
    rw [shiftRight_succ] at parent
    exact absurd parent (second.2 (by omega))

/-- Every frame of a set lies in one of its largest cells. -/
theorem exists_maximal (inside : frames frame) :
    ∃ order, order ≤ topOrder ∧ Maximal frames order (frame >>> order) := by
  have zeroth : Within frames 0 (frame >>> 0) := by
    intro other same
    rw [Nat.shiftRight_zero, Nat.shiftRight_zero] at same
    rwa [same]
  -- climb from the frame itself while the parent is still inside
  have climb : ∀ steps order, order + steps = topOrder → Within frames order (frame >>> order) →
      ∃ order, order ≤ topOrder ∧ Maximal frames order (frame >>> order) := by
    intro steps
    induction steps with
    | zero =>
        intro order reached within
        exact ⟨order, by omega, within, fun below => absurd below (by omega)⟩
    | succ steps ih =>
        intro order reached within
        by_cases parent : Within frames (order + 1) (frame >>> (order + 1))
        · exact ih (order + 1) (by omega) parent
        · rw [shiftRight_succ] at parent
          exact ⟨order, by omega, within, fun _ => parent⟩
  exact climb topOrder 0 (by omega) zeroth

/-- Taking a largest cell out of a set takes it off the largest cells, and no other. -/
theorem maximal_without_iff (taken : Maximal frames order cell) (h : order ≤ topOrder)
    (h' : order' ≤ topOrder) :
    Maximal (without frames order cell) order' cell' ↔
      Maximal frames order' cell' ∧ ¬ (order' = order ∧ cell' = cell) := by
  constructor
  · rintro ⟨within, parent⟩
    refine ⟨⟨within.mono fun _ => And.left, ?_⟩, ?_⟩
    · intro below whole
      apply parent below
      intro frame inside
      refine ⟨whole frame inside, ?_⟩
      rintro rfl
      rcases Nat.lt_or_ge order' order with less | more
      · -- then the smaller cell would lie in the one taken out
        have member : cell' <<< order' >>> order' = cell' := shiftLeft_shiftRight _ _
        have up : (cell' <<< order') >>> (order' + 1) = frame >>> (order' + 1) := by
          rw [shiftRight_succ, member, inside]
        exact (within _ member).2 (shiftRight_eq_of_le less up)
      · rw [← inside] at whole
        have above := whole.of_le (show order + 1 ≤ order' + 1 by omega)
        rw [shiftRight_succ] at above
        exact taken.2 (by omega) above
    · rintro ⟨rfl, rfl⟩
      exact (within _ (shiftLeft_shiftRight _ _)).2 (shiftLeft_shiftRight _ _)
  · rintro ⟨⟨within, parent⟩, other⟩
    refine ⟨fun frame inside => ⟨within frame inside, ?_⟩, fun below whole =>
      parent below (whole.mono fun _ => And.left)⟩
    rintro rfl
    apply other
    subst inside
    have same := Maximal.unique ⟨within, parent⟩ taken h' h
    subst same
    exact ⟨rfl, rfl⟩

/-- Putting in a cell whose buddy is not all there makes it a largest cell. -/
theorem maximal_joined_iff (outside : Outside frames order cell) (h : order ≤ topOrder)
    (alone : order < topOrder → ¬ Within frames order (cell ^^^ 1)) (h' : order' ≤ topOrder) :
    Maximal (joined frames order cell) order' cell' ↔
      Maximal frames order' cell' ∨ (order' = order ∧ cell' = cell) := by
  have added : Maximal (joined frames order cell) order cell := by
    refine ⟨fun frame inside => .inr inside, fun below whole => alone below ?_⟩
    intro frame inside
    rcases (within_parent_iff.1 whole).2 frame inside with member | same
    · exact member
    · rw [inside] at same
      have := xor_one_eq cell
      split at this <;> omega
  have back : ∀ frame, without (joined frames order cell) order cell frame ↔ frames frame := by
    intro frame
    constructor
    · rintro ⟨member | same, apart⟩
      · exact member
      · exact absurd same apart
    · intro member
      exact ⟨.inl member, fun same => outside frame same member⟩
  have removed : Maximal (without (joined frames order cell) order cell) order' cell' ↔
      Maximal (joined frames order cell) order' cell' ∧ ¬ (order' = order ∧ cell' = cell) :=
    maximal_without_iff added h h'
  rw [maximal_congr back] at removed
  rw [removed]
  constructor
  · intro there
    by_cases same : order' = order ∧ cell' = cell
    · exact .inr same
    · exact .inl ⟨there, same⟩
  · rintro (⟨there, -⟩ | ⟨rfl, rfl⟩)
    · exact there
    · exact added

end Cell

end PhysicalMemory
