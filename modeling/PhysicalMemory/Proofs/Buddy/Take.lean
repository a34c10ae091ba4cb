import PhysicalMemory.Buddy.Split
import PhysicalMemory.Proofs.Buddy.Coalesced

/-!
# Taking a block keeps a pool coalesced

The first listed cell of the least order that has one leaves its list and is
halved until it has the wanted order.  Each upper half is listed while the
lower half is still in hand, so no listed cell has its buddy beside it.  In the
end exactly the frames of the block handed out are no longer free.
-/

namespace PhysicalMemory

namespace Pool

open Cell (Within Maximal Outside joined without)

def halved (cells : Nat → List Nat) (order cell : Nat) : Nat → Nat → List Nat
  | 0 => cells
  | levels + 1 =>
      halved (listed cells (order + levels) (2 * cell + 1)) order (2 * cell) levels

variable {pool : Pool} {cells : Nat → List Nat} {free : Nat → Prop} {order cell : Nat}

private theorem double_xor_one (cell : Nat) : (2 * cell) ^^^ 1 = 2 * cell + 1 := by
  rw [Cell.xor_one_eq, if_pos (by omega)]

private theorem double_succ_xor_one (cell : Nat) : (2 * cell + 1) ^^^ 1 = 2 * cell := by
  rw [Cell.xor_one_eq, if_neg (by omega)]
  omega

private theorem shiftRight_half {frame levels : Nat} :
    frame >>> (order + (levels + 1)) = cell ↔
      frame >>> (order + levels) = 2 * cell ∨ frame >>> (order + levels) = 2 * cell + 1 := by
  rw [← Nat.add_assoc, Cell.shiftRight_succ]
  omega

/-- The upper half of a cell and what is split off its lower half are split off the cell. -/
private theorem split_off_iff {levels : Nat} (frame : Nat) :
    joined free (order + levels) (2 * cell + 1) frame ∨
        (frame >>> (order + levels) = 2 * cell ∧ frame >>> order ≠ (2 * cell) <<< levels) ↔
      free frame ∨
        (frame >>> (order + (levels + 1)) = cell ∧ frame >>> order ≠ cell <<< (levels + 1)) := by
  have low : cell <<< (levels + 1) = (2 * cell) <<< levels := by
    rw [Nat.add_comm levels 1, Nat.shiftLeft_add, Nat.shiftLeft_eq cell 1, Nat.mul_comm cell]
  have up : frame >>> (order + levels) = 2 * cell + 1 →
      frame >>> order ≠ (2 * cell) <<< levels := by
    intro same wrong
    rw [Nat.shiftRight_add, wrong, Cell.shiftLeft_shiftRight] at same
    omega
  rw [shiftRight_half, low]
  constructor
  · rintro ((member | same) | ⟨same, apart⟩)
    · exact .inl member
    · exact .inr ⟨.inr same, up same⟩
    · exact .inr ⟨.inl same, apart⟩
  · rintro (member | ⟨same | same, apart⟩)
    · exact .inl (.inl member)
    · exact .inr ⟨same, apart⟩
    · exact .inl (.inr same)

/-- Halving a block in hand lists its upper parts and keeps the lowest in hand. -/
theorem Coalesced.split {levels : Nat} (coalesced : pool.Coalesced cells free)
    (h : order + levels < orderCount) (inside : Within pool.zone.Has (order + levels) cell)
    (outside : Outside free (order + levels) cell) :
    ∃ pool', Action.Answers
        (Pool.split (pool.zone.geometry.blockAt (order + levels) cell) order levels) pool ()
        pool' ∧
      pool'.Coalesced (halved cells order cell levels) (fun frame => free frame ∨
        (frame >>> (order + levels) = cell ∧ frame >>> order ≠ cell <<< levels)) ∧
      pool.Touches pool' (fun frame => frame >>> (order + levels) = cell) := by
  induction levels generalizing pool cells free cell with
  | zero =>
      refine ⟨pool, by simp [Pool.split], coalesced.congr_free ?_, .refl _ _⟩
      intro frame
      simp
  | succ levels ih =>
      have lower : Within pool.zone.Has (order + levels) (2 * cell) :=
        fun frame same => inside frame (shiftRight_half.2 (.inl same))
      have upper : Within pool.zone.Has (order + levels) (2 * cell + 1) :=
        fun frame same => inside frame (shiftRight_half.2 (.inr same))
      have wide := coalesced.ready.wide _ (lower _ (Cell.shiftLeft_shiftRight _ _))
      have fits : pool.zone.geometry.shift + (order + levels) < 64 := by
        unfold orderCount at h
        unfold topOrder orderCount at wide
        omega
      have buddy := Geometry.buddyOf_blockAt _ fits (2 * cell)
      rw [double_xor_one] at buddy
      have alone : order + levels < topOrder →
          ¬ Within free (order + levels) ((2 * cell + 1) ^^^ 1) := by
        rw [double_succ_xor_one]
        intro _ whole
        exact outside _ (shiftRight_half.2 (.inl (Cell.shiftLeft_shiftRight _ _)))
          (whole _ (Cell.shiftLeft_shiftRight _ _))
      obtain ⟨middle, after, bit, pushed, toggled, coalesced', touches⟩ :=
        coalesced.put (by omega) upper
          (fun frame same => outside frame (shiftRight_half.2 (.inr same))) alone
      have inside' := (Cell.within_congr touches.alike.has_iff).2 lower
      obtain ⟨pool', halves, coalesced'', touches'⟩ := ih coalesced' (by omega) inside' (by
        rintro frame same (member | other)
        · exact outside frame (shiftRight_half.2 (.inl same)) member
        · omega)
      rw [touches.alike.geometry_eq] at halves
      refine ⟨pool', ?_, coalesced''.congr_free split_off_iff, ?_⟩
      · simp only [Pool.split, Action.answers_bind_iff, Action.answers_get_iff,
          Action.liftM_eq_check, Action.answers_check_iff]
        refine ⟨pool, pool, ⟨rfl, rfl⟩, _, pool, ⟨?_, rfl⟩, (), middle, pushed, bit, after,
          toggled, ?_⟩
        · rw [← Nat.add_assoc, Geometry.blockAt_succ]
          exact buddy
        · rw [← Nat.add_assoc, Geometry.blockAt_succ]
          exact halves
      · exact (touches.mono fun frame same => shiftRight_half.2 (.inr same)).trans
          (touches'.mono fun frame same => shiftRight_half.2 (.inl same))

theorem Lists.popFirst_nil (lists : pool.Lists cells) {orders : List Nat}
    (h : ∀ order ∈ orders, order < orderCount) (empty : ∀ order ∈ orders, cells order = []) :
    Action.Answers (popFirst orders) pool none pool := by
  induction orders with
  | nil => simp [popFirst]
  | cons order rest ih =>
      simp only [popFirst, Action.answers_bind_iff]
      refine ⟨none, pool, lists.pop_nil (h order List.mem_cons_self)
        (empty order List.mem_cons_self), ?_⟩
      exact ih (fun other member => h other (List.mem_cons_of_mem order member))
        fun other member => empty other (List.mem_cons_of_mem order member)

/-- The search passes over orders that list nothing. -/
theorem Lists.popFirst_append (lists : pool.Lists cells) {before after : List Nat}
    (h : ∀ order ∈ before, order < orderCount) (empty : ∀ order ∈ before, cells order = [])
    {found : Option (Nat × Nat)} {pool' : Pool} :
    Action.Answers (popFirst (before ++ after)) pool found pool' ↔
      Action.Answers (popFirst after) pool found pool' := by
  induction before with
  | nil => rfl
  | cons order rest ih =>
      have passed := lists.pop_nil (h order List.mem_cons_self) (empty order List.mem_cons_self)
      rw [List.cons_append, popFirst, Action.answers_bind_iff]
      rw [← ih (fun other member => h other (List.mem_cons_of_mem order member))
        fun other member => empty other (List.mem_cons_of_mem order member)]
      constructor
      · rintro ⟨value, middle, popped, answers⟩
        obtain rfl := popped.value_unique passed
        obtain rfl := popped.state_unique passed
        exact answers
      · intro answers
        exact ⟨none, pool, passed, answers⟩

def Exhausted (cells : Nat → List Nat) (order : Nat) : Prop :=
  ∀ other, order ≤ other → other < orderCount → cells other = []

theorem Coalesced.take_none (coalesced : pool.Coalesced cells free)
    (exhausted : Exhausted cells order) : Action.Answers (take order) pool none pool := by
  have orders : ∀ other ∈ List.range' order (orderCount - order),
      order ≤ other ∧ other < orderCount := by
    intro other member
    have range := List.mem_range'_1.1 member
    omega
  have none := coalesced.lists.popFirst_nil (fun other member => (orders other member).2)
    fun other member => exhausted other (orders other member).1 (orders other member).2
  simp only [take, Action.answers_bind_iff]
  exact ⟨_, pool, none, by simp⟩

structure First (cells : Nat → List Nat) (order found cell : Nat) (rest : List Nat) : Prop where
  le : order ≤ found
  lt : found < orderCount
  below : ∀ other, order ≤ other → other < found → cells other = []
  cells_eq : cells found = cell :: rest

theorem exists_first_of_not_exhausted (some : ¬ Exhausted cells order) :
    ∃ found cell rest, First cells order found cell rest := by
  unfold Exhausted at some
  push Not at some
  obtain ⟨low, inside, listed⟩ := Nat.find_spec some
  obtain ⟨cell, rest, first⟩ := List.exists_cons_of_ne_nil listed
  refine ⟨Nat.find some, cell, rest, low, inside, ?_, first⟩
  intro other above below
  by_contra more
  exact Nat.find_min some below ⟨above, by omega, more⟩

theorem Lists.popFirst_first (lists : pool.Lists cells) {found : Nat} {rest : List Nat}
    (first : First cells order found cell rest) :
    ∃ pool', Action.Answers (popFirst (List.range' order (orderCount - order))) pool
        (some (pool.zone.geometry.blockAt found cell, found)) pool' ∧
      pool'.Lists (unlisted cells found cell) ∧
      (∀ other parent, pool'.zone.pairBit other parent = pool.zone.pairBit other parent) ∧
      pool'.ram = pool.ram ∧ Zone.Alike pool.zone pool'.zone := by
  have le := first.le
  have lt := first.lt
  have orders : List.range' order (orderCount - order) =
      List.range' order (found - order) ++
        found :: List.range' (found + 1) (orderCount - found - 1) := by
    have joined := @List.range'_append_1 order (found - order) (orderCount - found)
    rw [show order + (found - order) = found by omega] at joined
    rw [← List.range'_succ, show orderCount - found - 1 + 1 = orderCount - found by omega, joined]
    congr 1
    omega
  obtain ⟨pool', popped, lists', bits, ram, alike⟩ := lists.pop_cons lt first.cells_eq
  refine ⟨pool', ?_, ?_, bits, ram, alike⟩
  · rw [orders]
    apply (lists.popFirst_append
      (fun other member => by have := List.mem_range'_1.1 member; omega)
      fun other member => by
        have := List.mem_range'_1.1 member
        exact first.below other this.1 (by omega)).2
    simp only [popFirst, Action.answers_bind_iff]
    exact ⟨_, pool', popped, by simp⟩
  · unfold unlisted
    rw [first.cells_eq, List.erase_cons_head]
    exact lists'

theorem Coalesced.not_within_of_exhausted (coalesced : pool.Coalesced cells free)
    (h : order < orderCount) (exhausted : Exhausted cells order) (cell : Nat) :
    ¬ Within free order cell := by
  intro within
  have member : cell <<< order >>> order = cell := Cell.shiftLeft_shiftRight _ _
  obtain ⟨larger, le, maximal⟩ := Cell.exists_maximal (within _ member)
  have more : order ≤ larger := by
    by_contra less
    rw [← member] at within
    have parent := within.of_le (Nat.lt_of_not_le less)
    rw [Cell.shiftRight_succ] at parent
    exact maximal.2 (Nat.lt_of_lt_of_le (Nat.lt_of_not_le less) (Nat.le_of_lt_succ h)) parent
  have listed := (coalesced.maximal larger (Nat.lt_succ_of_le le) _).2 maximal
  rw [exhausted larger more (Nat.lt_succ_of_le le)] at listed
  exact absurd listed List.not_mem_nil

/-- The cell of an order that a pool hands out is the lowest in the cell that is found. -/
theorem Coalesced.take_some (coalesced : pool.Coalesced cells free) {found : Nat}
    {rest : List Nat} (first : First cells order found cell rest) :
    ∃ pool', Action.Answers (take order) pool
        (some (pool.zone.geometry.blockAt found cell, found)) pool' ∧
      pool'.Coalesced (halved (unlisted cells found cell) order cell (found - order))
        (without free order (cell <<< (found - order))) ∧
      pool.Touches pool' free ∧ Within free found cell := by
  obtain ⟨levels, rfl⟩ := Nat.exists_eq_add_of_le first.le
  rw [Nat.add_sub_cancel_left]
  have lt := first.lt
  have member : cell ∈ cells (order + levels) := by
    rw [first.cells_eq]
    exact List.mem_cons_self
  have whole : Within free (order + levels) cell :=
    ((coalesced.maximal _ lt cell).1 member).1
  have inside := whole.mono coalesced.within
  obtain ⟨middle, popped, lists, bits, ram, alike⟩ := coalesced.lists.popFirst_first first
  obtain ⟨after, toggled, flipped⟩ :=
    toggle_block (coalesced.ready.congr alike) lt ((Cell.within_congr alike.has_iff).2 inside)
  have both := alike.trans flipped.alike
  have coalesced' : after.Coalesced (unlisted cells (order + levels) cell)
      (without free (order + levels) cell) :=
    coalesced.unlist lt (flipped.lists lists) both (flipped.flips.after_bits bits alike) member
  obtain ⟨pool', halves, coalesced'', touches⟩ := coalesced'.split lt
    ((Cell.within_congr both.has_iff).2 inside) fun frame same member => member.2 same
  rw [both.geometry_eq] at halves
  rw [alike.geometry_eq] at toggled
  refine ⟨pool', ?_, coalesced''.congr_free ?_, ?_, whole⟩
  · simp only [take, Action.answers_bind_iff]
    refine ⟨_, middle, popped, ?_⟩
    simp only [Action.answers_bind_iff, Action.answers_get_iff]
    refine ⟨middle, middle, ⟨rfl, rfl⟩, middle.zone.pairBit (order + levels) (cell / 2), after, ?_,
      (), pool', ?_, ?_⟩
    · rw [alike.geometry_eq]
      exact toggled
    · rw [Nat.add_sub_cancel_left]
      exact halves
    · simp
  · intro frame
    have up : frame >>> order = cell <<< levels → frame >>> (order + levels) = cell := by
      intro same
      rw [Nat.shiftRight_add, same, Cell.shiftLeft_shiftRight]
    constructor
    · rintro (⟨member, apart⟩ | ⟨same, apart⟩)
      · exact ⟨member, fun same => apart (up same)⟩
      · exact ⟨whole frame same, apart⟩
    · rintro ⟨member, apart⟩
      by_cases same : frame >>> (order + levels) = cell
      · exact .inr ⟨same, apart⟩
      · exact .inl ⟨member, same⟩
  · refine ⟨both.trans touches.alike, ?_⟩
    have agrees := touches.agrees
    rw [flipped.ram_eq, ram, both.geometry_eq] at agrees
    exact agrees.mono fun byte same => whole _ same

end Pool

end PhysicalMemory
