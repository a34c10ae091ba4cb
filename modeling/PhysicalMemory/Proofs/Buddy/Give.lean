import PhysicalMemory.Buddy.Merge
import PhysicalMemory.Proofs.Buddy.Coalesced

/-!
# Giving a block back keeps a pool coalesced

The bit of the block's pair tells whether its buddy is listed, since the block
itself is not.  A listed buddy leaves its list and the two go on as their
parent, which is in hand just as the block was.  When the buddy is not listed
it is not all free, and the block is listed.
-/

namespace PhysicalMemory

namespace Pool

open Cell (Within Maximal Outside joined without)

def merged (cells : Nat → List Nat) (order cell : Nat) : Nat → Nat → List Nat
  | 0 => listed cells order cell
  | levels + 1 =>
      if cell ^^^ 1 ∈ cells order then
        merged (unlisted cells order (cell ^^^ 1)) (order + 1) (cell / 2) levels
      else listed cells order cell

variable {pool : Pool} {cells : Nat → List Nat} {free : Nat → Prop} {order cell : Nat}

/-- For a cell that is not free the pair bit tells whether its buddy is listed. -/
theorem Coalesced.pairBit_eq (coalesced : pool.Coalesced cells free) (h : order < orderCount)
    (inside : Within pool.zone.Has order cell) (outside : Outside free order cell) :
    pool.zone.pairBit order (cell / 2) = decide (cell ^^^ 1 ∈ cells order) := by
  have member : cell <<< order >>> order = cell := Cell.shiftLeft_shiftRight _ _
  have low := coalesced.ready.base_le h (inside _ member)
  rw [Cell.shiftRight_succ (cell <<< order), member] at low
  have absent : cell ∉ cells order := fun listed =>
    outside _ member (((coalesced.maximal order h cell).1 listed).1 _ member)
  rw [coalesced.paired order h _ low, Cell.xor_one_eq]
  split
  · next even =>
      rw [show 2 * (cell / 2) = cell by omega]
      simp [absent]
  · next odd =>
      rw [show 2 * (cell / 2) = cell - 1 by omega, show cell - 1 + 1 = cell by omega]
      simp [absent]

theorem Coalesced.buddy_listed (coalesced : pool.Coalesced cells free) (h : order < orderCount)
    (outside : Outside free order cell) (whole : Within free order (cell ^^^ 1)) :
    cell ^^^ 1 ∈ cells order := by
  refine (coalesced.maximal order h _).2 ⟨whole, fun _ parent => ?_⟩
  rw [Cell.xor_one_div_two] at parent
  have member : cell <<< order >>> order = cell := Cell.shiftLeft_shiftRight _ _
  exact outside _ member ((Cell.within_parent_iff.1 parent).1 _ member)

private theorem shiftRight_succ_eq_half_iff {frame : Nat} :
    frame >>> (order + 1) = cell / 2 ↔
      frame >>> order = cell ∨ frame >>> order = cell ^^^ 1 := by
  rw [Cell.shiftRight_succ, Cell.half_eq_iff]

private theorem joined_parent_iff (whole : Within free order (cell ^^^ 1)) (frame : Nat) :
    joined (without free order (cell ^^^ 1)) (order + 1) (cell / 2) frame ↔
      joined free order cell frame := by
  unfold joined without
  rw [shiftRight_succ_eq_half_iff]
  constructor
  · rintro (⟨left, -⟩ | own | other)
    · exact .inl left
    · exact .inr own
    · exact .inl (whole frame other)
  · rintro (left | own)
    · by_cases other : frame >>> order = cell ^^^ 1
      · exact .inr (.inr other)
      · exact .inl ⟨left, other⟩
    · exact .inr (.inl own)

/-- A cell in hand whose pair was flipped is listed, where its buddy is not all free. -/
private theorem Coalesced.settle (coalesced : pool.Coalesced cells free)
    (h : order < orderCount) (inside : Within pool.zone.Has order cell)
    (outside : Outside free order cell)
    (alone : order < topOrder → ¬ Within free order (cell ^^^ 1)) {middle : Pool}
    (flipped : pool.Flipped middle order cell) :
    ∃ pool', Action.Answers (push order (pool.zone.geometry.blockAt order cell)) middle ()
        pool' ∧
      pool'.Coalesced (listed cells order cell) (joined free order cell) ∧
      pool.Touches pool' (fun frame => frame >>> order = cell) := by
  have fresh := coalesced.fresh outside
  rw [← flipped.alike.geometry_eq] at fresh
  obtain ⟨pool', pushed, lists, bits, touches⟩ := (flipped.lists coalesced.lists).push
    (coalesced.ready.congr flipped.alike) h
    ((Cell.within_congr flipped.alike.has_iff).2 inside) fresh
  rw [flipped.alike.geometry_eq] at pushed
  have both := (flipped.touches _).trans touches
  exact ⟨pool', pushed, coalesced.list h lists both.alike (flipped.flips.of_bits bits) inside
    outside alone, both⟩

/-- Where its buddy is listed, the buddy leaves its list, and their parent is in hand instead. -/
private theorem Coalesced.absorb (coalesced : pool.Coalesced cells free)
    (h : order < orderCount) (inside : Within pool.zone.Has order cell)
    (outside : Outside free order cell) (buddy : cell ^^^ 1 ∈ cells order) {middle : Pool}
    (flipped : pool.Flipped middle order cell) :
    ∃ pool', Action.Answers (remove order (pool.zone.geometry.blockAt order (cell ^^^ 1))) middle
        true pool' ∧
      pool'.Coalesced (unlisted cells order (cell ^^^ 1)) (without free order (cell ^^^ 1)) ∧
      Within pool'.zone.Has (order + 1) (cell / 2) ∧
      Outside (without free order (cell ^^^ 1)) (order + 1) (cell / 2) ∧
      pool.Touches pool' free := by
  have whole := ((coalesced.maximal order h _).1 buddy).1
  obtain ⟨pool', removed, lists, bits, touches⟩ :=
    (flipped.lists coalesced.lists).remove (coalesced.ready.congr flipped.alike) h buddy
  rw [flipped.alike.geometry_eq] at removed
  have both := (flipped.touches _).trans touches
  refine ⟨pool', removed, coalesced.unlist h lists both.alike (flipped.flips.of_bits bits).buddy
    buddy, ?_, ?_, both.mono fun frame listed => ?_⟩
  · intro frame same
    apply (both.alike.has_iff frame).2
    rcases shiftRight_succ_eq_half_iff.1 same with own | other
    · exact inside frame own
    · exact coalesced.within frame (whole frame other)
  · rintro frame same ⟨left, apart⟩
    rcases shiftRight_succ_eq_half_iff.1 same with own | other
    · exact outside frame own left
    · exact apart other
  · exact ((coalesced.maximal order h _).1 listed).1 frame rfl

/--
Merging a block in hand upwards ends with a block on a list, and the frames of
the block given back are free.
-/
theorem Coalesced.merge {levels : Nat} (coalesced : pool.Coalesced cells free)
    (reach : order + levels = topOrder) (inside : Within pool.zone.Has order cell)
    (outside : Outside free order cell) :
    ∃ pool' answer, Action.Answers
        (Pool.merge (pool.zone.geometry.blockAt order cell) order levels) pool answer pool' ∧
      pool'.Coalesced (merged cells order cell levels) (joined free order cell) ∧
      pool.Touches pool' (joined free order cell) := by
  induction levels generalizing pool cells free order cell with
  | zero =>
      have h : order < orderCount := Nat.lt_succ_of_le (Nat.le.intro reach)
      obtain ⟨middle, toggled, flipped⟩ := Coalesced.toggle_block coalesced.ready h inside
      obtain ⟨pool', pushed, coalesced', touches⟩ := coalesced.settle h inside outside
        (fun below => absurd below (by omega)) flipped
      refine ⟨pool', (pool.zone.geometry.blockAt order cell, order), ?_, coalesced',
        touches.mono fun frame same => .inr same⟩
      simp only [Pool.merge, Action.answers_bind_iff, Action.answers_get_iff]
      exact ⟨pool, pool, ⟨rfl, rfl⟩, _, middle, toggled, (), pool', pushed, by simp⟩
  | succ levels ih =>
      have h : order < orderCount := Nat.lt_succ_of_le (Nat.le.intro reach)
      obtain ⟨middle, toggled, flipped⟩ := Coalesced.toggle_block coalesced.ready h inside
      rw [coalesced.pairBit_eq h inside outside] at toggled
      by_cases buddy : cell ^^^ 1 ∈ cells order
      · have whole := ((coalesced.maximal order h _).1 buddy).1
        obtain ⟨after, removed, coalesced', inside', outside', first⟩ :=
          coalesced.absorb h inside outside buddy flipped
        obtain ⟨pool', answer, answers, coalesced'', touches⟩ :=
          ih coalesced' (show order + 1 + levels = topOrder by omega) inside' outside'
        rw [first.alike.geometry_eq] at answers
        refine ⟨pool', answer, ?_, ?_, ?_⟩
        · have wide := coalesced.ready.wide _ (inside _ (Cell.shiftLeft_shiftRight _ _))
          simp only [Pool.merge, Action.answers_bind_iff, Action.answers_get_iff,
            Action.liftM_eq_check]
          refine ⟨pool, pool, ⟨rfl, rfl⟩, _, middle, toggled, ?_⟩
          rw [if_pos (by simpa using buddy)]
          simp only [Action.answers_bind_iff, Action.answers_check_iff]
          refine ⟨_, middle, ⟨pool.zone.geometry.buddyOf_blockAt ?_ cell, rfl⟩, true, after,
            removed, ?_⟩
          · omega
          · rw [if_pos rfl, Geometry.min_blockAt_buddy]
            exact answers
        · rw [Pool.merged, if_pos buddy]
          exact coalesced''.congr_free (joined_parent_iff whole)
        · exact (first.mono fun frame => .inl).trans
            (touches.mono fun frame => (joined_parent_iff whole frame).1)
      · obtain ⟨pool', pushed, coalesced', touches⟩ := coalesced.settle h inside outside
          (fun _ whole => buddy (coalesced.buddy_listed h outside whole)) flipped
        refine ⟨pool', (pool.zone.geometry.blockAt order cell, order), ?_, ?_,
          touches.mono fun frame same => .inr same⟩
        · simp only [Pool.merge, Action.answers_bind_iff, Action.answers_get_iff]
          refine ⟨pool, pool, ⟨rfl, rfl⟩, _, middle, toggled, ?_⟩
          rw [if_neg (by simpa using buddy)]
          simp only [Action.answers_bind_iff]
          exact ⟨(), pool', pushed, by simp⟩
        · rw [Pool.merged, if_neg buddy]
          exact coalesced'

/-- A block that is not free goes back into the pool. -/
theorem Coalesced.give (coalesced : pool.Coalesced cells free) (h : order < orderCount)
    (inside : Within pool.zone.Has order cell) (outside : Outside free order cell) :
    ∃ pool' answer, Action.Answers
        (Pool.give (pool.zone.geometry.blockAt order cell) order) pool answer pool' ∧
      pool'.Coalesced (merged cells order cell (topOrder - order)) (joined free order cell) ∧
      pool.Touches pool' (joined free order cell) :=
  coalesced.merge (Nat.add_sub_cancel' (Nat.le_of_lt_succ h)) inside outside

end Pool

end PhysicalMemory
