import PhysicalMemory.Buddy.Seed
import PhysicalMemory.Proofs.Buddy.Coalesced
import PhysicalMemory.Proofs.Halts

/-!
# Seeding a zone leaves it coalesced

The blocks are laid from the start of the zone up, each the largest that begins
at the cursor.  No cell of the zone then reaches over the cursor: one that began
before it would have been laid in the place of a smaller one.  So the buddy of
the next block is never all laid already, and every frame behind the cursor is
covered by largest cells.
-/

namespace PhysicalMemory

namespace Cell

variable {frames : Nat → Prop} {cursor order cell : Nat}

/-- No cell of the set has frames on both sides of the cursor. -/
def NoneStraddles (frames : Nat → Prop) (cursor : Nat) : Prop :=
  ∀ order ≤ topOrder, ∀ cell, cell <<< order < cursor → cursor < (cell + 1) <<< order →
    ¬ Within frames order cell

structure Largest (frames : Nat → Prop) (cursor order cell : Nat) : Prop where
  begins : cell <<< order = cursor
  within : Within frames order cell
  largest : ∀ other ≤ topOrder, order < other → ∀ cell', cell' <<< other = cursor →
    ¬ Within frames other cell'

theorem Largest.lt_next (largest : Largest frames cursor order cell) :
    cursor < (cell + 1) <<< order := by
  rw [← largest.begins, Nat.shiftLeft_eq, Nat.shiftLeft_eq]
  exact Nat.mul_lt_mul_of_pos_right (Nat.lt_succ_self cell) (Nat.two_pow_pos order)

theorem NoneStraddles.advance (noneStraddles : NoneStraddles frames cursor)
    (largest : Largest frames cursor order cell) : NoneStraddles frames ((cell + 1) <<< order) := by
  intro other h cell' low high within
  -- the last frame of the new cell and the frame behind it share the cell that reaches over
  have last : ((cell + 1) <<< order - 1) >>> other = cell' :=
    shiftRight_eq_iff.2 ⟨Nat.le_sub_one_of_lt low, Nat.lt_of_le_of_lt (Nat.sub_le _ 1) high⟩
  have behind : ((cell + 1) <<< order) >>> other = cell' :=
    shiftRight_eq_iff.2 ⟨Nat.le_of_lt low, high⟩
  have begins := largest.begins
  have grows : cell <<< order < (cell + 1) <<< order := by
    rw [Nat.shiftLeft_eq, Nat.shiftLeft_eq]
    exact Nat.mul_lt_mul_of_pos_right (Nat.lt_succ_self cell) (Nat.two_pow_pos order)
  have own : ((cell + 1) <<< order - 1) >>> order = cell :=
    shiftRight_eq_iff.2 ⟨Nat.le_sub_one_of_lt grows, Nat.sub_one_lt (Nat.ne_zero_of_lt grows)⟩
  have larger : order < other := by
    by_contra smaller
    have same := shiftRight_eq_of_le (Nat.le_of_not_lt smaller) (last.trans behind.symm)
    rw [own, shiftLeft_shiftRight] at same
    omega
  have first : cell <<< order >>> other = cell' := by
    rw [← last]
    apply shiftRight_eq_of_le (Nat.le_of_lt larger)
    rw [own, shiftLeft_shiftRight]
  have bounds := shiftRight_eq_iff.1 first
  rcases Nat.lt_or_eq_of_le bounds.1 with before | same
  · exact noneStraddles other h cell' (by omega) (by omega) within
  · exact largest.largest other h larger cell' (by omega) within

/-- The frames before the cursor never make up the buddy of a cell that begins there. -/
theorem NoneStraddles.alone (noneStraddles : NoneStraddles frames cursor)
    (begins : cell <<< order = cursor)
    (within : Within frames order cell) (h : order < topOrder) :
    ¬ Within (fun frame => frames frame ∧ frame < cursor) order (cell ^^^ 1) := by
  intro whole
  have parent : Within frames (order + 1) (cell / 2) :=
    within_parent_iff.2 ⟨within, whole.mono fun _ => And.left⟩
  have before := (whole _ (shiftLeft_shiftRight _ _)).2
  have half : ∀ value, value <<< order = value * 2 ^ order := fun value =>
    Nat.shiftLeft_eq value order
  have double : ∀ value, value <<< (order + 1) = 2 * value * 2 ^ order := fun value => by
    rw [Nat.shiftLeft_eq, Nat.pow_succ]
    ring
  have positive := Nat.two_pow_pos order
  rw [half] at before begins
  have odd : cell ^^^ 1 = cell - 1 ∧ cell % 2 = 1 := by
    have flipped := xor_one_eq cell
    split at flipped
    · rw [flipped, ← begins] at before
      exact absurd (Nat.lt_of_mul_lt_mul_right before) (by omega)
    · omega
  apply noneStraddles (order + 1) h (cell / 2) _ _ parent
  · rw [double, ← begins]
    exact Nat.mul_lt_mul_of_pos_right (by omega) positive
  · rw [double, ← begins]
    exact Nat.mul_lt_mul_of_pos_right (by omega) positive

end Cell

namespace Pool

open Cell (Within NoneStraddles Largest joined)

def Fits (geometry : Geometry) (place stop order : Nat) : Prop :=
  place % 1 <<< (geometry.shift + order) = 0 ∧ place + 1 <<< (geometry.shift + order) ≤ stop

/-- The order that is found is the largest that fits, or zero. -/
theorem fittingOrder_eq_ok {geometry : Geometry} {place stop order found : Nat}
    (wide : geometry.shift + order < 64)
    (answered : fittingOrder geometry place stop order = .ok found) :
    found ≤ order ∧ (found = 0 ∨ Fits geometry place stop found) ∧
      ∀ other, found < other → other ≤ order → ¬ Fits geometry place stop other := by
  induction order with
  | zero =>
      cases answered
      exact ⟨Nat.le_refl 0, .inl rfl, fun other more less => absurd less (by omega)⟩
  | succ order ih =>
      have smaller : fittingOrder geometry place stop order = .ok found →
          ¬ Fits geometry place stop (order + 1) →
          found ≤ order + 1 ∧ (found = 0 ∨ Fits geometry place stop found) ∧
            ∀ other, found < other → other ≤ order + 1 → ¬ Fits geometry place stop other := by
        intro answered misfit
        obtain ⟨le, fits, rest⟩ := ih (by omega) answered
        refine ⟨by omega, fits, fun other more less => ?_⟩
        rcases Nat.lt_or_eq_of_le less with below | rfl
        · exact rest other more (by omega)
        · exact misfit
      simp only [fittingOrder, Geometry.blockSize_of_lt wide, Address.isAligned_one_shiftLeft,
        bind, Except.bind] at answered
      split at answered
      · next aligned =>
          cases sum : Word.add place (1 <<< (geometry.shift + (order + 1))) with
          | error cause =>
              rw [sum] at answered
              cases answered
          | ok top =>
              rw [sum] at answered
              obtain ⟨-, rfl⟩ := Word.add_eq_ok_iff.1 sum
              simp only at answered
              split at answered
              · next below =>
                  cases answered
                  refine ⟨Nat.le_refl _, .inr ⟨by simpa using aligned, below⟩, ?_⟩
                  exact fun other more less => absurd less (by omega)
              · next above => exact smaller answered fun fits => above fits.2
      · next unaligned =>
          exact smaller answered fun fits => unaligned (by simp [fits.1])

variable {pool pool' : Pool} {cells : Nat → List Nat} {cursor order cell : Nat}

/-- A block fits at a frame of the zone when the frame begins a cell that the zone has. -/
theorem fits_iff {zone : Zone} (aligned : zone.start % zone.geometry.size = 0)
    (low : zone.geometry.frameOf zone.start ≤ cursor) :
    Fits zone.geometry (cursor * zone.geometry.size) (zone.start + zone.size) order ↔
      ∃ cell, cell <<< order = cursor ∧ Within zone.Has order cell := by
  have page : zone.geometry.size = 2 ^ zone.geometry.shift := Nat.one_shiftLeft _
  have block : 1 <<< (zone.geometry.shift + order) = 2 ^ order * zone.geometry.size := by
    rw [Nat.one_shiftLeft, Nat.pow_add, page, Nat.mul_comm]
  have positive := zone.geometry.size_pos
  have ends : cursor * zone.geometry.size + 2 ^ order * zone.geometry.size ≤
      zone.start + zone.size ↔
        cursor + 2 ^ order ≤ zone.geometry.frameOf (zone.start + zone.size) := by
    rw [← Nat.add_mul, ← Nat.le_div_iff_mul_le positive]
    rfl
  have next : ∀ cell, (cell + 1) <<< order = cell <<< order + 2 ^ order := fun cell => by
    rw [Nat.shiftLeft_eq, Nat.shiftLeft_eq, Nat.add_mul, Nat.one_mul]
  rw [Fits, block, ends, Nat.mul_mod_mul_right]
  constructor
  · rintro ⟨multiple, below⟩
    have whole : cursor % 2 ^ order = 0 :=
      (Nat.mul_eq_zero.1 multiple).resolve_right (Nat.pos_iff_ne_zero.1 positive)
    have begins : (cursor / 2 ^ order) <<< order = cursor := by
      rw [Nat.shiftLeft_eq]
      exact Nat.div_mul_cancel (Nat.dvd_of_mod_eq_zero whole)
    refine ⟨cursor / 2 ^ order, begins, (Zone.within_has_iff aligned).2 ?_⟩
    rw [next, begins]
    exact ⟨low, below⟩
  · rintro ⟨cell, rfl, within⟩
    have bounds := (Zone.within_has_iff aligned).1 within
    rw [next] at bounds
    refine ⟨?_, bounds.2⟩
    rw [Nat.shiftLeft_eq, Nat.mul_mod_left, Nat.zero_mul]

/-- The zone is coalesced over the frames before the cursor, and no cell reaches over it. -/
structure Swept (pool : Pool) (cells : Nat → List Nat) (cursor : Nat) : Prop where
  coalesced : pool.Coalesced cells fun frame => pool.zone.Has frame ∧ frame < cursor
  low : pool.zone.geometry.frameOf pool.zone.start ≤ cursor
  noneStraddles : NoneStraddles pool.zone.Has cursor

/-- The largest cell that begins at the cursor is laid, and the cursor moves behind it. -/
theorem Swept.lay (swept : pool.Swept cells cursor) (h : order < orderCount)
    (largest : Largest pool.zone.Has cursor order cell) :
    ∃ middle pool' bit,
      Action.Answers (push order (pool.zone.geometry.blockAt order cell)) pool () middle ∧
      Action.Answers
        (toggle order (pool.zone.geometry.frameOf (pool.zone.geometry.blockAt order cell)))
        middle bit pool' ∧
      pool'.Swept (listed cells order cell) ((cell + 1) <<< order) ∧
      pool.Touches pool' pool.zone.Has := by
  have begins := largest.begins
  have behind : ∀ frame, frame >>> order = cell → cursor ≤ frame := fun frame inside => by
    rw [← begins]
    exact (Cell.shiftRight_eq_iff.1 inside).1
  obtain ⟨middle, pool', bit, pushed, toggled, coalesced, touches⟩ := swept.coalesced.put h
    largest.within (fun frame inside member => absurd member.2 (Nat.not_lt.2 (behind frame inside)))
    (swept.noneStraddles.alone begins largest.within)
  refine ⟨middle, pool', bit, pushed, toggled, ⟨coalesced.congr_free ?_, ?_, ?_⟩,
    touches.mono largest.within⟩
  · intro frame
    rw [touches.alike.has_iff]
    constructor
    · rintro (⟨has, before⟩ | inside)
      · refine ⟨has, Nat.lt_of_lt_of_le before ?_⟩
        rw [← begins, Nat.shiftLeft_eq, Nat.shiftLeft_eq]
        exact Nat.mul_le_mul_right _ (Nat.le_succ cell)
      · exact ⟨largest.within frame inside, (Cell.shiftRight_eq_iff.1 inside).2⟩
    · rintro ⟨has, before⟩
      rcases Nat.lt_or_ge frame cursor with less | more
      · exact .inl ⟨has, less⟩
      · rw [← begins] at more
        exact .inr (Cell.shiftRight_eq_iff.2 ⟨more, before⟩)
  · have low := swept.low
    rw [touches.alike.geometry_eq, touches.alike.start_eq]
    have bounds := (Zone.within_has_iff swept.coalesced.ready.start_aligned).1 largest.within
    refine Nat.le_trans bounds.1 ?_
    rw [Nat.shiftLeft_eq, Nat.shiftLeft_eq]
    exact Nat.mul_le_mul_right _ (Nat.le_succ cell)
  · have noneStraddles := swept.noneStraddles.advance largest
    intro other h' cell' low high within
    exact noneStraddles other h' cell' low high ((Cell.within_congr touches.alike.has_iff).1 within)

theorem Swept.finished (swept : pool.Swept cells cursor)
    (reached : pool.zone.geometry.frameOf (pool.zone.start + pool.zone.size) ≤ cursor) :
    pool.Coalesced cells pool.zone.Has := by
  apply swept.coalesced.congr_free
  intro frame
  refine and_iff_left_of_imp fun has => ?_
  exact Nat.lt_of_lt_of_le
    ((Zone.has_iff swept.coalesced.ready.start_aligned frame).1 has).2 reached

/-- The block that fits at the cursor is the largest cell that begins there. -/
theorem Swept.largest (swept : pool.Swept cells cursor) (has : pool.zone.Has cursor)
    (fitting : fittingOrder pool.zone.geometry (cursor * pool.zone.geometry.size)
      (pool.zone.start + pool.zone.size) topOrder = .ok order) :
    order ≤ topOrder ∧ ∃ cell, Largest pool.zone.Has cursor order cell := by
  have ready := swept.coalesced.ready
  obtain ⟨le, fits, misfits⟩ := fittingOrder_eq_ok (ready.wide cursor has) fitting
  have begins : ∃ cell, cell <<< order = cursor ∧ Within pool.zone.Has order cell := by
    rcases fits with rfl | fits
    · refine ⟨cursor, rfl, fun frame inside => ?_⟩
      rw [Nat.shiftRight_zero] at inside
      rwa [inside]
    · exact (fits_iff ready.start_aligned swept.low).1 fits
  obtain ⟨cell, begins, within⟩ := begins
  refine ⟨le, cell, begins, within, fun other h more cell' begins' within' => ?_⟩
  exact misfits other more h
    ((fits_iff ready.start_aligned swept.low).2 ⟨cell', begins', within'⟩)

/-- Where a page is left, covering goes on with the block that fits. -/
theorem cover_inside {stop fuel place : Nat} (inside : place + pool.zone.geometry.size ≤ stop)
    (word : stop < Word.limit) :
    (cover stop (fuel + 1) place).EndsAs pool (do
      let order ← fittingOrder pool.zone.geometry place stop topOrder
      push order place
      let _ ← toggle order (pool.zone.geometry.frameOf place)
      let size ← pool.zone.geometry.blockSize order
      let next ← Word.add place size
      let rest ← cover stop fuel next
      return order :: rest) pool := by
  have paged := Word.add_of_lt (Nat.lt_of_le_of_lt inside word)
  simp only [cover]
  rw [Action.EndsAs, Action.run_get_bind, Action.liftM_eq_check, paged, Action.check_ok,
    pure_bind, if_pos inside]
  exact ⟨rfl, rfl⟩

/-- In the zone the largest cell at the cursor is laid, and covering goes on behind it. -/
theorem Swept.step (swept : pool.Swept cells cursor) (has : pool.zone.Has cursor)
    (fitting : fittingOrder pool.zone.geometry (cursor * pool.zone.geometry.size)
      (pool.zone.start + pool.zone.size) topOrder = .ok order) :
    ∃ cell pool', Largest pool.zone.Has cursor order cell ∧
      pool'.Swept (listed cells order cell) ((cell + 1) <<< order) ∧
      pool.Touches pool' pool.zone.Has ∧ ∀ fuel,
        (cover (pool.zone.start + pool.zone.size) (fuel + 1)
          (cursor * pool.zone.geometry.size)).EndsAs pool (do
            let rest ← cover (pool.zone.start + pool.zone.size) fuel
              ((cell + 1) <<< order * pool.zone.geometry.size)
            return order :: rest) pool' := by
  have ready := swept.coalesced.ready
  obtain ⟨le, cell, largest⟩ := swept.largest has fitting
  obtain ⟨middle, pool', bit, pushed, toggled, swept', touches⟩ :=
    swept.lay (Nat.lt_succ_of_le le) largest
  refine ⟨cell, pool', largest, swept', touches, fun fuel => ?_⟩
  have place : pool.zone.geometry.blockAt order cell = cursor * pool.zone.geometry.size := by
    rw [Geometry.blockAt_eq_mul, largest.begins]
  have moved : cursor * pool.zone.geometry.size + 1 <<< (pool.zone.geometry.shift + order) =
      (cell + 1) <<< order * pool.zone.geometry.size := by
    rw [← place, ← Geometry.blockAt_add_one, Geometry.blockAt_eq_mul]
  have inside : cursor * pool.zone.geometry.size + pool.zone.geometry.size ≤
      pool.zone.start + pool.zone.size := by
    rw [← Nat.succ_mul]
    exact has.2
  have within := ((Zone.within_has_iff_block ready.start_aligned).1 largest.within).2
  rw [Geometry.blockAt_eq_mul, ← moved] at within
  have wide := ready.wide cursor has
  have next := Word.add_of_lt (Nat.lt_of_le_of_lt within ready.stop_lt)
  rw [place] at pushed toggled
  refine (cover_inside inside ready.stop_lt).trans ?_
  simp only [Action.liftM_eq_check, fitting, Action.check_ok, pure_bind, next,
    Geometry.blockSize_of_lt (show pool.zone.geometry.shift + order < 64 by omega)]
  refine (pushed.bind_endsAs _).trans ((toggled.bind_endsAs _).trans ?_)
  rw [← moved]
  exact ⟨rfl, rfl⟩

/-- Behind the zone only the end of one more page is computed. -/
theorem Swept.past (swept : pool.Swept cells cursor) (outside : ¬ pool.zone.Has cursor)
    (fuel : Nat) :
    (cover (pool.zone.start + pool.zone.size) (fuel + 1)
      (cursor * pool.zone.geometry.size)).EndsAs pool (do
        let _ ← Word.add (cursor * pool.zone.geometry.size) pool.zone.geometry.size
        return []) pool := by
  have misfit : ¬ cursor * pool.zone.geometry.size + pool.zone.geometry.size ≤
      pool.zone.start + pool.zone.size := by
    intro inside
    rw [← Nat.succ_mul] at inside
    exact outside ((Zone.has_iff swept.coalesced.ready.start_aligned cursor).2
      ⟨swept.low, (Nat.le_div_iff_mul_le pool.zone.geometry.size_pos).2 inside⟩)
  simp only [cover]
  rw [Action.EndsAs, Action.run_get_bind, Action.liftM_eq_check, Action.liftM_eq_check]
  cases ended : Word.add (cursor * pool.zone.geometry.size) pool.zone.geometry.size with
  | error cause => exact ⟨rfl, rfl⟩
  | ok pageEnd =>
      obtain ⟨-, rfl⟩ := Word.add_eq_ok_iff.1 ended
      rw [Action.check_ok, pure_bind, pure_bind, if_neg misfit]
      exact ⟨rfl, rfl⟩

/-- Laying blocks from the cursor to the end of the zone makes the whole zone free. -/
theorem Swept.cover {fuel : Nat} {orders : List Nat} (swept : pool.Swept cells cursor)
    (enough : pool.zone.geometry.frameOf (pool.zone.start + pool.zone.size) ≤ cursor + fuel)
    (answers : Action.Answers (cover (pool.zone.start + pool.zone.size) fuel
      (cursor * pool.zone.geometry.size)) pool orders pool') :
    ∃ cells', pool'.Coalesced cells' pool.zone.Has ∧ pool.Touches pool' pool.zone.Has := by
  induction fuel generalizing pool cells cursor orders with
  | zero =>
      obtain ⟨-, rfl⟩ := Action.answers_pure_iff.1 answers
      exact ⟨cells, swept.finished enough, .refl _ _⟩
  | succ fuel ih =>
      by_cases has : pool.zone.Has cursor
      · have inside := has.2
        rw [Nat.succ_mul] at inside
        have stop_lt := swept.coalesced.ready.stop_lt
        obtain ⟨order, fitting, -⟩ := Action.answers_check_bind_iff.1
          ((cover_inside inside stop_lt).answers_iff.1 answers)
        obtain ⟨cell, next, largest, swept', touches, goes⟩ := swept.step has fitting
        obtain ⟨rest, last, answers, pure⟩ :=
          Action.answers_bind_iff.1 ((goes fuel).answers_iff.1 answers)
        obtain ⟨-, rfl⟩ := Action.answers_pure_iff.1 pure
        have alike := touches.alike
        have further := largest.lt_next
        rw [← alike.geometry_eq, ← alike.start_eq, ← alike.size_eq] at answers
        obtain ⟨cells', coalesced, touches'⟩ := ih swept' (by
          rw [alike.geometry_eq, alike.start_eq, alike.size_eq]
          omega) answers
        exact ⟨cells', coalesced.congr_free alike.has_iff,
          touches.trans (touches'.mono fun frame => (alike.has_iff frame).1)⟩
      · obtain ⟨_, _, answers⟩ :=
          Action.answers_check_bind_iff.1 ((swept.past has fuel).answers_iff.1 answers)
        obtain ⟨-, rfl⟩ := Action.answers_pure_iff.1 answers
        refine ⟨cells, swept.finished (Nat.le_of_not_lt fun below => ?_), .refl _ _⟩
        exact has ((Zone.has_iff swept.coalesced.ready.start_aligned cursor).2 ⟨swept.low, below⟩)

end Pool

namespace Zone

/-- A zone without free blocks yet, with clear bitmaps that reach all its frames. -/
structure Blank (zone : Zone) : Prop where
  start_pos : 0 < zone.start
  empty : ∀ order < orderCount, (zone.areaOf order).free = {}
  clear : ∀ order < orderCount, ∀ pair, (zone.areaOf order).pairs.bit pair = false
  order_eq : ∀ order < orderCount, (zone.areaOf order).pairs.order = order
  base_aligned : ∀ order < orderCount, (zone.areaOf order).pairs.base % 1 <<< orderCount = 0
  reached : ∀ order < orderCount, ∀ frame, zone.Has frame →
    (zone.areaOf order).pairs.base ≤ frame ∧
      (zone.areaOf order).pairs.covers
        ((frame - (zone.areaOf order).pairs.base) >>> (order + 1)) = true

/-- A blank zone is ready if blocks can be found, linked and aligned in it. -/
theorem Blank.ready {zone : Zone} (blank : zone.Blank) (linkable : 8 ≤ zone.geometry.size)
    (start_aligned : zone.start % zone.geometry.size = 0)
    (stop_lt : zone.start + zone.size < Word.limit)
    (wide : ∀ frame, zone.Has frame → zone.geometry.shift + topOrder < 64) : zone.Ready :=
  ⟨linkable, blank.start_pos, start_aligned, stop_lt, wide, blank.order_eq, blank.base_aligned,
    blank.reached⟩

namespace Ready

variable {zone : Zone}

theorem frameOf_stop (ready : zone.Ready) :
    zone.geometry.frameOf (zone.start + zone.size) =
      zone.geometry.frameOf zone.start + zone.size / zone.geometry.size :=
  Nat.add_div_of_dvd_right (Nat.dvd_of_mod_eq_zero ready.start_aligned)

end Ready

end Zone

namespace Pool

variable {pool pool' : Pool}

theorem coalesced_of_blank (blank : pool.zone.Blank) (ready : pool.zone.Ready) :
    pool.Coalesced (fun _ => []) fun _ => False where
  ready := ready
  lists := by
    refine ⟨fun order h => ?_, by simp, by simp, by simp⟩
    rw [blank.empty order h]
    exact FreeList.spells_empty _
  within := fun _ none => none.elim
  maximal := by
    intro order _ cell
    refine ⟨fun listed => absurd listed List.not_mem_nil, fun maximal => ?_⟩
    exact (maximal.1 _ (Cell.shiftLeft_shiftRight cell order)).elim
  paired := by
    intro order h parent _
    rw [Zone.pairBit, blank.clear order h]
    simp

theorem reportSeeded_state {zone : ZoneId} {orders list : List Nat}
    (answers : Action.Answers (reportSeeded zone orders list) pool () pool') : pool' = pool := by
  induction list with
  | nil => exact (Action.answers_pure_iff.1 answers).2
  | cons order rest ih =>
      simp only [reportSeeded] at answers
      split at answers
      · obtain ⟨⟨⟩, middle, reported, answers⟩ := Action.answers_bind_iff.1 answers
        obtain rfl := Action.answers_report_iff.1 reported
        exact ih answers
      · exact ih answers

/-- Where a block of an order is too large for a word, looking from that order down halts. -/
theorem fittingOrder_of_large {geometry : Geometry} {place stop order : Nat} (h : order + 1 < 64)
    (large : 64 ≤ geometry.shift + (order + 1)) :
    fittingOrder geometry place stop (order + 1) = .error (.overflow .subtract) := by
  have lost : geometry.size <<< (order + 1) % Word.limit = 0 := by
    rw [Geometry.size, ← Nat.shiftLeft_add, Nat.one_shiftLeft]
    exact Nat.mod_eq_zero_of_dvd (Nat.pow_dvd_pow 2 large)
  have size : geometry.blockSize (order + 1) = .ok 0 := by
    rw [Geometry.blockSize, Word.shiftLeft, if_pos h, lost]
  simp [fittingOrder, size, Address.isAligned, Word.sub, bind, Except.bind]

/-- A zone with a page in it can only be covered if its largest blocks fit a word. -/
theorem wide_of_cover {stop fuel place : Nat} {orders : List Nat}
    (inside : place + pool.zone.geometry.size ≤ stop) (word : stop < Word.limit)
    (answers : Action.Answers (cover stop (fuel + 1) place) pool orders pool') :
    pool.zone.geometry.shift + topOrder < 64 := by
  obtain ⟨order, fitting, -⟩ := Action.answers_check_bind_iff.1
    ((cover_inside inside word).answers_iff.1 answers)
  by_contra large
  rw [show topOrder = 9 + 1 from rfl, fittingOrder_of_large (by decide)
    (Nat.le_of_not_lt large)] at fitting
  cases fitting

theorem swept_start (blank : pool.zone.Blank) (ready : pool.zone.Ready) :
    pool.Swept (fun _ => []) (pool.zone.geometry.frameOf pool.zone.start) := by
  refine ⟨(coalesced_of_blank blank ready).congr_free ?_, Nat.le_refl _, ?_⟩
  · intro frame
    refine ⟨False.elim, fun ⟨has, before⟩ => ?_⟩
    exact absurd ((Zone.has_iff ready.start_aligned frame).1 has).1 (Nat.not_le.2 before)
  · intro order _ cell before _ within
    exact absurd ((Zone.within_has_iff ready.start_aligned).1 within).1 (Nat.not_le.2 before)

/-- Seeding only answers for a zone that starts at a page boundary and ends in a word. -/
theorem checked_of_seed (answers : Action.Answers Pool.seed pool () pool') :
    pool.zone.start % pool.zone.geometry.size = 0 ∧
      pool.zone.start + pool.zone.size < Word.limit := by
  simp only [Pool.seed, Action.answers_get_bind_iff, Action.liftM_eq_check,
    Geometry.isAligned_eq, Action.answers_check_bind_iff, Except.ok.injEq,
    exists_eq_left'] at answers
  split at answers
  · next aligned =>
      obtain ⟨stop, stopped, -⟩ := Action.answers_check_bind_iff.1 answers
      exact ⟨by simpa using aligned, (Word.add_eq_ok_iff.1 stopped).1⟩
  · simp at answers

/-- Such a zone is covered from its start up. -/
theorem seed_endsAs (start_aligned : pool.zone.start % pool.zone.geometry.size = 0)
    (stop_lt : pool.zone.start + pool.zone.size < Word.limit) :
    Pool.seed.EndsAs pool (do
      let orders ← cover (pool.zone.start + pool.zone.size)
        (pool.zone.size / pool.zone.geometry.size + 1)
        (pool.zone.geometry.frameOf pool.zone.start * pool.zone.geometry.size)
      reportSeeded pool.zone.id orders (List.range orderCount)) pool := by
  have start : pool.zone.geometry.frameOf pool.zone.start * pool.zone.geometry.size =
      pool.zone.start :=
    Nat.div_mul_cancel (Nat.dvd_of_mod_eq_zero start_aligned)
  have stop : pool.zone.stop = .ok (pool.zone.start + pool.zone.size) := Word.add_of_lt stop_lt
  rw [Pool.seed, Action.EndsAs, Action.run_get_bind, start]
  simp only [Action.liftM_eq_check, Geometry.isAligned_eq, start_aligned, beq_self_eq_true, stop,
    Action.check_ok, pure_bind, if_true, and_self]

/-- Seeding that answers leaves the zone coalesced over all its frames. -/
theorem Coalesced.seed (blank : pool.zone.Blank) (linkable : 8 ≤ pool.zone.geometry.size)
    (answers : Action.Answers Pool.seed pool () pool') :
    ∃ cells, pool'.Coalesced cells pool.zone.Has ∧ pool.Touches pool' pool.zone.Has := by
  obtain ⟨start_aligned, stop_lt⟩ := checked_of_seed answers
  obtain ⟨orders, middle, covered, reported⟩ :=
    Action.answers_bind_iff.1 ((seed_endsAs start_aligned stop_lt).answers_iff.1 answers)
  obtain rfl := reportSeeded_state reported
  have ready : pool.zone.Ready := by
    refine blank.ready linkable start_aligned stop_lt fun frame has => ?_
    have inside := has.2
    have first := Nat.mul_le_mul_right pool.zone.geometry.size
      ((Zone.has_iff start_aligned frame).1 has).1
    rw [Nat.succ_mul] at inside
    exact wide_of_cover (Nat.le_trans (Nat.add_le_add_right first _) inside) stop_lt covered
  exact (swept_start blank ready).cover (by rw [ready.frameOf_stop]; omega) covered

end Pool

end PhysicalMemory
