import PhysicalMemory.Proofs.Buddy.Ledger
import PhysicalMemory.Proofs.Buddy.Seed
import PhysicalMemory.Proofs.Memory.Rounding

/-!
# Where covering a zone halts

A block is only laid once its end is known to be a word.  The end is computed for
every block whose alignment the cursor has, also for one that reaches far behind
the zone, and the block that ends with all addresses has no end in a word.  Such
a block begins at a frame that no block laid before it reaches over, so the
cursor comes to every such frame of the zone, and covering halts at the first.
-/

namespace PhysicalMemory

namespace Geometry

variable {geometry : Geometry} {order frame : Nat}

/-- The block of the order that begins at the frame ends where all addresses end. -/
def BeginsLast (geometry : Geometry) (order frame : Nat) : Prop :=
  frame * geometry.size + 1 <<< (geometry.shift + order) = Word.limit

theorem mul_size_eq_limit (geometry : Geometry) :
    2 ^ (64 - geometry.shift) * geometry.size = Word.limit := by
  rw [size, Nat.one_shiftLeft, ← Nat.pow_add, Nat.sub_add_cancel geometry.shift_lt.le]
  rfl

theorem beginsLast_iff :
    geometry.BeginsLast order frame ↔ frame + 2 ^ order = 2 ^ (64 - geometry.shift) := by
  have block : 1 <<< (geometry.shift + order) = 2 ^ order * geometry.size := by
    rw [size, Nat.one_shiftLeft, Nat.one_shiftLeft, Nat.pow_add, Nat.mul_comm]
  rw [BeginsLast, block, ← Nat.add_mul, ← geometry.mul_size_eq_limit]
  exact Nat.mul_left_inj (Nat.ne_of_gt geometry.size_pos)

theorem BeginsLast.dvd (last : geometry.BeginsLast order frame) : 2 ^ order ∣ frame := by
  have sum := beginsLast_iff.1 last
  have le : order ≤ 64 - geometry.shift :=
    (Nat.pow_le_pow_iff_right (by decide)).1 (Nat.le.intro ((Nat.add_comm _ _).trans sum))
  have whole := Nat.pow_dvd_pow 2 le
  rw [← sum] at whole
  exact (Nat.dvd_add_left (Nat.dvd_refl _)).1 whole

end Geometry

namespace Pool

open Cell (Within Largest)

variable {geometry : Geometry} {frame stop order other : Nat}

/-- An order is found at a frame where no block that is considered ends with all addresses. -/
theorem exists_fittingOrder (wide : geometry.shift + order < 64)
    (word : frame * geometry.size < Word.limit)
    (none : ∀ other ≤ order, ¬ geometry.BeginsLast other frame) :
    ∃ found, fittingOrder geometry (frame * geometry.size) stop order = .ok found := by
  induction order with
  | zero => exact ⟨0, rfl⟩
  | succ order ih =>
      have smaller := ih (by omega) fun other le => none other (Nat.le_succ_of_le le)
      simp only [fittingOrder, Geometry.blockSize_of_lt wide, Address.isAligned_one_shiftLeft,
        bind, Except.bind]
      split
      · next aligned =>
          have ends : frame * geometry.size + 1 <<< (geometry.shift + (order + 1)) < Word.limit :=
            Nat.lt_of_le_of_ne (Word.add_one_shiftLeft_le wide.le (by simpa using aligned) word)
              (none (order + 1) (Nat.le_refl _))
          rw [Word.add_of_lt ends]
          dsimp only
          split
          · exact ⟨order + 1, rfl⟩
          · exact smaller
      · exact smaller

/-- Where a block that is considered ends with all addresses, looking for an order halts. -/
theorem fittingOrder_of_beginsLast (wide : geometry.shift + order < 64) (positive : 0 < other)
    (le : other ≤ order) (last : geometry.BeginsLast other frame) :
    fittingOrder geometry (frame * geometry.size) stop order = .error (.overflow .add) := by
  induction order with
  | zero => exact absurd le (Nat.not_le.2 positive)
  | succ order ih =>
      simp only [fittingOrder, Geometry.blockSize_of_lt wide, Address.isAligned_one_shiftLeft,
        bind, Except.bind]
      rcases Nat.lt_or_eq_of_le le with below | rfl
      · -- a larger block that was aligned here would reach over the end of all addresses
        have unaligned : ¬ frame * geometry.size % 1 <<< (geometry.shift + (order + 1)) = 0 := by
          intro aligned
          have word : frame * geometry.size < Word.limit := by
            have positive := Nat.two_pow_pos (geometry.shift + other)
            rw [← last, Nat.one_shiftLeft]
            omega
          have within := Word.add_one_shiftLeft_le wide.le aligned word
          have larger : 1 <<< (geometry.shift + other) < 1 <<< (geometry.shift + (order + 1)) := by
            rw [Nat.one_shiftLeft, Nat.one_shiftLeft]
            exact Nat.pow_lt_pow_right (by decide) (by omega)
          rw [← last] at within
          omega
        rw [if_neg (by simpa using unaligned)]
        exact ih (by omega) (Nat.le_of_lt_succ below)
      · have aligned : frame * geometry.size % 1 <<< (geometry.shift + (order + 1)) = 0 := by
          rw [Nat.one_shiftLeft, Nat.add_comm, Nat.pow_add, Geometry.size, Nat.one_shiftLeft,
            Nat.mul_mod_mul_right, Nat.mod_eq_zero_of_dvd last.dvd, Nat.zero_mul]
        rw [if_pos (by simpa using aligned), Word.add_of_le last.ge]

variable {pool : Pool} {cells : Nat → List Nat} {cursor cell fuel : Nat}

theorem next_le_of_beginsLast (ready : pool.zone.Ready)
    (within : Within pool.zone.Has order cell) (before : cell <<< order < frame)
    (last : pool.zone.geometry.BeginsLast other frame) : (cell + 1) <<< order ≤ frame := by
  have bounds := ((Zone.within_has_iff ready.start_aligned).1 within).2
  have stop : pool.zone.geometry.frameOf (pool.zone.start + pool.zone.size) <
      2 ^ (64 - pool.zone.geometry.shift) := by
    rw [Geometry.frameOf, Nat.div_lt_iff_lt_mul pool.zone.geometry.size_pos,
      Geometry.mul_size_eq_limit]
    exact ready.stop_lt
  by_contra further
  have further := Nat.lt_of_not_le further
  rcases Nat.le_total order other with smaller | larger
  · -- the frame is aligned to the laid block, so it can only be its first
    have first := Cell.shiftRight_eq_iff.2 ⟨before.le, further⟩
    obtain ⟨count, rfl⟩ := Nat.dvd_trans (Nat.pow_dvd_pow 2 smaller) last.dvd
    rw [Nat.shiftRight_eq_div_pow, Nat.mul_div_cancel_left _ (Nat.two_pow_pos order)] at first
    rw [first, Nat.shiftLeft_eq, Nat.mul_comm] at before
    exact Nat.lt_irrefl _ before
  · -- the last block lies in the laid one, whose end is a word
    have sum := Geometry.beginsLast_iff.1 last
    have reaches : frame + 2 ^ other ≤ (cell + 1) <<< order := by
      obtain ⟨count, rfl⟩ := last.dvd
      have whole : (cell + 1) <<< order = 2 ^ other * ((cell + 1) * 2 ^ (order - other)) := by
        rw [Nat.shiftLeft_eq, Nat.mul_left_comm, ← Nat.pow_add, Nat.add_sub_cancel' larger]
      rw [whole] at further ⊢
      rw [← Nat.mul_succ]
      exact Nat.mul_le_mul_left _ (Nat.lt_of_mul_lt_mul_left further)
    omega

/-- Covering answers where no frame of the zone begins a last block, nor does the zone's end. -/
theorem Swept.cover_answers (swept : pool.Swept cells cursor)
    (low : cursor * pool.zone.geometry.size ≤ pool.zone.start + pool.zone.size)
    (above : pool.zone.start + pool.zone.size + pool.zone.geometry.size < Word.limit)
    (none : ∀ frame, pool.zone.Has frame → ∀ order ≤ topOrder,
      ¬ pool.zone.geometry.BeginsLast order frame) :
    ∃ orders after, Action.Answers (Pool.cover (pool.zone.start + pool.zone.size) fuel
      (cursor * pool.zone.geometry.size)) pool orders after := by
  induction fuel generalizing pool cells cursor with
  | zero => exact ⟨[], pool, Action.answers_pure_iff.2 ⟨rfl, rfl⟩⟩
  | succ fuel ih =>
      have ready := swept.coalesced.ready
      by_cases has : pool.zone.Has cursor
      · obtain ⟨order, fitting⟩ := exists_fittingOrder (ready.wide cursor has)
          (Nat.lt_of_le_of_lt low ready.stop_lt) (none cursor has)
        obtain ⟨cell, next, largest, swept', touches, goes⟩ := swept.step has fitting
        have alike := touches.alike
        have reached := ((Zone.within_has_iff_block ready.start_aligned).1 largest.within).2
        rw [Geometry.blockAt_eq_mul] at reached
        obtain ⟨orders, after, answers⟩ := ih swept'
          (by rwa [alike.geometry_eq, alike.start_eq, alike.size_eq])
          (by rwa [alike.geometry_eq, alike.start_eq, alike.size_eq])
          (fun frame has => by
            rw [alike.geometry_eq]
            exact none frame ((alike.has_iff frame).1 has))
        rw [alike.geometry_eq, alike.start_eq, alike.size_eq] at answers
        exact ⟨order :: orders, after, (goes fuel).answers_iff.2 (Action.answers_bind_iff.2
          ⟨orders, after, answers, Action.answers_pure_iff.2 ⟨rfl, rfl⟩⟩)⟩
      · exact ⟨[], pool, (swept.past has fuel).answers_iff.2 (Action.answers_check_bind_iff.2
          ⟨_, Word.add_of_lt (by omega), Action.answers_pure_iff.2 ⟨rfl, rfl⟩⟩)⟩

/-- Covering halts where a frame that is left begins a last block. -/
theorem Swept.cover_halts (swept : pool.Swept cells cursor) (has : pool.zone.Has frame)
    (le : order ≤ topOrder) (last : pool.zone.geometry.BeginsLast order frame)
    (behind : cursor ≤ frame) (enough : frame < cursor + fuel) :
    ∃ after, Action.Halts (Pool.cover (pool.zone.start + pool.zone.size) fuel
      (cursor * pool.zone.geometry.size)) pool (.overflow .add) after := by
  induction fuel generalizing pool cells cursor with
  | zero => exact absurd behind (Nat.not_le.2 enough)
  | succ fuel ih =>
      have ready := swept.coalesced.ready
      have here : pool.zone.Has cursor := by
        have high := ((Zone.has_iff ready.start_aligned frame).1 has).2
        exact (Zone.has_iff ready.start_aligned cursor).2
          ⟨swept.low, Nat.lt_of_le_of_lt behind high⟩
      have inside := here.2
      rw [Nat.succ_mul] at inside
      have wide := ready.wide cursor here
      by_cases ends : ∃ other ≤ topOrder, pool.zone.geometry.BeginsLast other cursor
      · obtain ⟨other, le', last'⟩ := ends
        have positive : 0 < other := by
          refine Nat.pos_of_ne_zero fun zero => ?_
          have page := inside
          rw [zero, Geometry.BeginsLast] at last'
          exact absurd (Nat.lt_of_le_of_lt page ready.stop_lt) (Nat.not_lt.2 last'.ge)
        refine ⟨pool, (cover_inside inside ready.stop_lt).halts_iff.2 ?_⟩
        exact Action.halts_check_bind_iff.2
          (.inl ⟨fittingOrder_of_beginsLast wide positive le' last', rfl⟩)
      · have word : cursor * pool.zone.geometry.size < Word.limit := by
          have stop_lt := ready.stop_lt
          omega
        obtain ⟨found, fitting⟩ := exists_fittingOrder wide word
          fun other le' last' => ends ⟨other, le', last'⟩
        obtain ⟨cell, next, largest, swept', touches, goes⟩ := swept.step here fitting
        have alike := touches.alike
        have before : cell <<< found < frame := by
          rw [largest.begins]
          refine Nat.lt_of_le_of_ne behind fun same => ends ⟨order, le, ?_⟩
          rwa [same]
        have further := largest.lt_next
        obtain ⟨after, halts⟩ := ih swept' ((alike.has_iff frame).2 has)
          (by rwa [alike.geometry_eq])
          (next_le_of_beginsLast ready largest.within before last) (by omega)
        rw [alike.geometry_eq, alike.start_eq, alike.size_eq] at halts
        exact ⟨after, (goes fuel).halts_iff.2 (Action.halts_bind_iff.2 (.inl halts))⟩

theorem reportSeeded_answers (zone : ZoneId) (orders list : List Nat) (pool : Pool) :
    Action.Answers (reportSeeded zone orders list) pool () pool := by
  induction list with
  | nil => exact Action.answers_pure_iff.2 ⟨rfl, rfl⟩
  | cons order rest ih =>
      simp only [reportSeeded]
      split
      · exact Action.answers_bind_iff.2 ⟨(), pool, Action.answers_report_iff.2 rfl, ih⟩
      · exact ih

/-- Seeding answers where no frame of the zone begins a last block, nor does the zone's end. -/
theorem exists_seed (blank : pool.zone.Blank) (ready : pool.zone.Ready)
    (above : pool.zone.start + pool.zone.size + pool.zone.geometry.size < Word.limit)
    (none : ∀ frame, pool.zone.Has frame → ∀ order ≤ topOrder,
      ¬ pool.zone.geometry.BeginsLast order frame) :
    ∃ after, Action.Answers Pool.seed pool () after := by
  have low : pool.zone.geometry.frameOf pool.zone.start * pool.zone.geometry.size ≤
      pool.zone.start + pool.zone.size :=
    Nat.le_trans (Nat.div_mul_le_self _ _) (Nat.le_add_right _ _)
  obtain ⟨orders, after, answers⟩ := (swept_start blank ready).cover_answers low above none
  exact ⟨after, (seed_endsAs ready.start_aligned ready.stop_lt).answers_iff.2
    (Action.answers_bind_iff.2 ⟨orders, after, answers, reportSeeded_answers _ _ _ after⟩)⟩

theorem seed_halts (blank : pool.zone.Blank) (ready : pool.zone.Ready) (has : pool.zone.Has frame)
    (le : order ≤ topOrder) (last : pool.zone.geometry.BeginsLast order frame) :
    ∃ after, Action.Halts Pool.seed pool (.overflow .add) after := by
  obtain ⟨low, high⟩ := (Zone.has_iff ready.start_aligned frame).1 has
  have enough := ready.frameOf_stop
  obtain ⟨after, halts⟩ := (swept_start blank ready).cover_halts has le last low
    (by omega : frame < pool.zone.geometry.frameOf pool.zone.start +
      (pool.zone.size / pool.zone.geometry.size + 1))
  exact ⟨after, (seed_endsAs ready.start_aligned ready.stop_lt).halts_iff.2
    (Action.halts_bind_iff.2 (.inl halts))⟩

/-- Seeding a zone with a page halts at once where its largest blocks do not fit a word. -/
theorem seed_halts_of_large (start_aligned : pool.zone.start % pool.zone.geometry.size = 0)
    (stop_lt : pool.zone.start + pool.zone.size < Word.limit) (has : pool.zone.Has frame)
    (large : 64 ≤ pool.zone.geometry.shift + topOrder) :
    Action.Halts Pool.seed pool (.overflow .subtract) pool := by
  have first := Nat.mul_le_mul_right pool.zone.geometry.size
    ((Zone.has_iff start_aligned frame).1 has).1
  have inside := has.2
  rw [Nat.succ_mul] at inside
  refine (seed_endsAs start_aligned stop_lt).halts_iff.2 (Action.halts_bind_iff.2 (.inl ?_))
  refine (cover_inside (Nat.le_trans (Nat.add_le_add_right first _) inside) stop_lt).halts_iff.2 ?_
  exact Action.halts_check_bind_iff.2 (.inl ⟨fittingOrder_of_large (by decide) large, rfl⟩)

end Pool

namespace BuddyAllocator

variable {buddy : BuddyAllocator}

theorem halts_inZone_iff {α : Type} {id : ZoneId} {action : Action Pool α}
    {after : BuddyAllocator} {cause : Halt} :
    Action.Halts (inZone id action) buddy cause after ↔
      ∃ pool, Action.Halts action (buddy.pool id) cause pool ∧
        after = buddy.withPool id pool buddy.pages := by
  simp only [Action.Halts, run_inZone, withPool]
  constructor
  · rintro ⟨result, rfl⟩
    exact ⟨_, ⟨result, rfl⟩, rfl⟩
  · rintro ⟨pool, ⟨result, rfl⟩, rfl⟩
    exact ⟨result, rfl⟩

theorem seed_endsAs (heap : (buddy.zones.get .heap).allocatable = true)
    (reserved : (buddy.zones.get .noHeap).allocatable = false) :
    seed.EndsAs buddy (inZone .heap Pool.seed) buddy := by
  simp only [seed, ZoneId.all, seedZones]
  rw [Action.EndsAs, Action.run_get_bind, reserved, if_neg Bool.false_ne_true, Action.run_get_bind,
    if_pos heap, bind_pure_unit]
  exact ⟨rfl, rfl⟩

end BuddyAllocator

end PhysicalMemory
