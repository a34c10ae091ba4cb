import PhysicalMemory.Proofs.Halts
import PhysicalMemory.Proofs.Manager.Tenancy

/-!
# The ways of a request

Whole pages serve a request for just those sizes that no slab holds, so the object
tier is never asked for a size that it would refuse.  A request for bytes then takes
one of three ways: it asks for nothing and is refused, a block of the least order that
holds it comes of it, or an object of its size does.  An aligned request takes the way
of its size with room to move up, and what comes of it is moved up.
-/

namespace PhysicalMemory

namespace Word

variable {number multiple : Nat}

theorem pos_of_isPowerOfTwo (power : isPowerOfTwo number = true) :
    0 < number := by
  obtain ⟨k, rfl⟩ := isPowerOfTwo_iff.1 power
  rw [Nat.one_shiftLeft]
  exact Nat.two_pow_pos k

theorem dvd_of_isPowerOfTwo (power : isPowerOfTwo number = true)
    (power' : isPowerOfTwo multiple = true) (le : number ≤ multiple) : number ∣ multiple := by
  obtain ⟨k, rfl⟩ := isPowerOfTwo_iff.1 power
  obtain ⟨l, rfl⟩ := isPowerOfTwo_iff.1 power'
  rw [Nat.one_shiftLeft, Nat.one_shiftLeft] at *
  exact Nat.pow_dvd_pow 2 ((Nat.pow_le_pow_iff_right (by decide)).1 le)

end Word

namespace Slab

variable {pageSize size : Nat}

theorem lt_page_of_capacity_pos (positive : 0 < capacity pageSize size)
    (page : pageSize < Word.limit) : size < pageSize := by
  have fits := metadataSize_le positive page
  have one := Nat.mul_le_mul_right size positive
  simp only [metadataSize, headerSize, Nat.one_mul] at fits one
  omega

end Slab

theorem Geometry.isPowerOfTwo_size (geometry : Geometry) :
    Word.isPowerOfTwo geometry.size = true :=
  Word.isPowerOfTwo_iff.2 ⟨geometry.shift, rfl⟩

/-- An object that is handed out ends within the words. -/
theorem BuddyAllocator.Course.object_word {buddy after : BuddyAllocator}
    {allocator : SlabAllocator} {store store' : Store} {records objects : List Seat}
    {size object : Nat}
    (course : buddy.Course allocator store size after store' (.ok object))
    (stocked : buddy.Stocked allocator store)
    (seated : store.Seated buddy.geometry.size records objects) :
    object + size < Word.limit := by
  obtain ⟨records', answered⟩ := course.answered stocked seated
  obtain ⟨cache, member, rfl, slab, index, held, rfl⟩ := course.served_object
  rw [← answered.steady.geometry_eq] at held ⊢
  have placed := answered.stocked.placed member
  have below := placed.slot_bounds slab (Nat.lt_of_lt_of_le held.2.1 (Slab.room_le _))
  exact Nat.lt_of_le_of_lt below.2 (placed.bounded slab held.1)

namespace Tiers

variable {tiers after : Tiers} {store store' : Store} {size objectSize alignment : Nat}
  {answer : Except AllocFailure Nat}

@[simp] theorem answers_inBuddy_iff {α : Type} {action : Action BuddyAllocator α} {value : α} :
    Action.Answers (inBuddy action) tiers value after ↔
      ∃ buddy, Action.Answers action tiers.buddy value buddy ∧ after = ⟨buddy, tiers.slab⟩ := by
  simp only [Action.Answers, run_inBuddy]
  constructor
  · rintro ⟨result, rfl⟩
    exact ⟨_, ⟨result, rfl⟩, rfl⟩
  · rintro ⟨buddy, ⟨result, rfl⟩, rfl⟩
    exact ⟨result, rfl⟩

theorem answers_tryBuddy {α : Type} {attempt : Attempt BuddyAllocator α}
    {answer : Except AllocFailure α}
    {buddy : BuddyAllocator} (answers : Action.Answers attempt.outcome tiers.buddy answer buddy) :
    Action.Answers (tryBuddy attempt).outcome tiers answer ⟨buddy, tiers.slab⟩ :=
  answers_inBuddy_iff.2 ⟨buddy, answers, rfl⟩

/-- What comes of asking for whole pages that hold so many bytes. -/
inductive ByPages (tiers : Tiers) (size : Nat) : Tiers → Except AllocFailure Nat → Prop where
  | tooLarge {order : Nat} (least : tiers.geometry.IsOrderFor size order)
      (large : orderCount ≤ order) :
      ByPages tiers size tiers (.error (.orderTooLarge order topOrder))
  | exhausted {order : Nat} (least : tiers.geometry.IsOrderFor size order)
      (small : order < orderCount) : ByPages tiers size tiers (.error (.outOfMemory order))
  | lent {order cell : Nat} {buddy : BuddyAllocator}
      (least : tiers.geometry.IsOrderFor size order) (small : order < orderCount)
      (handed : tiers.buddy.Handed buddy order .heap cell) :
      ByPages tiers size ⟨buddy, tiers.slab⟩ (.ok (tiers.buddy.geometry.blockAt order cell))

/-- The way that a request for so many bytes, in an object of some size or in a block, goes. -/
inductive Route (tiers : Tiers) (store : Store) (size objectSize : Nat) :
    Tiers → Store → Except AllocFailure Nat → Prop where
  | nothing (zero : size = 0) : Route tiers store size objectSize tiers store (.error .zeroSize)
  | pages {after : Tiers} {answer : Except AllocFailure Nat} (positive : 0 < size)
      (pages : tiers.needsPages objectSize = true) (lending : tiers.ByPages size after answer) :
      Route tiers store size objectSize after store answer
  | object {buddy : BuddyAllocator} {store' : Store} {answer : Except AllocFailure Nat}
      (positive : 0 < size) (small : tiers.needsPages objectSize = false)
      (course : tiers.buddy.Course tiers.slab store objectSize buddy store' answer) :
      Route tiers store size objectSize ⟨buddy, tiers.slab⟩ store' answer

/--
The attempt takes a way, and what comes of it is moved; or it is for more bytes than a
word can say and halts before anything has changed.
-/
def Routes (attempt : Attempt Tiers Nat) (tiers : Tiers) (store : Store)
    (size objectSize : Nat) (move : Nat → Nat) : Prop :=
  (Word.limit ≤ size ∧ ∃ halt, Action.Halts attempt.outcome tiers halt tiers) ∨
  ∃ answer after store', Action.Answers attempt.outcome tiers (answer.map move) after ∧
    tiers.Route store size objectSize after store' answer

theorem Routes.of_word {attempt : Attempt Tiers Nat} {move : Nat → Nat}
    (routes : Routes attempt tiers store size objectSize move) (word : size < Word.limit) :
    ∃ answer after store', Action.Answers attempt.outcome tiers (answer.map move) after ∧
      tiers.Route store size objectSize after store' answer :=
  routes.resolve_left fun large => absurd word (Nat.not_lt.2 large.1)

theorem needsPages_iff (page_eq : tiers.slab.pageSize = tiers.buddy.geometry.size) :
    tiers.needsPages size = true ↔ Slab.capacity tiers.geometry.size size = 0 := by
  rw [needsPages, SlabAllocator.fits, SlabAllocator.capacityFor, page_eq, Bool.or_eq_true,
    decide_eq_true_eq, Bool.not_eq_true', decide_eq_false_iff_not, Nat.not_lt, Nat.le_zero]
  change _ ∨ Slab.capacity tiers.geometry.size size = 0 ↔ _
  refine or_iff_right_of_imp fun large => Nat.eq_zero_of_not_pos fun positive => ?_
  exact Nat.not_lt.2 large
    (Slab.lt_page_of_capacity_pos positive tiers.buddy.geometry.size_lt_limit)

theorem capacity_pos (page_eq : tiers.slab.pageSize = tiers.buddy.geometry.size)
    (small : tiers.needsPages size = false) : 0 < Slab.capacity tiers.geometry.size size := by
  refine Nat.pos_of_ne_zero fun none => ?_
  rw [(needsPages_iff page_eq).2 none] at small
  cases small

theorem lt_page (page_eq : tiers.slab.pageSize = tiers.buddy.geometry.size)
    (small : tiers.needsPages size = false) : size < tiers.geometry.size :=
  Slab.lt_page_of_capacity_pos (capacity_pos page_eq small) tiers.buddy.geometry.size_lt_limit

theorem addSaturating_of_small (page_eq : tiers.slab.pageSize = tiers.buddy.geometry.size)
    {more : Nat} (small : tiers.needsPages (Word.addSaturating size more) = false) :
    Word.addSaturating size more = size + more := by
  have below : _ < tiers.buddy.geometry.size := lt_page page_eq small
  have page := tiers.buddy.geometry.size_lt_limit
  have last : Word.last = Word.limit - 1 := rfl
  rw [Word.addSaturating] at below ⊢
  omega

theorem sub_of_roundUp {object : Nat} (positive : 0 < alignment) :
    Extent.Sub ⟨Word.roundUp object alignment, size⟩ ⟨object, size + (alignment - 1)⟩ := by
  have low := Word.le_roundUp object positive
  have high := Word.roundUp_lt object positive
  simp only [Extent.Sub]
  omega

/-- A request that asks for anything goes to the tier that serves its size. -/
theorem run_allocate (positive : 0 < size) :
    (allocate size).outcome.run tiers =
      if tiers.needsPages size then (allocateBlock size).outcome.run tiers
      else (allocateObject size).outcome.run tiers := by
  unfold allocate
  rw [if_neg (Nat.ne_of_gt positive), Attempt.run_get_bind]
  split <;> rfl

theorem rejects_iff :
    (!Word.isPowerOfTwo alignment || decide (tiers.geometry.size < alignment)) = true ↔
      ¬ (Word.isPowerOfTwo alignment = true ∧ alignment ≤ tiers.geometry.size) := by
  rw [Bool.or_eq_true, Bool.not_eq_true', decide_eq_true_eq, ← Nat.not_le,
    Decidable.not_and_iff_or_not, Bool.not_eq_true]

/-- So does a request for aligned bytes, by its size with room to move up in. -/
theorem run_allocateAligned (valid : Word.isPowerOfTwo alignment = true)
    (low : alignment ≤ tiers.geometry.size) (positive : 0 < size) :
    (allocateAligned size alignment).outcome.run tiers =
      if tiers.needsPages (Word.addSaturating size (alignment - 1)) then
        (allocateBlock size).outcome.run tiers
      else (do
        let object ← allocateObject (Word.addSaturating size (alignment - 1))
        Address.alignUp object alignment : Attempt Tiers Nat).outcome.run tiers := by
  unfold allocateAligned
  rw [Attempt.run_get_bind]
  dsimp only
  rw [if_neg (not_not_intro ⟨valid, low⟩ ∘ rejects_iff.1), if_neg (Nat.ne_of_gt positive)]
  split <;> rfl

theorem answers_allocate_zero :
    Action.Answers (allocate 0).outcome tiers (.error .zeroSize) tiers :=
  ⟨rfl, rfl⟩

theorem run_allocateAligned_zero (valid : Word.isPowerOfTwo alignment = true)
    (low : alignment ≤ tiers.geometry.size) :
    (allocateAligned 0 alignment).outcome.run tiers = (allocate 0).outcome.run tiers := by
  unfold allocateAligned
  rw [Attempt.run_get_bind]
  dsimp only
  rw [if_neg (not_not_intro ⟨valid, low⟩ ∘ rejects_iff.1)]
  rfl

theorem answers_allocateAligned_zero (valid : Word.isPowerOfTwo alignment = true)
    (low : alignment ≤ tiers.geometry.size) :
    Action.Answers (allocateAligned 0 alignment).outcome tiers (.error .zeroSize) tiers := by
  rw [Action.Answers, run_allocateAligned_zero valid low]
  exact answers_allocate_zero

/-- A request is refused whose alignment is no power of two or larger than a page. -/
theorem answers_allocateAligned_invalid
    (invalid : ¬ (Word.isPowerOfTwo alignment = true ∧ alignment ≤ tiers.geometry.size)) :
    Action.Answers (allocateAligned size alignment).outcome tiers
      (.error (.invalidAlignment alignment)) tiers := by
  unfold allocateAligned
  rw [Action.Answers, Attempt.run_get_bind]
  dsimp only
  rw [if_pos (rejects_iff.2 invalid)]
  exact ⟨rfl, rfl⟩

theorem ByPages.map_roundUp (lending : tiers.ByPages size after answer)
    (valid : Word.isPowerOfTwo alignment = true) (low : alignment ≤ tiers.geometry.size) :
    answer.map (Word.roundUp · alignment) = answer := by
  cases lending with
  | tooLarge least large => rfl
  | exhausted least small => rfl
  | @lent order cell buddy least small handed =>
      have divides := Word.dvd_of_isPowerOfTwo valid tiers.geometry.isPowerOfTwo_size low
      have whole := tiers.buddy.geometry.blockAt_mod_size order cell
      have positive := Nat.pos_of_dvd_of_pos divides tiers.buddy.geometry.size_pos
      exact congrArg Except.ok (Word.roundUp_of_mod_eq_zero positive
        (Nat.mod_eq_zero_of_dvd (divides.trans (Nat.dvd_of_mod_eq_zero whole))))

theorem answers_allocateObject {buddy : BuddyAllocator}
    (answers : Action.Answers (tiers.slab.allocate size).outcome tiers.buddy answer buddy) :
    Action.Answers (allocateObject size).outcome tiers answer ⟨buddy, tiers.slab⟩ :=
  Attempt.answers_bind_of_ok (Attempt.answers_outcome_get_iff.2 ⟨rfl, rfl⟩)
    (answers_tryBuddy answers)

section

variable (stocked : tiers.buddy.Stocked tiers.slab store)

include stocked

/-- A size is asked of the page tier at its least order, if that can be told. -/
theorem byPages (size : Nat) :
    (Word.limit ≤ size ∧ ∃ halt, Action.Halts (allocateBlock size).outcome tiers halt tiers) ∨
    ∃ answer after, Action.Answers (allocateBlock size).outcome tiers answer after ∧
      tiers.ByPages size after answer := by
  have sound := stocked.sound
  have linkable := (sound.ready stocked.heap).linkable
  rw [sound.geometry_eq] at linkable
  cases rounded : tiers.geometry.orderForSize size with
  | error halt =>
      refine .inl ⟨Nat.le_of_not_lt fun word => ?_, halt, ?_⟩
      · obtain ⟨order, found⟩ := Geometry.exists_orderForSize linkable word
        cases rounded.symm.trans found
      · rw [allocateBlock, Action.Halts, Attempt.run_get_bind]
        exact Attempt.run_check_bind_error rounded _ _
  | ok order =>
      right
      have least := Geometry.isOrderFor_of_orderForSize rounded
      have asked : ∀ {answer after}, Action.Answers (do
          let page ← tryBuddy (BuddyAllocator.allocate order)
          Attempt.report (.bytesAsBlock size order page.start)
          if page.start = 0 then Attempt.violate .nullBlock
          return page.start : Attempt Tiers Nat).outcome tiers answer after →
            Action.Answers (allocateBlock size).outcome tiers answer after := fun answers =>
        Attempt.answers_bind_of_ok (Attempt.answers_outcome_get_iff.2 ⟨rfl, rfl⟩)
          (Attempt.answers_bind_of_ok (Attempt.answers_outcome_check_iff.2
            ⟨order, rounded, rfl, rfl⟩) answers)
      rcases Nat.lt_or_ge order orderCount with small | large
      · rcases sound.allocate small with ⟨refused, -⟩ | ⟨id, cell, buddy, handed, answers⟩
        · exact ⟨_, _, asked (Attempt.answers_bind_of_error (answers_tryBuddy refused)),
            .exhausted least small⟩
        · obtain rfl := stocked.eq_heap handed.allocatable
          have nonzero := ((sound.ready handed.allocatable).block_word
            (handed.within.mono fun frame free => free.1)).2.2
          rw [sound.geometry_eq] at nonzero
          refine ⟨_, _, asked ?_, .lent least small handed⟩
          refine Attempt.answers_bind_of_ok (answers_tryBuddy answers) ?_
          refine Attempt.answers_bind_of_ok (Attempt.answers_outcome_report_iff.2 ⟨rfl, rfl⟩) ?_
          rw [if_neg (show tiers.buddy.geometry.blockAt order cell ≠ 0 from nonzero)]
          exact Action.answers_pure_iff.2 ⟨rfl, rfl⟩
      · exact ⟨_, _, asked (Attempt.answers_bind_of_error
          (answers_tryBuddy (BuddyAllocator.allocate_large large))), .tooLarge least large⟩

variable {records objects : List Seat}
  (seated : store.Seated tiers.buddy.geometry.size records objects)

include seated

/-- A size that does not need pages is asked of the object tier. -/
theorem byObject (positive : 0 < objectSize) (small : tiers.needsPages objectSize = false) :
    ∃ answer buddy store',
      Action.Answers (allocateObject objectSize).outcome tiers answer ⟨buddy, tiers.slab⟩ ∧
        tiers.buddy.Course tiers.slab store objectSize buddy store' answer := by
  obtain ⟨answer, buddy, store', answers, course⟩ :=
    stocked.course seated positive (capacity_pos stocked.page_eq small)
  exact ⟨answer, buddy, store', answers_allocateObject answers, course⟩

theorem routes_allocate (size : Nat) : Routes (allocate size) tiers store size size id := by
  rcases Nat.eq_zero_or_pos size with rfl | positive
  · exact .inr ⟨_, _, _, answers_allocate_zero, .nothing rfl⟩
  have asked := @run_allocate tiers size positive
  cases pages : tiers.needsPages size with
  | true =>
      rw [pages, if_pos rfl] at asked
      rcases byPages stocked size with ⟨large, halt, halts⟩ | ⟨answer, after, answers, lending⟩
      · exact .inl ⟨large, halt, by rwa [Action.Halts, asked]⟩
      · refine .inr ⟨answer, after, store, ?_, .pages positive pages lending⟩
        rw [Action.Answers, asked, Except.map_id]
        exact answers
  | false =>
      obtain ⟨answer, buddy, store', answers, course⟩ := byObject stocked seated positive pages
      rw [pages, if_neg (by decide)] at asked
      refine .inr ⟨answer, _, store', ?_, .object positive pages course⟩
      rw [Action.Answers, asked, Except.map_id]
      exact answers

/-- A request for aligned bytes goes the same ways, and what it comes to is moved up. -/
theorem routes_allocateAligned (size : Nat) (valid : Word.isPowerOfTwo alignment = true)
    (low : alignment ≤ tiers.geometry.size) :
    Routes (allocateAligned size alignment) tiers store size
      (Word.addSaturating size (alignment - 1)) (Word.roundUp · alignment) := by
  rcases Nat.eq_zero_or_pos size with rfl | positive
  · exact .inr ⟨.error .zeroSize, _, _, answers_allocateAligned_zero valid low, .nothing rfl⟩
  have asked := run_allocateAligned valid low positive
  cases pages : tiers.needsPages (Word.addSaturating size (alignment - 1)) with
  | true =>
      rw [pages, if_pos rfl] at asked
      rcases byPages stocked size with ⟨large, halt, halts⟩ | ⟨answer, after, answers, lending⟩
      · exact .inl ⟨large, halt, by rwa [Action.Halts, asked]⟩
      · refine .inr ⟨answer, after, store, ?_, .pages positive pages lending⟩
        rw [Action.Answers, asked, lending.map_roundUp valid low]
        exact answers
  | false =>
      have padded : 0 < Word.addSaturating size (alignment - 1) :=
        Nat.lt_min.2 ⟨Nat.add_pos_left positive _, by decide⟩
      obtain ⟨answer, buddy, store', answers, course⟩ := byObject stocked seated padded pages
      rw [pages, if_neg (by decide)] at asked
      refine .inr ⟨answer, _, store', ?_, .object positive pages course⟩
      rw [Action.Answers, asked]
      cases answer with
      | error failure => exact Attempt.answers_bind_of_error answers
      | ok object =>
          have bound := course.object_word stocked seated
          have rounded : Address.alignUp object alignment =
              .ok (Word.roundUp object alignment) := by
            obtain ⟨k, rfl⟩ := Word.isPowerOfTwo_iff.1 valid
            have page := tiers.buddy.geometry.size_lt_limit
            have last : Word.last = Word.limit - 1 := rfl
            change 1 <<< k ≤ tiers.buddy.geometry.size at low
            refine Address.alignUp_eq_roundUp ?_
            rw [Word.addSaturating] at bound
            omega
          exact Attempt.answers_bind_of_ok answers
            (Attempt.answers_outcome_check_iff.2 ⟨_, rounded, rfl, rfl⟩)

end

end Tiers

end PhysicalMemory
