import PhysicalMemory.Proofs.Buddy.RoundTrip

/-!
# What a split changes

A request comes upon the first zone that lists a block large enough, and there upon
the first block of the least order that lists one.  That list loses its head, and
every smaller order down to the one asked for, which listed nothing, lists exactly
the upper half that was cut off there.  One pair bit flips for each of these blocks
and one descriptor changes.  All else is as it was.
-/

namespace PhysicalMemory

/-- The upper half that is cut off at a lower order. -/
theorem Geometry.blockAt_upper (geometry : Geometry) (cell : Nat) {level found : Nat}
    (below : level ≤ found) :
    geometry.blockAt level (cell <<< (found - level) + 1) =
      geometry.blockAt found cell + geometry.size <<< level := by
  rw [blockAt_add_one, ← blockAt_add, Nat.add_sub_cancel' below, size, ← Nat.shiftLeft_add]

theorem Cell.within_upper {has : Nat → Prop} {level found cell : Nat}
    (inside : Within has found cell) (below : level < found) :
    Within has level (cell <<< (found - level) + 1) := by
  intro frame same
  apply inside frame
  rw [Cell.shiftRight_of_le (Nat.le_of_lt below), same, Nat.shiftRight_eq_div_pow,
    Nat.shiftLeft_eq, Nat.div_eq_iff (Nat.two_pow_pos _)]
  have double := Nat.pow_le_pow_right (show 0 < 2 by decide) (show 1 ≤ found - level by omega)
  omega

namespace Pool

open Cell (Within)

variable {pool pool' : Pool} {cells cells' : Nat → List Nat} {free free' : Nat → Prop}
  {order found cell level : Nat} {rest : List Nat}

/-- The pair whose bit an order keeps for a block. -/
def PairOf (pool : Pool) (level block pair : Nat) : Prop :=
  (pool.zone.areaOf level).pairs.locate (pool.zone.geometry.frameOf block) = .ok pair

/-- A block found at one order was split down to another, and nothing else was done. -/
structure Splits (pool pool' : Pool) (order found block : Nat) : Prop where
  listOf_eq : ∀ level, pool'.listOf level =
    if level = found then (pool.listOf found).tail
    else if order ≤ level ∧ level < found then [block + pool.zone.geometry.size <<< level]
    else pool.listOf level
  length_eq : ∀ level, (pool'.zone.areaOf level).free.length = (pool'.listOf level).length
  paired : ∃ pair, pool.PairOf found block pair
  upper_paired : ∀ level, order ≤ level → level < found →
    ∃ pair, pool.PairOf level (block + pool.zone.geometry.size <<< level) pair
  flipped_iff : ∀ level pair,
    (pool'.zone.areaOf level).pairs.bit pair ≠ (pool.zone.areaOf level).pairs.bit pair ↔
      (level = found ∧ pool.PairOf found block pair) ∨
        (order ≤ level ∧ level < found ∧
          pool.PairOf level (block + pool.zone.geometry.size <<< level) pair)
  alike : Zone.Alike pool.zone pool'.zone

/-- Halving puts the upper part of each order that it comes through in front. -/
theorem halved_apply (levels : Nat) :
    halved cells order cell levels level =
      if order ≤ level ∧ level < order + levels then
        (cell <<< (order + levels - level) + 1) :: cells level
      else cells level := by
  induction levels generalizing cells cell with
  | zero => rw [halved, if_neg (by omega)]
  | succ levels ih =>
      rw [halved, ih]
      by_cases here : level = order + levels
      · subst here
        rw [if_neg (by omega), if_pos (by omega), listed, Function.update_self,
          show order + (levels + 1) - (order + levels) = 1 by omega, Nat.shiftLeft_eq, pow_one,
          Nat.mul_comm]
      · rw [listed, Function.update_of_ne here]
        by_cases passed : order ≤ level ∧ level < order + levels
        · rw [if_pos passed, if_pos (by omega),
            show order + (levels + 1) - level = 1 + (order + levels - level) by omega,
            Nat.shiftLeft_add, Nat.shiftLeft_eq cell 1, pow_one, Nat.mul_comm]
        · rw [if_neg passed, if_neg (by omega)]

/-- The listing after the first cell of the least order was taken and halved. -/
theorem First.halved_apply (first : First cells order found cell rest) (level : Nat) :
    halved (unlisted cells found cell) order cell (found - order) level =
      if level = found then rest
      else if order ≤ level ∧ level < found then [cell <<< (found - level) + 1]
      else cells level := by
  rw [Pool.halved_apply, Nat.add_sub_cancel' first.le, unlisted]
  by_cases here : level = found
  · subst here
    rw [if_neg (by omega), Function.update_self, first.cells_eq, List.erase_cons_head, if_pos rfl]
  · rw [Function.update_of_ne here, if_neg here]
    by_cases passed : order ≤ level ∧ level < found
    · rw [if_pos passed, if_pos passed, first.below level passed.1 passed.2]
    · rw [if_neg passed, if_neg passed]

theorem First.inside (first : First cells order found cell rest)
    (coalesced : pool.Coalesced cells free) : Within pool.zone.Has found cell := by
  refine coalesced.lists.inside found first.lt cell ?_
  rw [first.cells_eq]
  exact List.mem_cons_self

namespace Coalesced

theorem listOf_map (coalesced : pool.Coalesced cells free) (h : level < orderCount) :
    pool.listOf level = (cells level).map (pool.zone.geometry.blockAt level) :=
  coalesced.lists.toList_eq coalesced.ready h

theorem length_eq (coalesced : pool.Coalesced cells free) (level : Nat) :
    (pool.zone.areaOf level).free.length = (pool.listOf level).length := by
  by_cases h : level < orderCount
  · rw [coalesced.listOf_map h]
    exact (coalesced.lists.spells level h).length_eq
  · rw [listOf, pool.zone.areaOf_of_le (Nat.le_of_not_lt h)]
    rfl

/-- The pair of a cell in the zone is kept, counted from the base. -/
theorem pairOf_iff (coalesced : pool.Coalesced cells free) (h : level < orderCount)
    (inside : Within pool.zone.Has level cell) {pair : Nat} :
    pool.PairOf level (pool.zone.geometry.blockAt level cell) pair ↔
      pair + (pool.zone.areaOf level).pairs.base >>> (level + 1) = cell / 2 := by
  have has : pool.zone.Has (cell <<< level) := inside _ (Cell.shiftLeft_shiftRight _ _)
  have parent : cell <<< level >>> (level + 1) = cell / 2 := by
    rw [Cell.shiftRight_succ, Cell.shiftLeft_shiftRight]
  have base := coalesced.ready.base_le h has
  rw [parent] at base
  rw [PairOf, Geometry.frameOf_blockAt, coalesced.ready.locate_eq h has,
    coalesced.ready.pair_eq h, parent, Except.ok.injEq]
  omega

theorem exists_pairOf (coalesced : pool.Coalesced cells free) (h : level < orderCount)
    (inside : Within pool.zone.Has level cell) :
    ∃ pair, pool.PairOf level (pool.zone.geometry.blockAt level cell) pair := by
  have has : pool.zone.Has (cell <<< level) := inside _ (Cell.shiftLeft_shiftRight _ _)
  simp only [PairOf, Geometry.frameOf_blockAt, coalesced.ready.locate_eq h has]
  exact ⟨_, rfl⟩

/-- Where the listings of an order differ in one cell, exactly the bit of its pair differs. -/
theorem bit_ne_iff (coalesced : pool.Coalesced cells free)
    (coalesced' : pool'.Coalesced cells' free') (alike : Zone.Alike pool.zone pool'.zone)
    (h : level < orderCount) (inside : Within pool.zone.Has level cell)
    (others : ∀ other, other ≠ cell → (other ∈ cells' level ↔ other ∈ cells level))
    (changed : cell ∈ cells' level ↔ cell ∉ cells level) (pair : Nat) :
    (pool'.zone.areaOf level).pairs.bit pair ≠ (pool.zone.areaOf level).pairs.bit pair ↔
      pool.PairOf level (pool.zone.geometry.blockAt level cell) pair := by
  have old := coalesced.paired level h
    (pair + (pool.zone.areaOf level).pairs.base >>> (level + 1)) (Nat.le_add_left _ _)
  have new := coalesced'.paired level h
    (pair + (pool'.zone.areaOf level).pairs.base >>> (level + 1)) (Nat.le_add_left _ _)
  rw [Zone.pairBit, Nat.add_sub_cancel] at old new
  rw [new, (alike.reach level).base_eq, xor_halves others changed, ← old,
    coalesced.pairOf_iff h inside]
  cases (pool.zone.areaOf level).pairs.bit pair <;> simp

/-- A lower order lists the upper half of what was halved there. -/
theorem listOf_splits (coalesced : pool.Coalesced cells free)
    (first : First cells order found cell rest)
    (coalesced' : pool'.Coalesced
      (halved (unlisted cells found cell) order cell (found - order)) free')
    (alike : Zone.Alike pool.zone pool'.zone) (level : Nat) :
    pool'.listOf level =
      if level = found then (pool.listOf found).tail
      else if order ≤ level ∧ level < found then
        [pool.zone.geometry.blockAt found cell + pool.zone.geometry.size <<< level]
      else pool.listOf level := by
  by_cases h : level < orderCount
  · rw [coalesced'.listOf_map h, first.halved_apply, alike.blockAt_eq, coalesced.listOf_map h,
      coalesced.listOf_map first.lt, first.cells_eq]
    split
    · next here => rw [here]; rfl
    · split
      · next passed =>
          rw [List.map_singleton, Geometry.blockAt_upper _ cell (Nat.le_of_lt passed.2)]
      · rfl
  · have lt := first.lt
    rw [if_neg (by omega), if_neg (by omega), listOf, listOf,
      pool.zone.areaOf_of_le (Nat.le_of_not_lt h), pool'.zone.areaOf_of_le (Nat.le_of_not_lt h)]
    rfl

/-- The bits that flip are those of the block and of each upper half that was cut off. -/
theorem flipped_splits (coalesced : pool.Coalesced cells free)
    (first : First cells order found cell rest)
    (coalesced' : pool'.Coalesced
      (halved (unlisted cells found cell) order cell (found - order)) free')
    (alike : Zone.Alike pool.zone pool'.zone) (level pair : Nat) :
    (pool'.zone.areaOf level).pairs.bit pair ≠ (pool.zone.areaOf level).pairs.bit pair ↔
      (level = found ∧ pool.PairOf found (pool.zone.geometry.blockAt found cell) pair) ∨
        (order ≤ level ∧ level < found ∧ pool.PairOf level
          (pool.zone.geometry.blockAt found cell + pool.zone.geometry.size <<< level) pair) := by
  have listing := first.halved_apply level
  have inside := first.inside coalesced
  by_cases here : level = found
  · -- the list that lost its head
    subst here
    have member : cell ∈ cells level := by
      rw [first.cells_eq]
      exact List.mem_cons_self
    have nodup := coalesced.lists.nodup level first.lt
    rw [first.cells_eq] at nodup
    have absent : cell ∉ rest := (List.nodup_cons.1 nodup).1
    rw [if_pos rfl] at listing
    have others : ∀ other, other ≠ cell →
        (other ∈ halved (unlisted cells level cell) order cell (level - order) level ↔
          other ∈ cells level) := by
      intro other distinct
      rw [listing, first.cells_eq, List.mem_cons, or_iff_right distinct]
    rw [coalesced.bit_ne_iff coalesced' alike first.lt inside others
      (by rw [listing]; exact iff_of_false absent fun gone => gone member)]
    simp
  by_cases passed : order ≤ level ∧ level < found
  · -- a list that was empty and has an upper half now
    have h := Nat.lt_trans passed.2 first.lt
    rw [if_neg here, if_pos passed] at listing
    have empty := first.below level passed.1 passed.2
    rw [coalesced.bit_ne_iff coalesced' alike h (Cell.within_upper inside passed.2)
      (by simp +contextual [listing, empty]) (by simp [listing, empty]),
      Geometry.blockAt_upper _ cell (Nat.le_of_lt passed.2)]
    simp [here, passed]
  · -- a list that is what it was, if the order has one at all
    rw [if_neg here, if_neg passed] at listing
    refine iff_of_false (not_not.2 ?_) ?_
    · by_cases h : level < orderCount
      · have words := coalesced.words_eq coalesced' alike h fun other => by rw [listing]
        rw [PairBitmap.bit, words]
        rfl
      · rw [pool.zone.areaOf_of_le (Nat.le_of_not_lt h),
          pool'.zone.areaOf_of_le (Nat.le_of_not_lt h)]
    · rintro (⟨same, -⟩ | ⟨above, below, -⟩)
      · exact here same
      · exact passed ⟨above, below⟩

/-- Taking the first block off the least list that has one splits that block. -/
theorem splits (coalesced : pool.Coalesced cells free)
    (first : First cells order found cell rest)
    (coalesced' : pool'.Coalesced
      (halved (unlisted cells found cell) order cell (found - order)) free')
    (alike : Zone.Alike pool.zone pool'.zone) :
    pool.Splits pool' order found (pool.zone.geometry.blockAt found cell) where
  listOf_eq := coalesced.listOf_splits first coalesced' alike
  length_eq := coalesced'.length_eq
  paired := coalesced.exists_pairOf first.lt (first.inside coalesced)
  upper_paired := by
    intro level _ below
    rw [← Geometry.blockAt_upper _ cell (Nat.le_of_lt below)]
    exact coalesced.exists_pairOf (Nat.lt_trans below first.lt)
      (Cell.within_upper (first.inside coalesced) below)
  flipped_iff := coalesced.flipped_splits first coalesced' alike
  alike := alike

end Coalesced

theorem Coalesced.exhausted_iff (coalesced : pool.Coalesced cells free) :
    Exhausted cells order ↔ ∀ level, order ≤ level → level < orderCount →
      pool.listOf level = [] := by
  refine forall_congr' fun level => imp_congr_right fun _ => forall_congr' fun h => ?_
  rw [coalesced.listOf_map h, List.map_eq_nil_iff]

end Pool

theorem ZoneId.exists_before (id : ZoneId) : ∃ before later, all = before ++ id :: later ∧
    ∀ other ∈ before, other.index < id.index := by
  cases id with
  | noHeap => exact ⟨[], [.heap], rfl, by decide⟩
  | heap => exact ⟨[.noHeap], [], rfl, by decide⟩

namespace BuddyAllocator

open Cell (Within)

/-- The block that a request comes upon: zones are searched in turn, and orders upwards. -/
structure Foremost (buddy : BuddyAllocator) (order : Nat) (id : ZoneId) (found block : Nat) :
    Prop where
  allocatable : (buddy.zones.get id).allocatable = true
  le : order ≤ found
  lt : found < orderCount
  head_eq : ((buddy.pool id).listOf found).head? = some block
  below : ∀ level, order ≤ level → level < found → (buddy.pool id).listOf level = []
  earlier : ∀ other, other.index < id.index → (buddy.zones.get other).allocatable = true →
    ∀ level, order ≤ level → level < orderCount → (buddy.pool other).listOf level = []

/-- A block was found, split and handed out, and nothing else was done. -/
structure SplitsOff (buddy after : BuddyAllocator) (order : Nat) (id : ZoneId)
    (found block : Nat) : Prop where
  splits : (buddy.pool id).Splits (after.pool id) order found block
  elsewhere : ∀ other ≠ id, after.zones.get other = buddy.zones.get other ∧
    ∀ level, (after.pool other).listOf level = (buddy.pool other).listOf level
  vacant : ∃ old, buddy.pages.page? (buddy.geometry.frameOf block) = some old ∧
    old.owner = .unowned
  page?_eq : ∀ frame, after.pages.page? frame =
    if frame = buddy.geometry.frameOf block then some ⟨id, block, .buddy, order, none⟩
    else buddy.pages.page? frame
  agrees : buddy.ram.AgreesOff after.ram fun byte => buddy.Free id (buddy.geometry.frameOf byte)

/--
What becomes of an allocator among its users: calls with any arguments, pages that
go from their holders to caches, and writes that spare the free pages.
-/
inductive Reaches (buddy : BuddyAllocator) : BuddyAllocator → Prop
  | refl : Reaches buddy buddy
  | call {after : BuddyAllocator} (reached : Reaches buddy after) (call : Call) :
      Reaches buddy (call.perform after)
  | assign {after : BuddyAllocator} (reached : Reaches buddy after) {address cache : Nat}
      {page : Page} (found : after.pages.page? (after.geometry.frameOf address) = some page)
      (owner_eq : page.owner = .buddy) (order_eq : page.order = 0) :
      Reaches buddy ((assignToSlab address cache).run after).state
  | write {after : BuddyAllocator} (reached : Reaches buddy after) {ram : Ram}
      (agrees : after.ram.AgreesOff ram fun byte => ∀ id,
        (after.zones.get id).allocatable = true → ¬ after.Free id (after.geometry.frameOf byte)) :
      Reaches buddy { after with ram := ram }

variable {raw buddy state after : BuddyAllocator} {order found block : Nat} {id : ZoneId}

/-- The foremost block begins where the first cell of the least order does. -/
theorem Foremost.first (foremost : buddy.Foremost order id found block)
    {cells : Nat → List Nat} {free : Nat → Prop}
    (coalesced : (buddy.pool id).Coalesced cells free) :
    ∃ cell rest, Pool.First cells order found cell rest ∧
      block = (buddy.pool id).zone.geometry.blockAt found cell := by
  have head := foremost.head_eq
  rw [coalesced.listOf_map foremost.lt, List.head?_map, Option.map_eq_some_iff] at head
  obtain ⟨cell, listed, rfl⟩ := head
  obtain ⟨rest, cells_eq⟩ := List.head?_eq_some_iff.1 listed
  refine ⟨cell, rest, ⟨foremost.le, foremost.lt, fun level le below => ?_, cells_eq⟩, rfl⟩
  have empty := foremost.below level le below
  rwa [coalesced.listOf_map (Nat.lt_trans below foremost.lt), List.map_eq_nil_iff] at empty

theorem Sound.reaches (sound : buddy.Sound) (reached : buddy.Reaches after) : after.Sound := by
  induction reached with
  | refl => exact sound
  | call _ call ih => exact ih.perform call
  | @assign after _ address cache page known owner_eq order_eq ih =>
      have assigned : Action.Answers (assignToSlab address cache) after ()
          ⟨after.ram, after.zones,
            after.pages.set (after.geometry.frameOf address) (page.assignToSlab cache)⟩ := by
        simp only [assignToSlab, Action.answers_get_bind_iff]
        exact Action.answers_bind_iff.2 ⟨_, _, answers_updatePage_iff.2
          ⟨_, ih.regular.ofFrame_eq known, rfl, rfl⟩, Action.answers_pure_iff.2 ⟨rfl, rfl⟩⟩
      rw [assigned.2]
      exact ih.reassign known (by simp [owner_eq]) (by simp [Page.assignToSlab]) order_eq.symm
        rfl rfl
  | write _ agrees ih => exact ih.congr_ram agrees fun byte spared => spared

namespace Sound

/-- Where some zone can serve a request, there is a foremost block for it. -/
theorem exists_foremost (sound : buddy.Sound)
    (allocatable : (buddy.zones.get id).allocatable = true) {level : Nat} (le : order ≤ level)
    (lt : level < orderCount) (listed : (buddy.pool id).listOf level ≠ []) :
    ∃ id found block, buddy.Foremost order id found block := by
  let serving : Set ZoneId := { id | (buddy.zones.get id).allocatable = true ∧
    ∃ level, order ≤ level ∧ level < orderCount ∧ (buddy.pool id).listOf level ≠ [] }
  obtain ⟨id, ⟨allocatable, level, le, lt, listed⟩, least⟩ :=
    (measure ZoneId.index).wf.has_min serving ⟨id, allocatable, level, le, lt, listed⟩
  obtain ⟨cells, coalesced⟩ := sound.coalesced id allocatable
  have some : ¬ Pool.Exhausted cells order := fun exhausted =>
    listed (coalesced.exhausted_iff.1 exhausted level le lt)
  obtain ⟨found, cell, rest, first⟩ := Pool.exists_first_of_not_exhausted some
  refine ⟨id, found, (buddy.pool id).zone.geometry.blockAt found cell, allocatable, first.le,
    first.lt, ?_, ?_, ?_⟩
  · rw [coalesced.listOf_map first.lt, first.cells_eq]
    rfl
  · intro level le below
    rw [coalesced.listOf_map (Nat.lt_trans below first.lt), first.below level le below]
    rfl
  · intro other earlier there level le lt
    by_contra listed
    exact least other ⟨there, level, le, lt, listed⟩ earlier

theorem foremost_of_answers (sound : buddy.Sound) {page : Page}
    (answers : Action.Answers (BuddyAllocator.allocate order).outcome buddy (.ok page) after) :
    ∃ id found block, buddy.Foremost order id found block := by
  obtain ⟨id, cell, handed, -⟩ := sound.handed_of_answers answers
  obtain ⟨cells, coalesced⟩ := sound.coalesced id handed.allocatable
  obtain ⟨level, taken⟩ := handed.taken
  have some : ¬ Pool.Exhausted cells order := fun exhausted => by
    cases taken.value_unique (coalesced.take_none exhausted)
  obtain ⟨found, cell, rest, first⟩ := Pool.exists_first_of_not_exhausted some
  refine sound.exists_foremost handed.allocatable first.le first.lt ?_
  rw [coalesced.listOf_map first.lt, first.cells_eq]
  exact List.cons_ne_nil _ _

/-- Zones that can give nothing are passed over. -/
theorem takeFrom_append (sound : buddy.Sound) {before rest : List ZoneId}
    {taken : Option (Nat × Nat)}
    (passed : ∀ id ∈ before, (buddy.zones.get id).allocatable = true →
      ∀ level, order ≤ level → level < orderCount → (buddy.pool id).listOf level = [])
    (answers : Action.Answers (BuddyAllocator.takeFrom order rest) buddy taken after) :
    Action.Answers (BuddyAllocator.takeFrom order (before ++ rest)) buddy taken after := by
  induction before with
  | nil => exact answers
  | cons id before ih =>
      have answers' := ih fun other member => passed other (List.mem_cons_of_mem id member)
      by_cases allocatable : (buddy.zones.get id).allocatable = true
      · obtain ⟨cells, coalesced⟩ := sound.coalesced id allocatable
        have exhausted := coalesced.exhausted_iff.2 (passed id List.mem_cons_self allocatable)
        exact takeFrom_of_none allocatable (coalesced.take_none exhausted) answers'
      · exact takeFrom_of_idle allocatable answers'

/-- What a request that is served does: it splits the foremost block. -/
theorem splitsOff (sound : buddy.Sound) {page : Page}
    (answers : Action.Answers (BuddyAllocator.allocate order).outcome buddy (.ok page) after) :
    ∃ id found block, buddy.Foremost order id found block ∧
      page = ⟨id, block, .buddy, order, none⟩ ∧ buddy.SplitsOff after order id found block := by
  have h : order < orderCount := by
    by_contra large
    cases answers.value_unique (allocate_large (Nat.le_of_not_lt large))
  obtain ⟨id, found, block, foremost⟩ := sound.foremost_of_answers answers
  obtain ⟨cells, coalesced⟩ := sound.coalesced id foremost.allocatable
  obtain ⟨cell, rest, first, rfl⟩ := foremost.first coalesced
  obtain ⟨pool, taken, coalesced', touches, within⟩ := sound.take_first coalesced first
  obtain ⟨before, later, all_eq, earlier⟩ := id.exists_before
  have searched : Action.Answers (BuddyAllocator.takeFrom order ZoneId.all) buddy
      (some (buddy.geometry.blockAt order (cell <<< (found - order)), found))
      (buddy.withPool id pool buddy.pages) := by
    rw [all_eq]
    exact sound.takeFrom_append (fun other member => foremost.earlier other (earlier other member))
      (takeFrom_of_some foremost.allocatable taken)
  obtain ⟨after', handed, answers'⟩ :=
    sound.hands h foremost.allocatable within searched taken coalesced' touches
  obtain rfl := answers.state_unique answers'
  obtain ⟨level, taken'⟩ := handed.taken
  obtain rfl := taken'.state_unique taken
  have geometry : (buddy.pool id).zone.geometry = buddy.geometry := sound.geometry_eq id
  have place : (buddy.pool id).zone.geometry.blockAt found cell =
      buddy.geometry.blockAt order (cell <<< (found - order)) := by
    rw [← Geometry.blockAt_add, Nat.add_sub_cancel' first.le, geometry]
  have frame : buddy.geometry.frameOf ((buddy.pool id).zone.geometry.blockAt found cell) =
      cell <<< (found - order) <<< order := by
    rw [place, Geometry.frameOf_blockAt]
  obtain ⟨old, known⟩ := handed.found
  refine ⟨id, found, _, foremost, ?_, coalesced.splits first coalesced' touches.alike, ?_, ?_, ?_,
    handed.agrees⟩
  · rw [place]
    exact Except.ok.inj (answers.value_unique answers')
  · intro other distinct
    exact ⟨handed.elsewhere other distinct, sound.listOf_elsewhere handed.allocatable distinct
      (handed.elsewhere other distinct) handed.agrees⟩
  · rw [frame]
    exact ⟨old, known, handed.unowned known⟩
  · intro other
    rw [handed.page?_eq sound, frame, place]

end Sound

/--
Whatever became of an allocator, a request that is served gets the first part of the
foremost block: its list loses its head, each smaller order down to the one asked
for, which listed nothing, lists the upper half cut off there, exactly the bits of
their pairs flip, exactly the first page's descriptor changes, and nothing else does.
-/
theorem reached_splits (built : Built raw buddy) (reached : buddy.Reaches state) {page : Page}
    (served : Action.Answers (allocate order).outcome state (.ok page) after) :
    ∃ id found block, state.Foremost order id found block ∧
      page = ⟨id, block, .buddy, order, none⟩ ∧ state.SplitsOff after order id found block :=
  (built.sound.1.reaches reached).splitsOff served

/-- On a small machine two pages are split off a block of eight. -/
theorem reached_splits_sample :
    ∃ id found block,
      (sampleSeeded.run [.allocate 0, .allocate 1, .allocate 1]).Foremost 1 id found block ∧
      (⟨.heap, 8192, .buddy, 1, none⟩ : Page) = ⟨id, block, .buddy, 1, none⟩ ∧
      (sampleSeeded.run [.allocate 0, .allocate 1, .allocate 1]).SplitsOff
        (sampleSeeded.run [.allocate 0, .allocate 1, .allocate 1, .allocate 1]) 1 id found block :=
  reached_splits sample_built (((Reaches.refl.call (.allocate 0)).call (.allocate 1)).call
    (.allocate 1)) ⟨by decide +kernel, rfl⟩

end BuddyAllocator

end PhysicalMemory
