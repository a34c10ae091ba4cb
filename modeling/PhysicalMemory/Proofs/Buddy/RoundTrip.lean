import PhysicalMemory.Proofs.Buddy.Canonical
import PhysicalMemory.Proofs.Buddy.Onward

/-!
# Giving a block straight back

Taking a block puts the upper half of everything that is halved in front of its
list.  Giving the block straight back finds these halves listed, takes each off
again, and ends where the block came from: there its buddy is not listed, or the
order is the largest.  So every list is the same sequence as before, and the pair
bits and the descriptors are what they were.
-/

namespace PhysicalMemory

/-- Zones that differ at most in their free blocks and pair bits are the same if these are. -/
theorem Zone.Alike.eq_of_areaOf {zone zone' : Zone} (alike : Zone.Alike zone zone')
    (same : ∀ order < orderCount, zone'.areaOf order = zone.areaOf order) : zone' = zone := by
  have areas : zone'.areas = zone.areas := by
    apply Vector.ext
    intro order h
    have area := same order h
    rwa [areaOf, areaOf, Vector.getElem?_eq_getElem h, Vector.getElem?_eq_getElem h] at area
  have id_eq := alike.id_eq
  have allocatable_eq := alike.allocatable_eq
  have start_eq := alike.start_eq
  have size_eq := alike.size_eq
  have geometry_eq := alike.geometry_eq
  cases zone
  cases zone'
  simp only at areas id_eq allocatable_eq start_eq size_eq geometry_eq
  simp only [areas, id_eq, allocatable_eq, start_eq, size_eq, geometry_eq]

theorem Zone.areaOf_of_le (zone : Zone) {order : Nat} (h : orderCount ≤ order) :
    zone.areaOf order = default := by
  rw [areaOf, Vector.getElem?_eq_none h]
  rfl

namespace Pool

open Cell (Within Outside joined without)

variable {pool pool' middle : Pool} {cells : Nat → List Nat} {free free' : Nat → Prop}
  {order cell found : Nat} {rest : List Nat}

theorem mem_listed_self : cell ∈ listed cells order cell order :=
  mem_listed_iff.2 (.inr ⟨rfl, rfl⟩)

theorem unlisted_listed : unlisted (listed cells order cell) order cell = cells := by
  rw [unlisted, listed, Function.update_self, List.erase_cons_head, Function.update_idem,
    Function.update_eq_self]

/-- The first cell of a list that is taken off and put in front again stands where it stood. -/
theorem listed_unlisted (first : cells order = cell :: rest) :
    listed (unlisted cells order cell) order cell = cells := by
  rw [listed, unlisted, Function.update_self, first, List.erase_cons_head, Function.update_idem,
    ← first, Function.update_eq_self]

/-- Merging a cell that was got by halving a larger one goes on as merging the larger one does. -/
theorem merged_halved (levels more : Nat) :
    merged (halved cells order cell levels) order (cell <<< levels) (levels + more) =
      merged cells (order + levels) cell more := by
  induction levels generalizing cells cell more with
  | zero => simp [halved]
  | succ levels ih =>
      have lowest : cell <<< (levels + 1) = (2 * cell) <<< levels := by
        rw [Nat.add_comm levels 1, Nat.shiftLeft_add, Nat.shiftLeft_eq cell 1, Nat.mul_comm cell]
      have buddy : (2 * cell) ^^^ 1 = 2 * cell + 1 := by
        rw [Cell.xor_one_eq, if_pos (by omega)]
      -- the upper half was listed last at its order, so it is found there first
      rw [halved, lowest, show levels + 1 + more = levels + (more + 1) by omega, ih, merged, buddy,
        if_pos mem_listed_self, unlisted_listed, Nat.mul_div_cancel_left cell (by decide)]
      rfl

theorem Coalesced.buddy_not_listed (coalesced : pool.Coalesced cells free)
    (below : order < topOrder) (member : cell ∈ cells order) : cell ^^^ 1 ∉ cells order := by
  have h : order < orderCount := Nat.lt_succ_of_lt below
  intro other
  have maximal := (coalesced.maximal order h cell).1 member
  have whole := ((coalesced.maximal order h _).1 other).1
  exact maximal.2 below (Cell.within_parent_iff.2 ⟨maximal.1, whole⟩)

/-- Merging the lowest part of the cell that was found restores the listing. -/
theorem Coalesced.merged_taken (coalesced : pool.Coalesced cells free)
    (first : First cells order found cell rest) :
    merged (halved (unlisted cells found cell) order cell (found - order)) order
      (cell <<< (found - order)) (topOrder - order) = cells := by
  obtain ⟨levels, rfl⟩ := Nat.exists_eq_add_of_le first.le
  have le : order + levels ≤ topOrder := Nat.le_of_lt_succ first.lt
  have member : cell ∈ cells (order + levels) := by
    rw [first.cells_eq]
    exact List.mem_cons_self
  rw [Nat.add_sub_cancel_left,
    show topOrder - order = levels + (topOrder - (order + levels)) by omega, merged_halved]
  cases height : topOrder - (order + levels) with
  | zero => exact listed_unlisted first.cells_eq
  | succ more =>
      have absent : cell ^^^ 1 ∉ unlisted cells (order + levels) cell (order + levels) :=
        fun other => coalesced.buddy_not_listed (by omega) member
          ((mem_unlisted_iff (coalesced.lists.nodup _ first.lt)).1 other).1
      rw [merged, if_neg absent]
      exact listed_unlisted first.cells_eq

theorem Coalesced.zone_eq (coalesced : pool.Coalesced cells free)
    (coalesced' : pool'.Coalesced cells free') (alike : Zone.Alike pool.zone pool'.zone) :
    pool'.zone = pool.zone := by
  apply alike.eq_of_areaOf
  intro order h
  have spells := coalesced.lists.spells order h
  have spells' := coalesced'.lists.spells order h
  rw [alike.geometry_eq] at spells'
  have head : (pool'.zone.areaOf order).free.head = (pool.zone.areaOf order).free.head :=
    spells'.threads.head?_eq.symm.trans spells.threads.head?_eq
  have length : (pool'.zone.areaOf order).free.length = (pool.zone.areaOf order).free.length :=
    spells'.length_eq.trans spells.length_eq.symm
  have words := coalesced.words_eq coalesced' alike h fun _ => Iff.rfl
  have reach := alike.reach order
  have free_eq : (pool'.zone.areaOf order).free = (pool.zone.areaOf order).free := by
    cases left : (pool'.zone.areaOf order).free
    cases right : (pool.zone.areaOf order).free
    simp_all
  have pairs_eq : (pool'.zone.areaOf order).pairs = (pool.zone.areaOf order).pairs := by
    have order_eq := reach.order_eq
    have base_eq := reach.base_eq
    have place_eq := reach.place_eq
    cases left : (pool'.zone.areaOf order).pairs
    cases right : (pool.zone.areaOf order).pairs
    simp_all
  cases left : pool'.zone.areaOf order
  cases right : pool.zone.areaOf order
  simp_all

theorem Coalesced.listOf_eq (coalesced : pool.Coalesced cells free)
    (coalesced' : pool'.Coalesced cells free') (same : pool'.zone = pool.zone) (order : Nat) :
    pool'.listOf order = pool.listOf order := by
  by_cases h : order < orderCount
  · rw [listOf, listOf, coalesced'.lists.toList_eq coalesced'.ready h,
      coalesced.lists.toList_eq coalesced.ready h, same]
  · rw [listOf, listOf, same, pool.zone.areaOf_of_le (Nat.le_of_not_lt h)]
    rfl

/-- A block that is taken and given straight back leaves the lists as they were. -/
theorem Coalesced.take_give (coalesced : pool.Coalesced cells free) {block level : Nat}
    {answer : Nat × Nat} (taken : Action.Answers (take order) pool (some (block, level)) middle)
    (given : Action.Answers (Pool.give block order) middle answer pool') :
    (∃ free', pool'.Coalesced cells free') ∧ Zone.Alike pool.zone pool'.zone := by
  by_cases exhausted : Exhausted cells order
  · cases taken.value_unique (coalesced.take_none exhausted)
  obtain ⟨found, cell, rest, first⟩ := exists_first_of_not_exhausted exhausted
  obtain ⟨pool₁, taken₁, coalesced₁, touches₁, whole⟩ := coalesced.take_some first
  obtain ⟨rfl, -⟩ := Prod.mk.inj (Option.some.inj (taken.value_unique taken₁))
  obtain rfl := taken.state_unique taken₁
  have h : order < orderCount := Nat.lt_of_le_of_lt first.le first.lt
  have place : pool.zone.geometry.blockAt found cell =
      middle.zone.geometry.blockAt order (cell <<< (found - order)) := by
    rw [touches₁.alike.geometry_eq, ← Geometry.blockAt_add, Nat.add_sub_cancel' first.le]
  have inside : Within middle.zone.Has order (cell <<< (found - order)) := by
    intro frame same
    apply (touches₁.alike.has_iff frame).2
    apply coalesced.within frame (whole frame _)
    rw [Cell.shiftRight_of_le first.le, same, Cell.shiftLeft_shiftRight]
  obtain ⟨pool₂, answer₂, given₂, coalesced₂, touches₂⟩ :=
    coalesced₁.give h inside fun frame same left => left.2 same
  rw [place] at given
  obtain rfl := given.state_unique given₂
  rw [coalesced.merged_taken first] at coalesced₂
  exact ⟨⟨_, coalesced₂⟩, touches₁.alike.trans touches₂.alike⟩

end Pool

namespace DescriptorTable

variable {table : DescriptorTable} {frame : Nat} {old : Page}

theorem Regular.set_set (regular : table.Regular) (found : table.page? frame = some old)
    (page : Page) : (table.set frame page).set frame old = table := by
  have slot := (page?_eq_some_iff.1 found).2
  rw [← regular.slot_eq found] at slot
  have inside : table.slot frame < table.pages.size := (Array.getElem?_eq_some_iff.1 slot).1
  have pages : (table.pages.setIfInBounds (table.slot frame) page).setIfInBounds
      (table.slot frame) old = table.pages := by
    apply Array.ext_getElem?
    intro place
    rw [Array.getElem?_setIfInBounds, Array.size_setIfInBounds, Array.getElem?_setIfInBounds]
    split
    · next same => rw [← same, slot]
    · rfl
  exact congrArg (fun pages =>
    DescriptorTable.mk table.geometry table.first pages table.place) pages

end DescriptorTable

theorem ZonePair.ext_get {zones zones' : ZonePair} (same : ∀ id, zones'.get id = zones.get id) :
    zones' = zones := by
  have noHeap := same .noHeap
  have heap := same .heap
  cases zones
  cases zones'
  simp only [ZonePair.get] at noHeap heap
  rw [noHeap, heap]

namespace BuddyAllocator

open Cell (Within joined)

variable {raw buddy after restored : BuddyAllocator} {order cell : Nat} {id : ZoneId}

/--
The allocator is as it was: every free list with its count, every bitmap word and
every descriptor, and all of memory that is in no free block.
-/
structure Restored (buddy restored : BuddyAllocator) : Prop where
  zones_eq : restored.zones = buddy.zones
  pages_eq : restored.pages = buddy.pages
  lists_eq : ∀ id order, (restored.pool id).listOf order = (buddy.pool id).listOf order
  agrees : buddy.ram.AgreesOff restored.ram fun byte =>
    ∃ id, buddy.Free id (buddy.geometry.frameOf byte)

/-- The descriptor of a block that was handed out becomes what it was when it is released. -/
theorem Handed.release_eq (handed : buddy.Handed after order id cell) (sound : buddy.Sound)
    (unownedBare : buddy.pages.UnownedBare) :
    buddy.pages.page? (cell <<< order) =
      some (Page.release ⟨id, buddy.geometry.blockAt order cell, .buddy, order, none⟩) := by
  obtain ⟨old, found, place⟩ := handed.exists_old sound
  obtain ⟨start, tag⟩ := Prod.mk.inj place
  have unowned := handed.unowned found
  obtain ⟨least, uncached⟩ := unownedBare _ _ found unowned
  rw [found, ← start, ← tag, Page.release]
  cases old
  simp_all

/-- Writing in the free frames of one zone leaves the lists of another that stays as it is. -/
theorem Sound.listOf_elsewhere (sound : buddy.Sound) {other : ZoneId}
    (allocatable : (buddy.zones.get id).allocatable = true) (distinct : other ≠ id)
    (still : after.zones.get other = buddy.zones.get other)
    (agrees : buddy.ram.AgreesOff after.ram fun byte =>
      buddy.Free id (buddy.geometry.frameOf byte)) (order : Nat) :
    (after.pool other).listOf order = (buddy.pool other).listOf order := by
  by_cases there : (buddy.zones.get other).allocatable = true
  · obtain ⟨cells, coalesced⟩ := sound.coalesced other there
    have apart : ∀ frame, buddy.Free id frame → ¬ buddy.Free other frame := fun frame free free' =>
      distinct (sound.zone_unique there allocatable free'.1 free.1)
    rw [← show (buddy.pool other).zone.geometry = buddy.geometry from sound.geometry_eq other]
      at agrees
    have kept := coalesced.congr_ram agrees apart
    rw [show (buddy.pool other).zone = (after.pool other).zone from still.symm] at kept
    exact coalesced.listOf_eq kept still order
  · have none : ((buddy.pool other).zone.areaOf order).free = {} := by
      rcases Nat.lt_or_ge order orderCount with h | h
      · exact sound.idle other (Bool.eq_false_iff.2 there) order h
      · rw [Zone.areaOf_of_le _ h]
        rfl
    rw [Pool.listOf, Pool.listOf, show (after.pool other).zone = (buddy.pool other).zone from still,
      none]
    rfl

namespace Handed

variable (handed : buddy.Handed after order id cell) (sound : buddy.Sound)
  (recovered : after.Recovered restored (cell <<< order)
    ⟨id, buddy.geometry.blockAt order cell, .buddy, order, none⟩)

include handed recovered

theorem coalesced_restored {cells : Nat → List Nat}
    (coalesced : (buddy.pool id).Coalesced cells (buddy.Free id)) :
    ∃ free, (restored.pool id).Coalesced cells free := by
  obtain ⟨level, taken⟩ := handed.taken
  obtain ⟨answer, given⟩ := recovered.given
  exact (coalesced.take_give taken given).1

include sound

theorem agrees_restored : buddy.ram.AgreesOff restored.ram fun byte =>
    buddy.Free id (buddy.geometry.frameOf byte) := by
  refine handed.agrees.trans (recovered.agrees.mono fun byte inside => ?_)
  rw [handed.geometry_eq] at inside
  rcases inside with ⟨has, untaken⟩ | own
  · rw [handed.taken_iff sound, not_or] at untaken
    exact ⟨((handed.alike id).has_iff _).1 has, untaken.1⟩
  · rw [Cell.shiftLeft_shiftRight] at own
    exact handed.within _ own

theorem pool_restored_of_ne {other : ZoneId} (distinct : other ≠ id) :
    restored.zones.get other = buddy.zones.get other ∧
      ∀ order, (restored.pool other).listOf order = (buddy.pool other).listOf order := by
  have still : restored.zones.get other = buddy.zones.get other :=
    (recovered.elsewhere other distinct).trans (handed.elsewhere other distinct)
  exact ⟨still, sound.listOf_elsewhere handed.allocatable distinct still
    (handed.agrees_restored sound recovered)⟩

theorem pool_restored (other : ZoneId) :
    restored.zones.get other = buddy.zones.get other ∧
      ∀ order, (restored.pool other).listOf order = (buddy.pool other).listOf order := by
  by_cases here : other = id
  · subst here
    obtain ⟨cells, coalesced⟩ := sound.coalesced other handed.allocatable
    obtain ⟨free, coalesced'⟩ := handed.coalesced_restored recovered coalesced
    have same := coalesced.zone_eq coalesced' ((handed.alike other).trans (recovered.alike other))
    exact ⟨same, coalesced.listOf_eq coalesced' same⟩
  · exact handed.pool_restored_of_ne sound recovered here

/-- What was handed out and taken straight back restores the allocator. -/
theorem restores (unownedBare : buddy.pages.UnownedBare) : buddy.Restored restored where
  zones_eq := ZonePair.ext_get fun other => (handed.pool_restored sound recovered other).1
  pages_eq := by
    rw [recovered.pages_eq, handed.pages_eq]
    exact sound.regular.set_set (handed.release_eq sound unownedBare) _
  lists_eq := fun other => (handed.pool_restored sound recovered other).2
  agrees := (handed.agrees_restored sound recovered).mono fun byte free => ⟨id, free⟩

end Handed

/-- A block that was handed out is taken back by its start. -/
theorem Handed.exists_recovered (handed : buddy.Handed after order id cell) (sound : buddy.Sound) :
    ∃ restored, Action.Answers (free (buddy.geometry.blockAt order cell) order) after ()
        restored ∧
      after.Recovered restored (cell <<< order)
        ⟨id, buddy.geometry.blockAt order cell, .buddy, order, none⟩ := by
  have frame : after.geometry.frameOf (buddy.geometry.blockAt order cell) = cell <<< order := by
    rw [handed.geometry_eq, Geometry.frameOf_blockAt]
  have found : after.pages.page? (after.geometry.frameOf (buddy.geometry.blockAt order cell)) =
      some ⟨id, buddy.geometry.blockAt order cell, .buddy, order, none⟩ := by
    rw [frame, handed.page?_eq sound, if_pos rfl]
  obtain ⟨restored, recovered, answers⟩ := handed.sound.free found rfl
  rw [frame] at recovered
  exact ⟨restored, answers, recovered⟩

/-- What a request answered was handed out from free frames. -/
theorem Sound.handed_of_answers (sound : buddy.Sound) {page : Page}
    (answers : Action.Answers (BuddyAllocator.allocate order).outcome buddy (.ok page) after) :
    ∃ id cell, buddy.Handed after order id cell ∧
      page = ⟨id, buddy.geometry.blockAt order cell, .buddy, order, none⟩ := by
  rcases Nat.lt_or_ge order orderCount with h | h
  · rcases sound.allocate h with ⟨refused, -⟩ | ⟨id, cell, after', handed, answers'⟩
    · cases answers.value_unique refused
    · obtain rfl := answers.state_unique answers'
      exact ⟨id, cell, handed, Except.ok.inj (answers.value_unique answers')⟩
  · cases answers.value_unique (allocate_large h)

/-- After any calls a block that is allocated and given straight back restores the allocator. -/
theorem Built.exists_restored (built : Built raw buddy) (calls : List Call) {page : Page}
    (answers : Action.Answers (allocate order).outcome (buddy.run calls) (.ok page) after) :
    ∃ restored, Action.Answers (free page.start order) after () restored ∧
      (buddy.run calls).Restored restored := by
  obtain ⟨sound, -, -, -⟩ := built.sound
  have sound' := sound.run calls
  obtain ⟨id, cell, handed, rfl⟩ := sound'.handed_of_answers answers
  obtain ⟨restored, answers, recovered⟩ := handed.exists_recovered sound'
  have unownedBare := sound.run_unownedBare built.unownedBare calls
  exact ⟨restored, answers, handed.restores sound' recovered unownedBare⟩

end BuddyAllocator

end PhysicalMemory
