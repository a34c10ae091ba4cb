import PhysicalMemory.Proofs.Buddy.Onward
import PhysicalMemory.Proofs.Slab.Object

/-!
# New slabs

A page that is turned into a slab comes from the free frames of the heap.  Its
descriptor then says which cache it serves, and the page keeps all objects free.
Nothing else that is held changes: all that is written was free before.
-/

namespace PhysicalMemory

def Page.serving (slab cache : Nat) : Page :=
  ⟨.heap, slab, .slab, 0, some cache⟩

namespace BuddyAllocator

variable {α : Type} {buddy after : BuddyAllocator} {cache objectSize frame slab : Nat}

@[simp] theorem answers_inRam_iff {action : Action Ram α} {value : α} :
    Action.Answers (inRam action) buddy value after ↔
      ∃ ram, Action.Answers action buddy.ram value ram ∧
        after = { buddy with ram := ram } := by
  simp only [Action.Answers, run_inRam]
  constructor
  · rintro ⟨result, rfl⟩
    exact ⟨_, ⟨result, rfl⟩, rfl⟩
  · rintro ⟨ram, ⟨result, rfl⟩, rfl⟩
    exact ⟨result, rfl⟩

theorem answers_onRam {action : Action Ram α} {value : α} {ram : Ram}
    (answers : Action.Answers action buddy.ram value ram) :
    Action.Answers (onRam action).outcome buddy (.ok value) { buddy with ram := ram } := by
  rw [outcome_onRam]
  exact Action.answers_bind_iff.2
    ⟨value, _, answers_inRam_iff.2 ⟨ram, answers, rfl⟩, Action.answers_pure_iff.2 ⟨rfl, rfl⟩⟩

theorem answers_onRam_modify (step : Ram → Ram) :
    Action.Answers (onRam (modify step)).outcome buddy (.ok ())
      { buddy with ram := step buddy.ram } :=
  answers_onRam (Action.answers_modify_iff.2 rfl)

/-- A free page of the heap has become a slab of a cache, with all its objects free. -/
structure Grown (buddy after : BuddyAllocator) (cache objectSize frame slab : Nat) : Prop where
  free : buddy.Free .heap frame
  slab_eq : slab = frame * buddy.geometry.size
  found : ∃ old, buddy.pages.page? frame = some old
  sound : after.Sound
  pages_eq : after.pages = buddy.pages.set frame (.serving slab cache)
  alike : ∀ id, Zone.Alike (buddy.zones.get id) (after.zones.get id)
  elsewhere : ∀ id ≠ .heap, after.zones.get id = buddy.zones.get id
  agrees : buddy.ram.AgreesOff after.ram fun byte =>
    buddy.Free .heap (buddy.geometry.frameOf byte)
  keeps : Slab.ListsFree after.ram slab (Slab.capacity buddy.geometry.size objectSize)
    (List.range (Slab.room (Slab.capacity buddy.geometry.size objectSize)))
  unlinked : Chain.link after.ram Slab.nextField slab = none

namespace Grown

variable (grown : buddy.Grown after cache objectSize frame slab)

include grown

theorem geometry_eq : after.geometry = buddy.geometry := by
  rw [geometry, grown.pages_eq]
  rfl

theorem frameOf_eq : buddy.geometry.frameOf slab = frame := by
  rw [grown.slab_eq, Geometry.frameOf_mul]

theorem frame_of_page {byte : Nat} (low : slab ≤ byte) (high : byte < slab + buddy.geometry.size) :
    buddy.geometry.frameOf byte = frame := by
  rw [grown.slab_eq] at low high
  exact Geometry.frameOf_eq_of_page low high

theorem unowned {old : Page} (found : buddy.pages.page? frame = some old) :
    old.owner = .unowned := by
  by_contra owned
  exact grown.free.2 ⟨frame, old.order, ⟨old, found, owned, rfl⟩, rfl⟩

theorem page?_eq (sound : buddy.Sound) (other : Nat) :
    after.pages.page? other =
      if other = frame then some (.serving slab cache) else buddy.pages.page? other := by
  obtain ⟨old, found⟩ := grown.found
  rw [grown.pages_eq, sound.regular.page?_set found]

theorem taken_iff (sound : buddy.Sound) (other : Nat) :
    after.pages.Taken other ↔ buddy.pages.Taken other ∨ other = frame := by
  obtain ⟨old, found⟩ := grown.found
  rw [grown.pages_eq, sound.regular.taken_set_of_held found (grown.unowned found)
    (by simp [Page.serving])]
  rfl

theorem page?_of_owned (sound : buddy.Sound) {other : Nat} {page : Page}
    (found : buddy.pages.page? other = some page) (owned : page.owner ≠ .unowned) :
    after.pages.page? other = some page := by
  rw [grown.page?_eq sound, if_neg]
  · exact found
  · rintro rfl
    exact owned (grown.unowned found)

end Grown

/-- A page is turned into a slab by laying it out under its new descriptor. -/
private theorem createSlab_answers {page : Page} {handed assigned : BuddyAllocator}
    (answers : Action.Answers (allocate 0).outcome buddy (.ok page) handed)
    (reassigned : Action.Answers (assignToSlab page.start cache) handed () assigned)
    (nonzero : page.start ≠ 0) {capacity : Nat}
    (capacity_eq : Slab.capacity assigned.geometry.size objectSize = capacity)
    (word : page.start + Slab.metadataSize capacity < Word.limit) :
    Action.Answers (createSlab cache objectSize).outcome buddy (.ok page.start)
      ⟨Slab.layOut assigned.ram page.start capacity, assigned.zones, assigned.pages⟩ := by
  subst capacity_eq
  unfold createSlab
  refine Attempt.answers_bind_of_ok answers ?_
  refine Attempt.answers_bind_of_ok
    (Attempt.answers_outcome_liftM_iff.2 ⟨(), rfl, reassigned⟩) ?_
  dsimp only
  rw [if_neg nonzero]
  refine Attempt.answers_bind_of_ok (Attempt.answers_outcome_get_iff.2 ⟨rfl, rfl⟩) ?_
  refine Attempt.answers_bind_of_ok (answers_onRam_modify _) ?_
  refine Attempt.answers_bind_of_ok
    (Attempt.answers_outcome_check_iff.2 ⟨_, Word.add_of_lt word, rfl, rfl⟩) ?_
  refine Attempt.answers_bind_of_ok (answers_onRam_modify _) ?_
  refine Attempt.answers_bind_of_ok (Attempt.answers_outcome_report_iff.2 ⟨rfl, rfl⟩) ?_
  exact Action.answers_pure_iff.2 ⟨rfl, rfl⟩

private theorem createSlab_refused {failure : AllocFailure}
    (answers : Action.Answers (allocate 0).outcome buddy (.error failure) buddy) :
    Action.Answers (createSlab cache objectSize).outcome buddy (.error failure) buddy := by
  unfold createSlab
  exact Attempt.answers_bind_of_error answers

namespace Handed

variable (handed : buddy.Handed after 0 .heap frame) (sound : buddy.Sound)

include handed sound

private theorem page?_first : after.pages.page? frame =
    some ⟨.heap, frame * buddy.geometry.size, .buddy, 0, none⟩ := by
  have found := handed.page?_eq sound frame
  rwa [Nat.shiftLeft_zero, if_pos rfl, Geometry.blockAt_eq_mul, Nat.shiftLeft_zero] at found

/-- The page gets a descriptor that says which cache it serves. -/
private theorem reassigned (cache : Nat) :
    Action.Answers (assignToSlab (frame * buddy.geometry.size) cache) after ()
      ⟨after.ram, after.zones,
        after.pages.set frame (.serving (frame * buddy.geometry.size) cache)⟩ := by
  have frame_eq : after.geometry.frameOf (frame * buddy.geometry.size) = frame := by
    rw [handed.geometry_eq, Geometry.frameOf_mul]
  simp only [assignToSlab, Action.answers_get_bind_iff, frame_eq]
  exact Action.answers_bind_iff.2 ⟨_, _, answers_updatePage_iff.2
    ⟨_, handed.sound.regular.ofFrame_eq (handed.page?_first sound), rfl, rfl⟩,
      Action.answers_pure_iff.2 ⟨rfl, rfl⟩⟩

/-- Laid out under that descriptor it is a slab with all its objects free. -/
private theorem grown (positive : 0 < Slab.capacity buddy.geometry.size objectSize) :
    buddy.Grown ⟨Slab.layOut after.ram (frame * buddy.geometry.size)
        (Slab.capacity buddy.geometry.size objectSize), after.zones,
          after.pages.set frame (.serving (frame * buddy.geometry.size) cache)⟩
      cache objectSize frame (frame * buddy.geometry.size) := by
  have free : buddy.Free .heap frame := handed.within frame rfl
  have page := handed.page?_first sound
  have bounds := sound.page_bounds handed.allocatable free.1
  have fits := Slab.metadataSize_le positive buddy.geometry.size_lt_limit
  obtain ⟨old, found⟩ := handed.found
  have pages_eq := handed.pages_eq
  rw [Nat.shiftLeft_zero] at found pages_eq
  have assigned : BuddyAllocator.Sound ⟨after.ram, after.zones,
      after.pages.set frame (.serving (frame * buddy.geometry.size) cache)⟩ :=
    handed.sound.reassign page (by simp) (by simp [Page.serving]) rfl rfl rfl
  obtain ⟨keeps, unlinked, wrote⟩ := @Slab.listsFree_layOut after.ram
    (frame * buddy.geometry.size) _ positive (by omega)
  have inPage : ∀ byte, Slab.Metadata (frame * buddy.geometry.size)
      (Slab.capacity buddy.geometry.size objectSize) byte →
        buddy.geometry.frameOf byte = frame := by
    intro byte inside
    simp only [Slab.Metadata] at inside
    exact Geometry.frameOf_eq_of_page inside.1 (by omega)
  refine ⟨free, rfl, ⟨old, found⟩, ?_, ?_, handed.alike, handed.elsewhere, ?_, keeps, unlinked⟩
  · -- the metadata is in a page that is taken
    refine assigned.congr_ram wrote fun byte inside id there vacant => ?_
    refine vacant.2 ⟨frame, 0, ?_, ?_⟩
    · rw [handed.sound.regular.holds_set_iff page, if_pos rfl]
      exact ⟨by simp [Page.serving], rfl⟩
    · exact congrArg (· >>> 0)
        ((congrArg (Geometry.frameOf · byte) handed.geometry_eq).trans (inPage byte inside))
  · change after.pages.set frame _ = _
    rw [pages_eq]
    simp [DescriptorTable.set, DescriptorTable.slot, Array.setIfInBounds_setIfInBounds]
  · refine handed.agrees.trans (wrote.mono fun byte inside => ?_)
    rw [inPage byte inside]
    exact free

end Handed

/-- A slab is made of a free page of the heap, or there is none and nothing changes. -/
theorem Sound.createSlab (sound : buddy.Sound)
    (heap : (buddy.zones.get .heap).allocatable = true)
    (reserved : (buddy.zones.get .noHeap).allocatable = false)
    (positive : 0 < Slab.capacity buddy.geometry.size objectSize) :
    (Action.Answers (createSlab cache objectSize).outcome buddy (.error (.outOfMemory 0)) buddy ∧
      ∀ frame, ¬ buddy.Free .heap frame) ∨
    ∃ frame slab after, buddy.Grown after cache objectSize frame slab ∧
      Action.Answers (createSlab cache objectSize).outcome buddy (.ok slab) after := by
  rcases sound.allocate (by decide : 0 < orderCount) with ⟨answers, absent⟩ |
    ⟨id, frame, lent, handed, answers⟩
  · refine .inl ⟨createSlab_refused answers, fun frame free => absent .heap heap frame ?_⟩
    intro other inside
    obtain rfl : other = frame := inside
    exact free
  · right
    obtain rfl : id = .heap := by
      cases id with
      | heap => rfl
      | noHeap => rw [handed.allocatable] at reserved; cases reserved
    -- the page is a block of the buddy allocator first, and then a slab
    rw [Geometry.blockAt_eq_mul, Nat.shiftLeft_zero] at answers
    have bounds := sound.page_bounds heap (handed.within frame rfl).1
    have fits := Slab.metadataSize_le positive buddy.geometry.size_lt_limit
    have capacity_eq : Slab.capacity lent.geometry.size objectSize =
        Slab.capacity buddy.geometry.size objectSize := by rw [handed.geometry_eq]
    exact ⟨frame, _, _, handed.grown sound positive, createSlab_answers answers
      (handed.reassigned sound cache) (Nat.ne_of_gt bounds.1) capacity_eq (by dsimp only; omega)⟩

end BuddyAllocator

end PhysicalMemory
