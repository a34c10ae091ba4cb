import Mathlib
import PhysicalMemory.Proofs.Slab.Seats

/-!
# The layout of a slab

The page of a slab is divided in three places: where the number of its objects is found, where a
new slab is written and objects are handed out of it, and where the object that an address
belongs to is looked up.  All three divide it alike.  As many objects are found to fit as do
behind the header and the links, objects are handed out where the layout has them, and an
address leads back to the object that it is in, or to none.
-/

namespace PhysicalMemory

namespace Slab

def pieces (slab objectSize count : Nat) : List Extent :=
  ⟨slab, headerSize⟩ ::
    ((List.range count).map (fun index => ⟨linkPlace slab index, linkSize⟩) ++
      (List.range count).map fun index =>
        ⟨objectPlace slab count objectSize index, objectSize⟩)

structure Fits (pageSize objectSize slab count : Nat) : Prop where
  apart : (pieces slab objectSize count).Pairwise Extent.Apart
  inPage : ∀ piece ∈ pieces slab objectSize count,
    slab ≤ piece.start ∧ piece.start + piece.size ≤ slab + pageSize

/-- The slab at a place has all its objects free, chained in order, and is on no list. -/
structure Fresh (ram : Ram) (slab count : Nat) : Prop where
  keeps : ListsFree ram slab count (List.range count)
  unlinked : Chain.link ram nextField slab = none

/-- The slab at a place was laid out for a cache, whose record lies beside its metadata. -/
structure Serves (ram : Ram) (slab cache pageSize objectSize : Nat) : Prop where
  nonzero : slab ≠ 0
  bounded : slab + pageSize ≤ Word.limit
  size_eq : Cache.objectSize ram cache = objectSize
  objects_eq : objects ram slab = slab + metadataSize (capacity pageSize objectSize)
  beside : ∀ byte, Cache.Record cache byte → ¬ Metadata slab (capacity pageSize objectSize) byte

end Slab

def BuddyAllocator.allocateMany (cache : Nat) : Nat → Attempt BuddyAllocator (List Nat)
  | 0 => return []
  | count + 1 => do
      let object ← allocateFrom cache
      let objects ← allocateMany cache count
      return object :: objects

namespace Slab

open BuddyAllocator (allocateFrom allocateMany answers_onRam answers_onRam_modify createSlab)

variable {ram ram' : Ram} {buddy after : BuddyAllocator} {allocator : SlabAllocator} {page : Page}
  {pageSize objectSize slab cache index other count address byte frame : Nat}
  {taken rest : List Nat}

section Pieces

theorem linkPlace_add_le (below : index < other) :
    linkPlace slab index + linkSize ≤ linkPlace slab other := by
  simp only [linkPlace, linkSize]
  omega

theorem pieces_ordered (slab objectSize count : Nat) :
    (pieces slab objectSize count).Pairwise fun piece next =>
      piece.start + piece.size ≤ next.start := by
  have metadata := headerSize_le_metadataSize count
  have objects : ∀ index, slab + metadataSize count ≤ objectPlace slab count objectSize index :=
    fun _ => Nat.le_add_right _ _
  rw [pieces, List.pairwise_cons, List.pairwise_append]
  refine ⟨?header, ?links, ?objects, ?linksObjects⟩
  case header =>
    intro piece member
    rcases List.mem_append.1 member with link | object
    · obtain ⟨index, -, rfl⟩ := List.mem_map.1 link
      exact Nat.le_add_right _ _
    · obtain ⟨index, -, rfl⟩ := List.mem_map.1 object
      exact Nat.le_trans (Nat.add_le_add_left metadata slab) (objects index)
  case links =>
    exact List.pairwise_map.2 (List.pairwise_lt_range.imp linkPlace_add_le)
  case objects =>
    exact List.pairwise_map.2 (List.pairwise_lt_range.imp objectPlace_le)
  case linksObjects =>
    intro link linked object placed
    obtain ⟨index, below, rfl⟩ := List.mem_map.1 linked
    obtain ⟨other, -, rfl⟩ := List.mem_map.1 placed
    exact Nat.le_trans (linkPlace_le (List.mem_range.1 below)) (objects other)

theorem end_le_of_mem_pieces {piece : Extent} (member : piece ∈ pieces slab objectSize count) :
    slab ≤ piece.start ∧
      piece.start + piece.size ≤ objectPlace slab count objectSize count := by
  have metadata := headerSize_le_metadataSize count
  have objects : slab + metadataSize count ≤ objectPlace slab count objectSize count :=
    Nat.le_add_right _ _
  simp only [pieces, List.mem_cons, List.mem_append, List.mem_map, List.mem_range] at member
  rcases member with rfl | ⟨index, below, rfl⟩ | ⟨index, below, rfl⟩
  · exact ⟨Nat.le_refl slab, Nat.le_trans (Nat.add_le_add_left metadata slab) objects⟩
  · refine ⟨?_, Nat.le_trans (linkPlace_le below) objects⟩
    simp only [linkPlace]
    omega
  · refine ⟨?_, objectPlace_le below⟩
    simp only [objectPlace]
    omega

theorem mem_pieces_object (below : index < count) :
    ⟨objectPlace slab count objectSize index, objectSize⟩ ∈ pieces slab objectSize count :=
  List.mem_cons_of_mem _ (List.mem_append_right _
    (List.mem_map.2 ⟨index, List.mem_range.2 below, rfl⟩))

/-- So many objects fit when the sizes of all pieces add up to no more than the page has. -/
theorem fits_iff : Fits pageSize objectSize slab count ↔
    metadataSize count + count * objectSize ≤ pageSize := by
  have total : objectPlace slab count objectSize count =
      slab + (metadataSize count + count * objectSize) := Nat.add_assoc _ _ _
  constructor
  · intro fits
    cases count with
    | zero =>
        have header := (fits.inPage ⟨slab, headerSize⟩ List.mem_cons_self).2
        simp only [metadataSize] at *
        omega
    | succ count =>
        have last := (fits.inPage _ (mem_pieces_object (Nat.lt_succ_self count))).2
        simp only [objectPlace, Nat.succ_mul] at *
        omega
  · intro enough
    refine ⟨(pieces_ordered slab objectSize count).imp .inl, fun piece member => ?_⟩
    have bounds := end_le_of_mem_pieces member
    omega

/-- The number of objects that is found is the greatest that fits. -/
theorem isGreatest_capacity (positive : 0 < capacity pageSize objectSize)
    (word : pageSize < Word.limit) (slab : Nat) :
    IsGreatest {count | Fits pageSize objectSize slab count} (capacity pageSize objectSize) := by
  obtain ⟨large, whole⟩ := of_capacity_pos positive word
  refine ⟨fits_iff.2 (metadataSize_add_le large whole), fun count fits => ?_⟩
  by_contra more
  have enough := fits_iff.1 fits
  have short := lt_metadataSize_add large whole
  have links := Nat.mul_le_mul_right linkSize (Nat.lt_of_not_le more)
  have objects := Nat.mul_le_mul_right objectSize (Nat.lt_of_not_le more)
  simp only [metadataSize, Nat.succ_eq_add_one] at *
  omega

end Pieces

section Made

/-- A slab that is made is a page laid out for what the page has room for. -/
theorem layOut_of_createSlab
    (made : Action.Answers (createSlab cache objectSize).outcome buddy (.ok slab) after) :
    slab + metadataSize (capacity after.geometry.size objectSize) < Word.limit ∧
      ∃ ram, after.ram = layOut ram slab (capacity after.geometry.size objectSize) := by
  unfold createSlab at made
  obtain ⟨page, handed, -, made⟩ := Attempt.exists_answers_of_bind made
  obtain ⟨_, assigned, -, made⟩ := Attempt.exists_answers_of_bind made
  dsimp only at made
  split at made
  · obtain ⟨_, _, violated, -⟩ := Attempt.exists_answers_of_bind made
    exact absurd violated (by simp)
  obtain ⟨_, _, got, made⟩ := Attempt.exists_answers_of_bind made
  obtain ⟨⟨⟩, rfl⟩ := Attempt.answers_outcome_get_iff.1 got
  obtain ⟨_, chained, chaining, made⟩ := Attempt.exists_answers_of_bind made
  obtain rfl := chaining.state_unique (answers_onRam_modify _)
  obtain ⟨objects, _, placed, made⟩ := Attempt.exists_answers_of_bind made
  obtain ⟨_, sum, ⟨⟩, rfl⟩ := Attempt.answers_outcome_check_iff.1 placed
  obtain ⟨word, rfl⟩ := Word.add_eq_ok_iff.1 sum
  obtain ⟨_, written, writing, made⟩ := Attempt.exists_answers_of_bind made
  obtain rfl := writing.state_unique (answers_onRam_modify _)
  obtain ⟨_, _, reported, made⟩ := Attempt.exists_answers_of_bind made
  obtain ⟨-, rfl⟩ := Attempt.answers_outcome_report_iff.1 reported
  obtain ⟨⟨⟩, rfl⟩ := Action.answers_pure_iff.1 made
  exact ⟨word, _, rfl⟩

/-- Where a link can name every object, all objects of a slab that is made are free. -/
theorem fresh_of_createSlab (positive : 0 < capacity after.geometry.size objectSize)
    (small : after.geometry.size ≤ 1 <<< 34)
    (made : Action.Answers (createSlab cache objectSize).outcome buddy (.ok slab) after) :
    Fresh after.ram slab (capacity after.geometry.size objectSize) := by
  obtain ⟨word, ram, written⟩ := layOut_of_createSlab made
  obtain ⟨keeps, unlinked, -⟩ := @listsFree_layOut ram slab _ positive word
  rw [room_capacity small, ← written] at keeps
  rw [← written] at unlinked
  exact ⟨keeps, unlinked⟩

/-- A page that has become a slab of a cache serves it. -/
theorem serves_of_grown (sound : buddy.Sound)
    (grown : buddy.Grown after cache objectSize frame slab)
    (heap : (buddy.zones.get .heap).allocatable = true)
    (positive : 0 < capacity buddy.geometry.size objectSize)
    (size_eq : Cache.objectSize buddy.ram cache = objectSize)
    (held : ∀ byte, Cache.Record cache byte → ¬ buddy.Free .heap (buddy.geometry.frameOf byte)) :
    Serves after.ram slab cache buddy.geometry.size objectSize := by
  obtain ⟨start_pos, bound⟩ := sound.page_bounds heap grown.free.1
  rw [← grown.slab_eq] at start_pos bound
  have fits := metadataSize_le positive buddy.geometry.size_lt_limit
  refine ⟨Nat.ne_of_gt start_pos, bound.le, ?_, grown.keeps.objects_eq, ?_⟩
  · refine Eq.trans (grown.agrees.read_eq fun byte low high => held byte ?_) size_eq
    simp only [Cache.Record, Cache.objectSizeField, CacheRecord.size] at *
    omega
  · intro byte record metadata
    refine held byte record ?_
    simp only [Metadata] at metadata
    rw [grown.frame_of_page metadata.1 (by omega)]
    exact grown.free

theorem serves_of_stocked {store : Store} (stocked : buddy.Stocked allocator store)
    (member : cache ∈ store.caches) (listed : slab ∈ (store.stock cache).all) :
    Serves buddy.ram slab cache buddy.geometry.size (store.stock cache).size :=
  have kept := stocked.kept cache member
  have placed := stocked.placed member
  ⟨placed.nonzero slab listed, (placed.bounded slab listed).le, kept.size_eq,
    (kept.keeps slab listed).objects_eq, placed.beside slab listed⟩

end Made

namespace Serves

variable (serves : Serves ram slab cache pageSize objectSize)

include serves

theorem congr (agrees : ram.AgreesOff ram' (Metadata slab (capacity pageSize objectSize)))
    (same : objects ram' slab = objects ram slab) :
    Serves ram' slab cache pageSize objectSize := by
  refine ⟨serves.nonzero, serves.bounded, ?_, same.trans serves.objects_eq, serves.beside⟩
  refine Eq.trans (agrees.read_eq fun byte low high => serves.beside byte ?_) serves.size_eq
  simp only [Cache.Record, Cache.objectSizeField, CacheRecord.size] at *
  omega

theorem popFree : Serves (popFree ram slab) slab cache pageSize objectSize :=
  serves.congr (agreesOff_popFree ram slab _) (objects_popFree ram slab)

theorem pushFree (below : index < capacity pageSize objectSize) (named : index < linkLimit) :
    Serves (pushFree ram slab index) slab cache pageSize objectSize :=
  have pushed := pushed_pushFree ram slab below named
  serves.congr pushed.agrees pushed.objects_eq

theorem firstSlab_popFree (fill : Fill) :
    Cache.firstSlab (Slab.popFree ram slab) cache fill = Cache.firstSlab ram cache fill :=
  Chain.link_eq_of_agreesOff (agreesOff_popFree ram slab (capacity pageSize objectSize))
    fun byte low high => serves.beside byte (Cache.fields_of_listWord low high).record

theorem retire (first : Cache.firstSlab ram cache .partly = some slab) :
    Serves (Cache.retire ram cache) slab cache pageSize objectSize := by
  refine ⟨serves.nonzero, serves.bounded, ?_, ?_, serves.beside⟩
  · rw [Cache.retire, Cache.popSlab?, first]
    dsimp only [Option.map_some, Cache.pushSlab]
    rw [Cache.objectSize_setFirstSlab]
    refine Eq.trans ((Chain.agreesOff_setLink _ nextField slab _).read_eq fun byte low high next =>
      serves.beside byte ?_ (nextWord_metadata next))
        ((Cache.objectSize_setFirstSlab ram cache _ _).trans serves.size_eq)
    simp only [Cache.Record, Cache.objectSizeField, CacheRecord.size] at *
    omega
  · refine Eq.trans ((Cache.agreesOff_retire first).read_eq fun byte low high => ?_)
      serves.objects_eq
    have header := headerSize_le_metadataSize (capacity pageSize objectSize)
    have metadata : Metadata slab (capacity pageSize objectSize) byte := by
      simp only [Metadata, headerSize, objectsField] at *
      omega
    rintro (fields | next)
    · exact serves.beside byte fields.record metadata
    · simp only [NextWord, nextField, objectsField] at *
      omega

theorem dispense (first : Cache.firstSlab ram cache .partly = some slab) :
    Serves (Cache.dispense ram cache slab) slab cache pageSize objectSize := by
  rw [Cache.dispense]
  split
  · exact serves.popFree.retire ((serves.firstSlab_popFree .partly).trans first)
  · exact serves.popFree

theorem listsFree_dispense (first : Cache.firstSlab ram cache .partly = some slab)
    (keeps : ListsFree ram slab (capacity pageSize objectSize) (index :: rest)) :
    ListsFree (Cache.dispense ram cache slab) slab (capacity pageSize objectSize) rest := by
  have keeps' := keeps.popFree.2
  rw [Cache.dispense]
  split
  · refine keeps'.congr (Cache.agreesOff_retire ((serves.firstSlab_popFree .partly).trans first))
      fun byte metadata elsewhere inside => ?_
    rcases inside with fields | next
    · exact serves.beside byte fields.record metadata
    · exact elsewhere next
  · exact keeps'

theorem firstSlab_dispense (first : Cache.firstSlab ram cache .partly = some slab)
    (keeps : ListsFree ram slab (capacity pageSize objectSize) (index :: rest)) (more : rest ≠ []) :
    Cache.firstSlab (Cache.dispense ram cache slab) cache .partly = some slab := by
  rw [Cache.dispense, if_neg fun ended => more (keeps.popFree.2.cursor_eq_endMark_iff.1 ended),
    serves.firstSlab_popFree, first]

section

variable (sized : 1 ≤ objectSize) (below : index < capacity pageSize objectSize)

include sized below

/-- The page ends where the words do or before, so the place of an object is a word. -/
theorem objectPlace_lt (word : pageSize < Word.limit) :
    objectPlace slab (capacity pageSize objectSize) objectSize index < Word.limit := by
  have fits := metadataSize_le (Nat.zero_lt_of_lt below) word
  have bounded := serves.bounded
  have inside : objectPlace slab (capacity pageSize objectSize) objectSize index + objectSize ≤
      objectPlace slab (capacity pageSize objectSize) objectSize (capacity pageSize objectSize) :=
    objectPlace_le below
  simp only [objectPlace] at *
  omega

theorem objectAt_eq (word : pageSize < Word.limit) :
    objectAt ram slab objectSize index =
      .ok (objectPlace slab (capacity pageSize objectSize) objectSize index) := by
  have bound := serves.objectPlace_lt sized below word
  have place : objectPlace slab (capacity pageSize objectSize) objectSize index =
      objects ram slab + index * objectSize := by rw [serves.objects_eq]; rfl
  rw [place] at bound ⊢
  rw [objectAt, Word.mul_of_lt (by omega)]
  exact Word.add_of_lt bound

end

/-- The first free object of the slab is handed out where the layout has it. -/
theorem answers_takeObject (word : pageSize < Word.limit) (sized : 1 ≤ objectSize)
    (below : cursor ram slab < capacity pageSize objectSize)
    (counted : handedOut ram slab + 1 < linkLimit) :
    Action.Answers (Cache.takeObject cache slab) ram
      (objectPlace slab (capacity pageSize objectSize) objectSize (cursor ram slab))
      (Cache.dispense ram cache slab) := by
  refine Cache.answers_takeObject counted ?_ ?_
  · rw [serves.popFree.size_eq]
    exact serves.popFree.objectAt_eq sized below word
  · have nonzero := serves.nonzero
    simp only [objectPlace]
    omega

/-- An address in an object of the slab leads to the object's number. -/
theorem partAt_object (sized : 1 ≤ objectSize) (below : index < capacity pageSize objectSize)
    (inside : byte < objectSize) :
    partAt ram slab (Cache.objectSize ram cache)
      (capacity pageSize (Cache.objectSize ram cache))
      (objectPlace slab (capacity pageSize objectSize) objectSize index + byte) =
        .ok (.object index) := by
  rw [serves.size_eq]
  refine partAt_of_lies sized ⟨below, ?_, ?_⟩ <;>
    rw [serves.objects_eq] <;> simp only [objectPlace] <;> omega

/-- An address in no object leads to the metadata or behind the last object. -/
theorem partAt_outside (sized : 1 ≤ objectSize)
    (outside : ∀ index < capacity pageSize objectSize,
      ¬ (objectPlace slab (capacity pageSize objectSize) objectSize index ≤ address ∧
        address < objectPlace slab (capacity pageSize objectSize) objectSize index + objectSize)) :
    partAt ram slab (Cache.objectSize ram cache)
      (capacity pageSize (Cache.objectSize ram cache)) address =
        .ok (if address < objects ram slab then .metadata else .rest) := by
  obtain ⟨part, lies⟩ := exists_lies sized (objects ram slab) (capacity pageSize objectSize) address
  rw [serves.size_eq, partAt_of_lies sized lies]
  cases part with
  | metadata =>
      have low : address < objects ram slab := lies
      rw [if_pos low]
  | object index =>
      rw [serves.objects_eq] at lies
      exact absurd lies.2 (outside index lies.1)
  | rest =>
      have low : objects ram slab + capacity pageSize objectSize * objectSize ≤ address := lies
      rw [if_neg (by omega)]

end Serves

theorem answers_allocateFrom (serves : Serves buddy.ram slab cache pageSize objectSize)
    (word : pageSize < Word.limit) (sized : 1 ≤ objectSize)
    (first : Cache.firstSlab buddy.ram cache .partly = some slab)
    (below : cursor buddy.ram slab < capacity pageSize objectSize)
    (counted : handedOut buddy.ram slab + 1 < linkLimit) :
    Action.Answers (allocateFrom cache).outcome buddy
      (.ok (objectPlace slab (capacity pageSize objectSize) objectSize (cursor buddy.ram slab)))
      { buddy with ram := Cache.dispense buddy.ram cache slab } := by
  unfold BuddyAllocator.allocateFrom
  exact Attempt.answers_bind_of_ok (BuddyAllocator.Stocked.partlyFullSlab_of_some first)
    (answers_onRam (serves.answers_takeObject word sized below counted))

/--
Objects that the chain of a slab begins with are handed out one after the other, each where the
layout has it, and what is left on the chain is the rest.
-/
theorem answers_allocateMany (word : pageSize < Word.limit) (sized : 1 ≤ objectSize)
    (serves : Serves buddy.ram slab cache pageSize objectSize)
    (first : taken ≠ [] → Cache.firstSlab buddy.ram cache .partly = some slab)
    (keeps : ListsFree buddy.ram slab (capacity pageSize objectSize) (taken ++ rest)) :
    ∃ ram, Action.Answers (allocateMany cache taken.length).outcome buddy
        (.ok (taken.map (objectPlace slab (capacity pageSize objectSize) objectSize)))
          { buddy with ram := ram } ∧
      Serves ram slab cache pageSize objectSize ∧
        ListsFree ram slab (capacity pageSize objectSize) rest := by
  induction taken generalizing buddy with
  | nil => exact ⟨buddy.ram, Action.answers_pure_iff.2 ⟨rfl, rfl⟩, serves, keeps⟩
  | cons index taken ih =>
      replace first := first (List.cons_ne_nil _ _)
      obtain rfl : cursor buddy.ram slab = index := keeps.leads.1
      have below : cursor buddy.ram slab < capacity pageSize objectSize :=
        Nat.lt_of_lt_of_le (keeps.below _ List.mem_cons_self) (room_le _)
      have taking := answers_allocateFrom serves word sized first below keeps.popFree.1
      obtain ⟨ram, answers, serves', keeps'⟩ :=
        @ih { buddy with ram := Cache.dispense buddy.ram cache slab } (serves.dispense first)
          (fun more => serves.firstSlab_dispense first keeps (by simp [more]))
          (serves.listsFree_dispense first keeps)
      refine ⟨ram, ?_, serves', keeps'⟩
      exact Attempt.answers_bind_of_ok taking (Attempt.answers_bind_of_ok answers
        (Action.answers_pure_iff.2 ⟨rfl, rfl⟩))

/--
What is found to fit in a page of a size, what is laid out and handed out there and what is
found when it is given back are one division of the page.
-/
structure Arranged (pageSize objectSize : Nat) : Prop where
  /-- No larger number of objects fits. -/
  greatest (slab : Nat) :
    IsGreatest {count | Fits pageSize objectSize slab count} (capacity pageSize objectSize)
  /-- Every slab that is made is laid out for that number. -/
  laidOut {buddy after : BuddyAllocator} {cache slab : Nat}
    (pages : after.geometry.size = pageSize)
    (made : Action.Answers (createSlab cache objectSize).outcome buddy (.ok slab) after) :
    Fresh after.ram slab (capacity pageSize objectSize)
  /-- A slab is made where there is a free page, and it serves the cache. -/
  grows {buddy : BuddyAllocator} {cache frame : Nat} (sound : buddy.Sound)
    (heap : (buddy.zones.get .heap).allocatable = true)
    (reserved : (buddy.zones.get .noHeap).allocatable = false)
    (free : buddy.Free .heap frame) (pages : buddy.geometry.size = pageSize)
    (size_eq : Cache.objectSize buddy.ram cache = objectSize)
    (held : ∀ byte, Cache.Record cache byte → ¬ buddy.Free .heap (buddy.geometry.frameOf byte)) :
    ∃ slab after, Action.Answers (createSlab cache objectSize).outcome buddy (.ok slab) after ∧
      after.geometry.size = pageSize ∧ Serves after.ram slab cache pageSize objectSize
  /-- So does every slab that a cache has, whatever was asked of the allocators before. -/
  serves {buddy : BuddyAllocator} {allocator : SlabAllocator} {store : Store} {cache slab : Nat}
    (stocked : buddy.Stocked allocator store) (member : cache ∈ store.caches)
    (listed : slab ∈ (store.stock cache).all) (pages : buddy.geometry.size = pageSize)
    (size_eq : (store.stock cache).size = objectSize) :
    Serves buddy.ram slab cache pageSize objectSize
  /-- An object is handed out where the layout has it, whatever its number. -/
  takes {buddy : BuddyAllocator} {cache slab : Nat}
    (serves : Serves buddy.ram slab cache pageSize objectSize)
    (first : Cache.firstSlab buddy.ram cache .partly = some slab)
    (below : cursor buddy.ram slab < capacity pageSize objectSize)
    (counted : handedOut buddy.ram slab + 1 < linkLimit) :
    ∃ ram, Action.Answers (allocateFrom cache).outcome buddy
        (.ok (objectPlace slab (capacity pageSize objectSize) objectSize (cursor buddy.ram slab)))
          { buddy with ram := ram } ∧
      Serves ram slab cache pageSize objectSize
  /-- A new slab hands out its objects from the first to the last. -/
  takesAll {buddy : BuddyAllocator} {cache slab count : Nat}
    (serves : Serves buddy.ram slab cache pageSize objectSize)
    (first : Cache.firstSlab buddy.ram cache .partly = some slab)
    (fresh : Fresh buddy.ram slab (capacity pageSize objectSize))
    (within : count ≤ capacity pageSize objectSize) :
    ∃ ram, Action.Answers (allocateMany cache count).outcome buddy
        (.ok ((List.range count).map
          (objectPlace slab (capacity pageSize objectSize) objectSize)))
          { buddy with ram := ram } ∧
      Serves ram slab cache pageSize objectSize
  /-- Every byte of an object leads back to it. -/
  frees {allocator : SlabAllocator} {ram : Ram} {page : Page} {cache index byte : Nat}
    (pages : allocator.pageSize = pageSize) (owner : page.cache = some cache)
    (serves : Serves ram page.start cache pageSize objectSize)
    (below : index < capacity pageSize objectSize) (inside : byte < objectSize) :
    (allocator.free (objectPlace page.start (capacity pageSize objectSize) objectSize index + byte)
        page).run ram = ⟨.ok (), pushFree ram page.start index, []⟩ ∧
      cursor (pushFree ram page.start index) page.start = index ∧
      Serves (pushFree ram page.start index) page.start cache pageSize objectSize
  /-- Every other address is turned away. -/
  rejects {allocator : SlabAllocator} {ram : Ram} {page : Page} {cache address : Nat}
    (pages : allocator.pageSize = pageSize) (owner : page.cache = some cache)
    (serves : Serves ram page.start cache pageSize objectSize)
    (outside : ∀ index < capacity pageSize objectSize,
      ¬ (objectPlace page.start (capacity pageSize objectSize) objectSize index ≤ address ∧
        address <
          objectPlace page.start (capacity pageSize objectSize) objectSize index + objectSize)) :
    (allocator.free address page).run ram =
      ⟨.ok (), ram, [if address < objects ram page.start then .freeInSlabMetadata address
        else .freePastLastObject address]⟩

/-- Found, laid out, handed out and given back, the objects of a slab are where they fit. -/
theorem arranged (small : pageSize ≤ 1 <<< 32) (sized : 1 ≤ objectSize)
    (positive : 0 < capacity pageSize objectSize) : Arranged pageSize objectSize := by
  have word : pageSize < Word.limit := Nat.lt_of_le_of_lt small (by decide)
  have linked : pageSize ≤ 1 <<< 34 := Nat.le_trans small (by decide)
  have named : capacity pageSize objectSize < linkLimit := by
    rw [← room_capacity linked]
    exact room_lt _
  refine ⟨isGreatest_capacity positive word, ?laidOut, ?grows, ?serves, ?takes, ?takesAll,
    ?frees, ?rejects⟩
  case laidOut =>
    intro buddy after cache slab pages made
    subst pages
    exact fresh_of_createSlab positive linked made
  case grows =>
    intro buddy cache frame sound heap reserved free pages size_eq held
    subst pages
    rcases sound.createSlab heap reserved positive with
      ⟨-, none⟩ | ⟨frame, slab, after, grown, made⟩
    · exact absurd free (none frame)
    · exact ⟨slab, after, made, congrArg Geometry.size grown.geometry_eq,
        serves_of_grown sound grown heap positive size_eq held⟩
  case serves =>
    intro buddy allocator store cache slab stocked member listed pages size_eq
    subst pages size_eq
    exact serves_of_stocked stocked member listed
  case takes =>
    intro buddy cache slab serves first below counted
    exact ⟨_, answers_allocateFrom serves word sized first below counted, serves.dispense first⟩
  case takesAll =>
    intro buddy cache slab count serves first fresh within
    have keeps := fresh.keeps
    rw [← List.take_append_drop count (List.range _), List.take_range,
      Nat.min_eq_left within] at keeps
    obtain ⟨ram, answers, serves', -⟩ :=
      answers_allocateMany word sized serves (fun _ => first) keeps
    rw [List.length_range] at answers
    exact ⟨ram, answers, serves'⟩
  case frees =>
    intro allocator ram page cache index byte pages owner serves below inside
    subst pages
    have name := Nat.lt_trans below named
    refine ⟨?_, (pushed_pushFree ram page.start below name).cursor_eq, serves.pushFree below name⟩
    rw [SlabAllocator.run_free owner serves.nonzero (serves.partAt_object sized below inside),
      freed, Nat.mod_eq_of_lt name]
  case rejects =>
    intro allocator ram page cache address pages owner serves outside
    subst pages
    rw [SlabAllocator.run_free owner serves.nonzero (serves.partAt_outside sized outside)]
    by_cases low : address < objects ram page.start <;> simp only [low, if_true, if_false] <;> rfl

def sampleRam : Ram :=
  Cache.setFirstSlab (Cache.writeRecord (layOut {} 4096 2) 64 64 2000) 64 .partly (some 4096)

theorem sampleRam_fresh : Serves sampleRam 4096 64 4096 2000 ∧ Fresh sampleRam 4096 2 ∧
    Cache.firstSlab sampleRam 64 .partly = some 4096 := by
  have agrees : (layOut {} 4096 2).AgreesOff sampleRam (Cache.Record 64) :=
    (Cache.agreesOff_writeRecord _ 64 64 2000).trans
      ((Cache.agreesOff_setFirstSlab _ 64 .partly (some 4096)).mono fun _ => Cache.Fields.record)
  have beside : ∀ byte, Cache.Record 64 byte → ¬ Metadata 4096 2 byte := by
    intro byte record metadata
    simp only [Cache.Record, CacheRecord.size, Metadata] at record metadata
    omega
  obtain ⟨keeps, unlinked, -⟩ := @listsFree_layOut {} 4096 2 (by decide) (by decide)
  have keeps' : ListsFree sampleRam 4096 2 (List.range 2) :=
    keeps.congr agrees fun byte metadata _ record => beside byte record metadata
  refine ⟨⟨by decide, by decide, ?_, keeps'.objects_eq, beside⟩, ⟨keeps', ?_⟩, ?_⟩
  · exact (Cache.objectSize_setFirstSlab _ 64 _ _).trans
      (Cache.objectSize_writeRecord (by decide))
  · refine (Chain.link_eq_of_agreesOff agrees fun byte low high record => ?_).trans unlinked
    exact beside byte record (nextWord_metadata ⟨low, high⟩)
  · exact Cache.firstSlab_setFirstSlab (by decide)

theorem arranged_sample : capacity 4096 2000 = 2 ∧
    (∃ ram, Action.Answers (allocateMany 64 2).outcome
      { (default : BuddyAllocator) with ram := sampleRam } (.ok [4128, 6128])
        { (default : BuddyAllocator) with ram := ram }) ∧
    (SlabAllocator.free ⟨4096, 64⟩ 6145 (.serving 4096 64)).run sampleRam =
      ⟨.ok (), Slab.pushFree sampleRam 4096 1, []⟩ ∧
    (SlabAllocator.free ⟨4096, 64⟩ 4127 (.serving 4096 64)).run sampleRam =
      ⟨.ok (), sampleRam, [.freeInSlabMetadata 4127]⟩ ∧
    (SlabAllocator.free ⟨4096, 64⟩ 8128 (.serving 4096 64)).run sampleRam =
      ⟨.ok (), sampleRam, [.freePastLastObject 8128]⟩ := by
  obtain ⟨serves, fresh, first⟩ := sampleRam_fresh
  have layout : Arranged 4096 2000 := arranged (by decide) (by decide) (by decide)
  have objects : objects sampleRam (Page.serving 4096 64).start = 4128 := serves.objects_eq
  refine ⟨rfl, ?_, ?_, ?_, ?_⟩
  · obtain ⟨ram, answers, -⟩ := @Arranged.takesAll 4096 2000 layout
      { (default : BuddyAllocator) with ram := sampleRam } 64 4096 2 serves first fresh (by decide)
    exact ⟨ram, answers⟩
  · exact (@Arranged.frees 4096 2000 layout ⟨4096, 64⟩ sampleRam (.serving 4096 64) 64 1 17 rfl rfl
      serves (by decide) (by decide)).1
  · have rejected := @Arranged.rejects 4096 2000 layout ⟨4096, 64⟩ sampleRam (.serving 4096 64) 64
      4127 rfl rfl serves (by decide)
    rwa [if_pos (by rw [objects]; decide)] at rejected
  · have rejected := @Arranged.rejects 4096 2000 layout ⟨4096, 64⟩ sampleRam (.serving 4096 64) 64
      8128 rfl rfl serves (by decide)
    rwa [if_neg (by rw [objects]; decide)] at rejected

end Slab

end PhysicalMemory
