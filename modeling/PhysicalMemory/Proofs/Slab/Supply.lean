import PhysicalMemory.Proofs.Memory.Rounding
import PhysicalMemory.Proofs.Slab.Seats

/-!
# Supplying objects

The first request of a size founds a cache: an object of the first cache takes
its record, and a page its first slab.  If no page is left for the slab the new
cache stays without one and the request is refused.  A request takes one of few
courses, which say all that it does.  Whether it is supplied or refused, everybody
who had a seat keeps it.
-/

namespace PhysicalMemory

/-- What comes of a request for an object: refused, or an object to take a seat in. -/
inductive Supplied (store : Store) (pageSize : Nat) (records objects : List Seat) (size : Nat) :
    Except AllocFailure Nat → Prop where
  | refused (failure : AllocFailure) (seated : store.Seated pageSize records objects) :
      Supplied store pageSize records objects size (.error failure)
  | served (object slab index : Nat)
      (seated : ∀ extent : Extent, 0 < extent.size → object ≤ extent.start →
        extent.start + extent.size ≤ object + size →
          store.Seated pageSize records (⟨slab, index, extent⟩ :: objects)) :
      Supplied store pageSize records objects size (.ok object)

namespace BuddyAllocator

structure Answered (buddy after : BuddyAllocator) (allocator : SlabAllocator) (store : Store)
    (records objects : List Seat) (size : Nat) (answer : Except AllocFailure Nat) : Prop where
  stocked : after.Stocked allocator store
  steady : buddy.Steady after
  supplied : Supplied store buddy.geometry.size records objects size answer

def enter (buddy : BuddyAllocator) (head place size : Nat) : BuddyAllocator :=
  { buddy with ram := Cache.enter buddy.ram head place size }

def shelve (buddy : BuddyAllocator) (cache slab : Nat) : BuddyAllocator :=
  { buddy with ram := Cache.setFirstSlab buddy.ram cache .empty (some slab) }

/-- The first cache has handed out an object, and the record of a new cache is written in it. -/
structure Entered (buddy middle : BuddyAllocator) (allocator : SlabAllocator) (store : Store)
    (size place slab index : Nat) (stock : Stock) : Prop where
  new : ∀ cache ∈ store.caches, (store.stock cache).size ≠ size
  served : buddy.Served middle allocator store store.head slab index stock
  low : (store.stock store.head).slot buddy.geometry.size slab index ≤ place
  high : place + CacheRecord.size ≤
    (store.stock store.head).slot buddy.geometry.size slab index + (store.stock store.head).size
  absent : place ∉ store.caches
  stocked : (middle.enter store.head place size).Stocked allocator
    ((store.restock store.head (stock.take slab)).found place size)

/--
What comes of making a cache for a size: no object for its record, a record but no page
for its first slab, or a cache with one empty slab.
-/
inductive Founding (buddy : BuddyAllocator) (allocator : SlabAllocator) (store : Store)
    (size : Nat) : BuddyAllocator → Store → Except AllocFailure Nat → Prop where
  | refused (barren : buddy.Barren (store.stock store.head)) :
      Founding buddy allocator store size buddy store (.error (.outOfMemory 0))
  | unstocked {middle : BuddyAllocator} {place slab index : Nat} {stock : Stock}
      (entered : buddy.Entered middle allocator store size place slab index stock)
      (absent : ∀ frame, ¬ (middle.enter store.head place size).Free .heap frame) :
      Founding buddy allocator store size (middle.enter store.head place size)
        ((store.restock store.head (stock.take slab)).found place size)
        (.error (.outOfMemory 0))
  | stocked {middle last : BuddyAllocator} {place slab index frame home : Nat} {stock : Stock}
      (entered : buddy.Entered middle allocator store size place slab index stock)
      (grown : (middle.enter store.head place size).Grown last place size frame home) :
      Founding buddy allocator store size (last.shelve place home)
        (((store.restock store.head (stock.take slab)).found place size).restock place
          ((Stock.bare size).add .empty home
            (List.range (Slab.room ((Stock.bare size).capacity buddy.geometry.size)))))
        (.ok place)

/-- What comes of asking for an object of a size, along the one way that the request can take. -/
inductive Course (buddy : BuddyAllocator) (allocator : SlabAllocator) (store : Store)
    (size : Nat) : BuddyAllocator → Store → Except AllocFailure Nat → Prop where
  | known {cache : Nat} {after : BuddyAllocator} {store' : Store}
      {answer : Except AllocFailure Nat} (member : cache ∈ store.caches)
      (size_eq : (store.stock cache).size = size)
      (dispensed : buddy.Dispensed allocator store cache after store' answer) :
      Course buddy allocator store size after store' answer
  | unfounded {after : BuddyAllocator} {store' : Store} {failure : AllocFailure}
      (new : ∀ cache ∈ store.caches, (store.stock cache).size ≠ size)
      (founding : buddy.Founding allocator store size after store' (.error failure)) :
      Course buddy allocator store size after store' (.error failure)
  | founded {middle after : BuddyAllocator} {store' store'' : Store} {place : Nat}
      {answer : Except AllocFailure Nat}
      (new : ∀ cache ∈ store.caches, (store.stock cache).size ≠ size)
      (founding : buddy.Founding allocator store size middle store' (.ok place))
      (dispensed : middle.Dispensed allocator store' place after store'' answer) :
      Course buddy allocator store size after store'' answer

namespace Stocked

variable {buddy after middle : BuddyAllocator} {allocator : SlabAllocator} {store : Store}
  {cache slab index size frame : Nat} {stock : Stock} {records objects : List Seat}

/-- A slab is added to the empty ones of a cache that has none that is ready. -/
theorem grow (stocked : buddy.Stocked allocator store)
    (grown : buddy.Grown after cache (store.stock cache).size frame slab)
    (member : cache ∈ store.caches)
    (none : (store.stock cache).slabs .partly = [] ∧ (store.stock cache).slabs .empty = []) :
    ({ after with ram := Cache.setFirstSlab after.ram cache .empty (some slab) } :
      BuddyAllocator).Stocked allocator (store.restock cache
        ((store.stock cache).add .empty slab
          (List.range (Slab.room ((store.stock cache).capacity buddy.geometry.size))))) := by
  have fresh := stocked.grown_fresh grown member
  have kept := stocked.grown_kept grown member
  refine stocked.restock_grown grown member
    ((Cache.agreesOff_setFirstSlab after.ram cache _ _).mono fun _ => .inl)
    ((stocked.oneReady cache member).add_empty fresh none) ?_
  have placed := @grown_placed _ _ _ _ _ _ _ .empty
    (List.range (Slab.room ((store.stock cache).capacity buddy.geometry.size))) stocked grown member
  have chained := @Stock.RecordedIn.chain _ _ _ _ _
    (List.range (Slab.room ((store.stock cache).capacity buddy.geometry.size))) kept fresh
  rw [Stock.add, none.2] at placed ⊢
  refine chained.relead placed ⟨rfl, grown.unlinked⟩ fun other listed => ?_
  obtain rfl := List.mem_singleton.1 listed
  rw [Stock.free_chain, if_pos rfl]
  exact grown.keeps

end Stocked

section

variable {buddy after middle : BuddyAllocator} {allocator : SlabAllocator} {store store' : Store}
  {cache size place slab index : Nat} {stock : Stock} {records objects : List Seat}
  {answer : Except AllocFailure Nat}

namespace Entered

variable (entered : buddy.Entered middle allocator store size place slab index stock)

include entered

theorem steady : buddy.Steady (middle.enter store.head place size) :=
  entered.served.steady.trans (.of_ram middle _)

theorem stock_of_mem {cache : Nat} (member : cache ∈ store.caches) :
    ((store.restock store.head (stock.take slab)).found place size).stock cache =
      (store.restock store.head (stock.take slab)).stock cache :=
  @Store.stock_found_of_mem (store.restock store.head (stock.take slab)) place cache size
    entered.absent member

theorem stock_head :
    ((store.restock store.head (stock.take slab)).found place size).stock store.head =
      stock.take slab := by
  rw [entered.stock_of_mem List.mem_cons_self, Store.stock_restock_self]

theorem seated (seated : store.Seated buddy.geometry.size records objects) :
    ((store.restock store.head (stock.take slab)).found place size).Seated buddy.geometry.size
      (⟨slab, index, Cache.extent place⟩ :: records) objects := by
  have tenanted : (store.restock store.head (stock.take slab)).Tenanted buddy.geometry.size
      (⟨slab, index, Cache.extent place⟩ :: (records ++ objects)) :=
    entered.served.tenanted List.mem_cons_self seated.tenanted
      (show 0 < CacheRecord.size from by decide) entered.low entered.high
  exact seated.found (tenanted.mono (Store.retains_found entered.absent)) rfl rfl

end Entered

namespace Founding

variable (founding : buddy.Founding allocator store size after store' answer)

include founding

theorem stocked_after (stocked : buddy.Stocked allocator store) :
    after.Stocked allocator store' := by
  cases founding with
  | refused barren => exact stocked
  | unstocked entered absent => exact entered.stocked
  | @stocked middle last place slab index frame home stock entered grown =>
      have here := Store.stock_found_self (store.restock store.head (stock.take slab)) place size
      have grown' := entered.stocked.grow (by rw [here]; exact grown)
        (List.mem_cons_of_mem _ List.mem_cons_self) (by rw [here]; exact ⟨rfl, rfl⟩)
      rw [here, entered.steady.geometry_eq] at grown'
      exact grown'

theorem steady : buddy.Steady after := by
  cases founding with
  | refused barren => exact .refl buddy
  | unstocked entered absent => exact entered.steady
  | stocked entered grown =>
      exact (entered.steady.trans
        (grown.steady entered.stocked.sound entered.stocked.heap)).trans (.of_ram _ _)

theorem seated (seated : store.Seated buddy.geometry.size records objects) :
    ∃ records', store'.Seated buddy.geometry.size records' objects := by
  cases founding with
  | refused barren => exact ⟨records, seated⟩
  | unstocked entered absent => exact ⟨_, entered.seated seated⟩
  | @stocked middle last place slab index frame home stock entered grown =>
      have here := Store.stock_found_self (store.restock store.head (stock.take slab)) place size
      have retains := @Store.retains_add ((store.restock store.head (stock.take slab)).found
        place size) buddy.geometry.size place .empty home (by rw [here]; exact Stock.not_mem_bare)
      rw [here] at retains
      exact ⟨_, (entered.seated seated).mono retains rfl⟩

end Founding

theorem Founding.made (founding : buddy.Founding allocator store size after store' (.ok place)) :
    place ∈ store'.caches ∧ (store'.stock place).size = size := by
  cases founding with
  | stocked entered grown =>
      refine ⟨List.mem_cons_of_mem _ List.mem_cons_self, ?_⟩
      rw [Store.stock_restock_self]
      rfl

theorem Founding.fresh (founding : buddy.Founding allocator store size after store' (.ok place)) :
    place ∉ store.caches := by
  cases founding with
  | stocked entered grown => exact entered.absent

/-- Whether an object is handed out or refused, everybody who had a seat keeps it. -/
theorem Dispensed.answered
    (dispensed : buddy.Dispensed allocator store cache after store' answer)
    (stocked : buddy.Stocked allocator store)
    (seated : store.Seated buddy.geometry.size records objects) (member : cache ∈ store.caches) :
    Answered buddy after allocator store' records objects (store.stock cache).size answer := by
  refine ⟨dispensed.stocked stocked, dispensed.steady, ?_⟩
  cases dispensed with
  | refused barren => exact .refused _ seated
  | @served slab index stock _ served =>
      exact .served _ slab index fun extent positive low high =>
        seated.cons (served.tenanted member seated.tenanted positive low high) rfl

/-- The object that is handed out is one that its cache had not handed out before. -/
theorem Dispensed.served_object {object : Nat}
    (dispensed : buddy.Dispensed allocator store cache after store' (.ok object))
    (member : cache ∈ store.caches) :
    cache ∈ store'.caches ∧ (store'.stock cache).size = (store.stock cache).size ∧
      ∃ slab index, (store'.stock cache).Held buddy.geometry.size slab index ∧
        object = (store'.stock cache).slot buddy.geometry.size slab index := by
  cases dispensed with
  | @served slab index stock _ served =>
      rw [Store.stock_restock_self]
      exact ⟨member, served.size_eq, slab, index, (served.held_iff slab index).2 (.inr ⟨rfl, rfl⟩),
        (Stock.slot_congr served.size_eq).symm⟩

/-- Along every course that is not refused an object of the asked size is handed out. -/
theorem Course.served_object {object : Nat}
    (course : buddy.Course allocator store size after store' (.ok object)) :
    ∃ cache ∈ store'.caches, (store'.stock cache).size = size ∧
      ∃ slab index, (store'.stock cache).Held buddy.geometry.size slab index ∧
        object = (store'.stock cache).slot buddy.geometry.size slab index := by
  cases course with
  | known member size_eq dispensed =>
      obtain ⟨there, same, held⟩ := dispensed.served_object member
      exact ⟨_, there, same.trans size_eq, held⟩
  | founded new founding dispensed =>
      obtain ⟨member, size_eq⟩ := founding.made
      obtain ⟨there, same, held⟩ := dispensed.served_object member
      rw [founding.steady.geometry_eq] at held
      exact ⟨_, there, same.trans size_eq, held⟩

theorem Course.refused {failure : AllocFailure}
    (course : buddy.Course allocator store size after store' (.error failure)) :
    failure = .outOfMemory 0 := by
  cases course with
  | known member size_eq dispensed => cases dispensed; rfl
  | unfounded new founding => cases founding <;> rfl
  | founded new founding dispensed => cases dispensed; rfl

/-- Along every course both tiers stay stocked, and what was handed out has a seat. -/
theorem Course.answered (course : buddy.Course allocator store size after store' answer)
    (stocked : buddy.Stocked allocator store)
    (seated : store.Seated buddy.geometry.size records objects) :
    ∃ records', Answered buddy after allocator store' records' objects size answer := by
  cases course with
  | known member size_eq dispensed =>
      obtain rfl := size_eq
      exact ⟨records, dispensed.answered stocked seated member⟩
  | unfounded new founding =>
      obtain ⟨records', seated'⟩ := founding.seated seated
      exact ⟨records', founding.stocked_after stocked, founding.steady, .refused _ seated'⟩
  | founded new founding dispensed =>
      obtain ⟨records', seated'⟩ := founding.seated seated
      obtain ⟨member, rfl⟩ := founding.made
      have steady := founding.steady
      have geometry := steady.geometry_eq
      rw [← geometry] at seated'
      have answered := dispensed.answered (founding.stocked_after stocked) seated' member
      have supplied := answered.supplied
      rw [geometry] at supplied
      exact ⟨records', answered.stocked, steady.trans answered.steady, supplied⟩

end

namespace Stocked

variable {buddy after middle : BuddyAllocator} {allocator : SlabAllocator} {store : Store}
  {cache slab index size frame : Nat} {stock : Stock} {records objects : List Seat}

section

variable (served : buddy.Served middle allocator store store.head slab index stock)

include served

/-- The object that the first cache has handed out lies behind the metadata and in the heap. -/
theorem record_slot_bounds :
    slab + Slab.metadataSize (((store.restock store.head (stock.take slab)).stock
        store.head).capacity middle.geometry.size) ≤
      (store.stock store.head).slot buddy.geometry.size slab index ∧
    (store.stock store.head).slot buddy.geometry.size slab index +
      (store.stock store.head).size ≤ slab + buddy.geometry.size ∧
    slab + buddy.geometry.size < Word.limit ∧ slab ≠ 0 := by
  have held := (served.held_iff slab index).2 (.inr ⟨rfl, rfl⟩)
  have placed : ((store.restock store.head (stock.take slab)).stock store.head).Placed
      middle.geometry.size store.head := served.stocked.placed List.mem_cons_self
  rw [Store.stock_restock_self, served.steady.geometry_eq] at placed ⊢
  have bounds := placed.slot_bounds slab (Nat.lt_of_lt_of_le held.2.1 (Slab.room_le _))
  rw [Stock.slot_congr served.size_eq, served.size_eq] at bounds
  exact ⟨bounds.1, bounds.2, placed.bounded slab held.1, placed.nonzero slab held.1⟩

/-- An object of the first cache has room for a record wherever the object begins. -/
theorem exists_record_place (head_size : (store.stock store.head).size = CacheRecord.objectSize) :
    ∃ place, Address.alignUp ((store.stock store.head).slot buddy.geometry.size slab index)
        CacheRecord.alignment = .ok place ∧
      (store.stock store.head).slot buddy.geometry.size slab index ≤ place ∧
      place + CacheRecord.size ≤ (store.stock store.head).slot buddy.geometry.size slab index +
        (store.stock store.head).size ∧ place % CacheRecord.alignment = 0 := by
  obtain ⟨-, high, word, -⟩ := record_slot_bounds served
  have object_size : CacheRecord.objectSize = CacheRecord.size + 7 := rfl
  have record_size : CacheRecord.size = 40 := rfl
  have eight : CacheRecord.alignment = 1 <<< 3 := rfl
  rw [head_size] at high ⊢
  obtain ⟨place, rounded, low, near, aligned⟩ := @Address.exists_alignUp
    ((store.stock store.head).slot buddy.geometry.size slab index) 3 (by omega)
  exact ⟨place, rounded, low, by omega, aligned⟩

variable {place : Nat}

/-- The records of the caches are apart from one that lies in the object just handed out. -/
theorem records_apart_place (seated : store.Seated buddy.geometry.size records objects)
    (low : (store.stock store.head).slot buddy.geometry.size slab index ≤ place)
    (high : place + CacheRecord.size ≤
      (store.stock store.head).slot buddy.geometry.size slab index +
        (store.stock store.head).size)
    (member : cache ∈ store.caches) : (Cache.extent cache).Apart (Cache.extent place) := by
  have geometry := served.steady.geometry_eq
  have tenanted : (store.restock store.head (stock.take slab)).Tenanted buddy.geometry.size
      (⟨slab, index, Cache.extent place⟩ :: (records ++ objects)) :=
    served.tenanted List.mem_cons_self seated.tenanted
      (show 0 < CacheRecord.size from by decide) low high
  have first := served.stocked.pairwise_apart (by rw [geometry]; exact tenanted)
  rw [List.map_cons, List.pairwise_cons, List.map_append, seated.extents] at first
  rcases List.mem_cons.1 member with rfl | member
  · obtain ⟨other, member', seat⟩ := tenanted.seated _ List.mem_cons_self
    rw [← geometry] at seat
    exact served.stocked.seat_above_head member' seat
  · exact (first.1 _ (List.mem_append_left _ (List.mem_map_of_mem member))).symm

end

/-- The record of a new cache is written in an object that the first cache has handed out. -/
theorem enter (stocked : buddy.Stocked allocator store)
    (seated : store.Seated buddy.geometry.size records objects)
    (served : buddy.Served middle allocator store store.head slab index stock)
    (new : ∀ cache ∈ store.caches, (store.stock cache).size ≠ size) (sized : 0 < size)
    (positive : 0 < Slab.capacity buddy.geometry.size size) :
    ∃ place, Address.alignUp ((store.stock store.head).slot buddy.geometry.size slab index)
        CacheRecord.alignment = .ok place ∧ place ≠ 0 ∧
      buddy.Entered middle allocator store size place slab index stock := by
  have geometry := served.steady.geometry_eq
  have held := (served.held_iff slab index).2 (.inr ⟨rfl, rfl⟩)
  have inside : slab ∈ ((store.restock store.head (stock.take slab)).stock store.head).all := by
    rw [Store.stock_restock_self]
    exact held.1
  obtain ⟨above, below, -, nonzero⟩ := record_slot_bounds served
  obtain ⟨place, rounded, low, high, aligned⟩ := exists_record_place served stocked.head_size
  have apart : ∀ cache ∈ store.caches, (Cache.extent cache).Apart (Cache.extent place) :=
    fun cache member => records_apart_place served seated low high member
  have absent : place ∉ store.caches := by
    intro member
    have := apart place member
    have : 0 < CacheRecord.size := by decide
    simp only [Extent.Apart, Cache.extent] at *
    omega
  refine ⟨place, rounded, by omega, new, served, low, high, absent, ?_⟩
  refine served.stocked.found inside (Nat.le_trans above low) (by rw [geometry]; omega)
    (fun cache member byte record record' => ?_) aligned
    (fun cache member => by rw [Store.size_restock served.size_eq]; exact new cache member) sized
    (by rw [geometry]; exact positive)
  have := apart cache member
  simp only [Extent.Apart, Cache.extent, Cache.Record] at *
  omega

/-- Once its record is written, a cache is made by giving it a slab. -/
private theorem createCache_of_found {object place : Nat} {answer : Except AllocFailure Nat}
    (allocated : Action.Answers (BuddyAllocator.allocateFrom allocator.head).outcome buddy
      (.ok object) middle)
    (rounded : Address.alignUp object CacheRecord.alignment = .ok place) (nonzero : place ≠ 0)
    (rest : Action.Answers (do
        let slab ← BuddyAllocator.createSlab place size
        BuddyAllocator.onRam do modify fun ram => Cache.setFirstSlab ram place .empty (some slab)
        return place : Attempt BuddyAllocator Nat).outcome
      (middle.enter allocator.head place size) answer after) :
    Action.Answers (allocator.createCache size).outcome buddy answer after := by
  unfold SlabAllocator.createCache
  refine Attempt.answers_bind_of_ok allocated ?_
  refine Attempt.answers_bind_of_ok
    (Attempt.answers_outcome_check_iff.2 ⟨place, rounded, rfl, rfl⟩) ?_
  rw [if_neg nonzero]
  refine Attempt.answers_bind_of_ok (@answers_onRam Unit middle _ () _
    (Action.answers_modify_bind_iff.2 (Action.answers_modify_iff.2 rfl))) ?_
  refine Attempt.answers_bind_of_ok (Attempt.answers_outcome_report_iff.2 ⟨rfl, rfl⟩) ?_
  exact rest

/-- A cache is made for a size that none serves; where that fails the record may be left. -/
theorem createCache (stocked : buddy.Stocked allocator store)
    (seated : store.Seated buddy.geometry.size records objects)
    (new : ∀ cache ∈ store.caches, (store.stock cache).size ≠ size) (sized : 0 < size)
    (positive : 0 < Slab.capacity buddy.geometry.size size) :
    ∃ answer after store', Action.Answers (allocator.createCache size).outcome buddy answer after ∧
      buddy.Founding allocator store size after store' answer := by
  obtain ⟨answer, middle, store', answers, dispensed⟩ := stocked.allocateFrom List.mem_cons_self
  rw [← stocked.head_eq] at answers
  cases dispensed with
  | refused barren =>
      exact ⟨_, _, _, Attempt.answers_bind_of_error answers, .refused barren⟩
  | @served slab index stock _ served =>
      obtain ⟨place, rounded, nonzero, entered⟩ :=
        stocked.enter seated served new sized positive
      have opened := fun after answer =>
        @createCache_of_found buddy after middle allocator size _ place answer answers rounded
          nonzero
      rw [stocked.head_eq] at opened
      have written := entered.stocked
      have enough : 0 < Slab.capacity (middle.enter store.head place size).geometry.size size := by
        rw [entered.steady.geometry_eq]
        exact positive
      rcases written.sound.createSlab written.heap written.reserved enough with
        ⟨refused, absent⟩ | ⟨frame, home, last, grown, created⟩
      · exact ⟨_, _, _, opened _ _ (Attempt.answers_bind_of_error refused),
          .unstocked entered absent⟩
      · exact ⟨_, _, _, opened _ _ (Attempt.answers_bind_of_ok created
          (Attempt.answers_bind_of_ok (answers_onRam_modify _)
            (Action.answers_pure_iff.2 ⟨rfl, rfl⟩))), .stocked entered grown⟩

/-- The cache of a size that is known is asked for an object. -/
private theorem allocate_of_known {answer : Except AllocFailure Nat} (sized : 0 < size)
    (fits : allocator.fits size = true) (known : allocator.find? buddy.ram size = some cache)
    (answers : Action.Answers (BuddyAllocator.allocateFrom cache).outcome buddy answer after) :
    Action.Answers (allocator.allocate size).outcome buddy answer after := by
  unfold SlabAllocator.allocate
  rw [if_neg (Nat.ne_of_gt sized), fits]
  refine Attempt.answers_bind_of_ok (Attempt.answers_outcome_get_iff.2 ⟨rfl, rfl⟩) ?_
  rw [known]
  exact answers

/-- For a size that is not known a cache is made first. -/
private theorem allocate_of_unknown {answer : Except AllocFailure Nat} (sized : 0 < size)
    (fits : allocator.fits size = true) (unknown : allocator.find? buddy.ram size = none)
    (answers : Action.Answers (do
        let cache ← allocator.createCache size
        BuddyAllocator.allocateFrom cache : Attempt BuddyAllocator Nat).outcome buddy answer
      after) :
    Action.Answers (allocator.allocate size).outcome buddy answer after := by
  unfold SlabAllocator.allocate
  rw [if_neg (Nat.ne_of_gt sized), fits]
  refine Attempt.answers_bind_of_ok (Attempt.answers_outcome_get_iff.2 ⟨rfl, rfl⟩) ?_
  rw [unknown]
  exact answers

/-- A size that a slab has room for is asked for along one of the courses. -/
theorem course (stocked : buddy.Stocked allocator store)
    (seated : store.Seated buddy.geometry.size records objects) (sized : 0 < size)
    (positive : 0 < Slab.capacity buddy.geometry.size size) :
    ∃ answer after store', Action.Answers (allocator.allocate size).outcome buddy answer after ∧
      buddy.Course allocator store size after store' answer := by
  have fits : allocator.fits size = true := by
    rw [SlabAllocator.fits, SlabAllocator.capacityFor, stocked.page_eq]
    exact decide_eq_true positive
  cases known : allocator.find? buddy.ram size with
  | some cache =>
      obtain ⟨member, size_eq⟩ := stocked.find?_eq_some known
      obtain ⟨answer, after, store', answers, dispensed⟩ := stocked.allocateFrom member
      exact ⟨answer, after, store', allocate_of_known sized fits known answers,
        .known member size_eq dispensed⟩
  | none =>
      have new := stocked.find?_eq_none known
      obtain ⟨answer, middle, store', answers, founding⟩ :=
        stocked.createCache seated new sized positive
      cases answer with
      | error failure =>
          exact ⟨_, middle, store', allocate_of_unknown sized fits known
            (Attempt.answers_bind_of_error answers), .unfounded new founding⟩
      | ok place =>
          obtain ⟨member, -⟩ := founding.made
          obtain ⟨answer, after, store'', answers', dispensed⟩ :=
            (founding.stocked_after stocked).allocateFrom member
          exact ⟨answer, after, store'', allocate_of_unknown sized fits known
            (Attempt.answers_bind_of_ok answers answers'), .founded new founding dispensed⟩

end Stocked

end BuddyAllocator

end PhysicalMemory
