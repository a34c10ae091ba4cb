import PhysicalMemory.Proofs.Manager.Ownership
import PhysicalMemory.Proofs.Manager.Turns
import PhysicalMemory.Proofs.Slab.Count

/-!
# The registry of caches

The records of the caches form a ring that begins with the first cache, and each
other record stands in an object of the first cache that is its own.  A call enters
one cache at most, right behind the first, and none ever leaves.  So going around the
ring ends and meets every cache once, the newest first, and a size has one cache at
most, whichever way it is looked up.
-/

namespace PhysicalMemory

namespace Store

/-- The later store has the caches of the earlier one, or one more right behind the first. -/
def Enters (store store' : Store) : Prop :=
  store'.others = store.others ∨
    ∃ cache, cache ∉ store.caches ∧ store'.others = cache :: store.others

end Store

namespace BuddyAllocator

variable {buddy after : BuddyAllocator} {allocator : SlabAllocator} {store store' : Store}
  {cache size : Nat} {answer : Except AllocFailure Nat}

theorem Dispensed.others_eq
    (dispensed : buddy.Dispensed allocator store cache after store' answer) :
    store'.others = store.others := by
  cases dispensed <;> rfl

theorem Founding.enters (founding : buddy.Founding allocator store size after store' answer) :
    store.Enters store' := by
  cases founding with
  | refused barren => exact .inl rfl
  | unstocked entered absent => exact .inr ⟨_, entered.absent, rfl⟩
  | stocked entered grown => exact .inr ⟨_, entered.absent, rfl⟩

theorem Course.enters (course : buddy.Course allocator store size after store' answer) :
    store.Enters store' := by
  cases course with
  | known member size_eq dispensed => exact .inl dispensed.others_eq
  | unfounded new founding => exact founding.enters
  | founded new founding dispensed =>
      rw [Store.Enters, dispensed.others_eq]
      exact founding.enters

end BuddyAllocator

theorem Tiers.Turn.enters {tiers after : Tiers} {store store' : Store}
    (turn : tiers.Turn store after store') : store.Enters store' := by
  cases turn with
  | kept => exact .inl rfl
  | supplied course => exact course.enters
  | given => exact .inl rfl

theorem Store.Seated.exists_record {store : Store} {pageSize cache : Nat}
    {records objects : List Seat} (seated : store.Seated pageSize records objects)
    (there : cache ∈ store.others) : ∃ seat ∈ records, seat.extent = Cache.extent cache := by
  have extent : Cache.extent cache ∈ store.others.map Cache.extent := List.mem_map_of_mem there
  rw [← seated.extents] at extent
  exact List.mem_map.1 extent

namespace BuddyAllocator.Stocked

variable {buddy : BuddyAllocator} {allocator : SlabAllocator} {store : Store}
  {cache slab index size : Nat} {seat : Seat} {records objects : List Seat}

theorem find?_eq_some_iff (stocked : buddy.Stocked allocator store) :
    allocator.find? buddy.ram size = some cache ↔
      cache ∈ store.caches ∧ (store.stock cache).size = size := by
  refine ⟨stocked.find?_eq_some, ?_⟩
  rintro ⟨member, same⟩
  cases found : allocator.find? buddy.ram size with
  | none => exact absurd same (stocked.find?_eq_none found cache member)
  | some other =>
      obtain ⟨member', same'⟩ := stocked.find?_eq_some found
      rw [List.inj_on_of_nodup_map stocked.sizes member' member (same'.trans same.symm)]

theorem inside_whole (stocked : buddy.Stocked allocator store) (member : cache ∈ store.caches)
    (held : (store.stock cache).Held buddy.geometry.size slab index) :
    Seat.Inside ⟨slab, index, (store.stock cache).extent buddy.geometry.size slab index⟩
      (store.stock cache) buddy.geometry.size :=
  ⟨held, stocked.sized cache member, Nat.le_refl _, Nat.le_refl _⟩

/-- No other seat meets the object that a seat is in. -/
theorem slot_alone (stocked : buddy.Stocked allocator store) {seats : List Seat}
    (tenanted : store.Tenanted buddy.geometry.size seats) (there : seat ∈ seats)
    (member : cache ∈ store.caches)
    (inside : seat.Inside (store.stock cache) buddy.geometry.size) {other : Seat}
    (there' : other ∈ seats) (distinct : other ≠ seat) :
    other.extent.Apart
      ((store.stock cache).extent buddy.geometry.size seat.slab seat.index) := by
  obtain ⟨cache', member', inside'⟩ := tenanted.seated other there'
  refine stocked.seats_apart member' member inside' (stocked.inside_whole member inside.held)
    fun same => distinct ?_
  exact List.inj_on_of_nodup_map tenanted.nodup there' there same

/-- The object that holds a record meets no other record. -/
theorem slot_apart_records (stocked : buddy.Stocked allocator store)
    (seated : store.Seated buddy.geometry.size records objects) (there : seat ∈ records)
    (extent_eq : seat.extent = Cache.extent cache) {other : Nat} (member : other ∈ store.caches)
    (distinct : other ≠ cache) :
    (Cache.extent other).Apart
      ((store.stock store.head).extent buddy.geometry.size seat.slab seat.index) := by
  have inside := stocked.inside_of_record seated there
  rcases List.mem_cons.1 member with rfl | member
  · exact stocked.seat_above_head List.mem_cons_self
      (stocked.inside_whole List.mem_cons_self inside.held)
  · obtain ⟨seat', there', extent_eq'⟩ := seated.exists_record member
    rw [← extent_eq']
    refine stocked.slot_alone seated.tenanted (List.mem_append_left objects there)
      List.mem_cons_self inside (List.mem_append_left objects there') fun equal => distinct ?_
    rw [equal, extent_eq] at extent_eq'
    exact (congrArg Extent.start extent_eq').symm

end BuddyAllocator.Stocked

namespace Tiers.StockedSeatedLent

variable {tiers : Tiers} {origin : BuddyAllocator} {store : Store} {records objects : List Seat}
  {blocks live : List Extent} {cache : Nat}

/-- The object that holds a record meets nothing that is live. -/
theorem slot_apart_live (tenancy : tiers.StockedSeatedLent origin store records objects blocks)
    (same : live.Perm (objects.map Seat.extent ++ blocks)) {seat : Seat} (there : seat ∈ records)
    {extent : Extent} (member : extent ∈ live) :
    extent.Apart ((store.stock store.head).extent tiers.buddy.geometry.size seat.slab
      seat.index) := by
  have stocked := tenancy.stocked
  have tenanted := tenancy.seated.tenanted
  have inside := stocked.inside_of_record tenancy.seated there
  rcases tenancy.cases_live same member with ⟨seat', there', rfl⟩ | ⟨page, lends⟩
  · refine stocked.slot_alone tenanted (List.mem_append_left objects there) List.mem_cons_self
      inside (List.mem_append_right records there') fun equal => ?_
    -- a record is not in use as an object
    rw [equal] at there'
    exact List.disjoint_of_nodup_append tenanted.nodup.of_map there there'
  · have bounds := stocked.seat_bounds List.mem_cons_self
      (stocked.inside_whole List.mem_cons_self inside.held)
    exact (stocked.lends_apart_page lends List.mem_cons_self inside.held.1).symm.sub
      ⟨Nat.le_trans (Nat.le_add_right _ _) bounds.1, bounds.2⟩

/-- Each record behind the first has an object of the first cache to itself. -/
theorem recorded (tenancy : tiers.StockedSeatedLent origin store records objects blocks)
    (same : live.Perm (objects.map Seat.extent ++ blocks)) (there : cache ∈ store.others) :
    ∃ fill slab index,
      let capacity := tiers.slab.capacityFor CacheRecord.objectSize
      let slot := Slab.slot tiers.ram slab CacheRecord.objectSize index
      slab ∈ Cache.slabs tiers.ram tiers.slab.head fill ∧ index < capacity ∧
        index ∉ Slab.chain tiers.ram slab capacity ∧ (Cache.extent cache).Sub slot ∧
        (∀ other ∈ store.caches, other ≠ cache → (Cache.extent other).Apart slot) ∧
        ∀ extent ∈ live, extent.Apart slot := by
  have stocked := tenancy.stocked
  have first : store.head ∈ store.caches := List.mem_cons_self
  obtain ⟨seat, there', extent_eq⟩ := tenancy.seated.exists_record there
  have inside := stocked.inside_of_record tenancy.seated there'
  obtain ⟨fill, listed⟩ := Stock.mem_all_iff.1 inside.held.1
  have kept := stocked.kept store.head first
  have keeps := kept.keeps seat.slab inside.held.1
  have slot : Slab.slot tiers.ram seat.slab CacheRecord.objectSize seat.index =
      (store.stock store.head).extent tiers.buddy.geometry.size seat.slab seat.index := by
    rw [← stocked.head_size]
    exact kept.slot_eq inside.held.1 seat.index
  have capacity : tiers.slab.capacityFor CacheRecord.objectSize =
      (store.stock store.head).capacity tiers.buddy.geometry.size := by
    rw [SlabAllocator.capacityFor, stocked.page_eq, ← stocked.head_size]
    rfl
  have chain : Slab.chain tiers.ram seat.slab _ = _ := keeps.chain_eq
  refine ⟨fill, seat.slab, seat.index, ?_⟩
  dsimp only
  rw [slot, capacity, stocked.head_eq, tenancy.slabs_eq first, chain, ← extent_eq]
  exact ⟨listed, Nat.lt_of_lt_of_le inside.held.2.1 (Slab.room_le _), inside.held.2.2,
    ⟨inside.low, inside.high⟩,
    fun other member => stocked.slot_apart_records tenancy.seated there' extent_eq member,
    fun extent member => tenancy.slot_apart_live same there' member⟩

end Tiers.StockedSeatedLent

namespace Session

def caches (session : Session) : List Nat :=
  session.tiers.slab.ring session.tiers.ram

def objectsOf (session : Session) (cache : Nat) : List Extent :=
  session.live.filter fun extent => (session.pageOf? extent.start).any fun page =>
    page.owner = .slab ∧ page.cache = some cache

/--
The records of the caches are in order.  Going around the ring meets every cache once and
comes back to the first, no two caches have one size, and both ways to look a size up end
and find the cache that has it.  Each record behind the first stands in an object of the
first cache that nothing else is in, so the first cache has handed out one for each and
those that are in use.  A call enters one cache at most, in front of the others, and all
others stay as they are.
-/
structure Registered (session : Session) : Prop where
  around : ∀ count ≤ session.caches.length,
    (Cache.next session.tiers.ram)^[count] session.tiers.slab.head =
      (session.caches[count]?).getD session.tiers.slab.head
  nodup : session.caches.Nodup
  first : session.caches.head? = some session.tiers.slab.head
  every : ∀ frame page, session.tiers.buddy.pages.page? frame = some page →
    page.owner = .slab → ∃ cache ∈ session.caches, page.cache = some cache
  sizes : (session.caches.map (Cache.objectSize session.tiers.ram)).Nodup
  first_size : Cache.objectSize session.tiers.ram session.tiers.slab.head =
    CacheRecord.objectSize
  ends : ∀ fuel, session.caches.length ≤ fuel →
    session.tiers.slab.ringFrom session.tiers.ram fuel session.tiers.slab.head =
        session.caches ∧
      ∀ size, session.tiers.slab.findFrom? session.tiers.ram size fuel session.tiers.slab.head =
        session.tiers.slab.find? session.tiers.ram size
  found_iff : ∀ size cache, session.tiers.slab.find? session.tiers.ram size = some cache ↔
    cache ∈ session.caches ∧ Cache.objectSize session.tiers.ram cache = size
  found_eq : ∀ size, session.tiers.slab.cacheFor? session.tiers.ram size =
    session.tiers.slab.find? session.tiers.ram size
  ownSlot : ∀ cache ∈ session.caches.tail, cache % CacheRecord.alignment = 0 ∧
    ∃ fill slab index,
      let capacity := session.tiers.slab.capacityFor CacheRecord.objectSize
      let slot := Slab.slot session.tiers.ram slab CacheRecord.objectSize index
      slab ∈ Cache.slabs session.tiers.ram session.tiers.slab.head fill ∧ index < capacity ∧
        index ∉ Slab.chain session.tiers.ram slab capacity ∧ (Cache.extent cache).Sub slot ∧
        (∀ other ∈ session.caches, other ≠ cache → (Cache.extent other).Apart slot) ∧
        ∀ extent ∈ session.live, extent.Apart slot
  counted : Cache.handedOut session.tiers.ram session.tiers.slab.head =
    session.caches.tail.length + (session.objectsOf session.tiers.slab.head).length
  enters : ∀ call, session.Permits call →
    (session.perform call).caches.tail = session.caches.tail ∨
      ∃ cache, cache ∉ session.caches ∧
        (session.perform call).caches.tail = cache :: session.caches.tail
  stays : ∀ calls, session.Allows calls →
    (session.run calls).tiers.slab = session.tiers.slab ∧
      session.caches.tail <:+ (session.run calls).caches.tail

variable {session : Session} {origin : BuddyAllocator} {store : Store}
  {records objects : List Seat} {blocks : List Extent} {cache : Nat}

/-- The live allocations in objects of a cache are the seats in its slabs. -/
theorem length_objectsOf
    (tenancy : session.tiers.StockedSeatedLent origin store records objects blocks)
    (same : session.live.Perm (objects.map Seat.extent ++ blocks)) (there : cache ∈ store.caches) :
    (session.objectsOf cache).length =
      objects.countP fun seat => seat.slab ∈ (store.stock cache).all := by
  have stocked := tenancy.stocked
  have seats : ∀ seat ∈ objects, ((session.pageOf? seat.extent.start).any fun page =>
      page.owner = .slab ∧ page.cache = some cache) =
        decide (seat.slab ∈ (store.stock cache).all) := by
    intro seat there'
    obtain ⟨other, member, inside⟩ := tenancy.inside_of_seat there'
    have page : session.pageOf? seat.extent.start = _ := stocked.page_of_seat member inside
    rw [page, Option.any_some, decide_eq_decide]
    constructor
    · rintro ⟨-, named⟩
      rw [← Option.some.inj named]
      exact inside.held.1
    · intro listed
      exact ⟨rfl, congrArg some (stocked.cache_unique member there inside.held.1 listed)⟩
  have none : blocks.countP (fun block => (session.pageOf? block.start).any fun page =>
      page.owner = .slab ∧ page.cache = some cache) = 0 := by
    refine List.countP_eq_zero.2 fun block listed => ?_
    obtain ⟨page, lends⟩ := tenancy.lent.lends block listed
    have found : session.pageOf? block.start = some page := lends.found
    simp [found, lends.owner_eq]
  rw [objectsOf, ← List.countP_eq_length_filter, same.countP_eq, List.countP_append, none,
    Nat.add_zero, List.countP_map]
  exact List.countP_congr fun seat there' => by
    rw [Function.comp_apply, seats seat there']

section

variable (tenancy : session.tiers.StockedSeatedLent origin store records objects blocks)

include tenancy

theorem caches_eq : session.caches = store.caches :=
  tenancy.ring_eq

theorem closes_caches : SlabAllocator.Closes session.tiers.ram session.tiers.slab.head
    session.tiers.slab.head store.others := by
  rw [tenancy.stocked.head_eq]
  exact tenancy.stocked.closes

theorem iterate_next_head {count : Nat} (le : count ≤ session.caches.length) :
    (Cache.next session.tiers.ram)^[count] session.tiers.slab.head =
      (session.caches[count]?).getD session.tiers.slab.head := by
  rw [caches_eq tenancy] at le ⊢
  rw [(closes_caches tenancy).iterate_next le, tenancy.stocked.head_eq]
  rfl

theorem exists_cache_of_slab {frame : Nat} {page : Page}
    (found : session.tiers.buddy.pages.page? frame = some page) (owner : page.owner = .slab) :
    ∃ cache ∈ session.caches, page.cache = some cache := by
  obtain ⟨cache, there, named, -⟩ := tenancy.stocked.served frame page found owner
  rw [caches_eq tenancy]
  exact ⟨cache, there, named⟩

theorem nodup_objectSizes :
    (session.caches.map (Cache.objectSize session.tiers.ram)).Nodup := by
  rw [caches_eq tenancy, List.map_congr_left fun cache there => tenancy.objectSize_eq there]
  exact tenancy.stocked.sizes

theorem ringFrom_eq_caches {fuel : Nat} (enough : session.caches.length ≤ fuel) :
    session.tiers.slab.ringFrom session.tiers.ram fuel session.tiers.slab.head =
      session.caches := by
  rw [caches_eq tenancy] at enough ⊢
  rw [(closes_caches tenancy).ringFrom_eq enough, tenancy.stocked.head_eq]
  rfl

theorem findFrom?_eq_find? {fuel : Nat} (enough : session.caches.length ≤ fuel) (size : Nat) :
    session.tiers.slab.findFrom? session.tiers.ram size fuel session.tiers.slab.head =
      session.tiers.slab.find? session.tiers.ram size := by
  rw [SlabAllocator.findFrom?_eq_find?_ringFrom, ringFrom_eq_caches tenancy enough,
    SlabAllocator.find?_eq_find?_ring]
  rfl

theorem find?_eq_some_iff (size cache : Nat) :
    session.tiers.slab.find? session.tiers.ram size = some cache ↔
      cache ∈ session.caches ∧ Cache.objectSize session.tiers.ram cache = size := by
  rw [caches_eq tenancy]
  refine tenancy.stocked.find?_eq_some_iff.trans (and_congr_right fun there => ?_)
  rw [tenancy.objectSize_eq there]

theorem handedOut_head_eq (same : session.live.Perm (objects.map Seat.extent ++ blocks)) :
    Cache.handedOut session.tiers.ram session.tiers.slab.head =
      session.caches.tail.length + (session.objectsOf session.tiers.slab.head).length := by
  have served := tenancy.stocked.handedOut_head tenancy.seated
  have objects_eq := length_objectsOf tenancy same List.mem_cons_self
  rw [caches_eq tenancy, tenancy.stocked.head_eq]
  exact served.trans (congrArg (store.others.length + ·) objects_eq.symm)

end

theorem AccountsForLive.enters (accounts : session.AccountsForLive origin) {call : Call}
    (permitted : session.Permits call) :
    (session.perform call).caches.tail = session.caches.tail ∨
      ∃ cache, cache ∉ session.caches ∧
        (session.perform call).caches.tail = cache :: session.caches.tail := by
  obtain ⟨store, records, objects, blocks, tenancy, same⟩ := id accounts
  obtain ⟨store', turn⟩ := turn_perform accounts tenancy same permitted
  have after : (session.perform call).caches = store'.caches := by
    rw [Session.caches, turn.slab_eq]
    exact turn.stocked.ring_eq
  rw [after, caches_eq tenancy]
  exact turn.enters

theorem AccountsForLive.stays (accounts : session.AccountsForLive origin) {calls : List Call}
    (allowed : session.Allows calls) :
    (session.run calls).tiers.slab = session.tiers.slab ∧
      session.caches.tail <:+ (session.run calls).caches.tail := by
  obtain ⟨slab_eq, onward⟩ := accounts.onward_run allowed
  refine ⟨slab_eq, ?_⟩
  rw [Session.caches, Session.caches, slab_eq]
  exact onward.newest

theorem AccountsForLive.registered (accounts : session.AccountsForLive origin) :
    session.Registered := by
  obtain ⟨store, records, objects, blocks, tenancy, same⟩ := id accounts
  have caches := caches_eq tenancy
  exact {
    around := fun _ le => iterate_next_head tenancy le
    nodup := caches ▸ tenancy.stocked.nodup
    first := rfl
    every := fun _ _ found owner => exists_cache_of_slab tenancy found owner
    sizes := nodup_objectSizes tenancy
    first_size := by
      rw [tenancy.stocked.head_eq, tenancy.objectSize_eq List.mem_cons_self]
      exact tenancy.stocked.head_size
    ends := fun _ enough =>
      ⟨ringFrom_eq_caches tenancy enough, findFrom?_eq_find? tenancy enough⟩
    found_iff := find?_eq_some_iff tenancy
    found_eq := fun size => (session.tiers.slab.find?_eq_find?_ring session.tiers.ram size).symm
    ownSlot := by
      rw [caches]
      exact fun cache there => ⟨tenancy.stocked.aligned cache (List.mem_cons_of_mem _ there),
        tenancy.recorded same there⟩
    counted := handedOut_head_eq tenancy same
    enters := fun _ permitted => accounts.enters permitted
    stays := fun _ allowed => accounts.stays allowed }

/--
Whatever is called on a manager that was booted, requests that fail included, the caches
are registered at every point.
-/
theorem run_registered {layout : MemoryLayout} {ram : Ram} {manager : Manager}
    (booted : Action.Answers (Manager.boot layout ram) () (.ok manager) ()) {calls : List Call}
    (allowed : (start manager).Allows calls) : ((start manager).run calls).Registered := by
  obtain ⟨plan, raw, seeded, booted⟩ := Manager.boot_eq_ok booted
  exact (booted.accounts.run allowed).registered

def recordCalls : List Call :=
  [.allocate 24, .allocate CacheRecord.objectSize, .allocate 100]

/-- The newer of the two caches comes first, and three objects are out of the first cache. -/
theorem run_registered_sample :
    Action.Answers (Manager.boot .sixteenPages) () (.ok sampleManager) () ∧
    (start sampleManager).Allows recordCalls ∧
    let session := (start sampleManager).run recordCalls
    session.caches.map (Cache.objectSize session.tiers.ram) = [47, 100, 24] ∧
      Cache.handedOut session.tiers.ram session.tiers.slab.head = 3 ∧ session.Registered := by
  have allowed : (start sampleManager).Allows recordCalls := ⟨trivial, trivial, trivial, trivial⟩
  exact ⟨sampleManager_booted, allowed, by decide +kernel, by decide +kernel,
    run_registered sampleManager_booted allowed⟩

end Session

end PhysicalMemory
