import PhysicalMemory.Proofs.Boot.Start

/-!
# The chains of slabs

In pages that are not huge every object of a slab is free or in use at any time.
The free ones are chained, each once, from the slab's cursor to the end mark, the
slab counts the others, and these are just the objects in which a live allocation
or the record of a cache lies.
-/

namespace PhysicalMemory

/-- The free objects of a slab are chained, and the others are counted and used. -/
structure Slab.Chained (ram : Ram) (slab capacity : Nat) (used : Nat → Prop) : Prop where
  ends : Leads ram slab (cursor ram slab) (chain ram slab capacity)
  nodup : (chain ram slab capacity).Nodup
  below : ∀ index ∈ chain ram slab capacity, index < capacity
  counted : (chain ram slab capacity).length + handedOut ram slab = capacity
  taken : ∀ index < capacity, index ∉ chain ram slab capacity ↔ used index

namespace BuddyAllocator.Stocked

variable {buddy : BuddyAllocator} {allocator : SlabAllocator} {store : Store}
  {cache other slab index : Nat} {seat : Seat}

/-- A seat that lies in an object is a seat in that object. -/
theorem object_of_sub (stocked : buddy.Stocked allocator store) (member : cache ∈ store.caches)
    (listed : slab ∈ (store.stock cache).all)
    (below : index < (store.stock cache).capacity buddy.geometry.size)
    (member' : other ∈ store.caches)
    (inside : seat.Inside (store.stock other) buddy.geometry.size)
    (sub : seat.extent.Sub
      ⟨(store.stock cache).slot buddy.geometry.size slab index, (store.stock cache).size⟩) :
    seat.object = (slab, index) := by
  have positive := inside.positive
  have same : seat.slab = slab := by
    by_contra distinct
    have bounds := stocked.seat_bounds member' inside
    have slot := (stocked.placed member).slot_bounds slab below
    have apart := stocked.slabs_apart member' member inside.held.1 listed distinct
    simp only [Extent.Sub] at sub
    omega
  subst same
  obtain rfl := stocked.cache_unique member' member inside.held.1 listed
  by_contra distinct
  have apart := @Stock.slot_apart (store.stock other) buddy.geometry.size seat.slab _ _
    fun equal : seat.index = index => distinct (Prod.ext rfl equal)
  have low := inside.low
  have high := inside.high
  simp only [Extent.Sub] at sub
  omega

end BuddyAllocator.Stocked

namespace Tiers.StockedSeatedLent

variable {tiers : Tiers} {origin : BuddyAllocator} {store : Store} {records objects : List Seat}
  {blocks live : List Extent} {cache slab index : Nat}

section

variable (tenancy : tiers.StockedSeatedLent origin store records objects blocks)
  (same : live.Perm (objects.map Seat.extent ++ blocks)) (member : cache ∈ store.caches)
  (listed : slab ∈ (store.stock cache).all)

include tenancy member listed

/-- Whoever has a seat in an object holds it. -/
theorem held_of_seat (below : index < (store.stock cache).capacity tiers.buddy.geometry.size)
    {seat : Seat} (there : seat ∈ records ++ objects)
    (sub : seat.extent.Sub ((store.stock cache).extent tiers.buddy.geometry.size slab index)) :
    (store.stock cache).Held tiers.buddy.geometry.size slab index := by
  have stocked := tenancy.stocked
  obtain ⟨other, member', inside⟩ := tenancy.seated.tenanted.seated seat there
  have object := stocked.object_of_sub member listed below member' inside sub
  have held := inside.held
  obtain ⟨rfl, rfl⟩ := Prod.mk.inj object
  obtain rfl := stocked.cache_unique member' member held.1 listed
  exact held

include same

theorem exists_sub_of_held
    (held : (store.stock cache).Held tiers.buddy.geometry.size slab index) :
    (∃ extent ∈ live,
      extent.Sub ((store.stock cache).extent tiers.buddy.geometry.size slab index)) ∨
    ∃ record ∈ store.caches, (Cache.extent record).Sub
      ((store.stock cache).extent tiers.buddy.geometry.size slab index) := by
  have tenanted := tenancy.seated.tenanted
  obtain ⟨seat, there, object⟩ := List.mem_map.1 (tenanted.occupied cache member slab index held)
  obtain ⟨rfl, rfl⟩ := Prod.mk.inj object
  obtain ⟨other, member', inside⟩ := tenanted.seated seat there
  obtain rfl := tenancy.stocked.cache_unique member' member inside.held.1 listed
  have sub : seat.extent.Sub
      ((store.stock other).extent tiers.buddy.geometry.size seat.slab seat.index) :=
    ⟨inside.low, inside.high⟩
  rcases List.mem_append.1 there with record | object
  · right
    have entered := List.mem_map_of_mem record (f := Seat.extent)
    rw [tenancy.seated.extents] at entered
    obtain ⟨place, listed', extent_eq⟩ := List.mem_map.1 entered
    exact ⟨place, List.mem_cons_of_mem _ listed', by rw [extent_eq]; exact sub⟩
  · exact .inl ⟨seat.extent, same.mem_iff.2
      (List.mem_append_left _ (List.mem_map_of_mem object)), sub⟩

variable (below : index < (store.stock cache).capacity tiers.buddy.geometry.size)

include below

theorem held_of_live {extent : Extent} (lives : extent ∈ live)
    (sub : extent.Sub ((store.stock cache).extent tiers.buddy.geometry.size slab index)) :
    (store.stock cache).Held tiers.buddy.geometry.size slab index := by
  rcases tenancy.cases_live same lives with ⟨seat, there, rfl⟩ | ⟨page, lends⟩
  · exact tenancy.held_of_seat member listed below (List.mem_append_right records there) sub
  · -- a block that is lent has no byte in the page of a slab
    have apart := tenancy.stocked.lends_apart_page lends member listed
    have slot := (tenancy.stocked.placed member).slot_bounds slab below
    have positive := lends.positive
    simp only [Extent.Apart, Extent.Sub, Stock.extent] at apart sub
    omega

omit same

theorem held_of_record {record : Nat} (there : record ∈ store.caches)
    (sub : (Cache.extent record).Sub
      ((store.stock cache).extent tiers.buddy.geometry.size slab index)) :
    (store.stock cache).Held tiers.buddy.geometry.size slab index := by
  rcases List.mem_cons.1 there with rfl | there
  · -- the first record lies below the heap
    have page := tenancy.stocked.slab_bounds member listed
    have slot := (tenancy.stocked.placed member).slot_bounds slab below
    have low := tenancy.stocked.head_low
    simp only [Extent.Sub, Cache.extent, CacheRecord.size, Stock.extent] at sub low
    omega
  · have entered := List.mem_map_of_mem there (f := Cache.extent)
    rw [← tenancy.seated.extents] at entered
    obtain ⟨seat, seated, extent_eq⟩ := List.mem_map.1 entered
    exact tenancy.held_of_seat member listed below (List.mem_append_left _ seated)
      (by rw [extent_eq]; exact sub)

include same

/-- An object was handed out just when a live allocation or a record lies in it. -/
theorem held_iff {slot : Extent}
    (place : slot = (store.stock cache).extent tiers.buddy.geometry.size slab index) :
    (store.stock cache).Held tiers.buddy.geometry.size slab index ↔
      (∃ extent ∈ live, extent.Sub slot) ∨
        ∃ record ∈ store.caches, (Cache.extent record).Sub slot := by
  subst place
  constructor
  · exact tenancy.exists_sub_of_held same member listed
  · rintro (⟨extent, lives, sub⟩ | ⟨record, there, sub⟩)
    · exact tenancy.held_of_live same member listed below lives sub
    · exact tenancy.held_of_record member listed below there sub

end

end Tiers.StockedSeatedLent

namespace Session

variable {session : Session} {origin : BuddyAllocator}

/-- A live allocation or the record of a cache lies in the object. -/
def Uses (session : Session) (slot : Extent) : Prop :=
  (∃ extent ∈ session.live, extent.Sub slot) ∨
    ∃ record ∈ session.tiers.slab.ring session.tiers.ram, (Cache.extent record).Sub slot

/-- All slabs are chained, where a link can name every object. -/
theorem AccountsForLive.chained (accounts : session.AccountsForLive origin)
    (small : origin.geometry.size ≤ 1 <<< 32) {cache slab : Nat} {fill : Fill}
    (there : cache ∈ session.tiers.slab.ring session.tiers.ram)
    (listed : slab ∈ Cache.slabs session.tiers.ram cache fill) :
    Slab.Chained session.tiers.ram slab
      (Slab.capacity origin.geometry.size (Cache.objectSize session.tiers.ram cache)) fun index =>
        session.Uses (Slab.slot session.tiers.ram slab
          (Cache.objectSize session.tiers.ram cache) index) := by
  obtain ⟨store, records, objects, blocks, tenancy, same⟩ := accounts
  rw [tenancy.ring_eq] at there
  rw [tenancy.slabs_eq there] at listed
  have listed := Stock.mem_all listed
  have keeps := (tenancy.stocked.kept cache there).keeps slab listed
  rw [tenancy.objectSize_eq there]
  rw [← tenancy.onward.geometry_eq] at small ⊢
  change Slab.Chained _ _ ((store.stock cache).capacity session.tiers.buddy.geometry.size) _
  have room : Slab.room ((store.stock cache).capacity session.tiers.buddy.geometry.size) =
      (store.stock cache).capacity session.tiers.buddy.geometry.size :=
    Slab.room_capacity (Nat.le_trans small (by decide))
  have below := keeps.below
  have counted := keeps.counted
  rw [room] at below counted
  have chain_eq : Slab.chain session.tiers.ram slab
      ((store.stock cache).capacity session.tiers.buddy.geometry.size) =
        (store.stock cache).free slab := keeps.chain_eq
  refine ⟨?_, ?_, ?_, ?_, fun index inside => ?_⟩
  · rw [chain_eq]
    exact keeps.leads
  · rw [chain_eq]
    exact keeps.nodup
  · rw [chain_eq]
    exact below
  · rw [chain_eq, Nat.add_comm]
    exact counted
  · rw [chain_eq, Uses, tenancy.ring_eq]
    refine Iff.trans ?_ (tenancy.held_iff same there listed inside ?_)
    · rw [Stock.Held, room]
      exact ⟨fun taken => ⟨listed, inside, taken⟩, fun held => held.2.2⟩
    · rw [Slab.slot, show Slab.objects session.tiers.ram slab = _ from keeps.objects_eq]
      rfl

/--
Whatever is called on a manager that was booted, in pages that are not huge: at every
point the free objects of every slab of every cache are chained to the end mark, each
once, the slab counts the others, and just these hold a live allocation or a record.
-/
theorem run_chained {layout : MemoryLayout} {ram : Ram} {manager : Manager}
    (booted : Action.Answers (Manager.boot layout ram) () (.ok manager) ())
    (small : layout.pageSize ≤ 1 <<< 32) {calls : List Call}
    (allowed : (start manager).Allows calls) :
    let session := (start manager).run calls
    ∀ cache ∈ session.tiers.slab.ring session.tiers.ram, ∀ fill,
      ∀ slab ∈ Cache.slabs session.tiers.ram cache fill,
        let size := Cache.objectSize session.tiers.ram cache
        Slab.Chained session.tiers.ram slab (Slab.capacity layout.pageSize size) fun index =>
          session.Uses (Slab.slot session.tiers.ram slab size index) := by
  obtain ⟨plan, raw, seeded, booted⟩ := Manager.boot_eq_ok booted
  have page_size := (BootPlan.ofLayout_eq_ok booted.planned).page_size
  rw [← booted.geometry_eq] at page_size
  rw [page_size] at small ⊢
  exact fun cache there fill slab listed => (booted.accounts.run allowed).chained small there listed

def sampleCalls : List Call :=
  [.allocate 24, .allocateAligned 40 64, .allocatePages 1, .release 5724]

theorem sampleCalls_allowed : (start sampleManager).Allows sampleCalls :=
  ⟨trivial, trivial, trivial, fun _ => .inl (by decide +kernel), trivial⟩

/-- One of four objects is in use, by the bytes that were moved up in it. -/
theorem run_chained_sample :
    Action.Answers (Manager.boot .sixteenPages) () (.ok sampleManager) () ∧
    MemoryLayout.sixteenPages.pageSize ≤ 1 <<< 32 ∧
    (start sampleManager).Allows sampleCalls ∧
    let session := (start sampleManager).run sampleCalls
    Cache.objectSize session.tiers.ram 5232 = 103 ∧
      Slab.chain session.tiers.ram 6144 4 = [1, 2, 3] ∧
        Slab.Chained session.tiers.ram 6144 (Slab.capacity 512 103) fun index =>
          session.Uses (Slab.slot session.tiers.ram 6144 103 index) := by
  have size : Cache.objectSize ((start sampleManager).run sampleCalls).tiers.ram 5232 = 103 := by
    decide +kernel
  refine ⟨sampleManager_booted, by decide, sampleCalls_allowed, size, by decide +kernel, ?_⟩
  have chained := run_chained sampleManager_booted (by decide) sampleCalls_allowed 5232
    (by decide +kernel) .partly 6144 (by decide +kernel)
  rwa [size] at chained

end Session

end PhysicalMemory
