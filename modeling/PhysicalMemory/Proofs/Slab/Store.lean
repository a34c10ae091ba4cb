import PhysicalMemory.Proofs.Slab.Grow
import PhysicalMemory.Proofs.Slab.Ring

/-!
# The caches of a slab allocator

Both tiers are stocked when the page tier is sound, the ring of records closes,
every cache has its stock, and the descriptors of slab pages name exactly the
slabs of the stocks and the caches they serve.  The first record lies below the
heap and every other one in a slab of the first cache, behind its metadata, so
the grounds of two caches never meet and no free page meets any of them.
-/

namespace PhysicalMemory

/-- The caches in the order of their ring, the first one apart, and what each has. -/
structure Store where
  head : Nat
  others : List Nat
  stock : Nat → Stock

namespace Store

def caches (store : Store) : List Nat :=
  store.head :: store.others

def restock (store : Store) (cache : Nat) (stock : Stock) : Store :=
  { store with stock := Function.update store.stock cache stock }

def found (store : Store) (cache size : Nat) : Store :=
  ⟨store.head, cache :: store.others, Function.update store.stock cache (.bare size)⟩

theorem stock_restock (store : Store) (cache : Nat) (stock : Stock) (other : Nat) :
    (store.restock cache stock).stock other = if other = cache then stock else store.stock other :=
  Function.update_apply _ _ _ _

theorem stock_found (store : Store) (cache size other : Nat) :
    (store.found cache size).stock other =
      if other = cache then .bare size else store.stock other :=
  Function.update_apply _ _ _ _

theorem stock_restock_self (store : Store) (cache : Nat) (stock : Stock) :
    (store.restock cache stock).stock cache = stock :=
  Function.update_self _ _ _

theorem stock_found_self (store : Store) (cache size : Nat) :
    (store.found cache size).stock cache = .bare size :=
  Function.update_self _ _ _

variable {store : Store} {cache other size slab : Nat} {stock : Stock}

theorem size_restock (same : stock.size = (store.stock cache).size) (other : Nat) :
    ((store.restock cache stock).stock other).size = (store.stock other).size := by
  rw [stock_restock]
  split
  · next equal => rw [equal, same]
  · rfl

theorem capacity_restock (same : stock.size = (store.stock cache).size) (other pageSize : Nat) :
    ((store.restock cache stock).stock other).capacity pageSize =
      (store.stock other).capacity pageSize :=
  Stock.capacity_congr (size_restock same other)

theorem restock_cases {motive : Nat → Stock → Prop} (new : motive cache stock)
    (old : other ≠ cache → motive other (store.stock other)) :
    motive other ((store.restock cache stock).stock other) := by
  rw [stock_restock]
  split
  · next equal => exact equal ▸ new
  · next distinct => exact old distinct

theorem all_restock (sub : ∀ slab ∈ (store.stock cache).all, slab ∈ stock.all)
    (listed : slab ∈ (store.stock other).all) :
    slab ∈ ((store.restock cache stock).stock other).all := by
  rw [stock_restock]
  split
  · next equal => exact sub slab (equal ▸ listed)
  · exact listed

theorem mem_caches_found :
    other ∈ (store.found cache size).caches ↔ other ∈ store.caches ∨ other = cache := by
  simp only [caches, found, List.mem_cons]
  tauto

theorem stock_found_of_mem (absent : cache ∉ store.caches) (member : other ∈ store.caches) :
    (store.found cache size).stock other = store.stock other := by
  rw [stock_found, if_neg (by rintro rfl; exact absent member)]

/-- Every cache has what the new one has and the others had. -/
theorem found_cases {motive : Nat → Stock → Prop} (absent : cache ∉ store.caches)
    (new : motive cache (.bare size)) (old : ∀ id ∈ store.caches, motive id (store.stock id))
    (member : other ∈ (store.found cache size).caches) :
    motive other ((store.found cache size).stock other) := by
  rcases mem_caches_found.1 member with there | rfl
  · rw [stock_found_of_mem absent there]
    exact old other there
  · rw [stock_found_self]
    exact new

/-- A new cache adds its size to those of the others. -/
theorem sizes_found_perm (absent : cache ∉ store.caches) :
    ((store.found cache size).caches.map fun other =>
      ((store.found cache size).stock other).size).Perm
        (size :: store.caches.map fun other => (store.stock other).size) := by
  have same : store.caches.map (fun other => ((store.found cache size).stock other).size) =
      store.caches.map fun other => (store.stock other).size :=
    List.map_congr_left fun other member => by rw [stock_found_of_mem absent member]
  have here := congrArg Stock.size (stock_found_self store cache size)
  rw [← same]
  refine ((List.Perm.swap cache store.head store.others).map _).trans (.of_eq ?_)
  exact congrArg (· :: _) here

end Store

/-- The byte is in the record of a cache with the stock, or in the metadata of a slab of it. -/
def Stock.Ground (stock : Stock) (pageSize cache byte : Nat) : Prop :=
  Cache.Record cache byte ∨
    ∃ slab ∈ stock.all, Slab.Metadata slab (stock.capacity pageSize) byte

theorem Stock.Estate.ground {stock : Stock} {pageSize cache byte : Nat}
    (inside : stock.Estate pageSize cache byte) : stock.Ground pageSize cache byte :=
  inside.imp_left Cache.Fields.record

namespace BuddyAllocator

/-- The page tier and the caches agree on what memory and the descriptors say of slabs. -/
structure Stocked (buddy : BuddyAllocator) (allocator : SlabAllocator) (store : Store) : Prop where
  sound : buddy.Sound
  heap : (buddy.zones.get .heap).allocatable = true
  reserved : (buddy.zones.get .noHeap).allocatable = false
  page_eq : allocator.pageSize = buddy.geometry.size
  head_eq : allocator.head = store.head
  head_pos : 0 < store.head
  head_low : store.head + CacheRecord.size ≤ (buddy.zones.get .heap).start
  head_size : (store.stock store.head).size = CacheRecord.objectSize
  aligned : ∀ cache ∈ store.caches, cache % CacheRecord.alignment = 0
  closes : SlabAllocator.Closes buddy.ram store.head store.head store.others
  sizes : (store.caches.map fun cache => (store.stock cache).size).Nodup
  sized : ∀ cache ∈ store.caches, 0 < (store.stock cache).size
  positive : ∀ cache ∈ store.caches, 0 < (store.stock cache).capacity buddy.geometry.size
  kept : ∀ cache ∈ store.caches, (store.stock cache).RecordedIn buddy.ram buddy.geometry.size cache
  oneReady : ∀ cache ∈ store.caches, (store.stock cache).OneReady buddy.geometry.size
  owned : ∀ cache ∈ store.caches, ∀ slab ∈ (store.stock cache).all,
    buddy.pages.page? (buddy.geometry.frameOf slab) = some (.serving slab cache)
  served : ∀ frame page, buddy.pages.page? frame = some page → page.owner = .slab →
    ∃ cache ∈ store.caches, page.cache = some cache ∧ page.start ∈ (store.stock cache).all
  inHeadSlab : ∀ cache ∈ store.others, ∃ slab ∈ (store.stock store.head).all,
    slab + Slab.metadataSize ((store.stock store.head).capacity buddy.geometry.size) ≤ cache ∧
      cache + CacheRecord.size ≤ slab + buddy.geometry.size
  nodup : store.caches.Nodup
  apart : ∀ cache ∈ store.caches, ∀ other ∈ store.caches, cache ≠ other →
    ∀ byte, Cache.Record cache byte → ¬ Cache.Record other byte

namespace Stocked

variable {buddy after : BuddyAllocator} {allocator : SlabAllocator} {store : Store}
  {cache other slab : Nat}

theorem eq_heap (stocked : buddy.Stocked allocator store) {id : ZoneId}
    (allocatable : (buddy.zones.get id).allocatable = true) : id = .heap := by
  cases id with
  | heap => rfl
  | noHeap =>
      rw [stocked.reserved] at allocatable
      cases allocatable

/-- The page of a slab is taken, and it is a whole page of the heap. -/
theorem slab_page (stocked : buddy.Stocked allocator store) (member : cache ∈ store.caches)
    (listed : slab ∈ (store.stock cache).all) :
    slab = buddy.geometry.frameOf slab * buddy.geometry.size ∧
      buddy.pages.Holds (buddy.geometry.frameOf slab) 0 ∧
        (buddy.zones.get .heap).Has (buddy.geometry.frameOf slab) := by
  have found := stocked.owned cache member slab listed
  have holds : buddy.pages.Holds (buddy.geometry.frameOf slab) 0 :=
    ⟨_, found, by simp [Page.serving], rfl⟩
  obtain ⟨id, allocatable, within⟩ := stocked.sound.held.inside _ _ holds
  obtain rfl := stocked.eq_heap allocatable
  exact ⟨stocked.sound.regular.placed _ _ found, holds, within _ rfl⟩

/-- A slab lies in the heap, above its start and below the last word. -/
theorem slab_bounds (stocked : buddy.Stocked allocator store) (member : cache ∈ store.caches)
    (listed : slab ∈ (store.stock cache).all) :
    (buddy.zones.get .heap).start ≤ slab ∧ slab + buddy.geometry.size ≤
      (buddy.zones.get .heap).start + (buddy.zones.get .heap).size := by
  obtain ⟨place, -, low, high⟩ := stocked.slab_page member listed
  rw [stocked.sound.geometry_eq] at low high
  rw [Nat.succ_mul] at high
  change _ ≤ buddy.geometry.frameOf slab * buddy.geometry.size at low
  change buddy.geometry.frameOf slab * buddy.geometry.size + buddy.geometry.size ≤ _ at high
  omega

/-- All bytes of a slab's page are in the slab's frame. -/
theorem frame_of_slab (stocked : buddy.Stocked allocator store) (member : cache ∈ store.caches)
    (listed : slab ∈ (store.stock cache).all) {byte : Nat} (low : slab ≤ byte)
    (high : byte < slab + buddy.geometry.size) :
    buddy.geometry.frameOf byte = buddy.geometry.frameOf slab := by
  have place := (stocked.slab_page member listed).1
  exact Geometry.frameOf_eq_of_page (by omega) (by omega)

theorem cache_unique (stocked : buddy.Stocked allocator store) (member : cache ∈ store.caches)
    (member' : other ∈ store.caches) (listed : slab ∈ (store.stock cache).all)
    (listed' : slab ∈ (store.stock other).all) : cache = other := by
  have first := stocked.owned cache member slab listed
  rw [stocked.owned other member' slab listed'] at first
  have same := congrArg Page.cache (Option.some.inj first)
  exact (Option.some.inj same).symm

/-- Two slabs, of whatever caches, are different pages. -/
theorem slabs_apart (stocked : buddy.Stocked allocator store) (member : cache ∈ store.caches)
    (member' : other ∈ store.caches) {slab' : Nat} (listed : slab ∈ (store.stock cache).all)
    (listed' : slab' ∈ (store.stock other).all) (distinct : slab ≠ slab') :
    slab + buddy.geometry.size ≤ slab' ∨ slab' + buddy.geometry.size ≤ slab := by
  have first := (stocked.slab_page member listed).1
  have second := (stocked.slab_page member' listed').1
  rcases Nat.lt_trichotomy (buddy.geometry.frameOf slab) (buddy.geometry.frameOf slab') with
    lower | same | higher
  · have step := Nat.mul_le_mul_right buddy.geometry.size (Nat.succ_le_of_lt lower)
    rw [Nat.succ_mul] at step
    omega
  · rw [same] at first
    exact absurd (first.trans second.symm) distinct
  · have step := Nat.mul_le_mul_right buddy.geometry.size (Nat.succ_le_of_lt higher)
    rw [Nat.succ_mul] at step
    omega

theorem metadata_le (stocked : buddy.Stocked allocator store) (member : cache ∈ store.caches) :
    Slab.metadataSize ((store.stock cache).capacity buddy.geometry.size) +
      (store.stock cache).capacity buddy.geometry.size * (store.stock cache).size ≤
        buddy.geometry.size :=
  Slab.metadataSize_le (stocked.positive cache member) buddy.geometry.size_lt_limit

/-- What stands behind the metadata in a slab of the first cache meets the metadata of no slab. -/
theorem inHeadSlab_beside (stocked : buddy.Stocked allocator store) {home place : Nat}
    (inside : home ∈ (store.stock store.head).all)
    (above : home + Slab.metadataSize ((store.stock store.head).capacity buddy.geometry.size) ≤
      place)
    (below : place + CacheRecord.size ≤ home + buddy.geometry.size)
    (member : other ∈ store.caches) (listed : slab ∈ (store.stock other).all) {byte : Nat}
    (record : Cache.Record place byte) :
    ¬ Slab.Metadata slab ((store.stock other).capacity buddy.geometry.size) byte := by
  intro metadata
  have small := stocked.metadata_le member
  simp only [Cache.Record, Slab.Metadata] at record metadata
  by_cases same : home = slab
  · subst same
    obtain rfl := stocked.cache_unique List.mem_cons_self member inside listed
    omega
  · have apart := stocked.slabs_apart List.mem_cons_self member inside listed same
    omega

theorem record_beside (stocked : buddy.Stocked allocator store) (member : cache ∈ store.caches)
    (member' : other ∈ store.caches) (listed : slab ∈ (store.stock other).all) {byte : Nat}
    (record : Cache.Record cache byte) :
    ¬ Slab.Metadata slab ((store.stock other).capacity buddy.geometry.size) byte := by
  rcases List.mem_cons.1 member with rfl | member
  · intro metadata
    have low := (stocked.slab_bounds member' listed).1
    have := stocked.head_low
    simp only [Cache.Record, Slab.Metadata] at record metadata
    omega
  · obtain ⟨home, inside, above, below⟩ := stocked.inHeadSlab cache member
    exact stocked.inHeadSlab_beside inside above below member' listed record

theorem placed (stocked : buddy.Stocked allocator store) (member : cache ∈ store.caches) :
    (store.stock cache).Placed buddy.geometry.size cache where
  positive := stocked.positive cache member
  page_lt := buddy.geometry.size_lt_limit
  aligned := fun slab listed => by
    rw [(stocked.slab_page member listed).1]
    exact Nat.mul_mod_left _ _
  nonzero := fun slab listed => by
    have low := (stocked.slab_bounds member listed).1
    have := (stocked.sound.ready stocked.heap).start_pos
    omega
  bounded := fun slab listed =>
    Nat.lt_of_le_of_lt (stocked.slab_bounds member listed).2
      (stocked.sound.ready stocked.heap).stop_lt
  beside := fun slab listed byte record => stocked.record_beside member member listed record

/-- The grounds of two caches do not meet. -/
theorem ground_apart (stocked : buddy.Stocked allocator store) (member : cache ∈ store.caches)
    (member' : other ∈ store.caches) (distinct : cache ≠ other) {byte : Nat}
    (ground : (store.stock cache).Ground buddy.geometry.size cache byte) :
    ¬ (store.stock other).Ground buddy.geometry.size other byte := by
  rintro (record' | ⟨slab', listed', metadata'⟩)
  · rcases ground with record | ⟨slab, listed, metadata⟩
    · exact stocked.apart cache member other member' distinct byte record record'
    · exact stocked.record_beside member' member listed record' metadata
  · rcases ground with record | ⟨slab, listed, metadata⟩
    · exact stocked.record_beside member member' listed' record metadata'
    · have separate : slab ≠ slab' := by
        rintro rfl
        exact distinct (stocked.cache_unique member member' listed listed')
      have apart := stocked.slabs_apart member member' listed listed' separate
      have := stocked.metadata_le member
      have := stocked.metadata_le member'
      simp only [Slab.Metadata] at metadata metadata'
      omega

theorem not_free_of_page (stocked : buddy.Stocked allocator store) (member : cache ∈ store.caches)
    (listed : slab ∈ (store.stock cache).all) {byte : Nat} (low : slab ≤ byte)
    (high : byte < slab + buddy.geometry.size) :
    ¬ buddy.Free .heap (buddy.geometry.frameOf byte) := by
  intro free
  rw [stocked.frame_of_slab member listed low high] at free
  exact free.2 ⟨_, 0, (stocked.slab_page member listed).2.1, rfl⟩

/-- No free page of the heap meets the ground of a cache. -/
theorem not_free_of_ground (stocked : buddy.Stocked allocator store)
    (member : cache ∈ store.caches) {byte : Nat}
    (ground : (store.stock cache).Ground buddy.geometry.size cache byte) :
    ¬ buddy.Free .heap (buddy.geometry.frameOf byte) := by
  rcases ground with record | ⟨slab, listed, metadata⟩
  · simp only [Cache.Record] at record
    rcases List.mem_cons.1 member with rfl | member
    · -- the first record lies below the heap
      intro free
      have := stocked.sound.start_le free.1
      have := stocked.head_low
      omega
    · obtain ⟨home, inside, above, below⟩ := stocked.inHeadSlab cache member
      exact stocked.not_free_of_page List.mem_cons_self inside (by omega) (by omega)
  · have := stocked.metadata_le member
    simp only [Slab.Metadata] at metadata
    exact stocked.not_free_of_page member listed metadata.1 (by omega)

/-- Going around the ring meets the caches of the store, in order. -/
theorem ring_eq (stocked : buddy.Stocked allocator store) :
    allocator.ring buddy.ram = store.caches := by
  have apart : store.caches.Pairwise Chain.Apart := by
    refine (List.nodup_iff_pairwise_ne.1 stocked.nodup).imp_of_mem
      fun {cache other} member member' distinct => ?_
    have first := stocked.apart cache member other member' distinct cache
    have second := stocked.apart cache member other member' distinct other
    simp only [Cache.Record, CacheRecord.size, Chain.Apart] at *
    omega
  have nonzero : ∀ cache ∈ store.caches, cache ≠ 0 := by
    intro cache member
    rcases List.mem_cons.1 member with rfl | member
    · exact Nat.ne_of_gt stocked.head_pos
    · obtain ⟨home, inside, above, -⟩ := stocked.inHeadSlab cache member
      have low := (stocked.slab_bounds List.mem_cons_self inside).1
      have := (stocked.sound.ready stocked.heap).start_pos
      omega
  have closes := stocked.closes
  rw [Store.caches, ← stocked.head_eq] at apart nonzero ⊢
  rw [← stocked.head_eq] at closes
  exact closes.ring_eq apart nonzero

theorem slabs_eq (stocked : buddy.Stocked allocator store) (member : cache ∈ store.caches)
    (fill : Fill) : Cache.slabs buddy.ram cache fill = (store.stock cache).slabs fill :=
  (stocked.kept cache member).slabs_eq (stocked.placed member) (stocked.oneReady cache member) fill

theorem capacityFor_eq (stocked : buddy.Stocked allocator store) (member : cache ∈ store.caches) :
    allocator.capacityFor (Cache.objectSize buddy.ram cache) =
      (store.stock cache).capacity buddy.geometry.size := by
  rw [SlabAllocator.capacityFor, stocked.page_eq, (stocked.kept cache member).size_eq]
  rfl

/-- The chain of a slab lists its free objects. -/
theorem chain_eq (stocked : buddy.Stocked allocator store) (member : cache ∈ store.caches)
    (listed : slab ∈ (store.stock cache).all) :
    Slab.chain buddy.ram slab (allocator.capacityFor (Cache.objectSize buddy.ram cache)) =
      (store.stock cache).free slab := by
  rw [stocked.capacityFor_eq member]
  exact ((stocked.kept cache member).keeps slab listed).chain_eq

theorem find?_eq_some (stocked : buddy.Stocked allocator store) {size : Nat}
    (found : allocator.find? buddy.ram size = some cache) :
    cache ∈ store.caches ∧ (store.stock cache).size = size := by
  rw [SlabAllocator.find?_eq_find?_ring, stocked.ring_eq] at found
  have member := List.mem_of_find?_eq_some found
  have size_eq := List.find?_some found
  rw [decide_eq_true_eq, (stocked.kept cache member).size_eq] at size_eq
  exact ⟨member, size_eq⟩

theorem find?_eq_none (stocked : buddy.Stocked allocator store) {size : Nat}
    (found : allocator.find? buddy.ram size = none) :
    ∀ cache ∈ store.caches, (store.stock cache).size ≠ size := by
  rw [SlabAllocator.find?_eq_find?_ring, stocked.ring_eq] at found
  intro cache member same
  have differs := List.find?_eq_none.1 found cache member
  rw [decide_eq_true_eq, (stocked.kept cache member).size_eq] at differs
  exact differs same

end Stocked

end BuddyAllocator

end PhysicalMemory
