import PhysicalMemory.Proofs.Slab.Store

/-!
# Changes of the store

Both tiers stay stocked when the page tier changes away from the grounds of the
caches, when one cache exchanges its stock for another with the same slabs and
perhaps new ones, and when a record is written for a new cache in an object of
the first.  In each case memory changes only where the change needs it.
-/

namespace PhysicalMemory

namespace BuddyAllocator

namespace Stocked

variable {buddy after : BuddyAllocator} {allocator : SlabAllocator} {store : Store}
  {cache other slab : Nat} {stock : Stock}

/-- What the caches have stays when neither their grounds nor the slab pages change. -/
theorem carry (stocked : buddy.Stocked allocator store) (sound : after.Sound)
    (alike : ∀ id, Zone.Alike (buddy.zones.get id) (after.zones.get id))
    (geometry : after.geometry = buddy.geometry)
    (pages : ∀ frame page, page.owner = .slab →
      (after.pages.page? frame = some page ↔ buddy.pages.page? frame = some page))
    {excepted : Nat → Prop} (agrees : buddy.ram.AgreesOff after.ram excepted)
    (outside : ∀ cache ∈ store.caches, ∀ byte,
      (store.stock cache).Ground buddy.geometry.size cache byte → ¬ excepted byte) :
    after.Stocked allocator store where
  sound := sound
  heap := (alike .heap).allocatable_eq.trans stocked.heap
  reserved := (alike .noHeap).allocatable_eq.trans stocked.reserved
  page_eq := by rw [geometry]; exact stocked.page_eq
  head_eq := stocked.head_eq
  head_pos := stocked.head_pos
  head_low := by rw [(alike .heap).start_eq]; exact stocked.head_low
  head_size := stocked.head_size
  aligned := stocked.aligned
  closes := stocked.closes.congr fun cache member => Cache.next_congr agrees fun byte next =>
    outside cache member byte (.inl next.record)
  sizes := stocked.sizes
  sized := stocked.sized
  positive := by rw [geometry]; exact stocked.positive
  kept := fun cache member => by
    rw [geometry]
    exact (stocked.kept cache member).congr agrees fun byte estate =>
      outside cache member byte estate.ground
  oneReady := by rw [geometry]; exact stocked.oneReady
  owned := fun cache member slab listed => by
    rw [geometry]
    exact (pages _ _ rfl).2 (stocked.owned cache member slab listed)
  served := fun frame page found owner =>
    stocked.served frame page ((pages frame page owner).1 found) owner
  inHeadSlab := by rw [geometry]; exact stocked.inHeadSlab
  nodup := stocked.nodup
  apart := stocked.apart

section

variable (stocked : buddy.Stocked allocator store) (member : cache ∈ store.caches)
  (geometry : after.geometry = buddy.geometry)

include stocked member

/-- The estate of a cache and the free pages are apart from the grounds of the other caches. -/
theorem ground_beside (there : other ∈ store.caches) (distinct : other ≠ cache) {byte : Nat}
    (ground : (store.stock other).Ground buddy.geometry.size other byte) :
    ¬ ((store.stock cache).Estate buddy.geometry.size cache byte ∨
      buddy.Free .heap (buddy.geometry.frameOf byte)) := by
  rintro (estate | free)
  · exact stocked.ground_apart there member distinct ground estate.ground
  · exact stocked.not_free_of_ground there ground free

/-- They are apart from the links of the ring, too, that of the cache itself included. -/
theorem nextWord_beside (there : other ∈ store.caches) {byte : Nat}
    (next : Cache.NextWord other byte) :
    ¬ ((store.stock cache).Estate buddy.geometry.size cache byte ∨
      buddy.Free .heap (buddy.geometry.frameOf byte)) := by
  by_cases same : other = cache
  · subst same
    rintro ((fields | ⟨slab, listed, metadata⟩) | free)
    · exact next.not_fields fields
    · exact stocked.record_beside there there listed next.record metadata
    · exact stocked.not_free_of_ground there (.inl next.record) free
  · exact stocked.ground_beside member there same (.inl next.record)

include geometry

theorem kept_restock (kept : stock.RecordedIn after.ram buddy.geometry.size cache)
    (agrees : buddy.ram.AgreesOff after.ram fun byte =>
      (store.stock cache).Estate buddy.geometry.size cache byte ∨
        buddy.Free .heap (buddy.geometry.frameOf byte)) (there : other ∈ store.caches) :
    ((store.restock cache stock).stock other).RecordedIn after.ram after.geometry.size other := by
  rw [geometry]
  refine Store.restock_cases (motive := fun id stock =>
    stock.RecordedIn after.ram buddy.geometry.size id) kept fun distinct => ?_
  exact (stocked.kept other there).congr agrees fun byte estate =>
    stocked.ground_beside member there distinct estate.ground

omit member

/-- The records stay in slabs of the first cache when no slab is lost. -/
theorem inHeadSlab_restock (size : stock.size = (store.stock cache).size)
    (sub : ∀ slab ∈ (store.stock cache).all, slab ∈ stock.all) (there : other ∈ store.others) :
    ∃ slab ∈ ((store.restock cache stock).stock store.head).all,
      slab + Slab.metadataSize
          (((store.restock cache stock).stock store.head).capacity after.geometry.size) ≤ other ∧
        other + CacheRecord.size ≤ slab + after.geometry.size := by
  obtain ⟨home, inside, above, below⟩ := stocked.inHeadSlab other there
  rw [geometry, Store.capacity_restock size]
  exact ⟨home, Store.all_restock sub inside, above, below⟩

omit geometry
include member

/-- The descriptors of slab pages name slabs of their caches when no slab is lost. -/
theorem served_restock (sub : ∀ slab ∈ (store.stock cache).all, slab ∈ stock.all)
    {frame : Nat} {page : Page} (owner : page.owner = .slab)
    (served : buddy.pages.page? frame = some page ∨
      page.cache = some cache ∧ page.start ∈ stock.all) :
    ∃ other ∈ store.caches, page.cache = some other ∧
      page.start ∈ ((store.restock cache stock).stock other).all := by
  rcases served with before | ⟨named, listed⟩
  · obtain ⟨other, there, named, listed⟩ := stocked.served frame page before owner
    exact ⟨other, there, named, Store.all_restock sub listed⟩
  · refine ⟨cache, member, named, ?_⟩
    rw [Store.stock_restock_self]
    exact listed

/-- One cache has another stock, with all its slabs and perhaps a page more. -/
theorem restock (sound : after.Sound)
    (alike : ∀ id, Zone.Alike (buddy.zones.get id) (after.zones.get id))
    (geometry : after.geometry = buddy.geometry)
    (size : stock.size = (store.stock cache).size)
    (kept : stock.RecordedIn after.ram buddy.geometry.size cache)
    (oneReady : stock.OneReady buddy.geometry.size)
    (sub : ∀ slab ∈ (store.stock cache).all, slab ∈ stock.all)
    (owned : ∀ slab ∈ stock.all,
      after.pages.page? (buddy.geometry.frameOf slab) = some (.serving slab cache))
    (pages : ∀ frame page, page.owner = .slab → buddy.pages.page? frame = some page →
      after.pages.page? frame = some page)
    (served : ∀ frame page, page.owner = .slab → after.pages.page? frame = some page →
      buddy.pages.page? frame = some page ∨
        (page.cache = some cache ∧ page.start ∈ stock.all))
    (agrees : buddy.ram.AgreesOff after.ram fun byte =>
      (store.stock cache).Estate buddy.geometry.size cache byte ∨
        buddy.Free .heap (buddy.geometry.frameOf byte)) :
    after.Stocked allocator (store.restock cache stock) where
  sound := sound
  heap := (alike .heap).allocatable_eq.trans stocked.heap
  reserved := (alike .noHeap).allocatable_eq.trans stocked.reserved
  page_eq := by rw [geometry]; exact stocked.page_eq
  head_eq := stocked.head_eq
  head_pos := stocked.head_pos
  head_low := by rw [(alike .heap).start_eq]; exact stocked.head_low
  head_size := (Store.size_restock size store.head).trans stocked.head_size
  aligned := stocked.aligned
  closes := stocked.closes.congr fun other there => Cache.next_congr agrees fun _ next =>
    stocked.nextWord_beside member there next
  sizes := (List.map_congr_left fun other _ =>
    (Store.size_restock size other).symm).subst stocked.sizes
  sized := fun other there => by
    rw [Store.size_restock size]
    exact stocked.sized other there
  positive := fun other there => by
    rw [geometry, Store.capacity_restock size]
    exact stocked.positive other there
  kept := fun _ there => stocked.kept_restock member geometry kept agrees there
  oneReady := fun other there => by
    rw [geometry]
    exact Store.restock_cases (motive := fun _ stock => stock.OneReady buddy.geometry.size)
      oneReady fun _ => stocked.oneReady other there
  owned := fun other there => by
    rw [geometry]
    exact Store.restock_cases (motive := fun id stock => ∀ slab ∈ stock.all,
        after.pages.page? (buddy.geometry.frameOf slab) = some (.serving slab id)) owned
      fun _ slab listed => pages _ _ rfl (stocked.owned other there slab listed)
  served := fun frame page found owner =>
    stocked.served_restock member sub owner (served frame page owner found)
  inHeadSlab := fun _ there => stocked.inHeadSlab_restock geometry size sub there
  nodup := stocked.nodup
  apart := stocked.apart

end

/-- Within the slabs that a cache has, only memory changes. -/
theorem restock_ram (stocked : buddy.Stocked allocator store) (member : cache ∈ store.caches)
    {ram : Ram} (size : stock.size = (store.stock cache).size)
    (kept : stock.RecordedIn ram buddy.geometry.size cache)
    (oneReady : stock.OneReady buddy.geometry.size)
    (same : ∀ slab, slab ∈ stock.all ↔ slab ∈ (store.stock cache).all)
    (agrees : buddy.ram.AgreesOff ram ((store.stock cache).Estate buddy.geometry.size cache)) :
    ({ buddy with ram := ram } : BuddyAllocator).Stocked allocator (store.restock cache stock) := by
  have sound : ({ buddy with ram := ram } : BuddyAllocator).Sound := by
    refine stocked.sound.congr_ram agrees fun byte estate id allocatable => ?_
    obtain rfl := stocked.eq_heap allocatable
    exact stocked.not_free_of_ground member estate.ground
  exact stocked.restock member sound (fun _ => .refl _) rfl size
    kept oneReady (fun slab => (same slab).2)
    (fun slab listed => stocked.owned cache member slab ((same slab).1 listed))
    (fun _ _ _ found => found) (fun _ _ _ found => .inl found) (agrees.mono fun _ => .inl)

section

variable {frame : Nat} {fill : Fill} {free : List Nat}
  (stocked : buddy.Stocked allocator store)
  (grown : buddy.Grown after cache (store.stock cache).size frame slab)

include stocked grown

theorem grown_fresh {other : Nat} (there : other ∈ store.caches) :
    slab ∉ (store.stock other).all := by
  intro listed
  have holds := (stocked.slab_page there listed).2.1
  rw [grown.frameOf_eq] at holds
  exact grown.free.2 ⟨frame, 0, holds, rfl⟩

theorem grown_bounds : (buddy.zones.get .heap).start ≤ slab ∧
    slab + buddy.geometry.size ≤
      (buddy.zones.get .heap).start + (buddy.zones.get .heap).size := by
  obtain ⟨low, high⟩ := grown.free.1
  rw [stocked.sound.geometry_eq] at low high
  rw [Nat.succ_mul] at high
  have place := grown.slab_eq
  change _ ≤ frame * buddy.geometry.size at low
  change frame * buddy.geometry.size + buddy.geometry.size ≤ _ at high
  omega

theorem grown_apart {other : Nat} (there : other ∈ store.caches) {byte : Nat} (low : slab ≤ byte)
    (high : byte < slab + buddy.geometry.size) :
    ¬ (store.stock other).Ground buddy.geometry.size other byte := by
  intro ground
  apply stocked.not_free_of_ground there ground
  rw [grown.frame_of_page low high]
  exact grown.free

variable (member : cache ∈ store.caches)

include member

theorem grown_placed :
    ((store.stock cache).add fill slab free).Placed buddy.geometry.size cache := by
  have placed := stocked.placed member
  have bounds := stocked.grown_bounds grown
  have ready := stocked.sound.ready stocked.heap
  have stop := ready.stop_lt
  have start := ready.start_pos
  have small := stocked.metadata_le member
  refine ⟨placed.positive, placed.page_lt, ?_, ?_, ?_, ?_⟩ <;> intro other listed <;>
    rcases Stock.mem_all_add_iff.1 listed with rfl | listed
  · rw [grown.slab_eq]
    exact Nat.mul_mod_left _ _
  · exact placed.aligned other listed
  · omega
  · exact placed.nonzero other listed
  · omega
  · exact placed.bounded other listed
  · intro byte record metadata
    have inside : Slab.Metadata other ((store.stock cache).capacity buddy.geometry.size) byte :=
      metadata
    simp only [Slab.Metadata] at inside
    exact stocked.grown_apart grown member inside.1 (by omega) (.inl record)
  · exact placed.beside other listed

theorem grown_kept : (store.stock cache).RecordedIn after.ram buddy.geometry.size cache :=
  (stocked.kept cache member).congr grown.agrees fun _ estate =>
    stocked.not_free_of_ground member estate.ground

/-- A cache gets a page more. -/
theorem restock_grown {ram : Ram}
    (agrees : after.ram.AgreesOff ram fun byte =>
      Cache.Fields cache byte ∨ Slab.NextWord slab byte)
    (oneReady : ((store.stock cache).add fill slab free).OneReady buddy.geometry.size)
    (kept : ((store.stock cache).add fill slab free).RecordedIn ram buddy.geometry.size cache) :
    ({ after with ram := ram } : BuddyAllocator).Stocked allocator
      (store.restock cache ((store.stock cache).add fill slab free)) := by
  have sound := stocked.sound
  have inPage : ∀ byte, Slab.NextWord slab byte → buddy.geometry.frameOf byte = frame := by
    intro byte next
    have metadata : Slab.Metadata slab ((store.stock cache).capacity buddy.geometry.size) byte :=
      Slab.nextWord_metadata next
    have small := stocked.metadata_le member
    simp only [Slab.Metadata] at metadata
    exact grown.frame_of_page metadata.1 (by omega)
  have still : ({ after with ram := ram } : BuddyAllocator).Sound := by
    refine grown.sound.congr_ram agrees fun byte written id allocatable free => ?_
    obtain rfl := stocked.eq_heap ((grown.alike id).allocatable_eq.symm.trans allocatable)
    obtain ⟨has, vacant⟩ := free
    rw [(grown.alike .heap).has_iff, grown.geometry_eq] at has
    rw [grown.geometry_eq, grown.taken_iff sound, not_or] at vacant
    rcases written with fields | next
    · exact stocked.not_free_of_ground member (.inl fields.record) ⟨has, vacant.1⟩
    · exact vacant.2 (inPage byte next)
  refine stocked.restock member still grown.alike grown.geometry_eq rfl kept oneReady
    (fun other listed => Stock.mem_all_add_iff.2 (.inr listed)) ?_ (fun _ _ owner found => ?_) ?_ ?_
  · intro other listed
    change after.pages.page? _ = _
    rcases Stock.mem_all_add_iff.1 listed with rfl | listed
    · rw [grown.page?_eq sound, if_pos grown.frameOf_eq]
    · exact grown.page?_of_owned sound (stocked.owned cache member other listed)
        (by simp [Page.serving])
  · exact grown.page?_of_owned sound found (by rw [owner]; decide)
  · intro other page owner found
    change after.pages.page? other = some page at found
    rw [grown.page?_eq sound] at found
    split at found
    · obtain rfl := Option.some.inj found
      exact .inr ⟨rfl, Stock.mem_all_add_iff.2 (.inl rfl)⟩
    · exact .inl found
  · refine (grown.agrees.mono fun _ => .inr).trans (agrees.mono fun byte written => ?_)
    rcases written with fields | next
    · exact .inl (.inl fields)
    · right
      rw [inPage byte next]
      exact grown.free

end

section

variable {home place size : Nat} (stocked : buddy.Stocked allocator store)
  (inside : home ∈ (store.stock store.head).all)
  (above : home + Slab.metadataSize ((store.stock store.head).capacity buddy.geometry.size) ≤
    place)
  (below : place + CacheRecord.size ≤ home + buddy.geometry.size)
  (apart : ∀ cache ∈ store.caches, ∀ byte, Cache.Record cache byte → ¬ Cache.Record place byte)

include stocked inside above below

theorem enter_sound :
    ({ buddy with ram := Cache.enter buddy.ram store.head place size } : BuddyAllocator).Sound := by
  refine stocked.sound.congr_ram (Cache.agreesOff_enter buddy.ram store.head place size)
    fun byte wrote id allocatable => ?_
  obtain rfl := stocked.eq_heap allocatable
  rcases wrote with record | first
  · simp only [Cache.Record] at record
    exact stocked.not_free_of_page List.mem_cons_self inside (by omega) (by omega)
  · exact stocked.not_free_of_ground List.mem_cons_self (.inl first.record)

include apart

theorem enter_beside (member : cache ∈ store.caches) {byte : Nat}
    (estate : (store.stock cache).Estate buddy.geometry.size cache byte) :
    ¬ (Cache.Record place byte ∨ Cache.NextWord store.head byte) := by
  rintro (record | first)
  · rcases estate with fields | ⟨slab, listed, metadata⟩
    · exact apart cache member byte fields.record record
    · exact stocked.inHeadSlab_beside inside above below member listed record metadata
  · by_cases head : cache = store.head
    · subst head
      rcases estate with fields | ⟨slab, listed, metadata⟩
      · exact first.not_fields fields
      · exact stocked.record_beside member member listed first.record metadata
    · exact stocked.ground_apart member List.mem_cons_self head estate.ground (.inl first.record)

/-- Every cache has its stock once the record of the new one is entered. -/
theorem enter_kept (absent : place ∉ store.caches)
    (positive : 0 < Slab.capacity buddy.geometry.size size)
    (member : cache ∈ (store.found place size).caches) :
    ((store.found place size).stock cache).RecordedIn (Cache.enter buddy.ram store.head place size)
      buddy.geometry.size cache := by
  rcases Store.mem_caches_found.1 member with member | rfl
  · rw [Store.stock_found_of_mem absent member]
    exact (stocked.kept cache member).congr (Cache.agreesOff_enter buddy.ram store.head place size)
      fun byte estate => stocked.enter_beside inside above below apart member estate
  · rw [Store.stock_found_self]
    have fits := Slab.of_capacity_pos positive buddy.geometry.size_lt_limit
    refine (Stock.kept_writeRecord (Nat.lt_of_le_of_lt (Nat.le_add_right _ _)
      (Nat.lt_of_le_of_lt fits.2 (by decide)))).congr (Cache.agreesOff_setNext _ store.head _)
        fun byte estate first => ?_
    rcases estate with fields | ⟨slab, listed, -⟩
    · exact apart store.head List.mem_cons_self byte first.record fields.record
    · exact Stock.not_mem_bare listed

theorem enter_closes (absent : place ∉ store.caches) :
    SlabAllocator.Closes (Cache.enter buddy.ram store.head place size) store.head store.head
      (place :: store.others) := by
  have page := stocked.slab_bounds List.mem_cons_self inside
  have stop := (stocked.sound.ready stocked.heap).stop_lt
  have head_low := stocked.head_low
  have recordSize : CacheRecord.size = 40 := rfl
  refine stocked.closes.insert (fun same => absent (same ▸ List.mem_cons_self))
    (Cache.next_enter_head (by omega)) (Cache.next_enter (by omega)) fun other member => ?_
  have there : other ∈ store.caches := List.mem_cons_of_mem _ member
  have headless : other ≠ store.head := by
    rintro rfl
    exact (List.nodup_cons.1 stocked.nodup).1 member
  refine Cache.next_congr (Cache.agreesOff_enter buddy.ram store.head place size) ?_
  rintro byte next (new | first)
  · exact apart other there byte next.record new
  · exact stocked.apart other there _ List.mem_cons_self headless byte next.record first.record

omit stocked inside above below

theorem absent_of_apart : place ∉ store.caches := fun member => apart place member place
  ⟨Nat.le_refl _, Nat.lt_add_of_pos_right (by decide)⟩
  ⟨Nat.le_refl _, Nat.lt_add_of_pos_right (by decide)⟩

include stocked

theorem apart_found (member : cache ∈ (store.found place size).caches)
    (member' : other ∈ (store.found place size).caches) (distinct : cache ≠ other) {byte : Nat}
    (record : Cache.Record cache byte) : ¬ Cache.Record other byte := by
  rcases Store.mem_caches_found.1 member with there | rfl
  · rcases Store.mem_caches_found.1 member' with there' | rfl
    · exact stocked.apart cache there other there' distinct byte record
    · exact apart cache there byte record
  · rcases Store.mem_caches_found.1 member' with there' | rfl
    · exact fun record' => apart other there' byte record' record
    · exact absurd rfl distinct

include inside above below

/-- A record is entered behind the metadata of a slab of the first cache, for a new cache. -/
theorem found (aligned : place % CacheRecord.alignment = 0)
    (new : ∀ cache ∈ store.caches, (store.stock cache).size ≠ size) (sized : 0 < size)
    (positive : 0 < Slab.capacity buddy.geometry.size size) :
    ({ buddy with ram := Cache.enter buddy.ram store.head place size } :
      BuddyAllocator).Stocked allocator (store.found place size) :=
  have absent := absent_of_apart apart
  have first : (store.found place size).stock (store.found place size).head =
      store.stock store.head := Store.stock_found_of_mem absent List.mem_cons_self
  { sound := stocked.enter_sound inside above below
    heap := stocked.heap
    reserved := stocked.reserved
    page_eq := stocked.page_eq
    head_eq := stocked.head_eq
    head_pos := stocked.head_pos
    head_low := stocked.head_low
    head_size := first ▸ stocked.head_size
    aligned := fun _ => Store.found_cases
      (motive := fun id _ => id % CacheRecord.alignment = 0) absent aligned stocked.aligned
    closes := stocked.enter_closes inside above below apart absent
    sizes := (Store.sizes_found_perm absent).nodup_iff.2 (List.nodup_cons.2
      ⟨fun listed => have ⟨cache, member, size_eq⟩ := List.mem_map.1 listed
        new cache member size_eq, stocked.sizes⟩)
    sized := fun _ => Store.found_cases (motive := fun _ stock => 0 < stock.size)
      absent sized stocked.sized
    positive := fun _ => Store.found_cases
      (motive := fun _ stock => 0 < stock.capacity buddy.geometry.size)
      absent positive stocked.positive
    kept := fun _ => stocked.enter_kept inside above below apart absent positive
    oneReady := fun _ => Store.found_cases
      (motive := fun _ stock => stock.OneReady buddy.geometry.size)
      absent (Stock.oneReady_bare size _) stocked.oneReady
    owned := fun _ => Store.found_cases
      (motive := fun id stock => ∀ slab ∈ stock.all,
        buddy.pages.page? (buddy.geometry.frameOf slab) = some (.serving slab id))
      absent (fun _ listed => absurd listed Stock.not_mem_bare) stocked.owned
    served := fun frame page found owner => by
      obtain ⟨cache, member, named, listed⟩ := stocked.served frame page found owner
      exact ⟨cache, Store.mem_caches_found.2 (.inl member), named,
        by rwa [Store.stock_found_of_mem absent member]⟩
    inHeadSlab := fun cache member => by
      rw [first]
      rcases List.mem_cons.1 member with rfl | member
      · exact ⟨home, inside, above, below⟩
      · exact stocked.inHeadSlab cache member
    nodup := (List.Perm.nodup_iff (.swap _ _ _)).2 (List.nodup_cons.2 ⟨absent, stocked.nodup⟩)
    apart := fun _ member _ member' distinct _ =>
      stocked.apart_found apart member member' distinct }

end

end Stocked

end BuddyAllocator

end PhysicalMemory
