import PhysicalMemory.Proofs.Buddy.Blocks
import PhysicalMemory.Proofs.Slab.Supply

/-!
# Blocks that are lent

Whoever asks for pages, or for more bytes than a slab's objects have, is lent the
smallest block that holds them and uses some of it from its start.  Blocks that
are lent lie apart from each other, from the slab pages and so from all that is
in them, from the record of the first cache and from the free blocks.  Lending a
block and taking it back change nothing for the caches, and the blocks that are
lent are at all times those of which a descriptor says so.
-/

namespace PhysicalMemory

namespace Extent

def Sub (inner outer : Extent) : Prop :=
  outer.start ≤ inner.start ∧ inner.start + inner.size ≤ outer.start + outer.size

theorem Apart.sub {first second inner : Extent} (apart : first.Apart second)
    (sub : inner.Sub second) : first.Apart inner := by
  simp only [Apart, Sub] at *
  omega

end Extent

def Block.extent (geometry : Geometry) (block : Block) : Extent :=
  ⟨block.start, block.bytes geometry⟩

/-- Blocks without a common frame have no common byte. -/
theorem Block.extent_apart {geometry : Geometry} {order order' cell cell' : Nat}
    (apart : ∀ frame, frame >>> order = cell → frame >>> order' ≠ cell') :
    ((ofCell geometry order cell).extent geometry).Apart
      ((ofCell geometry order' cell').extent geometry) := by
  have blocks := @disjoint_ofCell geometry _ _ _ _ apart
  rw [← stop_ofCell, ← stop_ofCell] at blocks
  exact blocks

namespace BuddyAllocator

/-- Some bytes from the start of a block that is lent, as the descriptor of its first page says. -/
structure Lends (buddy : BuddyAllocator) (block : Extent) (page : Page) : Prop where
  found : buddy.pages.page? (buddy.geometry.frameOf block.start) = some page
  owner_eq : page.owner = .buddy
  start_eq : page.start = block.start
  positive : 0 < block.size
  least : buddy.geometry.IsOrderFor block.size page.order

variable {buddy after : BuddyAllocator} {block other : Extent} {page page' : Page}
  {head head' order order' cell : Nat} {id : ZoneId} {free : Block}

namespace Sound

/-- The block of a frame that is held at an order. -/
theorem held_apart (sound : buddy.Sound) (holds : buddy.pages.Holds head order)
    (holds' : buddy.pages.Holds head' order') (distinct : head ≠ head') :
    ((Block.ofCell buddy.geometry order (head >>> order)).extent buddy.geometry).Apart
      ((Block.ofCell buddy.geometry order' (head' >>> order')).extent buddy.geometry) :=
  Block.extent_apart fun frame inside inside' =>
    distinct (sound.held.apart frame head order head' order' holds holds' inside inside')

theorem free_apart (sound : buddy.Sound) (allocatable : (buddy.zones.get id).allocatable = true)
    (holds : buddy.pages.Holds head order) (listed : free ∈ buddy.freeBlocks id) :
    (free.extent buddy.geometry).Apart
      ((Block.ofCell buddy.geometry order (head >>> order)).extent buddy.geometry) := by
  obtain ⟨order', -, cell, maximal, rfl⟩ := (sound.mem_freeBlocks_iff allocatable).1 listed
  refine Block.extent_apart fun frame inside inside' => ?_
  exact (maximal.1 frame inside).2 ⟨head, order, holds, inside'⟩

end Sound

namespace Lends

variable (lends : buddy.Lends block page)

include lends

theorem holds : buddy.pages.Holds (buddy.geometry.frameOf block.start) page.order :=
  ⟨page, lends.found, by rw [lends.owner_eq]; decide, rfl⟩

theorem sub (sound : buddy.Sound) :
    block.Sub ((Block.ofCell buddy.geometry page.order
      (buddy.geometry.frameOf block.start >>> page.order)).extent buddy.geometry) := by
  have placed := sound.regular.placed _ _ lends.found
  have start : (Block.ofCell buddy.geometry page.order
      (buddy.geometry.frameOf block.start >>> page.order)).start = block.start := by
    rw [Block.ofCell, Geometry.blockAt_eq_mul, sound.held.aligned _ _ lends.holds]
    exact placed.symm.trans lends.start_eq
  refine ⟨Nat.le_of_eq start, ?_⟩
  change _ ≤ (Block.ofCell buddy.geometry page.order _).start + buddy.geometry.size <<< page.order
  rw [start]
  exact Nat.add_le_add_left lends.least.1 _

theorem apart (sound : buddy.Sound) (lends' : buddy.Lends other page')
    (distinct : block.start ≠ other.start) : block.Apart other := by
  have frames : buddy.geometry.frameOf block.start ≠ buddy.geometry.frameOf other.start := by
    intro same
    have found := lends.found
    rw [same, lends'.found] at found
    obtain rfl := Option.some.inj found
    exact distinct (lends.start_eq.symm.trans lends'.start_eq)
  have blocks := sound.held_apart lends.holds lends'.holds frames
  exact ((blocks.sub (lends'.sub sound)).symm.sub (lends.sub sound)).symm

theorem apart_free (sound : buddy.Sound) (allocatable : (buddy.zones.get id).allocatable = true)
    (listed : free ∈ buddy.freeBlocks id) : (free.extent buddy.geometry).Apart block :=
  (sound.free_apart allocatable lends.holds listed).sub (lends.sub sound)

/-- Every byte that is used is in a frame of the block. -/
theorem frame_inside (sound : buddy.Sound) {byte : Nat} (low : block.start ≤ byte)
    (high : byte < block.start + block.size) :
    buddy.geometry.frameOf byte >>> page.order =
      buddy.geometry.frameOf block.start >>> page.order := by
  have sub := lends.sub sound
  have stop := Block.stop_ofCell buddy.geometry page.order
    (buddy.geometry.frameOf block.start >>> page.order)
  simp only [Extent.Sub, Block.extent, stop] at sub
  simp only [Block.ofCell, Geometry.blockAt_eq_mul] at sub
  have positive := buddy.geometry.size_pos
  rw [Cell.shiftRight_eq_iff]
  exact ⟨(Nat.le_div_iff_mul_le positive).2 (by omega),
    (Nat.div_lt_iff_lt_mul positive).2 (by omega)⟩

end Lends

/-- A block that was handed out is lent to whoever asked for some bytes of it. -/
theorem Handed.lends (handed : buddy.Handed after order id cell) (sound : buddy.Sound)
    {size : Nat} (positive : 0 < size) (least : buddy.geometry.IsOrderFor size order) :
    after.Lends ⟨buddy.geometry.blockAt order cell, size⟩
      ⟨id, buddy.geometry.blockAt order cell, .buddy, order, none⟩ := by
  have geometry := handed.geometry_eq
  refine ⟨?_, rfl, rfl, positive, by rw [geometry]; exact least⟩
  rw [geometry, Geometry.frameOf_blockAt, handed.page?_eq sound, if_pos rfl]

theorem Handed.lends_still (handed : buddy.Handed after order id cell) (sound : buddy.Sound)
    (lends : buddy.Lends block page) : after.Lends block page := by
  have geometry := handed.geometry_eq
  refine ⟨?_, lends.owner_eq, lends.start_eq, lends.positive, by rw [geometry]; exact lends.least⟩
  rw [geometry, handed.page?_eq sound, if_neg]
  · exact lends.found
  · intro same
    have unowned := handed.unowned (same ▸ lends.found)
    rw [lends.owner_eq] at unowned
    cases unowned

theorem Recovered.lends_still {live : Page} (recovered : buddy.Recovered after head live)
    (sound : buddy.Sound) (lends : buddy.Lends block page)
    (distinct : buddy.geometry.frameOf block.start ≠ head) : after.Lends block page := by
  have geometry := recovered.geometry_eq
  refine ⟨?_, lends.owner_eq, lends.start_eq, lends.positive, by rw [geometry]; exact lends.least⟩
  rw [geometry, recovered.page?_eq sound, if_neg distinct]
  exact lends.found

theorem Steady.lends_still (steady : buddy.Steady after) (lends : buddy.Lends block page) :
    after.Lends block page := by
  have geometry := steady.geometry_eq
  refine ⟨?_, lends.owner_eq, lends.start_eq, lends.positive, by rw [geometry]; exact lends.least⟩
  rw [geometry]
  exact (steady.lent _ _ lends.owner_eq).2 lends.found

structure Lent (buddy : BuddyAllocator) (blocks : List Extent) : Prop where
  lends : ∀ block ∈ blocks, ∃ page, buddy.Lends block page
  nodup : (blocks.map Extent.start).Nodup
  known : ∀ frame page, buddy.pages.page? frame = some page → page.owner = .buddy →
    ∃ block ∈ blocks, block.start = page.start

namespace Lent

variable {blocks : List Extent}

/-- A block that is handed out is lent besides the others. -/
theorem hand (lent : buddy.Lent blocks) (sound : buddy.Sound)
    (handed : buddy.Handed after order id cell) {size : Nat} (positive : 0 < size)
    (least : buddy.geometry.IsOrderFor size order) :
    after.Lent (⟨buddy.geometry.blockAt order cell, size⟩ :: blocks) where
  lends := by
    intro block listed
    rcases List.mem_cons.1 listed with rfl | listed
    · exact ⟨_, handed.lends sound positive least⟩
    · exact (lent.lends block listed).imp fun page lends => handed.lends_still sound lends
  nodup := by
    refine List.nodup_cons.2 ⟨fun listed => ?_, lent.nodup⟩
    obtain ⟨block, listed, start_eq⟩ := List.mem_map.1 listed
    obtain ⟨page, lends⟩ := lent.lends block listed
    -- the first page of the new block was free, so no block was lent there
    have found := lends.found
    rw [start_eq, Geometry.frameOf_blockAt] at found
    have unowned := handed.unowned found
    rw [lends.owner_eq] at unowned
    cases unowned
  known := by
    intro frame page found owner
    rw [handed.page?_eq sound] at found
    split at found
    · obtain rfl := Option.some.inj found
      exact ⟨_, List.mem_cons_self, rfl⟩
    · obtain ⟨block, listed, start_eq⟩ := lent.known frame page found owner
      exact ⟨block, List.mem_cons_of_mem _ listed, start_eq⟩

theorem recover {live : Page} (lent : buddy.Lent blocks) (sound : buddy.Sound)
    (recovered : buddy.Recovered after head live) :
    after.Lent (blocks.filter fun block => buddy.geometry.frameOf block.start ≠ head) where
  lends := by
    intro block listed
    obtain ⟨listed, distinct⟩ := List.mem_filter.1 listed
    exact (lent.lends block listed).imp fun page lends =>
      recovered.lends_still sound lends (of_decide_eq_true distinct)
  nodup := lent.nodup.sublist (List.filter_sublist.map _)
  known := by
    intro frame page found owner
    rw [recovered.page?_eq sound] at found
    split at found
    · rw [← Option.some.inj found] at owner
      cases owner
    · next distinct =>
        obtain ⟨block, listed, start_eq⟩ := lent.known frame page found owner
        refine ⟨block, List.mem_filter.2 ⟨listed, decide_eq_true ?_⟩, start_eq⟩
        rw [start_eq]
        exact fun same => distinct ((sound.regular.frameOf_start found).symm.trans same)

theorem steady (lent : buddy.Lent blocks) (steady : buddy.Steady after) : after.Lent blocks where
  lends := fun block listed => (lent.lends block listed).imp fun _ lends => steady.lends_still lends
  nodup := lent.nodup
  known := fun frame page found owner =>
    lent.known frame page ((steady.lent frame page owner).1 found) owner

end Lent

namespace Stocked

variable {allocator : SlabAllocator} {store : Store} {cache slab : Nat}
  {records objects : List Seat}

theorem page_extent (stocked : buddy.Stocked allocator store) (member : cache ∈ store.caches)
    (listed : slab ∈ (store.stock cache).all) :
    (Block.ofCell buddy.geometry 0 (buddy.geometry.frameOf slab >>> 0)).extent buddy.geometry =
      ⟨slab, buddy.geometry.size⟩ := by
  have place := (stocked.slab_page member listed).1
  rw [Block.extent, Block.bytes, Block.ofCell, Geometry.blockAt_eq_mul]
  exact congrArg (Extent.mk · buddy.geometry.size) place.symm

/-- A block that is lent is apart from the page of every slab. -/
theorem lends_apart_page (stocked : buddy.Stocked allocator store)
    (lends : buddy.Lends block page) (member : cache ∈ store.caches)
    (listed : slab ∈ (store.stock cache).all) :
    (⟨slab, buddy.geometry.size⟩ : Extent).Apart block := by
  rw [← stocked.page_extent member listed]
  refine (stocked.sound.held_apart (stocked.slab_page member listed).2.1 lends.holds
    fun same => ?_).sub (lends.sub stocked.sound)
  have found := stocked.owned cache member slab listed
  rw [same, lends.found] at found
  have owner := lends.owner_eq
  rw [Option.some.inj found] at owner
  cases owner

/-- The page of a slab is apart from all free blocks. -/
theorem page_apart_free (stocked : buddy.Stocked allocator store)
    (member : cache ∈ store.caches) (listed : slab ∈ (store.stock cache).all)
    (vacant : free ∈ buddy.freeBlocks .heap) :
    (free.extent buddy.geometry).Apart ⟨slab, buddy.geometry.size⟩ := by
  rw [← stocked.page_extent member listed]
  exact stocked.sound.free_apart stocked.heap (stocked.slab_page member listed).2.1 vacant

theorem lends_in_heap (stocked : buddy.Stocked allocator store)
    (lends : buddy.Lends block page) : (buddy.zones.get .heap).start ≤ block.start ∧
      block.start + block.size ≤
        (buddy.zones.get .heap).start + (buddy.zones.get .heap).size := by
  obtain ⟨id, allocatable, within⟩ := stocked.sound.held.inside _ _ lends.holds
  obtain rfl := stocked.eq_heap allocatable
  have order_lt := stocked.sound.held.order_lt _ _ lends.holds
  have geometry : (buddy.zones.get .heap).geometry = buddy.geometry :=
    stocked.sound.geometry_eq .heap
  have placed := Block.placed_ofCell (stocked.sound.ready allocatable).start_aligned order_lt within
  rw [geometry] at placed
  have above := placed.above
  have below := placed.below
  rw [geometry] at below
  have sub := lends.sub stocked.sound
  simp only [Extent.Sub, Block.extent] at sub
  omega

theorem frame_pos (stocked : buddy.Stocked allocator store) (holds : buddy.pages.Holds head order) :
    0 < head := by
  obtain ⟨id, allocatable, within⟩ := stocked.sound.held.inside _ _ holds
  have first := (stocked.sound.ready allocatable).first_frame_pos (within _ rfl)
  exact Nat.pos_of_mul_pos_right first

theorem frame_taken (stocked : buddy.Stocked allocator store) (lends : buddy.Lends block page)
    {byte : Nat} (low : block.start ≤ byte) (high : byte < block.start + block.size) :
    ¬ buddy.Free id (buddy.geometry.frameOf byte) := fun vacant =>
  vacant.2 ⟨_, _, lends.holds, lends.frame_inside stocked.sound low high⟩

theorem hand (stocked : buddy.Stocked allocator store)
    (handed : buddy.Handed after order id cell) : after.Stocked allocator store := by
  obtain rfl := stocked.eq_heap handed.allocatable
  refine stocked.carry handed.sound handed.alike handed.geometry_eq (fun frame page owner => ?_)
    handed.agrees fun cache member byte ground => stocked.not_free_of_ground member ground
  refine ⟨fun found => ?_, (handed.onward stocked.sound).slabs frame page owner⟩
  rw [handed.page?_eq stocked.sound] at found
  split at found
  · rw [← Option.some.inj found] at owner
    cases owner
  · exact found

/-- No ground of a cache is in a block that is lent. -/
theorem ground_not_in_block (stocked : buddy.Stocked allocator store) {live : Page}
    (found : buddy.pages.page? head = some live) (owner : live.owner = .buddy)
    (member : cache ∈ store.caches) {byte : Nat}
    (ground : (store.stock cache).Ground buddy.geometry.size cache byte) :
    buddy.geometry.frameOf byte >>> live.order ≠ head >>> live.order := by
  intro inside
  have holds : buddy.pages.Holds head live.order := ⟨live, found, by rw [owner]; decide, rfl⟩
  -- a byte in the page of a slab is in no other block
  have paged : ∀ cache ∈ store.caches, ∀ slab ∈ (store.stock cache).all, slab ≤ byte →
      byte < slab + buddy.geometry.size → False := by
    intro cache member slab listed low high
    have frame := stocked.frame_of_slab member listed low high
    have same := stocked.sound.held.apart _ _ 0 _ _ (stocked.slab_page member listed).2.1 holds
      (congrArg (· >>> 0) frame) inside
    have served := stocked.owned cache member slab listed
    rw [same, found] at served
    rw [Option.some.inj served] at owner
    cases owner
  rcases ground with record | ⟨slab, listed, metadata⟩
  · simp only [Cache.Record] at record
    rcases List.mem_cons.1 member with rfl | member
    · -- the first record lies below the heap, where every held block is
      obtain ⟨id, allocatable, within⟩ := stocked.sound.held.inside _ _ holds
      obtain rfl := stocked.eq_heap allocatable
      have := stocked.sound.start_le (within _ inside)
      have := stocked.head_low
      omega
    · obtain ⟨home, listed, above, below⟩ := stocked.inHeadSlab cache member
      exact paged _ List.mem_cons_self home listed (by omega) (by omega)
  · have := stocked.metadata_le member
    simp only [Slab.Metadata] at metadata
    exact paged cache member slab listed metadata.1 (by omega)

theorem recover (stocked : buddy.Stocked allocator store) {live : Page}
    (recovered : buddy.Recovered after head live) : after.Stocked allocator store := by
  have owned : live.owner ≠ .unowned := by rw [recovered.owner_eq]; decide
  have zone := stocked.eq_heap (stocked.sound.zone_of_head recovered.found owned).1
  refine stocked.carry recovered.sound recovered.alike recovered.geometry_eq
    (fun frame page owner => ?_) recovered.agrees fun cache member byte ground => ?_
  · refine ⟨fun found => ?_, (recovered.onward stocked.sound).slabs frame page owner⟩
    rw [recovered.page?_eq stocked.sound] at found
    split at found
    · rw [← Option.some.inj found] at owner
      cases owner
    · exact found
  · rw [zone]
    rintro (vacant | inside)
    · exact stocked.not_free_of_ground member ground vacant
    · exact stocked.ground_not_in_block recovered.found recovered.owner_eq member ground inside

end Stocked

end BuddyAllocator

end PhysicalMemory
