import PhysicalMemory.Proofs.Buddy.Ledger

/-!
# Blocks and the frames they cover

The free blocks of a zone are read off its lists, the held blocks off the
descriptors.  In a sound allocator the blocks of a zone, free and held, cover
each whole page of the zone once.  Counted in bytes, what is free and what is
held make up the zones from which blocks are handed out.
-/

namespace PhysicalMemory

structure Block where
  start : Nat
  order : Nat
  deriving DecidableEq

namespace Block

def frames (geometry : Geometry) (block : Block) : List Nat :=
  List.range' (geometry.frameOf block.start) (1 <<< block.order)

def bytes (geometry : Geometry) (block : Block) : Nat :=
  geometry.size <<< block.order

structure Placed (zone : Zone) (block : Block) : Prop where
  order_lt : block.order < orderCount
  aligned : block.start % block.bytes zone.geometry = 0
  above : zone.start ≤ block.start
  below : block.start + block.bytes zone.geometry ≤ zone.start + zone.size

def ofCell (geometry : Geometry) (order cell : Nat) : Block :=
  ⟨geometry.blockAt order cell, order⟩

variable {geometry : Geometry} {order order' cell cell' frame : Nat}

theorem mem_frames_ofCell :
    frame ∈ (ofCell geometry order cell).frames geometry ↔ frame >>> order = cell := by
  rw [frames, ofCell, Geometry.frameOf_blockAt, List.mem_range'_1, Cell.shiftRight_eq_iff]
  rw [Nat.shiftLeft_eq (cell + 1), Nat.add_mul, ← Nat.shiftLeft_eq, ← Nat.shiftLeft_eq]

theorem ofCell_injective (same : ofCell geometry order cell = ofCell geometry order cell') :
    cell = cell' :=
  geometry.blockAt_injective (congrArg start same)

theorem bytes_eq (block : Block) :
    block.bytes geometry = (block.frames geometry).length * geometry.size := by
  rw [bytes, frames, List.length_range', Nat.shiftLeft_eq, Nat.one_shiftLeft, Nat.mul_comm]

theorem stop_ofCell (geometry : Geometry) (order cell : Nat) :
    (ofCell geometry order cell).start + (ofCell geometry order cell).bytes geometry =
      geometry.blockAt order (cell + 1) := by
  rw [Geometry.blockAt_add_one, bytes, ofCell, Geometry.size, ← Nat.shiftLeft_add]

theorem placed_ofCell {zone : Zone} (start_aligned : zone.start % zone.geometry.size = 0)
    (h : order < orderCount) (within : Cell.Within zone.Has order cell) :
    (ofCell zone.geometry order cell).Placed zone := by
  have bounds := (Zone.within_has_iff_block start_aligned).1 within
  refine ⟨h, ?_, bounds.1, ?_⟩
  · rw [bytes, ofCell, Geometry.size, ← Nat.shiftLeft_add]
    exact Geometry.blockAt_aligned _ _ _
  · rw [stop_ofCell]
    exact bounds.2

theorem Placed.congr {zone zone' : Zone} {block : Block} (placed : block.Placed zone)
    (alike : Zone.Alike zone zone') : block.Placed zone' where
  order_lt := placed.order_lt
  aligned := by rw [alike.geometry_eq]; exact placed.aligned
  above := by rw [alike.start_eq]; exact placed.above
  below := by
    rw [alike.geometry_eq, alike.start_eq, alike.size_eq]
    exact placed.below

/-- Blocks without a common frame lie one behind the other. -/
theorem disjoint_ofCell
    (apart : ∀ frame, frame >>> order = cell → frame >>> order' ≠ cell') :
    geometry.blockAt order (cell + 1) ≤ geometry.blockAt order' cell' ∨
      geometry.blockAt order' (cell' + 1) ≤ geometry.blockAt order cell := by
  simp only [Geometry.blockAt_eq_mul]
  have grows : ∀ order cell : Nat, cell <<< order < (cell + 1) <<< order := fun order cell => by
    rw [Nat.shiftLeft_eq, Nat.shiftLeft_eq]
    exact Nat.mul_lt_mul_of_pos_right (Nat.lt_succ_self cell) (Nat.two_pow_pos order)
  have first := grows order cell
  have second := grows order' cell'
  rcases Nat.lt_or_ge (cell' <<< order') ((cell + 1) <<< order) with overlap | before
  · rcases Nat.lt_or_ge (cell <<< order) ((cell' + 1) <<< order') with overlap' | after
    · -- the later of the two starts belongs to both
      rcases Nat.le_total (cell <<< order) (cell' <<< order') with low | low
      · exact absurd (Cell.shiftRight_eq_iff.2 ⟨Nat.le_refl _, second⟩)
          (apart _ (Cell.shiftRight_eq_iff.2 ⟨low, overlap⟩))
      · exact absurd (Cell.shiftRight_eq_iff.2 ⟨low, overlap'⟩)
          (apart _ (Cell.shiftRight_eq_iff.2 ⟨Nat.le_refl _, first⟩))
    · exact .inr (Nat.mul_le_mul_right _ after)
  · exact .inl (Nat.mul_le_mul_right _ before)

/-- Blocks that share no frame cover frames once, if each frame has its block. -/
theorem flatMap_frames_perm {blocks : List Block} {all : List Nat} (nodup : blocks.Nodup)
    (nodup_all : all.Nodup)
    (apart : ∀ block ∈ blocks, ∀ other ∈ blocks, ∀ frame,
      frame ∈ block.frames geometry → frame ∈ other.frames geometry → block = other)
    (covered : ∀ frame, (∃ block ∈ blocks, frame ∈ block.frames geometry) ↔ frame ∈ all) :
    (blocks.flatMap (frames geometry)).Perm all := by
  refine (List.perm_ext_iff_of_nodup ?_ nodup_all).2 fun frame => ?_
  · rw [List.nodup_flatMap]
    refine ⟨fun block _ => List.nodup_range', nodup.pairwise_of_forall_ne ?_⟩
    intro block member other member' distinct frame inside inside'
    exact distinct (apart block member other member' frame inside inside')
  · rw [List.mem_flatMap]
    exact covered frame

theorem sum_bytes (blocks : List Block) :
    (blocks.map (bytes geometry)).sum =
      (blocks.flatMap (frames geometry)).length * geometry.size := by
  induction blocks with
  | nil => simp
  | cons block rest ih =>
      rw [List.map_cons, List.sum_cons, ih, List.flatMap_cons, List.length_append, Nat.add_mul,
        bytes_eq]

end Block

def Pool.freeBlocks (pool : Pool) : List Block :=
  (List.range orderCount).flatMap fun order =>
    ((pool.zone.areaOf order).free.toList pool.ram).map fun start => ⟨start, order⟩

namespace Pool

variable {pool : Pool} {cells : Nat → List Nat} {free : Nat → Prop} {order : Nat}

theorem Coalesced.freeBlocks_eq (coalesced : pool.Coalesced cells free) :
    pool.freeBlocks = (List.range orderCount).flatMap fun order =>
      (cells order).map (Block.ofCell pool.zone.geometry order) := by
  unfold freeBlocks
  apply List.flatMap_congr
  intro order member
  rw [coalesced.lists.toList_eq coalesced.ready (List.mem_range.1 member), List.map_map]
  rfl

theorem Coalesced.mem_freeBlocks_iff (coalesced : pool.Coalesced cells free) {block : Block} :
    block ∈ pool.freeBlocks ↔ ∃ order < orderCount, ∃ cell, Cell.Maximal free order cell ∧
      block = Block.ofCell pool.zone.geometry order cell := by
  rw [coalesced.freeBlocks_eq, List.mem_flatMap]
  constructor
  · rintro ⟨order, member, listed⟩
    obtain ⟨cell, inside, rfl⟩ := List.mem_map.1 listed
    have h := List.mem_range.1 member
    exact ⟨order, h, cell, (coalesced.maximal order h cell).1 inside, rfl⟩
  · rintro ⟨order, h, cell, maximal, rfl⟩
    exact ⟨order, List.mem_range.2 h,
      List.mem_map_of_mem ((coalesced.maximal order h cell).2 maximal)⟩

theorem Coalesced.nodup_freeBlocks (coalesced : pool.Coalesced cells free) :
    pool.freeBlocks.Nodup := by
  rw [coalesced.freeBlocks_eq, List.nodup_flatMap]
  constructor
  · intro order member
    exact (coalesced.lists.nodup order (List.mem_range.1 member)).map
      fun _ _ => Block.ofCell_injective
  · refine List.nodup_range.imp ?_
    intro order other distinct block member member'
    obtain ⟨cell, -, rfl⟩ := List.mem_map.1 member
    obtain ⟨cell', -, same⟩ := List.mem_map.1 member'
    exact distinct (congrArg Block.order same).symm

theorem freeBlocks_of_empty
    (empty : ∀ order < orderCount, (pool.zone.areaOf order).free = {}) : pool.freeBlocks = [] := by
  rw [freeBlocks, List.flatMap_eq_nil_iff]
  intro order member
  rw [empty order (List.mem_range.1 member)]
  rfl

end Pool

namespace DescriptorTable

variable {table : DescriptorTable}

theorem Regular.nodup_starts (regular : table.Regular) :
    (table.pages.toList.map (·.start)).Nodup := by
  have read : ∀ slot (h : slot < table.pages.size),
      (table.pages[slot]).start = (table.first + slot) * table.geometry.size := by
    intro slot h
    apply regular.placed
    rw [page?_eq_some_iff]
    refine ⟨Nat.le_add_right _ _, ?_⟩
    rw [Nat.add_sub_cancel_left, Array.getElem?_eq_getElem h]
  rw [List.nodup_iff_pairwise_ne, List.pairwise_map, List.pairwise_iff_getElem]
  intro first second h h' less same
  rw [Array.length_toList] at h h'
  rw [Array.getElem_toList, Array.getElem_toList, read first h, read second h'] at same
  have := Nat.eq_of_mul_eq_mul_right table.geometry.size_pos same
  omega

theorem mem_pages_iff {page : Page} :
    page ∈ table.pages.toList ↔ ∃ frame, table.page? frame = some page := by
  rw [List.mem_iff_getElem?]
  constructor
  · rintro ⟨slot, found⟩
    refine ⟨table.first + slot, page?_eq_some_iff.2 ⟨Nat.le_add_right _ _, ?_⟩⟩
    rw [Nat.add_sub_cancel_left, ← Array.getElem?_toList]
    exact found
  · rintro ⟨frame, found⟩
    obtain ⟨-, found⟩ := page?_eq_some_iff.1 found
    exact ⟨frame - table.first, by rwa [Array.getElem?_toList]⟩

end DescriptorTable

namespace BuddyAllocator

open Cell (Within)

variable {buddy : BuddyAllocator} {id : ZoneId} {block : Block}

def freeBlocks (buddy : BuddyAllocator) (id : ZoneId) : List Block :=
  (buddy.pool id).freeBlocks

def heldBlocks (buddy : BuddyAllocator) : List Block :=
  buddy.pages.owned.map fun page => ⟨page.start, page.order⟩

def within (buddy : BuddyAllocator) (blocks : List Block) (id : ZoneId) : List Block :=
  blocks.filter fun block => (buddy.zones.get id).start ≤ block.start ∧
    block.start + block.bytes buddy.geometry ≤
      (buddy.zones.get id).start + (buddy.zones.get id).size

def heapIds (buddy : BuddyAllocator) : List ZoneId :=
  ZoneId.all.filter fun id => (buddy.zones.get id).allocatable

namespace Sound

theorem mem_heldBlocks_iff (sound : buddy.Sound) :
    block ∈ buddy.heldBlocks ↔ ∃ head order, buddy.pages.Holds head order ∧
      block = Block.ofCell buddy.geometry order (head >>> order) := by
  have place : ∀ head page, buddy.pages.page? head = some page → page.owner ≠ .unowned →
      (⟨page.start, page.order⟩ : Block) =
        Block.ofCell buddy.geometry page.order (head >>> page.order) := by
    intro head page found owned
    rw [Block.ofCell, Geometry.blockAt_eq_mul,
      sound.held.aligned _ _ ⟨page, found, owned, rfl⟩, sound.regular.placed head page found]
    rfl
  unfold heldBlocks DescriptorTable.owned
  rw [List.mem_map]
  constructor
  · rintro ⟨page, member, rfl⟩
    obtain ⟨member, owned⟩ := List.mem_filter.1 member
    obtain ⟨head, found⟩ := DescriptorTable.mem_pages_iff.1 member
    have owned := of_decide_eq_true owned
    exact ⟨head, page.order, ⟨page, found, owned, rfl⟩, place head page found owned⟩
  · rintro ⟨head, order, ⟨page, found, owned, rfl⟩, rfl⟩
    refine ⟨page, List.mem_filter.2 ⟨DescriptorTable.mem_pages_iff.2 ⟨head, found⟩,
      decide_eq_true owned⟩, place head page found owned⟩

theorem nodup_heldBlocks (sound : buddy.Sound) : buddy.heldBlocks.Nodup := by
  apply List.Nodup.of_map Block.start
  rw [heldBlocks, List.map_map]
  exact sound.regular.nodup_starts.sublist (List.filter_sublist.map _)

theorem mem_freeBlocks_iff (sound : buddy.Sound)
    (allocatable : (buddy.zones.get id).allocatable = true) :
    block ∈ buddy.freeBlocks id ↔ ∃ order < orderCount, ∃ cell,
      Cell.Maximal (buddy.Free id) order cell ∧
        block = Block.ofCell buddy.geometry order cell := by
  obtain ⟨cells, coalesced⟩ := sound.coalesced id allocatable
  rw [freeBlocks, coalesced.mem_freeBlocks_iff,
    show (buddy.pool id).zone.geometry = buddy.geometry from sound.geometry_eq id]

theorem nodup_freeBlocks (sound : buddy.Sound)
    (allocatable : (buddy.zones.get id).allocatable = true) : (buddy.freeBlocks id).Nodup := by
  obtain ⟨cells, coalesced⟩ := sound.coalesced id allocatable
  exact coalesced.nodup_freeBlocks

/-- The held blocks in a zone are cells of it. -/
theorem mem_within_iff (sound : buddy.Sound)
    (allocatable : (buddy.zones.get id).allocatable = true) :
    block ∈ buddy.within buddy.heldBlocks id ↔ ∃ head order,
      buddy.pages.Holds head order ∧ Within (buddy.zones.get id).Has order (head >>> order) ∧
        block = Block.ofCell buddy.geometry order (head >>> order) := by
  have inside : ∀ order cell, Within (buddy.zones.get id).Has order cell ↔
      (buddy.zones.get id).start ≤ (Block.ofCell buddy.geometry order cell).start ∧
        (Block.ofCell buddy.geometry order cell).start +
          (Block.ofCell buddy.geometry order cell).bytes buddy.geometry ≤
            (buddy.zones.get id).start + (buddy.zones.get id).size := by
    intro order cell
    rw [Zone.within_has_iff_block (sound.ready allocatable).start_aligned, Block.stop_ofCell,
      sound.geometry_eq id]
    rfl
  rw [within, List.mem_filter, sound.mem_heldBlocks_iff, decide_eq_true_iff]
  constructor
  · rintro ⟨⟨head, order, holds, rfl⟩, bounds⟩
    exact ⟨head, order, holds, (inside _ _).2 bounds, rfl⟩
  · rintro ⟨head, order, holds, within, rfl⟩
    exact ⟨⟨head, order, holds, rfl⟩, (inside _ _).1 within⟩

/-- Two blocks of a zone that share a frame are one block. -/
private theorem block_unique (sound : buddy.Sound)
    (allocatable : (buddy.zones.get id).allocatable = true) {other : Block} {frame : Nat}
    (member : block ∈ buddy.freeBlocks id ++ buddy.within buddy.heldBlocks id)
    (member' : other ∈ buddy.freeBlocks id ++ buddy.within buddy.heldBlocks id)
    (inside : frame ∈ block.frames buddy.geometry)
    (inside' : frame ∈ other.frames buddy.geometry) : block = other := by
  rw [List.mem_append, sound.mem_freeBlocks_iff allocatable,
    sound.mem_within_iff allocatable] at member member'
  rcases member with ⟨order, h, cell, maximal, rfl⟩ | ⟨head, order, holds, -, rfl⟩
  · rw [Block.mem_frames_ofCell] at inside
    subst inside
    rcases member' with ⟨order', h', cell', maximal', rfl⟩ | ⟨head, order', holds, -, rfl⟩
    · rw [Block.mem_frames_ofCell] at inside'
      subst inside'
      rw [maximal.unique maximal' (Nat.le_of_lt_succ h) (Nat.le_of_lt_succ h')]
    · rw [Block.mem_frames_ofCell] at inside'
      exact absurd ⟨head, order', holds, inside'⟩ (maximal.1 frame rfl).2
  · rw [Block.mem_frames_ofCell] at inside
    rcases member' with ⟨order', h', cell', maximal', rfl⟩ | ⟨head', order', holds', -, rfl⟩
    · rw [Block.mem_frames_ofCell] at inside'
      exact absurd ⟨head, order, holds, inside⟩ (maximal'.1 frame inside').2
    · rw [Block.mem_frames_ofCell] at inside'
      obtain rfl := sound.held.apart frame head order head' order' holds holds' inside inside'
      obtain ⟨page, found, -, rfl⟩ := holds
      obtain ⟨page', found', -, rfl⟩ := holds'
      rw [found] at found'
      rw [Option.some.inj found']

/-- The free and held blocks of a zone cover each whole page of it once. -/
theorem zone_partition (sound : buddy.Sound)
    (allocatable : (buddy.zones.get id).allocatable = true) :
    ((buddy.freeBlocks id ++ buddy.within buddy.heldBlocks id).flatMap
      (Block.frames buddy.geometry)).Perm (buddy.zones.get id).frames := by
  apply Block.flatMap_frames_perm
  · rw [List.nodup_append]
    refine ⟨sound.nodup_freeBlocks allocatable, sound.nodup_heldBlocks.filter _, ?_⟩
    rintro block member other member' rfl
    rw [sound.mem_freeBlocks_iff allocatable] at member
    obtain ⟨order, h, cell, maximal, rfl⟩ := member
    obtain ⟨head, order', holds, -, same⟩ := (sound.mem_within_iff allocatable).1 member'
    have own : cell <<< order >>> order = cell := Cell.shiftLeft_shiftRight _ _
    have inside : cell <<< order ∈
        (Block.ofCell buddy.geometry order cell).frames buddy.geometry :=
      Block.mem_frames_ofCell.2 own
    rw [same, Block.mem_frames_ofCell] at inside
    exact (maximal.1 _ own).2 ⟨head, order', holds, inside⟩
  · exact List.nodup_range'
  · exact fun block member other member' frame inside inside' =>
      sound.block_unique allocatable member member' inside inside'
  · intro frame
    rw [Zone.mem_frames_iff (sound.ready allocatable).start_aligned]
    constructor
    · rintro ⟨block, member, inside⟩
      rw [List.mem_append, sound.mem_freeBlocks_iff allocatable,
        sound.mem_within_iff allocatable] at member
      rcases member with ⟨order, h, cell, maximal, rfl⟩ | ⟨head, order, holds, within, rfl⟩
      · exact (maximal.1 frame (Block.mem_frames_ofCell.1 inside)).1
      · exact within frame (Block.mem_frames_ofCell.1 inside)
    · intro has
      by_cases taken : buddy.pages.Taken frame
      · obtain ⟨head, order, holds, inside⟩ := taken
        refine ⟨_, List.mem_append_right _ ((sound.mem_within_iff allocatable).2
          ⟨head, order, holds, sound.within_of_has holds allocatable inside has, rfl⟩), ?_⟩
        exact Block.mem_frames_ofCell.2 inside
      · have free : buddy.Free id frame := ⟨has, taken⟩
        obtain ⟨order, le, maximal⟩ := Cell.exists_maximal free
        refine ⟨Block.ofCell buddy.geometry order (frame >>> order), List.mem_append_left _ ?_,
          Block.mem_frames_ofCell.2 rfl⟩
        rw [sound.mem_freeBlocks_iff allocatable]
        exact ⟨order, Nat.lt_succ_of_le le, _, maximal, rfl⟩

end Sound

end BuddyAllocator

end PhysicalMemory
