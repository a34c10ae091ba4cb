import PhysicalMemory.Proofs.Buddy.PairBits
import PhysicalMemory.Proofs.Buddy.Partition

/-!
# The free blocks depend on the live ones alone

A zone is coalesced over the frames that no live block has, and a set of frames
has one coalesced form.  So two histories that leave the same blocks live leave
the same blocks free and the same pair bits.  Giving everything back, in any
order, leads to what seeding built.
-/

namespace PhysicalMemory

namespace PairBitmap

/-- Bitmaps of one size whose bits agree have the same words. -/
theorem words_eq_of_bit_eq {pairs pairs' : PairBitmap} (covers : pairs'.covers = pairs.covers)
    (bits : ∀ pair, pairs'.bit pair = pairs.bit pair) : pairs'.words = pairs.words := by
  have size : pairs'.words.size = pairs.words.size := by
    have inside : ∀ word, decide (word < pairs'.words.size) = decide (word < pairs.words.size) := by
      intro word
      have same := congrFun covers (64 * word)
      simpa [PairBitmap.covers] using same
    have first := inside pairs.words.size
    have second := inside pairs'.words.size
    simp at first second
    omega
  apply Array.ext size
  intro word h h'
  apply BitVec.eq_of_getLsbD_eq
  intro place below
  have same := bits (64 * word + place)
  have quotient : (64 * word + place) / 64 = word := by omega
  have rest : (64 * word + place) % 64 = place := by omega
  simpa [bit, quotient, rest, h, h', Array.getD_eq_getD_getElem?] using same

end PairBitmap

/-- Pools in zones alike that list the same cells of an order have the same pair bits there. -/
theorem Pool.Coalesced.words_eq {pool pool' : Pool} {cells cells' : Nat → List Nat}
    {free free' : Nat → Prop} {order : Nat} (coalesced : pool.Coalesced cells free)
    (coalesced' : pool'.Coalesced cells' free') (alike : Zone.Alike pool.zone pool'.zone)
    (h : order < orderCount) (same : ∀ cell, cell ∈ cells' order ↔ cell ∈ cells order) :
    (pool'.zone.areaOf order).pairs.words = (pool.zone.areaOf order).pairs.words := by
  apply PairBitmap.words_eq_of_bit_eq (alike.reach order).covers_eq
  intro pair
  -- both bits are read off the same listing
  have bit := coalesced.paired order h
    (pair + (pool.zone.areaOf order).pairs.base >>> (order + 1)) (Nat.le_add_left _ _)
  have bit' := coalesced'.paired order h
    (pair + (pool'.zone.areaOf order).pairs.base >>> (order + 1)) (Nat.le_add_left _ _)
  rw [Zone.pairBit, Nat.add_sub_cancel] at bit bit'
  rw [bit, bit', (alike.reach order).base_eq]
  simp only [same]

namespace Block

def parent (geometry : Geometry) (block : Block) : Block :=
  ⟨block.start / geometry.size <<< (block.order + 1) * geometry.size <<< (block.order + 1),
    block.order + 1⟩

variable {geometry : Geometry} {order cell : Nat}

theorem parent_ofCell :
    (ofCell geometry order cell).parent geometry = ofCell geometry (order + 1) (cell / 2) := by
  have size : geometry.size <<< (order + 1) = 1 <<< (geometry.shift + order) * 2 := by
    rw [Geometry.size, ← Nat.shiftLeft_add, ← Nat.add_assoc, Nat.one_shiftLeft, Nat.one_shiftLeft,
      Nat.pow_succ]
  have place : geometry.blockAt order cell = 1 <<< (geometry.shift + order) * cell := by
    rw [Geometry.blockAt, Nat.shiftLeft_eq, Nat.one_shiftLeft, Nat.mul_comm]
  have positive : 0 < 1 <<< (geometry.shift + order) := by
    rw [Nat.one_shiftLeft]
    exact Nat.two_pow_pos _
  have place' : geometry.blockAt (order + 1) (cell / 2) =
      cell / 2 * (1 <<< (geometry.shift + order) * 2) := by
    rw [Geometry.blockAt, Nat.shiftLeft_eq, ← Nat.add_assoc, Nat.one_shiftLeft, Nat.pow_succ]
  rw [parent, ofCell, ofCell, size, place, place', Nat.mul_div_mul_left _ _ positive]

/-- The blocks that are placed in a zone are its cells. -/
theorem placed_iff {zone : Zone} (start_aligned : zone.start % zone.geometry.size = 0)
    {block : Block} :
    block.Placed zone ↔ block.order < orderCount ∧ ∃ cell,
      Cell.Within zone.Has block.order cell ∧ block = ofCell zone.geometry block.order cell := by
  constructor
  · rintro ⟨order_lt, aligned, above, below⟩
    rw [bytes, Geometry.size, ← Nat.shiftLeft_add] at aligned
    have place := zone.geometry.blockAt_of_aligned aligned
    have same : block =
        ofCell zone.geometry block.order (zone.geometry.frameOf block.start >>> block.order) := by
      rw [ofCell, place]
    refine ⟨order_lt, _, ?_, same⟩
    rw [same, stop_ofCell] at below
    rw [Zone.within_has_iff_block start_aligned, place]
    exact ⟨above, below⟩
  · rintro ⟨order_lt, cell, within, same⟩
    rw [same]
    exact placed_ofCell start_aligned order_lt within

end Block

namespace BuddyAllocator

open Cell (Within Maximal)

variable {raw buddy buddy' after : BuddyAllocator}

/-- The allocators agree on the free blocks of every order and on every bitmap word. -/
structure SameFree (buddy buddy' : BuddyAllocator) : Prop where
  blocks : ∀ id, ∀ order < orderCount, ∀ block,
    block ∈ (buddy.pool id).listOf order ↔ block ∈ (buddy'.pool id).listOf order
  words : ∀ id, ∀ order < orderCount,
    ((buddy.zones.get id).areaOf order).pairs.words =
      ((buddy'.zones.get id).areaOf order).pairs.words

/-- The block is placed in the zone, and no live block has a page of it. -/
structure Vacant (buddy : BuddyAllocator) (id : ZoneId) (block : Block) : Prop where
  placed : block.Placed (buddy.zones.get id)
  unlive : ∀ live ∈ buddy.liveBlocks, ∀ frame ∈ block.frames buddy.geometry,
    frame ∉ live.frames buddy.geometry

def giveBack (block : Block) : Call :=
  .free block.start block.order

namespace Sound

theorem taken_iff (sound : buddy.Sound) {frame : Nat} :
    buddy.pages.Taken frame ↔ ∃ block ∈ buddy.heldBlocks, frame ∈ block.frames buddy.geometry := by
  constructor
  · rintro ⟨head, order, holds, inside⟩
    exact ⟨_, sound.mem_heldBlocks_iff.2 ⟨head, order, holds, rfl⟩,
      Block.mem_frames_ofCell.2 inside⟩
  · rintro ⟨block, member, inside⟩
    obtain ⟨head, order, holds, rfl⟩ := sound.mem_heldBlocks_iff.1 member
    exact ⟨head, order, holds, Block.mem_frames_ofCell.1 inside⟩

/-- Allocators over the same zones in which the same frames are taken have the same free blocks. -/
theorem sameFree (sound : buddy.Sound) (sound' : buddy'.Sound)
    (alike : ∀ id, Zone.Alike (buddy.zones.get id) (buddy'.zones.get id))
    (idle : ∀ id, (buddy.zones.get id).allocatable = false →
      buddy'.zones.get id = buddy.zones.get id)
    (taken : ∀ frame, buddy'.pages.Taken frame ↔ buddy.pages.Taken frame) :
    SameFree buddy buddy' := by
  have free : ∀ id frame, buddy'.Free id frame ↔ buddy.Free id frame := fun id frame => by
    rw [Free, Free, (alike id).has_iff, taken]
  have cells_iff : ∀ id, (buddy.zones.get id).allocatable = true →
      ∃ cells cells', (buddy.pool id).Coalesced cells (buddy.Free id) ∧
        (buddy'.pool id).Coalesced cells' (buddy.Free id) ∧
        ∀ order < orderCount, ∀ cell, cell ∈ cells' order ↔ cell ∈ cells order := by
    intro id allocatable
    obtain ⟨cells, coalesced⟩ := sound.coalesced id allocatable
    obtain ⟨cells', coalesced'⟩ := sound'.coalesced id
      ((alike id).allocatable_eq.trans allocatable)
    have coalesced' := coalesced'.congr_free (free id)
    exact ⟨cells, cells', coalesced, coalesced', fun order h cell =>
      (coalesced'.maximal order h cell).trans (coalesced.maximal order h cell).symm⟩
  constructor
  · intro id order h block
    by_cases allocatable : (buddy.zones.get id).allocatable = true
    · obtain ⟨cells, cells', coalesced, coalesced', same⟩ := cells_iff id allocatable
      rw [Pool.listOf, Pool.listOf, coalesced.lists.toList_eq coalesced.ready h,
        coalesced'.lists.toList_eq coalesced'.ready h,
        show (buddy'.pool id).zone.geometry = (buddy.pool id).zone.geometry from
          (alike id).geometry_eq]
      simp only [List.mem_map, same order h]
    · have still := Bool.eq_false_iff.2 allocatable
      rw [Pool.listOf, Pool.listOf,
        show (buddy.pool id).zone = buddy.zones.get id from rfl,
        show (buddy'.pool id).zone = buddy'.zones.get id from rfl, idle id still,
        sound.idle id still order h]
      rfl
  · intro id order h
    by_cases allocatable : (buddy.zones.get id).allocatable = true
    · obtain ⟨cells, cells', coalesced, coalesced', same⟩ := cells_iff id allocatable
      exact (coalesced.words_eq coalesced' (alike id) h (same order h)).symm
    · rw [idle id (Bool.eq_false_iff.2 allocatable)]

/-- Giving a live block back leaves the other live blocks. -/
theorem mem_liveBlocks_giveBack_iff (sound : buddy.Sound) (slabless : buddy.Slabless)
    {block other : Block} (member : block ∈ buddy.liveBlocks) :
    other ∈ ((giveBack block).perform buddy).liveBlocks ↔
      other ∈ buddy.liveBlocks ∧ other ≠ block := by
  rw [← slabless.heldBlocks_eq] at member ⊢
  rw [← (slabless.perform sound _).heldBlocks_eq]
  obtain ⟨head, order, holds, rfl⟩ := sound.mem_heldBlocks_iff.1 member
  have aligned := sound.held.aligned head order holds
  obtain ⟨live, found, owned, rfl⟩ := id holds
  have owner : live.owner = .buddy := by
    cases owner : live.owner with
    | buddy => rfl
    | slab => exact absurd owner (slabless head live found)
    | unowned => exact absurd owner owned
  have frame : buddy.geometry.frameOf
      (Block.ofCell buddy.geometry live.order (head >>> live.order)).start = head := by
    rw [Block.ofCell, Geometry.frameOf_blockAt, aligned]
  obtain ⟨after, recovered, answers⟩ := sound.free (frame.symm ▸ found) owner
  rw [frame] at recovered
  rw [giveBack, Call.perform, show (Block.ofCell buddy.geometry live.order
    (head >>> live.order)).order = live.order from rfl, answers.2]
  have geometry : after.geometry = buddy.geometry := by
    rw [BuddyAllocator.geometry, recovered.pages_eq]
    rfl
  rw [recovered.sound.mem_heldBlocks_iff, sound.mem_heldBlocks_iff, geometry]
  have holds_iff : ∀ head' order', after.pages.Holds head' order' ↔
      head' ≠ head ∧ buddy.pages.Holds head' order' := by
    intro head' order'
    rw [recovered.pages_eq, sound.regular.holds_set_iff found]
    split
    · next same => simp [same, Page.release]
    · next distinct => simp [distinct]
  have start : ∀ head' order', buddy.pages.Holds head' order' →
      buddy.geometry.frameOf (Block.ofCell buddy.geometry order' (head' >>> order')).start =
        head' := by
    intro head' order' holds'
    rw [Block.ofCell, Geometry.frameOf_blockAt, sound.held.aligned head' order' holds']
  constructor
  · rintro ⟨head', order', holds', rfl⟩
    obtain ⟨distinct, holds'⟩ := (holds_iff head' order').1 holds'
    refine ⟨⟨head', order', holds', rfl⟩, fun same => distinct ?_⟩
    rw [← start head' order' holds', same, frame]
  · rintro ⟨⟨head', order', holds', rfl⟩, distinct⟩
    refine ⟨head', order', (holds_iff head' order').2 ⟨?_, holds'⟩, rfl⟩
    rintro rfl
    obtain ⟨live', found', -, rfl⟩ := holds'
    rw [found] at found'
    rw [Option.some.inj found'] at distinct
    exact distinct rfl

/-- After giving some live blocks back one after the other, the others are live. -/
theorem mem_liveBlocks_run_giveBack_iff (sound : buddy.Sound) (slabless : buddy.Slabless)
    {blocks : List Block} (nodup : blocks.Nodup) (live : ∀ block ∈ blocks, block ∈ buddy.liveBlocks)
    {other : Block} :
    other ∈ (buddy.run (blocks.map giveBack)).liveBlocks ↔
      other ∈ buddy.liveBlocks ∧ other ∉ blocks := by
  induction blocks generalizing buddy with
  | nil => simp [BuddyAllocator.run]
  | cons block rest ih =>
      obtain ⟨fresh, nodup⟩ := List.nodup_cons.1 nodup
      have step : ∀ other, other ∈ ((giveBack block).perform buddy).liveBlocks ↔
          other ∈ buddy.liveBlocks ∧ other ≠ block := fun other =>
        sound.mem_liveBlocks_giveBack_iff slabless (live block List.mem_cons_self)
      have left : ∀ other ∈ rest, other ∈ ((giveBack block).perform buddy).liveBlocks := by
        intro other member
        refine (step other).2 ⟨live other (List.mem_cons_of_mem _ member), ?_⟩
        rintro rfl
        exact fresh member
      rw [List.map_cons, BuddyAllocator.run, List.foldl_cons]
      refine (ih (sound.perform _) (slabless.perform sound _) nodup left).trans ?_
      rw [step, List.mem_cons, not_or, and_assoc]

/-- A block is vacant when it is a cell of free frames. -/
theorem vacant_iff (sound : buddy.Sound) (slabless : buddy.Slabless) {id : ZoneId}
    (allocatable : (buddy.zones.get id).allocatable = true) {block : Block} :
    buddy.Vacant id block ↔ block.order < orderCount ∧ ∃ cell,
      Within (buddy.Free id) block.order cell ∧
        block = Block.ofCell buddy.geometry block.order cell := by
  have geometry : (buddy.zones.get id).geometry = buddy.geometry := sound.geometry_eq id
  have free_iff : ∀ order cell, Within (buddy.Free id) order cell ↔
      Within (buddy.zones.get id).Has order cell ∧ ∀ live ∈ buddy.liveBlocks,
        ∀ frame ∈ (Block.ofCell buddy.geometry order cell).frames buddy.geometry,
          frame ∉ live.frames buddy.geometry := by
    intro order cell
    rw [← slabless.heldBlocks_eq]
    constructor
    · intro within
      refine ⟨within.mono fun frame free => free.1, fun live member frame inside inside' => ?_⟩
      exact (within frame (Block.mem_frames_ofCell.1 inside)).2
        (sound.taken_iff.2 ⟨live, member, inside'⟩)
    · rintro ⟨within, unlive⟩ frame inside
      refine ⟨within frame inside, fun taken => ?_⟩
      obtain ⟨live, member, inside'⟩ := sound.taken_iff.1 taken
      exact unlive live member frame (Block.mem_frames_ofCell.2 inside) inside'
  constructor
  · rintro ⟨placed, unlive⟩
    obtain ⟨order_lt, cell, within, same⟩ :=
      (Block.placed_iff (sound.ready allocatable).start_aligned).1 placed
    rw [geometry] at same
    refine ⟨order_lt, cell, (free_iff _ _).2 ⟨within, ?_⟩, same⟩
    rw [← same]
    exact unlive
  · rintro ⟨order_lt, cell, within, same⟩
    obtain ⟨within, unlive⟩ := (free_iff _ _).1 within
    rw [← same] at unlive
    refine ⟨(Block.placed_iff (sound.ready allocatable).start_aligned).2
      ⟨order_lt, cell, within, ?_⟩, unlive⟩
    rw [geometry]
    exact same

/-- The free blocks are the vacant ones whose parents are not vacant. -/
theorem mem_freeBlocks_iff_vacant (sound : buddy.Sound) (slabless : buddy.Slabless) {id : ZoneId}
    (allocatable : (buddy.zones.get id).allocatable = true) {block : Block} :
    block ∈ buddy.freeBlocks id ↔ buddy.Vacant id block ∧
      (block.order < topOrder → ¬ buddy.Vacant id (block.parent buddy.geometry)) := by
  rw [sound.mem_freeBlocks_iff allocatable, sound.vacant_iff slabless allocatable,
    sound.vacant_iff slabless allocatable]
  have parent : ∀ order cell, order < topOrder →
      (¬ (((Block.ofCell buddy.geometry order cell).parent buddy.geometry).order < orderCount ∧
        ∃ cell', Within (buddy.Free id)
          ((Block.ofCell buddy.geometry order cell).parent buddy.geometry).order cell' ∧
            (Block.ofCell buddy.geometry order cell).parent buddy.geometry =
              Block.ofCell buddy.geometry
                ((Block.ofCell buddy.geometry order cell).parent buddy.geometry).order cell') ↔
        ¬ Within (buddy.Free id) (order + 1) (cell / 2)) := by
    intro order cell below
    rw [Block.parent_ofCell]
    refine not_congr ⟨?_, fun within => ⟨Nat.succ_lt_succ below, _, within, rfl⟩⟩
    rintro ⟨-, cell', within, same⟩
    rw [Block.ofCell_injective same]
    exact within
  constructor
  · rintro ⟨order, h, cell, maximal, rfl⟩
    exact ⟨⟨h, cell, maximal.1, rfl⟩, fun below => (parent order cell below).2 (maximal.2 below)⟩
  · rintro ⟨⟨h, cell, within, same⟩, unmerged⟩
    rw [same] at unmerged
    exact ⟨block.order, h, cell, ⟨within, fun below =>
      (parent block.order cell below).1 (unmerged below)⟩, same⟩

end Sound

/-- Runs of a built allocator that leave the same blocks live leave the same blocks free. -/
theorem Built.sameFree_of_live (built : Built raw buddy) {calls calls' : List Call}
    (live : ∀ block,
      block ∈ (buddy.run calls).liveBlocks ↔ block ∈ (buddy.run calls').liveBlocks) :
    SameFree (buddy.run calls) (buddy.run calls') := by
  obtain ⟨sound, -, -, -⟩ := built.sound
  have first := sound.run calls
  have second := sound.run calls'
  have alike := fun id => (sound.run_alike calls id).symm.trans (sound.run_alike calls' id)
  apply first.sameFree second alike
  · intro id idle
    have still : (buddy.zones.get id).allocatable = false :=
      (sound.run_alike calls id).allocatable_eq.symm.trans idle
    rw [sound.run_idle calls still, sound.run_idle calls' still]
  · intro frame
    have geometry : (buddy.run calls').geometry = (buddy.run calls).geometry := by
      have same := (alike .heap).geometry_eq
      rwa [first.geometry_eq, second.geometry_eq] at same
    rw [first.taken_iff, second.taken_iff, (built.slabless.run sound calls).heldBlocks_eq,
      (built.slabless.run sound calls').heldBlocks_eq, geometry]
    simp only [live]

theorem run_append (calls calls' : List Call) :
    buddy.run (calls ++ calls') = (buddy.run calls).run calls' :=
  List.foldl_append

namespace Built

theorem nodup_liveBlocks (built : Built raw buddy) (calls : List Call) :
    (buddy.run calls).liveBlocks.Nodup := by
  have sound := built.sound.1
  rw [← (built.slabless.run sound calls).heldBlocks_eq]
  exact (sound.run calls).nodup_heldBlocks

theorem liveBlocks_nil (built : Built raw buddy) (block : Block) : block ∉ buddy.liveBlocks := by
  obtain ⟨sound, -, -, untaken⟩ := built.sound
  intro member
  rw [← built.slabless.heldBlocks_eq] at member
  obtain ⟨head, order, holds, -⟩ := sound.mem_heldBlocks_iff.1 member
  exact untaken head ⟨head, order, holds, rfl⟩

theorem mem_liveBlocks_giveBack_all_iff (built : Built raw buddy) (calls : List Call)
    (blocks : List Block) (nodup : blocks.Nodup)
    (live : ∀ block ∈ blocks, block ∈ (buddy.run calls).liveBlocks) (block : Block) :
    block ∈ (buddy.run (calls ++ blocks.map giveBack)).liveBlocks ↔
      block ∈ (buddy.run calls).liveBlocks ∧ block ∉ blocks := by
  have sound := built.sound.1
  rw [run_append]
  exact (sound.run calls).mem_liveBlocks_run_giveBack_iff (built.slabless.run sound calls) nodup
    live

/-- Giving all live blocks back, in whatever order, leads to what seeding built. -/
theorem sameFree_giveBack_all (built : Built raw buddy) {calls : List Call} {blocks : List Block}
    (perm : blocks.Perm (buddy.run calls).liveBlocks) :
    SameFree (buddy.run (calls ++ blocks.map giveBack)) buddy := by
  change SameFree _ (buddy.run [])
  refine built.sameFree_of_live fun block => ?_
  rw [built.mem_liveBlocks_giveBack_all_iff calls blocks
    (perm.nodup_iff.2 (built.nodup_liveBlocks calls)) (fun block => perm.mem_iff.1), perm.mem_iff]
  exact ⟨fun both => absurd both.1 both.2, fun member => absurd member (built.liveBlocks_nil block)⟩

theorem sameFree_giveBack_comm (built : Built raw buddy) {calls : List Call} {block other : Block}
    (member : block ∈ (buddy.run calls).liveBlocks)
    (member' : other ∈ (buddy.run calls).liveBlocks) (distinct : block ≠ other) :
    SameFree (buddy.run (calls ++ [giveBack block, giveBack other]))
      (buddy.run (calls ++ [giveBack other, giveBack block])) := by
  refine built.sameFree_of_live fun third => ?_
  have first := built.mem_liveBlocks_giveBack_all_iff calls [block, other]
    (by simpa using distinct) (by simp [member, member']) third
  have second := built.mem_liveBlocks_giveBack_all_iff calls [other, block]
    (by simpa using distinct.symm) (by simp [member, member']) third
  refine first.trans (.trans (and_congr_right fun _ => ?_) second.symm)
  simp only [List.mem_cons, List.not_mem_nil, or_false, not_or, and_comm]

end Built

/--
Two histories with the same live blocks have the same free blocks at every order
and the same bitmap words; the free blocks are the vacant ones that have no
vacant parent; giving all live blocks back in any order leads to what seeding
built; and two blocks may be given back in either order.
-/
theorem run_canonical (built : Built raw buddy) :
    (∀ calls calls' : List Call,
      (∀ block, block ∈ (buddy.run calls).liveBlocks ↔ block ∈ (buddy.run calls').liveBlocks) →
        SameFree (buddy.run calls) (buddy.run calls')) ∧
    (∀ (calls : List Call) (id), (raw.zones.get id).allocatable = true → ∀ block,
      block ∈ (buddy.run calls).freeBlocks id ↔ (buddy.run calls).Vacant id block ∧
        (block.order < topOrder →
          ¬ (buddy.run calls).Vacant id (block.parent (buddy.run calls).geometry))) ∧
    (∀ (calls : List Call) (blocks : List Block), blocks.Perm (buddy.run calls).liveBlocks →
      SameFree (buddy.run (calls ++ blocks.map giveBack)) buddy) ∧
    ∀ (calls : List Call), ∀ block ∈ (buddy.run calls).liveBlocks,
      ∀ other ∈ (buddy.run calls).liveBlocks, block ≠ other →
        SameFree (buddy.run (calls ++ [giveBack block, giveBack other]))
          (buddy.run (calls ++ [giveBack other, giveBack block])) := by
  have sound := built.sound.1
  refine ⟨fun calls calls' => built.sameFree_of_live, ?_,
    fun calls blocks perm => built.sameFree_giveBack_all perm,
    fun calls block member other member' distinct =>
      built.sameFree_giveBack_comm member member' distinct⟩
  intro calls id allocatable block
  apply (sound.run calls).mem_freeBlocks_iff_vacant (built.slabless.run sound calls)
  rw [(built.run_alike calls id).allocatable_eq, allocatable]

/-- On a small machine two histories that leave nothing live leave the same free blocks. -/
theorem run_canonical_sample : Built sample sampleSeeded ∧
    SameFree (sampleSeeded.run [.allocate 1, .write 0x1400 5 7, .free 0x1400 1])
      (sampleSeeded.run [.allocate 9]) :=
  ⟨sample_built, (run_canonical sample_built).1 _ _ fun block => by
    have given : (sampleSeeded.run [.allocate 1, .write 0x1400 5 7, .free 0x1400 1]).liveBlocks =
        [] := by decide +kernel
    have refused : (sampleSeeded.run [.allocate 9]).liveBlocks = [] := by decide +kernel
    rw [given, refused]⟩

end BuddyAllocator

end PhysicalMemory
