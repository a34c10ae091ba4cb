import PhysicalMemory.Proofs.Buddy.Blocks

/-!
# Conservation of memory

The free blocks of all zones and the held blocks cover the whole pages of the
allocatable zones once.  So the number of free bytes is always a word, and with
the bytes of the held blocks it makes up the size of those zones.
-/

namespace PhysicalMemory

namespace Zone

def weight (geometry : Geometry) (area : FreeArea) : Nat :=
  area.free.length * (geometry.size <<< area.order % Word.limit)

/-- Adding up free bytes answers with their sum if that is a word. -/
theorem addFreeBytes_eq {geometry : Geometry} {areas : List FreeArea} {sum : Nat}
    (orders : ∀ area ∈ areas, area.order < 64)
    (fits : sum + (areas.map (weight geometry)).sum < Word.limit) :
    addFreeBytes geometry sum areas = .ok (sum + (areas.map (weight geometry)).sum) := by
  induction areas generalizing sum with
  | nil => rfl
  | cons area rest ih =>
      rw [List.map_cons, List.sum_cons, ← Nat.add_assoc] at fits ⊢
      have product : Word.mul area.free.length (geometry.size <<< area.order % Word.limit) =
          .ok (weight geometry area) := by
        apply Word.mul_of_lt
        unfold weight at fits
        omega
      have size : geometry.blockSize area.order =
          .ok (geometry.size <<< area.order % Word.limit) := by
        rw [Geometry.blockSize, Word.shiftLeft, if_pos (orders area List.mem_cons_self)]
      have total : Word.add sum (weight geometry area) = .ok (sum + weight geometry area) :=
        Word.add_of_lt (by omega)
      simp only [addFreeBytes, size, product, total, bind, Except.bind]
      exact ih (fun other member => orders other (List.mem_cons_of_mem _ member)) fits

theorem areas_toList (zone : Zone) :
    zone.areas.toList = (List.range orderCount).map zone.areaOf := by
  apply List.ext_getElem
  · simp
  · intro order h h'
    have inside : order < orderCount := by simpa using h'
    simp [areaOf, inside]

end Zone

namespace Pool

variable {pool : Pool} {cells : Nat → List Nat} {free : Nat → Prop}

theorem Coalesced.sum_weight (coalesced : pool.Coalesced cells free) :
    (pool.zone.areas.toList.map (Zone.weight pool.zone.geometry)).sum =
      (pool.freeBlocks.map (Block.bytes pool.zone.geometry)).sum := by
  rw [pool.zone.areas_toList, coalesced.freeBlocks_eq, List.map_map, List.map_flatMap,
    List.flatMap_def, List.sum_flatten, List.map_map]
  congr 1
  apply List.map_congr_left
  intro order member
  have h := List.mem_range.1 member
  have counted : (pool.zone.areaOf order).free.length = (cells order).length := by
    rw [(coalesced.lists.spells order h).length_eq, List.length_map]
  have listed : ((cells order).map (Block.ofCell pool.zone.geometry order)).map
      (Block.bytes pool.zone.geometry) =
        List.replicate (cells order).length (pool.zone.geometry.size <<< order) := by
    rw [List.map_map, ← List.map_const']
    rfl
  rw [Function.comp_apply, Function.comp_apply, listed, List.sum_replicate, smul_eq_mul,
    Zone.weight, counted]
  cases first : cells order with
  | nil => simp
  | cons cell rest =>
      have inside := coalesced.lists.inside order h cell (by simp [first])
      have wide := coalesced.ready.wide _ (inside _ (Cell.shiftLeft_shiftRight cell order))
      have fits : pool.zone.geometry.size <<< order < Word.limit := by
        rw [Geometry.size, ← Nat.shiftLeft_add]
        apply Word.one_shiftLeft_lt
        have le : order ≤ topOrder := Nat.le_of_lt_succ h
        omega
      rw [FreeArea.order, coalesced.ready.order_eq order h, Nat.mod_eq_of_lt fits]

end Pool

namespace BuddyAllocator

variable {buddy : BuddyAllocator}

def wholeFrames (buddy : BuddyAllocator) : List Nat :=
  buddy.heapIds.flatMap fun id => (buddy.zones.get id).frames

def allFreeBlocks (buddy : BuddyAllocator) : List Block :=
  buddy.heapIds.flatMap buddy.freeBlocks

theorem mem_heapIds_iff {id : ZoneId} :
    id ∈ buddy.heapIds ↔ (buddy.zones.get id).allocatable = true := by
  simp [heapIds, ZoneId.mem_all]

theorem nodup_heapIds : buddy.heapIds.Nodup :=
  List.Nodup.filter _ (by decide)

namespace Sound

theorem heldBlocks_perm (sound : buddy.Sound) :
    (buddy.heapIds.flatMap (buddy.within buddy.heldBlocks)).Perm buddy.heldBlocks := by
  refine (List.perm_ext_iff_of_nodup ?_ sound.nodup_heldBlocks).2 fun block => ?_
  · rw [List.nodup_flatMap]
    refine ⟨fun id _ => sound.nodup_heldBlocks.filter _, ?_⟩
    apply nodup_heapIds.pairwise_of_forall_ne
    intro id member other member' distinct block inside inside'
    rw [mem_heapIds_iff] at member member'
    obtain ⟨head, order, holds, within, rfl⟩ := (sound.mem_within_iff member).1 inside
    obtain ⟨head', order', holds', within', same⟩ := (sound.mem_within_iff member').1 inside'
    have frames := congrArg (fun block : Block => buddy.geometry.frameOf block.start) same
    simp only [Block.ofCell, Geometry.frameOf_blockAt] at frames
    have has := within _ (Cell.shiftLeft_shiftRight _ _)
    rw [frames] at has
    exact distinct (sound.zone_unique member member' has
      (within' _ (Cell.shiftLeft_shiftRight _ _)))
  · rw [List.mem_flatMap]
    constructor
    · rintro ⟨id, -, inside⟩
      exact (List.mem_filter.1 inside).1
    · intro held
      obtain ⟨head, order, holds, rfl⟩ := sound.mem_heldBlocks_iff.1 held
      obtain ⟨id, allocatable, within⟩ := sound.held.inside head order holds
      exact ⟨id, mem_heapIds_iff.2 allocatable, (sound.mem_within_iff allocatable).2
        ⟨head, order, holds, within, rfl⟩⟩

/-- Free and held blocks cover the whole pages of the allocatable zones once. -/
theorem partition (sound : buddy.Sound) :
    ((buddy.allFreeBlocks ++ buddy.heldBlocks).flatMap (Block.frames buddy.geometry)).Perm
      buddy.wholeFrames := by
  have zones : ((buddy.heapIds.flatMap fun id =>
      buddy.freeBlocks id ++ buddy.within buddy.heldBlocks id).flatMap
        (Block.frames buddy.geometry)).Perm buddy.wholeFrames := by
    rw [List.flatMap_assoc]
    apply List.Perm.flatMap_left
    intro id member
    exact sound.zone_partition (mem_heapIds_iff.1 member)
  refine List.Perm.trans (List.Perm.flatMap_right _ ?_) zones
  refine List.Perm.trans ?_ (List.flatMap_append_perm _ _ _)
  exact List.Perm.append_left _ sound.heldBlocks_perm.symm

theorem nodup_wholeFrames (sound : buddy.Sound) : buddy.wholeFrames.Nodup := by
  rw [wholeFrames, List.nodup_flatMap]
  refine ⟨fun id _ => List.nodup_range', nodup_heapIds.pairwise_of_forall_ne ?_⟩
  intro id member other member' distinct frame inside inside'
  rw [mem_heapIds_iff] at member member'
  rw [Zone.mem_frames_iff (sound.ready member).start_aligned] at inside
  rw [Zone.mem_frames_iff (sound.ready member').start_aligned] at inside'
  exact distinct (sound.zone_unique member member' inside inside')

theorem wholeFrames_lt (sound : buddy.Sound) :
    buddy.wholeFrames.length * buddy.geometry.size < Word.limit := by
  have positive := buddy.geometry.size_pos
  have subset : buddy.wholeFrames ⊆ List.range' 1 ((Word.limit - 1) / buddy.geometry.size) := by
    intro frame member
    obtain ⟨id, member, inside⟩ := List.mem_flatMap.1 member
    rw [mem_heapIds_iff] at member
    have ready := sound.ready member
    rw [Zone.mem_frames_iff ready.start_aligned] at inside
    have low := ready.first_frame_pos inside
    have high := ready.frame_bound inside
    rw [sound.geometry_eq id] at low high
    rw [List.mem_range'_1]
    refine ⟨Nat.pos_of_mul_pos_right low, ?_⟩
    rw [Nat.add_comm, Nat.lt_succ_iff, Nat.le_div_iff_mul_le positive]
    refine Nat.le_trans (Nat.mul_le_mul_right _ (Nat.le_succ frame)) ?_
    exact Nat.le_sub_one_of_lt high
  have count := (sound.nodup_wholeFrames.subperm subset).length_le
  rw [List.length_range'] at count
  calc buddy.wholeFrames.length * buddy.geometry.size
      ≤ (Word.limit - 1) / buddy.geometry.size * buddy.geometry.size :=
        Nat.mul_le_mul_right _ count
    _ ≤ Word.limit - 1 := Nat.div_mul_le_self _ _
    _ < Word.limit := by decide

/-- Free bytes and held bytes make up the size of the allocatable zones. -/
theorem sum_bytes (sound : buddy.Sound) :
    (buddy.allFreeBlocks.map (Block.bytes buddy.geometry)).sum +
        (buddy.heldBlocks.map (Block.bytes buddy.geometry)).sum =
      buddy.wholeFrames.length * buddy.geometry.size := by
  rw [← List.sum_append, ← List.map_append, Block.sum_bytes, sound.partition.length_eq]

theorem freeBlocks_of_idle (sound : buddy.Sound) {id : ZoneId}
    (idle : (buddy.zones.get id).allocatable = false) : buddy.freeBlocks id = [] :=
  Pool.freeBlocks_of_empty (sound.idle id idle)

theorem allFreeBlocks_eq (sound : buddy.Sound) :
    buddy.allFreeBlocks = buddy.freeBlocks .noHeap ++ buddy.freeBlocks .heap := by
  unfold allFreeBlocks heapIds ZoneId.all
  cases first : (buddy.zones.get .noHeap).allocatable <;>
    cases second : (buddy.zones.get .heap).allocatable <;>
      simp [first, second, sound.freeBlocks_of_idle]

/-- The free bytes of a zone are the bytes of its free blocks. -/
theorem zone_freeBytes_eq (sound : buddy.Sound) (id : ZoneId)
    (fits : ((buddy.freeBlocks id).map (Block.bytes buddy.geometry)).sum < Word.limit) :
    (buddy.zones.get id).freeBytes =
      .ok ((buddy.freeBlocks id).map (Block.bytes buddy.geometry)).sum := by
  have orders : ∀ area ∈ (buddy.zones.get id).areas.toList, area.order < 64 := by
    intro area member
    rw [Zone.areas_toList] at member
    obtain ⟨order, inside, rfl⟩ := List.mem_map.1 member
    have h := List.mem_range.1 inside
    rw [FreeArea.order, sound.order_eq id order h]
    exact Nat.lt_trans h (by decide)
  have total : ((buddy.zones.get id).areas.toList.map
      (Zone.weight (buddy.zones.get id).geometry)).sum =
        ((buddy.freeBlocks id).map (Block.bytes buddy.geometry)).sum := by
    by_cases allocatable : (buddy.zones.get id).allocatable = true
    · obtain ⟨cells, coalesced⟩ := sound.coalesced id allocatable
      have sum := coalesced.sum_weight
      rw [show (buddy.pool id).zone.geometry = buddy.geometry from sound.geometry_eq id] at sum
      rw [sound.geometry_eq id]
      exact sum
    · have idle := Bool.eq_false_iff.2 allocatable
      rw [sound.freeBlocks_of_idle idle, Zone.areas_toList, List.map_map]
      apply List.sum_eq_zero
      intro weight member
      obtain ⟨order, inside, rfl⟩ := List.mem_map.1 member
      rw [Function.comp_apply, Zone.weight, sound.idle id idle order (List.mem_range.1 inside)]
      exact Nat.zero_mul _
  rw [← total] at fits ⊢
  rw [Zone.freeBytes, Zone.addFreeBytes_eq orders (by rwa [Nat.zero_add]), Nat.zero_add]

theorem freeBytes_eq (sound : buddy.Sound) :
    buddy.freeBytes = .ok (buddy.allFreeBlocks.map (Block.bytes buddy.geometry)).sum := by
  have fits := sound.wholeFrames_lt
  rw [← sound.sum_bytes] at fits
  rw [sound.allFreeBlocks_eq, List.map_append, List.sum_append] at fits ⊢
  have first := sound.zone_freeBytes_eq .noHeap (by omega)
  have second := sound.zone_freeBytes_eq .heap (by omega)
  simp only [freeBytes, ZonePair.toList, ZoneId.all, List.map_cons, List.map_nil, addFreeBytes,
    first, second, bind, Except.bind]
  rw [Word.add_of_lt (by omega), Nat.zero_add]
  simp only
  rw [Word.add_of_lt (by omega)]

end Sound

end BuddyAllocator

end PhysicalMemory
