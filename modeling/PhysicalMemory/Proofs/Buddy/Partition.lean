import PhysicalMemory.Proofs.Boot.Plan
import PhysicalMemory.Proofs.Buddy.Conservation

/-!
# Free and live blocks partition memory

Calls to the buddy allocator hand no page to a cache, so the blocks that are
held are the live ones.  Whatever calls are made, free and live blocks cover the
zones once, their bytes add up to the size of the zones, and a block that is
handed out is aligned and apart from every live one.
-/

namespace PhysicalMemory

namespace BuddyAllocator

open Cell (Within)

variable {raw buddy after : BuddyAllocator}

def liveBlocks (buddy : BuddyAllocator) : List Block :=
  (buddy.pages.pages.toList.filter (·.owner = .buddy)).map fun page => ⟨page.start, page.order⟩

def Slabless (buddy : BuddyAllocator) : Prop :=
  ∀ frame page, buddy.pages.page? frame = some page → page.owner ≠ .slab

theorem Slabless.heldBlocks_eq (slabless : buddy.Slabless) :
    buddy.heldBlocks = buddy.liveBlocks := by
  unfold heldBlocks DescriptorTable.owned liveBlocks
  congr 1
  apply List.filter_congr
  intro page member
  obtain ⟨frame, found⟩ := DescriptorTable.mem_pages_iff.1 member
  have other := slabless frame page found
  cases owner : page.owner with
  | buddy => simp
  | slab => exact absurd owner other
  | unowned => simp

theorem Slabless.of_set (slabless : buddy.Slabless) (regular : buddy.pages.Regular) {frame : Nat}
    {old page : Page} (found : buddy.pages.page? frame = some old) (owner : page.owner ≠ .slab)
    (pages : after.pages = buddy.pages.set frame page) : after.Slabless := by
  intro other page' found'
  rw [pages, regular.page?_set found] at found'
  split at found'
  · obtain rfl := Option.some.inj found'
    exact owner
  · exact slabless other page' found'

theorem Slabless.perform (slabless : buddy.Slabless) (sound : buddy.Sound) (call : Call) :
    (call.perform buddy).Slabless := by
  rcases sound.perform_cases call with same | ⟨order, id, cell, handed⟩ |
    ⟨head, live, recovered⟩ | written
  · rwa [same]
  · obtain ⟨old, found⟩ := handed.found
    exact slabless.of_set sound.regular found (by simp) handed.pages_eq
  · exact slabless.of_set sound.regular recovered.found (by simp [Page.release])
      recovered.pages_eq
  · rwa [Slabless, written.pages_eq]

theorem Slabless.run (slabless : buddy.Slabless) (sound : buddy.Sound) (calls : List Call) :
    (buddy.run calls).Slabless := by
  induction calls generalizing buddy with
  | nil => exact slabless
  | cons call rest ih => exact ih (slabless.perform sound call) (sound.perform call)

theorem Built.slabless (built : Built raw buddy) : buddy.Slabless := by
  intro frame page found owner
  obtain ⟨-, -, -, untaken⟩ := built.sound
  exact untaken frame ⟨frame, page.order, ⟨page, found, by simp [owner], rfl⟩, rfl⟩

theorem wholeFrames_congr
    (alike : ∀ id, Zone.Alike (raw.zones.get id) (buddy.zones.get id)) :
    raw.wholeFrames = buddy.wholeFrames := by
  have ids : buddy.heapIds = raw.heapIds := by
    unfold heapIds
    apply List.filter_congr
    intro id _
    exact (alike id).allocatable_eq
  unfold wholeFrames
  rw [ids]
  exact List.flatMap_congr fun id _ => (alike id).frames_eq.symm

theorem Built.run_alike (built : Built raw buddy) (calls : List Call) (id : ZoneId) :
    Zone.Alike (raw.zones.get id) ((buddy.run calls).zones.get id) := by
  obtain ⟨sound, -, alike, -⟩ := built.sound
  exact (alike id).trans (sound.run_alike calls id)

/-- Every block of a zone, free or held, is placed in it. -/
theorem Sound.placed (sound : buddy.Sound) {id : ZoneId}
    (allocatable : (buddy.zones.get id).allocatable = true) {block : Block}
    (member : block ∈ buddy.freeBlocks id ++ buddy.within buddy.heldBlocks id) :
    block.Placed (buddy.zones.get id) := by
  rw [List.mem_append, sound.mem_freeBlocks_iff allocatable,
    sound.mem_within_iff allocatable] at member
  rcases member with ⟨order, h, cell, maximal, rfl⟩ | ⟨head, order, holds, within, rfl⟩
  · rw [show buddy.geometry = (buddy.zones.get id).geometry from (sound.geometry_eq id).symm]
    exact Block.placed_ofCell (sound.ready allocatable).start_aligned h
      (maximal.1.mono fun frame free => free.1)
  · rw [show buddy.geometry = (buddy.zones.get id).geometry from (sound.geometry_eq id).symm]
    exact Block.placed_ofCell (sound.ready allocatable).start_aligned
      (sound.held.order_lt head order holds) within

/-- A block that is handed out is aligned and lies apart from every held one. -/
theorem Sound.allocate_apart (sound : buddy.Sound) {order : Nat} {page : Page}
    (answers : Action.Answers (BuddyAllocator.allocate order).outcome buddy (.ok page) after) :
    page.start % buddy.geometry.size <<< order = 0 ∧
      ∀ block ∈ buddy.heldBlocks,
        page.start + buddy.geometry.size <<< order ≤ block.start ∨
          block.start + block.bytes buddy.geometry ≤ page.start := by
  have h : order < orderCount := by
    by_contra large
    cases answers.value_unique (allocate_large (Nat.le_of_not_lt large))
  rcases sound.allocate h with ⟨refused, -⟩ | ⟨id, cell, after', handed, answers'⟩
  · cases answers.value_unique refused
  · obtain rfl := Except.ok.inj (answers.value_unique answers')
    refine ⟨?_, fun block member => ?_⟩
    · rw [Geometry.size, ← Nat.shiftLeft_add]
      exact Geometry.blockAt_aligned _ _ _
    · obtain ⟨head, order', holds, rfl⟩ := sound.mem_heldBlocks_iff.1 member
      have stop := Block.stop_ofCell buddy.geometry order cell
      have stop' := Block.stop_ofCell buddy.geometry order' (head >>> order')
      rw [stop']
      have apart : ∀ frame, frame >>> order = cell → frame >>> order' ≠ head >>> order' :=
        fun frame inside inside' => (handed.within frame inside).2 ⟨head, order', holds, inside'⟩
      exact (Block.disjoint_ofCell apart).imp (fun before => stop.trans_le before)
        fun after => after

/--
Whatever calls are made, the free and the live blocks of each allocatable zone
cover its whole pages once and are placed in it, every live block lies in such a
zone, free and live bytes make up the zones, and a block that is handed out is
aligned and apart from every live one.
-/
theorem run_conserves (built : Built raw buddy) (calls : List Call) :
    (∀ id, (raw.zones.get id).allocatable = true →
      (((buddy.run calls).freeBlocks id ++
          (buddy.run calls).within (buddy.run calls).liveBlocks id).flatMap
            (Block.frames raw.geometry)).Perm (raw.zones.get id).frames ∧
        ∀ block ∈ (buddy.run calls).freeBlocks id ++
          (buddy.run calls).within (buddy.run calls).liveBlocks id,
            block.Placed (raw.zones.get id)) ∧
    (∀ block ∈ (buddy.run calls).liveBlocks, ∃ id, (raw.zones.get id).allocatable = true ∧
      block ∈ (buddy.run calls).within (buddy.run calls).liveBlocks id) ∧
    (∃ free, (buddy.run calls).freeBytes = .ok free ∧
      free + ((buddy.run calls).liveBlocks.map (Block.bytes raw.geometry)).sum =
        raw.wholeFrames.length * raw.geometry.size) ∧
    ∀ order page after,
      Action.Answers (allocate order).outcome (buddy.run calls) (.ok page) after →
        page.start % raw.geometry.size <<< order = 0 ∧
          ∀ block ∈ (buddy.run calls).liveBlocks,
            page.start + raw.geometry.size <<< order ≤ block.start ∨
              block.start + block.bytes raw.geometry ≤ page.start := by
  have alike := built.run_alike calls
  obtain ⟨sound, -, -, -⟩ := built.sound
  have live := (built.slabless.run sound calls).heldBlocks_eq
  have sound := sound.run calls
  generalize buddy.run calls = after at *
  have geometry : after.geometry = raw.geometry := by
    have first := (alike .heap).geometry_eq
    rw [sound.geometry_eq, built.prepared.geometry_eq] at first
    exact first
  rw [← geometry, ← live, wholeFrames_congr alike]
  refine ⟨?_, ?_, ?_, ?_⟩
  · intro id allocatable
    rw [← (alike id).allocatable_eq] at allocatable
    rw [← (alike id).frames_eq]
    exact ⟨sound.zone_partition allocatable, fun block member =>
      (sound.placed allocatable member).congr (alike id).symm⟩
  · intro block member
    have zoned := sound.heldBlocks_perm.mem_iff.2 member
    obtain ⟨id, there, inside⟩ := List.mem_flatMap.1 zoned
    exact ⟨id, (alike id).allocatable_eq.symm.trans (mem_heapIds_iff.1 there), inside⟩
  · exact ⟨_, sound.freeBytes_eq, sound.sum_bytes⟩
  · intro order page next answers
    exact sound.allocate_apart answers

/-- On a small machine a block of two pages is handed out, and no byte is lost. -/
theorem run_conserves_sample : Built sample sampleSeeded ∧
    ((sampleSeeded.run [.allocate 1, .free 0x1400 0]).liveBlocks.map
      (Block.bytes sample.geometry)).sum = 0x400 ∧
    ∃ free, (sampleSeeded.run [.allocate 1, .free 0x1400 0]).freeBytes = .ok free ∧
      free + ((sampleSeeded.run [.allocate 1, .free 0x1400 0]).liveBlocks.map
        (Block.bytes sample.geometry)).sum = sample.wholeFrames.length * sample.geometry.size :=
  ⟨sample_built, by decide +kernel, (run_conserves sample_built _).2.2.1⟩

end BuddyAllocator

end PhysicalMemory
