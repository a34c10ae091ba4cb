import PhysicalMemory.Proofs.Buddy.Canonical
import PhysicalMemory.Proofs.Buddy.Onward

/-!
# No request is refused that could be served

A request looks at the first blocks of the lists only.  Since the lists hold the
largest free cells, a free cell of the wanted order always lies in a listed one, so a
request is refused only where no aligned run of free pages is long enough.  Single
pages are handed out until no page is free.
-/

namespace PhysicalMemory

namespace BuddyAllocator

open Cell (Within)

variable {raw buddy after : BuddyAllocator} {order cell : Nat} {id : ZoneId}

/--
The zone has `2 ^ order` whole pages in a row, from a multiple of their number on, and
none of them belongs to a live block.
-/
def HasRoom (buddy : BuddyAllocator) (id : ZoneId) (order : Nat) : Prop :=
  ∃ first, first % 1 <<< order = 0 ∧ ∀ frame, first ≤ frame → frame < first + 1 <<< order →
    (buddy.zones.get id).Has frame ∧
      ∀ live ∈ buddy.liveBlocks, frame ∉ live.frames buddy.geometry

def Serves (buddy : BuddyAllocator) (order : Nat) : Prop :=
  ∃ page after, Action.Answers (allocate order).outcome buddy (.ok page) after

def freeFrames (buddy : BuddyAllocator) : List Nat :=
  buddy.allFreeBlocks.flatMap (Block.frames buddy.geometry)

namespace Sound

/-- A zone has room for a block where all frames of a cell are free. -/
theorem hasRoom_iff (sound : buddy.Sound) (slabless : buddy.Slabless) :
    buddy.HasRoom id order ↔ ∃ cell, Within (buddy.Free id) order cell := by
  have unlive : ∀ frame, (∀ live ∈ buddy.liveBlocks, frame ∉ live.frames buddy.geometry) ↔
      ¬ buddy.pages.Taken frame := by
    intro frame
    rw [sound.taken_iff, slabless.heldBlocks_eq]
    simp
  have run : ∀ cell frame, frame >>> order = cell ↔
      cell <<< order ≤ frame ∧ frame < cell <<< order + 1 <<< order := by
    intro cell frame
    rw [Cell.shiftRight_eq_iff]
    simp only [Nat.shiftLeft_eq, Nat.add_mul]
  constructor
  · rintro ⟨first, aligned, free⟩
    have start : first >>> order <<< order = first := by
      rw [Nat.one_shiftLeft] at aligned
      rw [Nat.shiftRight_eq_div_pow, Nat.shiftLeft_eq]
      exact Nat.div_mul_cancel (Nat.dvd_of_mod_eq_zero aligned)
    refine ⟨first >>> order, fun frame inside => ?_⟩
    have bounds := (run _ _).1 inside
    rw [start] at bounds
    obtain ⟨has, apart⟩ := free frame bounds.1 bounds.2
    exact ⟨has, (unlive frame).1 apart⟩
  · rintro ⟨cell, within⟩
    refine ⟨cell <<< order, ?_, fun frame low high => ?_⟩
    · rw [Nat.shiftLeft_eq, Nat.one_shiftLeft]
      exact Nat.mul_mod_left _ _
    · obtain ⟨has, untaken⟩ := within frame ((run _ _).2 ⟨low, high⟩)
      exact ⟨has, (unlive frame).2 untaken⟩

/-- A request is served where a zone has a free cell, and is refused where none has. -/
theorem serves_iff (sound : buddy.Sound) (h : order < orderCount) :
    (buddy.Serves order ↔ ∃ id, (buddy.zones.get id).allocatable = true ∧
      ∃ cell, Within (buddy.Free id) order cell) ∧
    (¬ buddy.Serves order →
      Action.Answers (BuddyAllocator.allocate order).outcome buddy (.error (.outOfMemory order))
        buddy) := by
  rcases sound.allocate h with ⟨refused, absent⟩ | ⟨id, cell, after, handed, answers⟩
  · refine ⟨⟨?_, ?_⟩, fun _ => refused⟩
    · rintro ⟨page, after, answers⟩
      cases answers.value_unique refused
    · rintro ⟨id, allocatable, cell, within⟩
      exact absurd within (absent id allocatable cell)
  · have serves : buddy.Serves order := ⟨_, after, answers⟩
    exact ⟨⟨fun _ => ⟨id, handed.allocatable, cell, handed.within⟩, fun _ => serves⟩,
      fun unserved => absurd serves unserved⟩

/-- The free frames are the whole pages of allocatable zones that nobody holds, each once. -/
theorem mem_freeFrames_iff (sound : buddy.Sound) {frame : Nat} :
    frame ∈ buddy.freeFrames ↔
      ∃ id, (buddy.zones.get id).allocatable = true ∧ buddy.Free id frame := by
  have cover := sound.partition
  have nodup := cover.nodup_iff.2 sound.nodup_wholeFrames
  rw [List.flatMap_append] at cover nodup
  have whole : frame ∈ buddy.wholeFrames ↔
      ∃ id, (buddy.zones.get id).allocatable = true ∧ (buddy.zones.get id).Has frame := by
    simp only [wholeFrames, List.mem_flatMap, mem_heapIds_iff]
    refine exists_congr fun id => and_congr_right fun allocatable => ?_
    exact Zone.mem_frames_iff (sound.ready allocatable).start_aligned
  have taken : frame ∈ buddy.heldBlocks.flatMap (Block.frames buddy.geometry) ↔
      buddy.pages.Taken frame := by
    rw [List.mem_flatMap, sound.taken_iff]
  constructor
  · intro member
    obtain ⟨id, allocatable, has⟩ := whole.1 (cover.mem_iff.1 (List.mem_append_left _ member))
    refine ⟨id, allocatable, has, fun held => ?_⟩
    exact (List.nodup_append.1 nodup).2.2 _ member _ (taken.2 held) rfl
  · rintro ⟨id, allocatable, has, untaken⟩
    have member := cover.mem_iff.2 (whole.2 ⟨id, allocatable, has⟩)
    exact (List.mem_append.1 member).resolve_right fun held => untaken (taken.1 held)

theorem nodup_freeFrames (sound : buddy.Sound) : buddy.freeFrames.Nodup := by
  have nodup := sound.partition.nodup_iff.2 sound.nodup_wholeFrames
  rw [List.flatMap_append] at nodup
  exact (List.nodup_append.1 nodup).1

/-- The free bytes are those of the free frames. -/
theorem freeBytes_eq_freeFrames (sound : buddy.Sound) :
    buddy.freeBytes = .ok (buddy.freeFrames.length * buddy.geometry.size) := by
  rw [sound.freeBytes_eq, Block.sum_bytes]
  rfl

theorem serves_page_iff (sound : buddy.Sound) :
    buddy.Serves 0 ↔ 0 < buddy.freeFrames.length := by
  have page : ∀ id cell, Within (buddy.Free id) 0 cell ↔ buddy.Free id cell :=
    fun id cell => ⟨fun within => within cell rfl, fun free frame same => by
      obtain rfl : frame = cell := same
      exact free⟩
  rw [(sound.serves_iff (by decide)).1, List.length_pos_iff_exists_mem]
  simp only [sound.mem_freeFrames_iff, page]
  constructor
  · rintro ⟨id, allocatable, frame, free⟩
    exact ⟨frame, id, allocatable, free⟩
  · rintro ⟨frame, id, allocatable, free⟩
    exact ⟨id, allocatable, frame, free⟩

end Sound

theorem Handed.freeFrames_perm (handed : buddy.Handed after order id cell) (sound : buddy.Sound) :
    ((Block.ofCell buddy.geometry order cell).frames buddy.geometry ++ after.freeFrames).Perm
      buddy.freeFrames := by
  have free : ∀ other frame, after.Free other frame ↔
      buddy.Free other frame ∧ frame >>> order ≠ cell := by
    intro other frame
    rw [Free, Free, (handed.alike other).has_iff, handed.taken_iff sound, not_or, and_assoc]
  refine (List.perm_ext_iff_of_nodup ?_ sound.nodup_freeFrames).2 fun frame => ?_
  · refine List.nodup_append.2 ⟨List.nodup_range', handed.sound.nodup_freeFrames, ?_⟩
    rintro frame inside _ member rfl
    obtain ⟨other, -, apart⟩ := handed.sound.mem_freeFrames_iff.1 member
    exact ((free other frame).1 apart).2 (Block.mem_frames_ofCell.1 inside)
  · rw [List.mem_append, Block.mem_frames_ofCell, handed.sound.mem_freeFrames_iff,
      sound.mem_freeFrames_iff]
    simp only [(handed.alike _).allocatable_eq, free]
    constructor
    · rintro (inside | ⟨other, allocatable, vacant, -⟩)
      · exact ⟨id, handed.allocatable, handed.within frame inside⟩
      · exact ⟨other, allocatable, vacant⟩
    · rintro ⟨other, allocatable, vacant⟩
      by_cases inside : frame >>> order = cell
      · exact .inl inside
      · exact .inr ⟨other, allocatable, vacant, inside⟩

theorem Sound.length_freeFrames_perform (sound : buddy.Sound) :
    ((Call.allocate 0).perform buddy).freeFrames.length = buddy.freeFrames.length - 1 := by
  have small : 0 < orderCount := by decide
  rcases sound.allocate small with ⟨refused, absent⟩ |
    ⟨id, cell, after, handed, answers⟩
  · have none : ¬ buddy.Serves 0 := by
      rintro ⟨page, after, answers⟩
      cases answers.value_unique refused
    rw [sound.serves_page_iff] at none
    rw [Call.perform, refused.2]
    omega
  · have count := (handed.freeFrames_perm sound).length_eq
    rw [List.length_append, Block.frames, List.length_range'] at count
    rw [Call.perform, answers.2, ← count]
    exact (Nat.add_sub_cancel_left 1 _).symm

theorem Sound.length_freeFrames_run (sound : buddy.Sound) (count : Nat) :
    (buddy.run (List.replicate count (.allocate 0))).freeFrames.length =
      buddy.freeFrames.length - count := by
  induction count generalizing buddy with
  | zero => rfl
  | succ count ih =>
      rw [List.replicate_succ, BuddyAllocator.run, List.foldl_cons]
      refine (ih (sound.perform _)).trans ?_
      rw [sound.length_freeFrames_perform]
      omega

/--
After any calls, a request for a block is served exactly when an allocatable zone has
an aligned run of whole pages for it that belong to no live block, and otherwise it is
refused for want of memory and changes nothing.  Of requests for single pages in a row
exactly as many are served as free bytes make up pages.
-/
theorem run_available (built : Built raw buddy) (calls : List Call) :
    (∀ order < orderCount,
      ((buddy.run calls).Serves order ↔ ∃ id, (raw.zones.get id).allocatable = true ∧
        (buddy.run calls).HasRoom id order) ∧
      (¬ (buddy.run calls).Serves order →
        Action.Answers (allocate order).outcome (buddy.run calls) (.error (.outOfMemory order))
          (buddy.run calls))) ∧
    ∃ free, (buddy.run calls).freeBytes = .ok free ∧ ∀ count,
      (buddy.run (calls ++ List.replicate count (.allocate 0))).Serves 0 ↔
        count < free / raw.geometry.size := by
  have alike := built.run_alike calls
  obtain ⟨sound, -, -, -⟩ := built.sound
  have sound' := sound.run calls
  have slabless := built.slabless.run sound calls
  have geometry : (buddy.run calls).geometry = raw.geometry := by
    have first := (alike .heap).geometry_eq
    rwa [sound'.geometry_eq, built.prepared.geometry_eq] at first
  refine ⟨fun order h => ⟨?_, (sound'.serves_iff h).2⟩, _, sound'.freeBytes_eq_freeFrames, ?_⟩
  · rw [(sound'.serves_iff h).1]
    simp only [sound'.hasRoom_iff slabless, (alike _).allocatable_eq]
  · intro count
    rw [run_append, (sound'.run _).serves_page_iff, sound'.length_freeFrames_run, geometry,
      Nat.mul_div_cancel _ raw.geometry.size_pos]
    omega

/-- Thirteen pages of the small machine are left, so a thirteenth request is the last one served. -/
theorem run_available_sample : Built sample sampleSeeded ∧
    (sampleSeeded.run [.allocate 0]).freeBytes = .ok (13 * 512) ∧
    (sampleSeeded.run ([.allocate 0] ++ List.replicate 12 (.allocate 0))).Serves 0 ∧
    ¬ (sampleSeeded.run ([.allocate 0] ++ List.replicate 13 (.allocate 0))).Serves 0 ∧
    ((sampleSeeded.run [.allocate 0]).Serves 3 ↔ ∃ id, (sample.zones.get id).allocatable = true ∧
      (sampleSeeded.run [.allocate 0]).HasRoom id 3) := by
  obtain ⟨requests, free, total, pages⟩ := run_available sample_built [.allocate 0]
  have bytes : (sampleSeeded.run [.allocate 0]).freeBytes = .ok (13 * 512) := by decide +kernel
  have size : sample.geometry.size = 512 := by decide +kernel
  obtain rfl := Except.ok.inj (total.symm.trans bytes)
  rw [size] at pages
  exact ⟨sample_built, bytes, (pages 12).2 (by decide), fun serves => absurd ((pages 13).1 serves)
    (by decide), (requests 3 (by decide)).1⟩

end BuddyAllocator

end PhysicalMemory
