import PhysicalMemory.Proofs.Boot.Map

/-!
# Which layouts are refused

A layout needs pages of a size that the manager can use, memory of whole pages,
a kernel image that ends in it, and a page left for the heap behind the boot
records.  It is refused for the first of these that it lacks, and for nothing else.
Where the boot records end is a sum: each of them takes a multiple of eight bytes,
so only the end of the kernel image has to be rounded up.
-/

namespace PhysicalMemory

namespace BootPlan

variable {ramEnd cursor : Nat} {rooms : List Room}

/-- Where rooms that are carved one behind the other from a cursor on stop, in exact numbers. -/
def reach : Nat → List Room → Nat
  | cursor, [] => cursor
  | cursor, room :: rest =>
      reach (Word.roundUp cursor recordAlignment + room.count * room.itemSize) rest

theorem le_reach (cursor : Nat) (rooms : List Room) : cursor ≤ reach cursor rooms := by
  induction rooms generalizing cursor with
  | nil => exact Nat.le_refl cursor
  | cons room rest ih =>
      have rounded := Word.le_roundUp cursor (by decide : 0 < recordAlignment)
      exact Nat.le_trans (Nat.le_trans rounded (Nat.le_add_right _ _)) (ih _)

theorem reach_of_aligned (aligned : cursor % recordAlignment = 0)
    (eights : ∀ room ∈ rooms, room.itemSize % recordAlignment = 0) :
    reach cursor rooms = cursor + (rooms.map fun room => room.count * room.itemSize).sum := by
  induction rooms generalizing cursor with
  | nil => rfl
  | cons room rest ih =>
      have bytes : room.count * room.itemSize % recordAlignment = 0 := by
        rw [Nat.mul_mod, eights room List.mem_cons_self, Nat.mul_zero, Nat.zero_mod]
      rw [reach, Word.roundUp_of_mod_eq_zero (by decide) aligned,
        ih (by rw [Nat.add_mod, aligned, bytes]; rfl)
          fun other member => eights other (List.mem_cons_of_mem room member),
        List.map_cons, List.sum_cons, Nat.add_assoc]

/-- Only the cursor has to be rounded up for the first of such rooms. -/
theorem reach_eq (nonempty : rooms ≠ [])
    (eights : ∀ room ∈ rooms, room.itemSize % recordAlignment = 0) :
    reach cursor rooms = Word.roundUp cursor recordAlignment +
      (rooms.map fun room => room.count * room.itemSize).sum := by
  rw [← reach_of_aligned (Word.roundUp_mod cursor recordAlignment) eights]
  cases rooms with
  | nil => exact absurd rfl nonempty
  | cons room rest =>
      rw [reach, reach, Word.roundUp_of_mod_eq_zero (by decide) (Word.roundUp_mod _ _)]

/-- Rooms are carved if they end in memory, and otherwise memory is exhausted. -/
theorem carveAll_run (high : ramEnd + recordAlignment ≤ Word.limit) (inside : cursor ≤ ramEnd)
    (words : ∀ room ∈ rooms, room.count * room.itemSize < Word.limit) :
    (reach cursor rooms ≤ ramEnd ∧ ∃ regions,
      (carveAll ramEnd cursor rooms).run = .ok (.ok (regions, reach cursor rooms))) ∨
    (ramEnd < reach cursor rooms ∧ ∃ stop,
      (carveAll ramEnd cursor rooms).run = .ok (.error (.metadataExhaustsRam stop ramEnd))) := by
  induction rooms generalizing cursor with
  | nil => exact .inl ⟨inside, [], rfl⟩
  | cons room rest ih =>
      have eight : 1 <<< 3 = recordAlignment := rfl
      have rounded : Address.alignUp cursor recordAlignment =
          .ok (Word.roundUp cursor recordAlignment) :=
        @Address.alignUp_eq_roundUp cursor 3
          (by rw [eight]; simp only [recordAlignment] at *; omega)
      have product := Word.mul_of_lt (words room List.mem_cons_self)
      have carved : (carve ramEnd cursor room).run =
          if Word.roundUp cursor recordAlignment + room.count * room.itemSize ≤ ramEnd then
            .ok (.ok ⟨Word.roundUp cursor recordAlignment,
              Word.roundUp cursor recordAlignment + room.count * room.itemSize⟩)
          else .ok (.error (.metadataExhaustsRam (Word.addSaturating
            (Word.roundUp cursor recordAlignment) (room.count * room.itemSize)) ramEnd)) := by
        rw [carve, rounded, product]
        change (if _ then _ else _ : Planning Region).run = _
        split <;> rfl
      rw [carveAll]
      split at carved
      · next fits =>
          rw [Planning.run_bind_of_ok carved]
          rcases ih fits fun other member => words other (List.mem_cons_of_mem room member) with
            ⟨below, regions, rest⟩ | ⟨above, stop, rest⟩
          · exact .inl ⟨below, _, Planning.run_bind_of_ok rest⟩
          · exact .inr ⟨above, stop, Planning.run_bind_of_refused rest⟩
      · next full =>
          exact .inr ⟨Nat.lt_of_lt_of_le (Nat.lt_of_not_le full) (le_reach _ rest), _,
            Planning.run_bind_of_refused carved⟩

end BootPlan

namespace MemoryLayout

variable {layout : MemoryLayout}

def HasPages (layout : MemoryLayout) : Prop :=
  512 ≤ layout.pageSize ∧ ∃ k < 64, layout.pageSize = 2 ^ k

/-- Memory consists of whole pages, one at least, and its end is a word. -/
def HasWindow (layout : MemoryLayout) : Prop :=
  0 < layout.ramSize ∧ layout.pageSize ∣ layout.ramStart ∧ layout.pageSize ∣ layout.ramSize ∧
    layout.ramStart + layout.ramSize < Word.limit

def HoldsKernel (layout : MemoryLayout) : Prop :=
  0 < layout.kernelEnd ∧ layout.InRam layout.kernelEnd

/-- Frames from the one that pairs are counted from, the kernel's last, to the end of memory. -/
def span (layout : MemoryLayout) : Nat :=
  (layout.ramStart + layout.ramSize) / layout.pageSize -
    layout.kernelEnd / layout.pageSize / 2 ^ orderCount * 2 ^ orderCount

/-- Where the boot records end: eleven bitmaps, a descriptor for each page, a cache's record. -/
def metadataEnd (layout : MemoryLayout) : Nat :=
  Word.roundUp layout.kernelEnd 8 +
    8 * ((List.range orderCount).map (PairBitmap.wordsCovering layout.span)).sum +
      24 * (layout.ramSize / layout.pageSize) + 40

def heapStart (layout : MemoryLayout) : Nat :=
  Word.roundUp layout.metadataEnd layout.pageSize

def HasHeap (layout : MemoryLayout) : Prop :=
  layout.heapStart < layout.ramStart + layout.ramSize

instance (layout : MemoryLayout) : Decidable layout.HasPages :=
  inferInstanceAs (Decidable (_ ∧ ∃ k < 64, _))

instance (layout : MemoryLayout) : Decidable layout.HasWindow :=
  inferInstanceAs (Decidable (_ ∧ _ ∧ _ ∧ _))

instance (layout : MemoryLayout) (address : Nat) : Decidable (layout.InRam address) :=
  inferInstanceAs (Decidable (_ ∧ _))

instance (layout : MemoryLayout) : Decidable layout.HoldsKernel :=
  inferInstanceAs (Decidable (_ ∧ layout.InRam _))

instance (layout : MemoryLayout) : Decidable layout.HasHeap :=
  inferInstanceAs (Decidable (_ < _))

end MemoryLayout

namespace BootPlan

variable {layout : MemoryLayout} {geometry : Geometry}

/-- The outcome of planning is the one that a layout deserves. -/
inductive Verdict (layout : MemoryLayout) : Except BootFailure BootPlan → Prop where
  | pages (lacks : ¬ layout.HasPages) :
      Verdict layout (.error (.invalidPageSize layout.pageSize))
  | window (pages : layout.HasPages) (lacks : ¬ layout.HasWindow) :
      Verdict layout (.error (.unalignedRam layout.ramStart layout.ramSize))
  | kernel (pages : layout.HasPages) (window : layout.HasWindow) (lacks : ¬ layout.HoldsKernel) :
      Verdict layout (.error (.kernelEndOutOfRange layout.kernelEnd))
  | heap (stop : Nat) (pages : layout.HasPages) (window : layout.HasWindow)
      (kernel : layout.HoldsKernel) (lacks : ¬ layout.HasHeap) :
      Verdict layout (.error (.metadataExhaustsRam stop (layout.ramStart + layout.ramSize)))
  | planned (plan : BootPlan) (pages : layout.HasPages) (window : layout.HasWindow)
      (kernel : layout.HoldsKernel) (heap : layout.HasHeap)
      (start : plan.heapStart = layout.heapStart) :
      Verdict layout (.ok plan)

theorem pagesOf_of_lacks (lacks : ¬ layout.HasPages) :
    (pagesOf layout).run = .ok (.error (.invalidPageSize layout.pageSize)) := by
  unfold pagesOf
  cases found : Geometry.ofSize? layout.pageSize with
  | none => rfl
  | some geometry =>
      have size := Geometry.ofSize?_eq_some_iff.1 found
      dsimp only
      refine congrArg ExceptT.run (if_pos (Nat.lt_of_not_le fun large => lacks ⟨?_, ?_⟩))
      · rw [size]
        exact large
      · exact ⟨geometry.shift, geometry.shift_lt, by rw [size, Geometry.size, Nat.one_shiftLeft]⟩

theorem exists_pagesOf (pages : layout.HasPages) :
    ∃ geometry, (pagesOf layout).run = .ok (.ok geometry) ∧ geometry.size = layout.pageSize := by
  obtain ⟨large, k, below, size⟩ := pages
  have found : Geometry.ofSize? layout.pageSize = some ⟨k, below⟩ :=
    Geometry.ofSize?_eq_some_iff.2 (by rw [size, Geometry.size, Nat.one_shiftLeft])
  have page : Geometry.size ⟨k, below⟩ = layout.pageSize := by
    rw [size, Geometry.size, Nat.one_shiftLeft]
  refine ⟨_, ?_, page⟩
  unfold pagesOf
  rw [found]
  exact congrArg ExceptT.run (if_neg (Nat.not_lt.2 (by rw [page]; exact large)))

theorem checkWindow_run (size : geometry.size = layout.pageSize) :
    (checkWindow layout geometry).run = .ok (if layout.HasWindow then .ok ()
      else .error (.unalignedRam layout.ramStart layout.ramSize)) := by
  have aligned : (liftM (geometry.isAligned layout.ramStart) : Planning Bool).run =
      .ok (.ok (layout.ramStart % geometry.size == 0)) := by
    rw [Geometry.isAligned_eq]
    rfl
  have sound : layout.HasWindow ↔ ¬ (layout.ramSize = 0 ∨ (!layout.ramStart % geometry.size == 0) ∨
      layout.ramSize % geometry.size ≠ 0 ∨ Word.limit ≤ layout.ramStart + layout.ramSize) := by
    rw [MemoryLayout.HasWindow, ← size, Nat.dvd_iff_mod_eq_zero, Nat.dvd_iff_mod_eq_zero]
    simp [Nat.pos_iff_ne_zero]
  rw [checkWindow, Planning.run_bind_of_ok aligned]
  by_cases window : layout.HasWindow
  · rw [if_neg (sound.1 window), if_pos window]
    rfl
  · rw [if_pos (Decidable.not_not.1 fun unsound => window (sound.2 unsound)), if_neg window]
    rfl

/-- In a sound window the kernel image is checked for just what a layout needs of it. -/
theorem checkKernel_run (window : layout.HasWindow) :
    (checkKernel layout).run = .ok (if layout.HoldsKernel then .ok ()
      else .error (.kernelEndOutOfRange layout.kernelEnd)) := by
  rw [checkKernel]
  by_cases zero : layout.kernelEnd = 0
  · rw [if_pos zero, if_neg fun kernel => Nat.ne_of_gt kernel.1 zero]
    rfl
  · have inside : (liftM (layout.contains layout.kernelEnd) : Planning Bool).run =
        .ok (.ok (decide (layout.InRam layout.kernelEnd))) := by
      rw [MemoryLayout.contains_of_lt window.2.2.2]
      rfl
    rw [if_neg zero]
    refine (Planning.run_bind_of_ok inside).trans ?_
    by_cases kernel : layout.InRam layout.kernelEnd
    · have holds : layout.HoldsKernel := ⟨Nat.pos_of_ne_zero zero, kernel⟩
      rw [decide_eq_true kernel, if_pos holds]
      rfl
    · have lacks : ¬ layout.HoldsKernel := fun holds => kernel holds.2
      rw [decide_eq_false kernel, if_neg lacks]
      rfl

theorem reach_rooms (layout : MemoryLayout) :
    reach layout.kernelEnd (rooms layout.span (layout.ramSize / layout.pageSize)) =
      layout.metadataEnd := by
  have eights : ∀ room ∈ rooms layout.span (layout.ramSize / layout.pageSize),
      room.itemSize % recordAlignment = 0 := by
    intro room member
    simp only [rooms, List.mem_append, List.mem_map, List.mem_cons, List.not_mem_nil,
      or_false] at member
    rcases member with ⟨order, -, rfl⟩ | rfl | rfl
    · exact (by decide : wordSize % recordAlignment = 0)
    · exact (by decide : DescriptorTable.descriptorSize % recordAlignment = 0)
    · exact (by decide : CacheRecord.size % recordAlignment = 0)
  rw [reach_eq (by simp [rooms]) eights, MemoryLayout.metadataEnd, rooms, List.map_append,
    List.sum_append, List.map_map]
  have bitmaps : ((List.range orderCount).map ((fun room : Room => room.count * room.itemSize) ∘
      fun order => ⟨PairBitmap.wordsCovering layout.span order, wordSize⟩)).sum =
        8 * ((List.range orderCount).map (PairBitmap.wordsCovering layout.span)).sum := by
    rw [← List.sum_map_mul_left]
    exact congrArg List.sum (List.map_congr_left fun order _ => Nat.mul_comm _ _)
  rw [bitmaps]
  simp only [List.map_cons, List.map_nil, List.sum_cons, List.sum_nil, recordAlignment,
    DescriptorTable.descriptorSize, CacheRecord.size]
  omega

theorem rooms_words (large : 512 ≤ layout.pageSize) (window : layout.HasWindow) :
    ∀ room ∈ rooms layout.span (layout.ramSize / layout.pageSize),
      room.count * room.itemSize < Word.limit := by
  have high := window.2.2.2
  have few : ∀ bytes ≤ layout.ramStart + layout.ramSize,
      bytes / layout.pageSize * 512 < Word.limit :=
    fun bytes le => Nat.lt_of_le_of_lt (Nat.le_trans (Nat.mul_le_mul_left _ large)
      (Nat.le_trans (Nat.div_mul_le_self _ _) le)) high
  intro room member
  simp only [rooms, List.mem_append, List.mem_map, List.mem_cons, List.not_mem_nil,
    or_false] at member
  rcases member with ⟨order, -, rfl⟩ | rfl | rfl
  · have positive : 0 < 1 <<< (order + 1) := by
      rw [Nat.one_shiftLeft]
      exact Nat.two_pow_pos _
    have words : PairBitmap.wordsCovering layout.span order ≤ layout.span :=
      Nat.le_trans (Word.ceilDiv_le _ (by decide)) (Word.ceilDiv_le _ positive)
    have span := few _ (Nat.le_refl _)
    have le : layout.span ≤ (layout.ramStart + layout.ramSize) / layout.pageSize := Nat.sub_le _ _
    simp only [wordSize]
    omega
  · have pages := few layout.ramSize (Nat.le_add_left _ _)
    simp only [DescriptorTable.descriptorSize]
    omega
  · exact (by decide : 1 * CacheRecord.size < Word.limit)

/-- What is left to plan for a layout whose kernel image ends in a window of pages. -/
def place (layout : MemoryLayout) (geometry : Geometry) : Planning BootPlan := do
  let ramEnd := layout.ramStart + layout.ramSize
  let totalPages := layout.ramSize / layout.pageSize
  let (regions, metadataEnd) ←
    carveAll ramEnd layout.kernelEnd (rooms layout.span totalPages)
  let heapStart ← geometry.alignUp metadataEnd
  if ramEnd ≤ heapStart then throw (.metadataExhaustsRam metadataEnd ramEnd)
  return {
    layout := layout
    geometry := geometry
    ramEnd := ramEnd
    totalPages := totalPages
    base := baseFrame geometry layout.kernelEnd
    span := layout.span
    regions := regions
    metadataEnd := metadataEnd
    heapStart := heapStart }

/-- Once the layout is checked, planning goes on without a halt to the places of the records. -/
theorem ofLayout_run (size : geometry.size = layout.pageSize)
    (paged : (pagesOf layout).run = .ok (.ok geometry)) (window : layout.HasWindow)
    (kernel : layout.HoldsKernel) : (ofLayout layout).run = (place layout geometry).run := by
  have windowed := @checkWindow_run layout geometry size
  have kerneled := checkKernel_run window
  rw [if_pos window] at windowed
  rw [if_pos kernel] at kerneled
  have positive := geometry.size_pos
  have ended : (liftM layout.ramEnd : Planning Nat).run =
      .ok (.ok (layout.ramStart + layout.ramSize)) := by
    rw [MemoryLayout.ramEnd, Word.add_of_lt window.2.2.2]
    rfl
  have counted : (liftM layout.totalPages : Planning Nat).run =
      .ok (.ok (layout.ramSize / layout.pageSize)) := by
    rw [MemoryLayout.totalPages, Word.div, if_neg (by omega)]
    rfl
  have spanned : (liftM (Word.sub (geometry.frameOf (layout.ramStart + layout.ramSize))
      (baseFrame geometry layout.kernelEnd)) : Planning Nat).run = .ok (.ok layout.span) := by
    have below : baseFrame geometry layout.kernelEnd ≤
        geometry.frameOf (layout.ramStart + layout.ramSize) := by
      rw [baseFrame, Nat.shiftRight_eq_div_pow, Nat.shiftLeft_eq]
      exact Nat.le_trans (Nat.div_mul_le_self _ _) (Nat.div_le_div_right kernel.2.2.le)
    rw [Word.sub_of_le below, MemoryLayout.span, baseFrame, Nat.shiftRight_eq_div_pow,
      Nat.shiftLeft_eq, Geometry.frameOf, Geometry.frameOf, size]
    rfl
  exact (Planning.run_bind_of_ok paged).trans <| (Planning.run_bind_of_ok windowed).trans <|
    (Planning.run_bind_of_ok kerneled).trans <| (Planning.run_bind_of_ok ended).trans <|
      (Planning.run_bind_of_ok counted).trans (Planning.run_bind_of_ok spanned)

theorem place_verdict (size : geometry.size = layout.pageSize) (pages : layout.HasPages)
    (window : layout.HasWindow) (kernel : layout.HoldsKernel) :
    ∃ outcome, (place layout geometry).run = .ok outcome ∧ Verdict layout outcome := by
  have large := pages.1
  obtain ⟨-, start, whole, high⟩ := id window
  -- the page behind memory still ends where addresses do, or before
  have above : layout.ramStart + layout.ramSize + geometry.size ≤ Word.limit := by
    have aligned := Nat.mod_eq_zero_of_dvd (Nat.dvd_add start whole)
    rw [← size] at aligned
    exact Word.add_one_shiftLeft_le geometry.shift_lt.le aligned high
  have carved := @carveAll_run (layout.ramStart + layout.ramSize) layout.kernelEnd
    (rooms layout.span (layout.ramSize / layout.pageSize))
    (by simp only [recordAlignment]; omega) kernel.2.2.le (rooms_words large window)
  rw [reach_rooms] at carved
  rcases carved with ⟨fits, regions, carved⟩ | ⟨full, stop, carved⟩
  · have raised : (liftM (geometry.alignUp layout.metadataEnd) : Planning Nat).run =
        .ok (.ok layout.heapStart) := by
      have word : layout.metadataEnd + (1 <<< geometry.shift - 1) < Word.limit := by
        have positive := geometry.size_pos
        change layout.metadataEnd + (geometry.size - 1) < Word.limit
        omega
      rw [Geometry.alignUp, Geometry.size, Address.alignUp_eq_roundUp word, MemoryLayout.heapStart,
        ← size]
      rfl
    rw [place, Planning.run_bind_of_ok carved]
    dsimp only
    rw [Planning.run_bind_of_ok raised]
    by_cases heap : layout.HasHeap
    · rw [if_neg (Nat.not_le.2 heap)]
      exact ⟨_, rfl, .planned _ pages window kernel heap rfl⟩
    · rw [if_pos (Nat.le_of_not_lt heap)]
      exact ⟨_, rfl, .heap _ pages window kernel heap⟩
  · refine ⟨_, Planning.run_bind_of_refused carved, .heap stop pages window kernel fun heap => ?_⟩
    have rounded := Word.le_roundUp layout.metadataEnd (Nat.zero_lt_of_lt large)
    exact absurd (Nat.lt_of_le_of_lt rounded heap) (Nat.lt_asymm full)

/-- Planning never halts, and its outcome is the one that the layout deserves. -/
theorem exists_verdict (layout : MemoryLayout) :
    ∃ outcome, (ofLayout layout).run = .ok outcome ∧ Verdict layout outcome := by
  by_cases pages : layout.HasPages
  swap
  · exact ⟨_, Planning.run_bind_of_refused (pagesOf_of_lacks pages), .pages pages⟩
  obtain ⟨geometry, paged, size⟩ := exists_pagesOf pages
  by_cases window : layout.HasWindow
  swap
  · have windowed := @checkWindow_run layout geometry size
    rw [if_neg window] at windowed
    exact ⟨_, (Planning.run_bind_of_ok paged).trans (Planning.run_bind_of_refused windowed),
      .window pages window⟩
  by_cases kernel : layout.HoldsKernel
  swap
  · have windowed := @checkWindow_run layout geometry size
    have kerneled := checkKernel_run window
    rw [if_pos window] at windowed
    rw [if_neg kernel] at kerneled
    exact ⟨_, (Planning.run_bind_of_ok paged).trans ((Planning.run_bind_of_ok windowed).trans
      (Planning.run_bind_of_refused kerneled)), .kernel pages window kernel⟩
  obtain ⟨outcome, placed, verdict⟩ := place_verdict size pages window kernel
  exact ⟨outcome, (ofLayout_run size paged window kernel).trans placed, verdict⟩

theorem verdict_of_run {outcome : Except BootFailure BootPlan}
    (planned : (ofLayout layout).run = .ok outcome) : Verdict layout outcome := by
  obtain ⟨other, planned', verdict⟩ := exists_verdict layout
  rw [planned] at planned'
  obtain rfl := Except.ok.inj planned'
  exact verdict

namespace Fits

variable {plan : BootPlan}

theorem ram_end_aligned (fits : plan.Fits layout) : plan.ramEnd % plan.geometry.size = 0 := by
  rw [fits.ram_end, Nat.add_mod, fits.ram_aligned, fits.ram_whole]
  rfl

theorem frameOf_heapStart (fits : plan.Fits layout) :
    plan.geometry.frameOf plan.heapStart * plan.geometry.size = plan.heapStart :=
  Nat.div_mul_cancel (Nat.dvd_of_mod_eq_zero fits.heap_aligned)

theorem heap_has_iff_place (fits : plan.Fits layout) (frame : Nat) :
    plan.zones.heap.Has frame ↔ plan.heapStart ≤ frame * plan.geometry.size ∧
      frame * plan.geometry.size < plan.ramEnd := by
  have positive := plan.geometry.size_pos
  have stop : plan.geometry.frameOf plan.ramEnd * plan.geometry.size = plan.ramEnd :=
    Nat.div_mul_cancel (Nat.dvd_of_mod_eq_zero fits.ram_end_aligned)
  rw [fits.heap_has_iff, ← Nat.mul_le_mul_right_iff positive, ← Nat.mul_lt_mul_right positive,
    fits.frameOf_heapStart, stop]

theorem heap_has_first (fits : plan.Fits layout) :
    plan.zones.heap.Has (plan.geometry.frameOf plan.heapStart) := by
  rw [fits.heap_has_iff_place, fits.frameOf_heapStart]
  exact ⟨Nat.le_refl _, fits.heap_below⟩

/-- The slab allocator of a seeded heap can be set up, and leaves the heap sound. -/
theorem exists_bootstrap (fits : plan.Fits layout) {raw seeded : BuddyAllocator}
    (zones_eq : raw.zones = plan.zones) (built : raw.Built seeded) :
    ∃ allocator after, Action.Answers (SlabAllocator.bootstrap plan.cachePlace).outcome seeded
      (.ok allocator) after ∧ after.Sound := by
  obtain ⟨sound, -, alike, untaken⟩ := built.sound
  rw [zones_eq] at alike
  obtain ⟨positive, low, aligned⟩ := fits.cachePlace_bounds
  have start : (seeded.zones.get .heap).start = plan.heapStart := (alike .heap).start_eq
  have geometry : seeded.geometry = plan.geometry :=
    (sound.geometry_eq .heap).symm.trans (alike .heap).geometry_eq
  have room : 0 < Slab.capacity seeded.geometry.size CacheRecord.objectSize := by
    have large := fits.large
    rw [geometry, Slab.capacity, if_neg (by simp only [minPageSize, Slab.headerSize] at *; omega)]
    refine Nat.div_pos ?_ (by decide)
    have whole : Word.addSaturating CacheRecord.objectSize Slab.linkSize = 51 := by decide
    rw [whole]
    simp only [minPageSize, Slab.headerSize] at *
    omega
  have below : plan.cachePlace + CacheRecord.size ≤ (seeded.zones.get .heap).start := by
    rwa [start]
  obtain ⟨allocator, after, answers⟩ := sound.exists_bootstrap (alike .heap).allocatable_eq
    (alike .noHeap).allocatable_eq untaken positive below aligned room
      (((alike .heap).has_iff _).2 fits.heap_has_first)
  obtain ⟨-, store, slab, stocked, -⟩ := sound.bootstrap (alike .heap).allocatable_eq
    (alike .noHeap).allocatable_eq untaken positive below aligned answers
  exact ⟨allocator, after, answers, stocked.sound⟩

/-- Building as planned never ends in a refusal. -/
theorem build_not_error (fits : plan.Fits layout) {failure : AllocFailure} :
    ∀ ram, ¬ Action.Answers (plan.build ram) () (.error failure) () := by
  intro ram answers
  obtain ⟨raw, seeded, slabs, buddy, zones_eq, -, built, bootstrapped, refused⟩ :=
    build_answers fits answers
  obtain ⟨allocator, after, served, -⟩ := fits.exists_bootstrap zones_eq built
  obtain rfl := bootstrapped.value_unique served
  cases refused

end Fits

end BootPlan

/-- Booting ends in a refusal just when planning does. -/
theorem Manager.boot_error_iff {layout : MemoryLayout} {ram : Ram} {failure : BootFailure} :
    Action.Answers (Manager.boot layout ram) () (.error failure) () ↔
      (BootPlan.ofLayout layout).run = .ok (.error failure) := by
  unfold Manager.boot
  simp only [Action.liftM_eq_check, Action.answers_check_bind_iff]
  constructor
  · rintro ⟨outcome, planned, answers⟩
    cases outcome with
    | error other =>
        obtain rfl := Except.error.inj (Action.answers_pure_iff.1 answers).1
        exact planned
    | ok plan =>
        obtain ⟨built, _, building, answers⟩ := Action.answers_bind_iff.1 answers
        cases built with
        | error cause =>
            exact absurd building ((BootPlan.ofLayout_eq_ok planned).build_not_error ram)
        | ok tiers => cases (Action.answers_pure_iff.1 answers).1
  · intro planned
    exact ⟨.error failure, planned, Action.answers_pure_iff.2 ⟨rfl, rfl⟩⟩

def Manager.Refuses (layout : MemoryLayout) (ram : Ram) (failure : BootFailure) : Prop :=
  Action.Answers (Manager.boot layout ram) () (.error failure) ()

/-- Layouts are refused for the first thing that they lack, and for nothing else. -/
structure Manager.Discerning (layout : MemoryLayout) (ram : Ram) : Prop where
  pages : ∀ size, Refuses layout ram (.invalidPageSize size) ↔
    size = layout.pageSize ∧ ¬ layout.HasPages
  window : ∀ start size, Refuses layout ram (.unalignedRam start size) ↔
    (start = layout.ramStart ∧ size = layout.ramSize) ∧ layout.HasPages ∧ ¬ layout.HasWindow
  kernel : ∀ stop, Refuses layout ram (.kernelEndOutOfRange stop) ↔
    stop = layout.kernelEnd ∧ layout.HasPages ∧ layout.HasWindow ∧ ¬ layout.HoldsKernel
  heap : ∀ ramEnd, (∃ stop, Refuses layout ram (.metadataExhaustsRam stop ramEnd)) ↔
    ramEnd = layout.ramStart + layout.ramSize ∧ layout.HasPages ∧ layout.HasWindow ∧
      layout.HoldsKernel ∧ ¬ layout.HasHeap
  bootstrap : ∀ cause, ¬ Refuses layout ram (.bootstrap cause)
  initialized : ¬ Refuses layout ram .alreadyInitialized

/-- Every layout of any four numbers is refused for what it lacks first. -/
theorem Manager.boot_discerning (layout : MemoryLayout) (ram : Ram) : Discerning layout ram := by
  have verdict : ∀ {failure}, Refuses layout ram failure →
      BootPlan.Verdict layout (.error failure) :=
    fun refused => BootPlan.verdict_of_run (Manager.boot_error_iff.1 refused)
  obtain ⟨outcome, planned, judged⟩ := BootPlan.exists_verdict layout
  have refused : ∀ {failure}, outcome = .error failure → Refuses layout ram failure := by
    rintro failure rfl
    exact Manager.boot_error_iff.2 planned
  refine ⟨fun size => ⟨fun refusal => ?_, ?_⟩, fun start size => ⟨fun refusal => ?_, ?_⟩,
    fun stop => ⟨fun refusal => ?_, ?_⟩, fun ramEnd => ⟨?_, ?_⟩, fun cause refusal => ?_,
    fun refusal => ?_⟩
  · cases verdict refusal with
    | pages lacks => exact ⟨rfl, lacks⟩
  · rintro ⟨rfl, lacks⟩
    cases judged with
    | pages => exact refused rfl
    | window pages | kernel pages | heap _ pages | planned _ pages => exact absurd pages lacks
  · cases verdict refusal with
    | window pages lacks => exact ⟨⟨rfl, rfl⟩, pages, lacks⟩
  · rintro ⟨⟨rfl, rfl⟩, pages, lacks⟩
    cases judged with
    | pages none => exact absurd pages none
    | window => exact refused rfl
    | kernel _ window | heap _ _ window | planned _ _ window => exact absurd window lacks
  · cases verdict refusal with
    | kernel pages window lacks => exact ⟨rfl, pages, window, lacks⟩
  · rintro ⟨rfl, pages, window, lacks⟩
    cases judged with
    | pages none => exact absurd pages none
    | window _ none => exact absurd window none
    | kernel => exact refused rfl
    | heap _ _ _ kernel | planned _ _ _ kernel => exact absurd kernel lacks
  · rintro ⟨stop, refusal⟩
    cases verdict refusal with
    | heap _ pages window kernel lacks => exact ⟨rfl, pages, window, kernel, lacks⟩
  · rintro ⟨rfl, pages, window, kernel, lacks⟩
    cases judged with
    | pages none => exact absurd pages none
    | window _ none => exact absurd window none
    | kernel _ _ none => exact absurd kernel none
    | heap stop => exact ⟨stop, refused rfl⟩
    | planned _ _ _ _ heap => exact absurd heap lacks
  · cases verdict refusal
  · cases verdict refusal

end PhysicalMemory
