import PhysicalMemory.Boot.Plan
import PhysicalMemory.Boot.Start
import PhysicalMemory.Proofs.Buddy.Run
import PhysicalMemory.Proofs.Memory.Rounding

/-!
# What a boot plan promises

A plan that is not refused has whole pages from the start of memory to its end,
records that are carved one behind the other between the kernel image and the
heap, and a heap that begins at a page boundary behind them.  Its zones and its
descriptor table are then prepared for seeding.
-/

namespace PhysicalMemory

namespace Planning

variable {α β : Type}

theorem run_bind_eq_ok_iff {first : Planning α} {next : α → Planning β} {value : β} :
    (first >>= next).run = .ok (.ok value) ↔
      ∃ middle, first.run = .ok (.ok middle) ∧ (next middle).run = .ok (.ok value) := by
  change (first.run >>= ExceptT.bindCont next) = .ok (.ok value) ↔ _
  cases first.run with
  | error cause => simp [bind, Except.bind]
  | ok result =>
      cases result with
      | error failure => simp [bind, Except.bind, ExceptT.bindCont, pure, Except.pure]
      | ok middle =>
          simp only [bind, Except.bind, Except.ok.injEq, exists_eq_left']
          rfl

theorem run_pure_eq_ok_iff {value answer : α} :
    (pure value : Planning α).run = .ok (.ok answer) ↔ value = answer := by
  change (Except.ok (Except.ok value) : Checked (Except BootFailure α)) = _ ↔ _
  simp

theorem run_throw_eq_ok_iff {failure : BootFailure} {answer : α} :
    (throw failure : Planning α).run = .ok (.ok answer) ↔ False := by
  change (Except.ok (Except.error failure) : Checked (Except BootFailure α)) = _ ↔ _
  simp

theorem run_check_eq_ok_iff {value : Checked α} {answer : α} :
    (liftM value : Planning α).run = .ok (.ok answer) ↔ value = .ok answer := by
  change (Except.ok <$> value : Checked (Except BootFailure α)) = _ ↔ _
  cases value <;> simp [Functor.map, Except.map]

theorem run_bind_of_ok {first : Planning α} {next : α → Planning β} {middle : α}
    (answered : first.run = .ok (.ok middle)) :
    (first >>= next).run = (next middle).run := by
  change (first.run >>= ExceptT.bindCont next) = _
  rw [answered]
  rfl

theorem run_bind_of_refused {first : Planning α} {next : α → Planning β} {failure : BootFailure}
    (refused : first.run = .ok (.error failure)) :
    (first >>= next).run = .ok (.error failure) := by
  change (first.run >>= ExceptT.bindCont next) = _
  rw [refused]
  rfl

end Planning

namespace Zone

theorem areaOf_unseeded (id : ZoneId) (start size : Nat) (geometry : Geometry) (base : Nat)
    (words places : Vector Nat orderCount) {order : Nat} (h : order < orderCount) :
    (unseeded id start size geometry base words places).areaOf order =
      .ofPairs (.clear order base words[order] places[order]) := by
  simp [areaOf, unseeded, h]

theorem areaOf_reserved (id : ZoneId) (start size : Nat) (geometry : Geometry) {order : Nat}
    (h : order < orderCount) :
    (reserved id start size geometry).areaOf order = .ofPairs (.empty order) := by
  simp [areaOf, reserved, h]

end Zone

namespace BootPlan

/-- The region is aligned for records and just large enough for the room. -/
def Carved (room : Room) (region : Region) : Prop :=
  region.start % recordAlignment = 0 ∧ region.stop = region.start + room.count * room.itemSize

def Laid : Nat → List Room → List Region → Nat → Prop
  | cursor, [], [], stop => stop = cursor
  | cursor, room :: rooms, region :: regions, stop =>
      cursor ≤ region.start ∧ region.start % recordAlignment = 0 ∧
        region.stop = region.start + room.count * room.itemSize ∧
          Laid region.stop rooms regions stop
  | _, _, _, _ => False

variable {layout : MemoryLayout} {plan : BootPlan}

/-- The area of an order in the heap of a plan: no free block, and clear bits at their place. -/
theorem areaOf_heap (plan : BootPlan) {order : Nat} (h : order < orderCount) :
    plan.zones.heap.areaOf order = .ofPairs (.clear order plan.base
      (PairBitmap.wordsCovering plan.span order) (plan.recordPlace order)) := by
  rw [zones, Zone.areaOf_unseeded _ _ _ _ _ _ _ h, Vector.getElem_ofFn, Vector.getElem_ofFn]

theorem carve_eq_ok {ramEnd cursor : Nat} {room : Room} {region : Region}
    (carved : (carve ramEnd cursor room).run = .ok (.ok region)) :
    cursor ≤ region.start ∧ region.start % recordAlignment = 0 ∧
      region.stop = region.start + room.count * room.itemSize ∧ region.stop ≤ ramEnd := by
  obtain ⟨start, rounded, carved⟩ := Planning.run_bind_eq_ok_iff.1 carved
  obtain ⟨bytes, product, carved⟩ := Planning.run_bind_eq_ok_iff.1 carved
  have rounded := @Address.alignUp_eq_ok _ 3 _ (Planning.run_check_eq_ok_iff.1 rounded)
  obtain ⟨-, rfl⟩ := Word.mul_eq_ok_iff.1 (Planning.run_check_eq_ok_iff.1 product)
  split at carved
  · next fits =>
      obtain rfl := Planning.run_pure_eq_ok_iff.1 carved
      exact ⟨rounded.1, rounded.2.2, rfl, fits⟩
  · exact (Planning.run_throw_eq_ok_iff.1 carved).elim

theorem carveAll_eq_ok {ramEnd cursor stop : Nat} {rooms : List Room} {regions : List Region}
    (carved : (carveAll ramEnd cursor rooms).run = .ok (.ok (regions, stop))) :
    Laid cursor rooms regions stop := by
  induction rooms generalizing cursor regions with
  | nil =>
      have same := Planning.run_pure_eq_ok_iff.1 carved
      simp only [Prod.mk.injEq] at same
      obtain ⟨rfl, rfl⟩ := same
      rfl
  | cons room rest ih =>
      obtain ⟨region, first, carved⟩ := Planning.run_bind_eq_ok_iff.1 carved
      obtain ⟨⟨others, last⟩, behind, carved⟩ := Planning.run_bind_eq_ok_iff.1 carved
      have same := Planning.run_pure_eq_ok_iff.1 carved
      simp only [Prod.mk.injEq] at same
      obtain ⟨rfl, rfl⟩ := same
      obtain ⟨low, aligned, stop_eq, -⟩ := carve_eq_ok first
      exact ⟨low, aligned, stop_eq, ih behind⟩

/-- What is carved lies between the cursor and the stop. -/
theorem Laid.bounds {cursor stop : Nat} {rooms : List Room} {regions : List Region}
    (laid : Laid cursor rooms regions stop) :
    cursor ≤ stop ∧ ∀ region ∈ regions,
      cursor ≤ region.start ∧ region.start ≤ region.stop ∧ region.stop ≤ stop := by
  induction rooms generalizing cursor regions with
  | nil =>
      cases regions with
      | nil => exact ⟨Nat.le_of_eq laid.symm, fun region member => absurd member List.not_mem_nil⟩
      | cons region regions => exact laid.elim
  | cons room rooms ih =>
      cases regions with
      | nil => exact laid.elim
      | cons region regions =>
          obtain ⟨low, -, stop_eq, laid⟩ := laid
          obtain ⟨le, rest⟩ := ih laid
          refine ⟨by omega, fun other member => ?_⟩
          rcases List.mem_cons.1 member with rfl | member
          · exact ⟨low, by omega, le⟩
          · have bounds := rest other member
            exact ⟨by omega, bounds.2⟩

theorem Laid.carved {cursor stop : Nat} {rooms : List Room} {regions : List Region}
    (laid : Laid cursor rooms regions stop) : List.Forall₂ Carved rooms regions := by
  induction rooms generalizing cursor regions with
  | nil =>
      cases regions with
      | nil => exact .nil
      | cons region regions => exact laid.elim
  | cons room rooms ih =>
      cases regions with
      | nil => exact laid.elim
      | cons region regions => exact .cons ⟨laid.2.1, laid.2.2.1⟩ (ih laid.2.2.2)

theorem Laid.pairwise {cursor stop : Nat} {rooms : List Room} {regions : List Region}
    (laid : Laid cursor rooms regions stop) :
    regions.Pairwise fun first second => first.stop ≤ second.start := by
  induction rooms generalizing cursor regions with
  | nil =>
      cases regions with
      | nil => exact .nil
      | cons region regions => exact laid.elim
  | cons room rooms ih =>
      cases regions with
      | nil => exact laid.elim
      | cons region regions =>
          exact .cons (fun other member => (laid.2.2.2.bounds.2 other member).1) (ih laid.2.2.2)

theorem Laid.last {cursor stop : Nat} {rooms : List Room} {regions : List Region} {room : Room}
    (laid : Laid cursor (rooms ++ [room]) regions stop) :
    ∃ region, regions.getLast? = some region ∧ Carved room region ∧ region.stop = stop := by
  induction rooms generalizing cursor regions with
  | nil =>
      cases regions with
      | nil => exact laid.elim
      | cons region regions =>
          obtain ⟨-, aligned, stop_eq, laid⟩ := laid
          cases regions with
          | nil => exact ⟨region, rfl, ⟨aligned, stop_eq⟩, laid.symm⟩
          | cons other regions => exact laid.elim
  | cons first rooms ih =>
      cases regions with
      | nil => exact laid.elim
      | cons region regions =>
          obtain ⟨-, -, -, laid⟩ := laid
          obtain ⟨last, found, carved⟩ := ih laid
          refine ⟨last, ?_, carved⟩
          rw [List.getLast?_cons, found]
          rfl

/-- What holds of every plan for a layout that is not refused. -/
structure Fits (plan : BootPlan) (layout : MemoryLayout) : Prop where
  layout_eq : plan.layout = layout
  page_size : layout.pageSize = plan.geometry.size
  large : minPageSize ≤ plan.geometry.size
  ram_aligned : layout.ramStart % plan.geometry.size = 0
  ram_whole : layout.ramSize % plan.geometry.size = 0
  ram_end : plan.ramEnd = layout.ramStart + layout.ramSize
  ram_end_lt : plan.ramEnd < Word.limit
  total_pages : plan.totalPages = layout.ramSize / plan.geometry.size
  kernel_pos : 0 < layout.kernelEnd
  kernel_above : layout.ramStart ≤ layout.kernelEnd
  base_eq : plan.base = baseFrame plan.geometry layout.kernelEnd
  span_eq : plan.span = plan.geometry.frameOf plan.ramEnd - plan.base
  laid : Laid layout.kernelEnd (rooms plan.span plan.totalPages) plan.regions plan.metadataEnd
  heap_above : plan.metadataEnd ≤ plan.heapStart
  heap_least : plan.heapStart < plan.metadataEnd + plan.geometry.size
  heap_aligned : plan.heapStart % plan.geometry.size = 0
  heap_below : plan.heapStart < plan.ramEnd

theorem pagesOf_eq_ok {geometry : Geometry}
    (answered : (pagesOf layout).run = .ok (.ok geometry)) :
    layout.pageSize = geometry.size ∧ minPageSize ≤ geometry.size := by
  unfold pagesOf at answered
  split at answered
  · exact (Planning.run_throw_eq_ok_iff.1 answered).elim
  · next found =>
      split at answered
      · exact (Planning.run_throw_eq_ok_iff.1 answered).elim
      · next large =>
          obtain rfl := Planning.run_pure_eq_ok_iff.1 answered
          exact ⟨Geometry.ofSize?_eq_some_iff.1 found, Nat.le_of_not_lt large⟩

theorem checkWindow_eq_ok {geometry : Geometry}
    (answered : (checkWindow layout geometry).run = .ok (.ok ())) :
    layout.ramStart % geometry.size = 0 ∧ layout.ramSize % geometry.size = 0 ∧
      layout.ramStart + layout.ramSize < Word.limit := by
  obtain ⟨aligned, checked, answered⟩ := Planning.run_bind_eq_ok_iff.1 answered
  have checked := Planning.run_check_eq_ok_iff.1 checked
  rw [Geometry.isAligned_eq, Except.ok.injEq] at checked
  subst checked
  split at answered
  · exact (Planning.run_throw_eq_ok_iff.1 answered).elim
  · next sound =>
      simp only [not_or, Bool.not_eq_true', Bool.not_eq_false, beq_iff_eq, Decidable.not_not,
        Nat.not_le] at sound
      exact ⟨sound.2.1, sound.2.2.1, sound.2.2.2⟩

theorem checkKernel_eq_ok (answered : (checkKernel layout).run = .ok (.ok ())) :
    0 < layout.kernelEnd ∧ layout.ramStart ≤ layout.kernelEnd := by
  unfold checkKernel at answered
  split at answered
  · obtain ⟨⟨⟩, refused, -⟩ := Planning.run_bind_eq_ok_iff.1 answered
    exact (Planning.run_throw_eq_ok_iff.1 refused).elim
  · next nonzero =>
      obtain ⟨inside, checked, answered⟩ := Planning.run_bind_eq_ok_iff.1 answered
      have checked := Planning.run_check_eq_ok_iff.1 checked
      refine ⟨Nat.pos_of_ne_zero nonzero, Nat.le_of_not_lt fun below => ?_⟩
      rw [MemoryLayout.contains, if_neg (by omega)] at checked
      obtain rfl := Except.ok.inj checked
      exact (Planning.run_throw_eq_ok_iff.1 answered).elim

theorem ofLayout_eq_ok (planned : (ofLayout layout).run = .ok (.ok plan)) : plan.Fits layout := by
  unfold ofLayout at planned
  obtain ⟨geometry, pages, planned⟩ := Planning.run_bind_eq_ok_iff.1 planned
  obtain ⟨⟨⟩, window, planned⟩ := Planning.run_bind_eq_ok_iff.1 planned
  obtain ⟨⟨⟩, kernel, planned⟩ := Planning.run_bind_eq_ok_iff.1 planned
  obtain ⟨ramEnd, ended, planned⟩ := Planning.run_bind_eq_ok_iff.1 planned
  obtain ⟨totalPages, counted, planned⟩ := Planning.run_bind_eq_ok_iff.1 planned
  obtain ⟨span, spanned, planned⟩ := Planning.run_bind_eq_ok_iff.1 planned
  obtain ⟨⟨regions, metadataEnd⟩, carved, planned⟩ := Planning.run_bind_eq_ok_iff.1 planned
  obtain ⟨heapStart, raised, planned⟩ := Planning.run_bind_eq_ok_iff.1 planned
  split at planned
  · exact (Planning.run_throw_eq_ok_iff.1 planned).elim
  · next below =>
      obtain rfl := Planning.run_pure_eq_ok_iff.1 planned
      obtain ⟨page_size, large⟩ := pagesOf_eq_ok pages
      obtain ⟨ram_aligned, ram_whole, ram_end_lt⟩ := checkWindow_eq_ok window
      obtain ⟨kernel_pos, kernel_above⟩ := checkKernel_eq_ok kernel
      obtain ⟨-, rfl⟩ := Word.add_eq_ok_iff.1 (Planning.run_check_eq_ok_iff.1 ended)
      obtain ⟨-, rfl⟩ := Word.div_eq_ok_iff.1 (Planning.run_check_eq_ok_iff.1 counted)
      obtain ⟨-, rfl⟩ := Word.sub_eq_ok_iff.1 (Planning.run_check_eq_ok_iff.1 spanned)
      obtain ⟨heap_above, heap_least, heap_aligned⟩ :=
        Address.alignUp_eq_ok (Planning.run_check_eq_ok_iff.1 raised)
      exact ⟨rfl, page_size, large, ram_aligned, ram_whole, rfl, ram_end_lt,
        by rw [page_size], kernel_pos, kernel_above, rfl, rfl, carveAll_eq_ok carved,
        heap_above, heap_least, heap_aligned, Nat.lt_of_not_le below⟩

namespace Fits

theorem kernel_below (fits : plan.Fits layout) : layout.kernelEnd ≤ plan.heapStart :=
  Nat.le_trans fits.laid.bounds.1 fits.heap_above

theorem base_le (fits : plan.Fits layout) :
    plan.base % 1 <<< orderCount = 0 ∧ plan.base ≤ plan.geometry.frameOf plan.heapStart := by
  have down : plan.base ≤ plan.geometry.frameOf layout.kernelEnd := by
    rw [fits.base_eq, baseFrame, Nat.shiftRight_eq_div_pow, Nat.shiftLeft_eq]
    exact Nat.div_mul_le_self _ _
  refine ⟨?_, Nat.le_trans down (Nat.div_le_div_right fits.kernel_below)⟩
  rw [fits.base_eq, baseFrame, Nat.shiftLeft_eq, Nat.one_shiftLeft]
  exact Nat.mul_mod_left _ _

theorem heap_stop (fits : plan.Fits layout) :
    plan.heapStart + (plan.ramEnd - plan.heapStart) = plan.ramEnd :=
  Nat.add_sub_cancel' fits.heap_below.le

theorem cache_region (fits : plan.Fits layout) :
    plan.regions.getLast? = some ⟨plan.cachePlace, plan.cachePlace + CacheRecord.size⟩ ∧
      plan.cachePlace % CacheRecord.alignment = 0 := by
  have laid := fits.laid
  rw [rooms, List.append_cons] at laid
  obtain ⟨⟨start, stop⟩, last, ⟨aligned, stop_eq⟩, -⟩ := laid.last
  have place : plan.cachePlace = start := by
    rw [cachePlace, last]
  obtain rfl : stop = start + CacheRecord.size := stop_eq.trans (by rw [Nat.one_mul])
  rw [place, last]
  exact ⟨rfl, aligned⟩

/-- The regions begin where the bitmaps, the descriptors and the first cache's record do. -/
theorem starts_eq (fits : plan.Fits layout) :
    plan.regions.map Region.start =
      (List.range orderCount).map plan.recordPlace ++
        [plan.recordPlace orderCount, plan.cachePlace] := by
  have count : plan.regions.length = orderCount + 2 := by
    rw [← fits.laid.carved.length_eq, rooms]
    simp
  have last : plan.recordPlace (orderCount + 1) = plan.cachePlace := by
    rw [recordPlace, cachePlace, List.getLast?_eq_getElem?, count]
    rfl
  have starts : plan.regions.map Region.start =
      (List.range (orderCount + 2)).map plan.recordPlace := by
    refine List.ext_getElem (by simp [count]) fun number here there => ?_
    rw [List.getElem_map, List.getElem_map, List.getElem_range, recordPlace,
      List.getElem?_eq_getElem (by simpa using here)]
  rw [starts, List.range_succ, List.range_succ, List.map_append, List.map_append, ← last,
    List.append_assoc]
  rfl

theorem cachePlace_bounds (fits : plan.Fits layout) :
    0 < plan.cachePlace ∧ plan.cachePlace + CacheRecord.size ≤ plan.heapStart ∧
      plan.cachePlace % CacheRecord.alignment = 0 := by
  obtain ⟨last, aligned⟩ := fits.cache_region
  obtain ⟨above, -, below⟩ := fits.laid.bounds.2 _ (List.mem_of_getLast? last)
  exact ⟨Nat.lt_of_lt_of_le fits.kernel_pos above, Nat.le_trans below fits.heap_above, aligned⟩

/-- The frames of memory are those of its addresses. -/
theorem ram_frame_iff (fits : plan.Fits layout) (address : Nat) :
    (plan.geometry.frameOf layout.ramStart ≤ plan.geometry.frameOf address ∧
      plan.geometry.frameOf address < plan.geometry.frameOf layout.ramStart + plan.totalPages) ↔
        layout.ramStart ≤ address ∧ address < layout.ramStart + layout.ramSize := by
  have positive := plan.geometry.size_pos
  have start := Nat.div_mul_cancel (Nat.dvd_of_mod_eq_zero fits.ram_aligned)
  have stop := Nat.div_mul_cancel (Nat.dvd_of_mod_eq_zero fits.ram_whole)
  rw [Geometry.frameOf, Geometry.frameOf, fits.total_pages, Nat.le_div_iff_mul_le positive,
    Nat.div_lt_iff_lt_mul positive, Nat.add_mul, start, stop]

/-- The heap has the frames from its first to the last of memory. -/
theorem heap_has_iff (fits : plan.Fits layout) (frame : Nat) :
    plan.zones.heap.Has frame ↔ plan.geometry.frameOf plan.heapStart ≤ frame ∧
      frame < plan.geometry.frameOf plan.ramEnd := by
  rw [Zone.has_iff fits.heap_aligned]
  change _ ∧ frame < plan.geometry.frameOf (plan.heapStart + (plan.ramEnd - plan.heapStart)) ↔ _
  rw [fits.heap_stop]
  rfl

theorem heap_blank (fits : plan.Fits layout) : plan.zones.heap.Blank where
  start_pos := Nat.lt_of_lt_of_le fits.kernel_pos fits.kernel_below
  empty := fun order h => by
    rw [plan.areaOf_heap h]
    rfl
  clear := fun order h pair => by
    rw [plan.areaOf_heap h]
    exact PairBitmap.bit_clear _ _ _ _ _
  order_eq := fun order h => by
    rw [plan.areaOf_heap h]
    rfl
  base_aligned := fun order h => by
    rw [plan.areaOf_heap h]
    exact fits.base_le.1
  reached := by
    intro order h frame has
    obtain ⟨low, high⟩ := (fits.heap_has_iff frame).1 has
    have base := fits.base_le.2
    have span := fits.span_eq
    rw [plan.areaOf_heap h]
    refine ⟨Nat.le_trans base low, ?_⟩
    exact PairBitmap.covers_clear (show frame - plan.base < plan.span by omega)

/-- The zones of a plan and the table of its pages are prepared for seeding. -/
theorem prepared (fits : plan.Fits layout) {pages : DescriptorTable}
    (described : DescriptorTable.describe plan.geometry layout.ramStart plan.totalPages
      plan.zoneOf (plan.recordPlace orderCount) = .ok pages) (ram : Ram) :
    BuddyAllocator.Prepared ⟨ram, plan.zones, pages⟩ := by
  obtain ⟨geometry, -, read⟩ := DescriptorTable.describe_eq_ok fits.ram_aligned described
  have linkable : 8 ≤ plan.geometry.size :=
    Nat.le_trans (by decide : 8 ≤ minPageSize) fits.large
  have pages_geometry : BuddyAllocator.geometry ⟨ram, plan.zones, pages⟩ = plan.geometry := geometry
  refine ⟨by rwa [pages_geometry], ?_, ?_, ?_, ⟨layout.ramStart, plan.totalPages, plan.zoneOf, _,
    by rw [pages_geometry]; exact fits.ram_aligned, by rw [pages_geometry]; exact described⟩, ?_⟩
  · intro id
    rw [pages_geometry]
    cases id <;> rfl
  · intro id there
    cases id with
    | noHeap => cases there
    | heap => exact fits.heap_blank
  · intro id there order h
    cases id with
    | heap => cases there
    | noHeap =>
        have area : (plan.zones.get .noHeap).areaOf order = .ofPairs (.empty order) :=
          Zone.areaOf_reserved _ _ _ _ h
        rw [area]
        exact ⟨rfl, rfl⟩
  · intro id there frame has
    cases id with
    | noHeap => cases there
    | heap =>
        obtain ⟨low, high⟩ := (fits.heap_has_iff frame).1 has
        have start : plan.geometry.frameOf layout.ramStart ≤ frame :=
          Nat.le_trans (Nat.div_le_div_right (Nat.le_trans fits.kernel_above fits.kernel_below)) low
        have stop : plan.geometry.frameOf plan.ramEnd =
            plan.geometry.frameOf layout.ramStart + plan.totalPages := by
          rw [fits.ram_end, fits.total_pages]
          exact Nat.add_div_of_dvd_left (Nat.dvd_of_mod_eq_zero fits.ram_whole)
        have above : plan.heapStart ≤ frame * plan.geometry.size := has.1
        refine ⟨_, by rw [read, if_pos ⟨start, by omega⟩], ?_⟩
        exact if_neg (Nat.not_lt.2 above)

end Fits

def unseeded (layout : MemoryLayout) : Planning BuddyAllocator := do
  let plan ← ofLayout layout
  let pages ← DescriptorTable.describe plan.geometry layout.ramStart plan.totalPages
    plan.zoneOf (plan.recordPlace orderCount)
  return ⟨{}, plan.zones, pages⟩

theorem unseeded_eq_ok {raw : BuddyAllocator} (planned : (unseeded layout).run = .ok (.ok raw)) :
    raw.Prepared := by
  obtain ⟨plan, fits, planned⟩ := Planning.run_bind_eq_ok_iff.1 planned
  obtain ⟨pages, described, planned⟩ := Planning.run_bind_eq_ok_iff.1 planned
  obtain rfl := Planning.run_pure_eq_ok_iff.1 planned
  exact (ofLayout_eq_ok fits).prepared (Planning.run_check_eq_ok_iff.1 described) {}

end BootPlan

/-- Sixteen pages of 512 bytes, the first of them entered by the kernel image. -/
def MemoryLayout.sixteenPages : MemoryLayout :=
  ⟨0x1000, 0x2000, 0x1005, 512⟩

namespace BuddyAllocator

def sample : BuddyAllocator :=
  match (BootPlan.unseeded .sixteenPages).run with
  | .ok (.ok raw) => raw
  | _ => default

theorem sample_prepared : sample.Prepared := by
  have planned : (match (BootPlan.unseeded .sixteenPages).run with
      | .ok (.ok _) => true
      | _ => false) = true := by decide +kernel
  unfold sample
  split at planned
  · next raw found =>
      exact BootPlan.unseeded_eq_ok found
  · cases planned

def sampleSeeded : BuddyAllocator :=
  (seed.run sample).state

theorem sample_built : Built sample sampleSeeded :=
  ⟨sample_prepared, by decide +kernel, rfl⟩

end BuddyAllocator

end PhysicalMemory
