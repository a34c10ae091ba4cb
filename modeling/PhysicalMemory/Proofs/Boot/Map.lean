import PhysicalMemory.Proofs.Manager.Ownership

/-!
# What booting builds

The records of a manager that was booted lie one behind the other between the kernel
image and the heap.  The two zones divide memory where the heap begins.  Each page of
memory has a descriptor and each page of the heap a pair at every order, and one page
of the heap is the first slab, while all others are free.
-/

namespace PhysicalMemory

namespace BuddyAllocator

variable {buddy : BuddyAllocator} {allocator : SlabAllocator} {store : Store}

theorem Stocked.starts_perm (stocked : buddy.Stocked allocator store) :
    ((buddy.pages.ownedBy .slab).map Page.start).Perm
      (store.caches.flatMap fun cache => (store.stock cache).all) := by
  refine (List.perm_ext_iff_of_nodup ?_ stocked.nodup_slabs).2 fun slab => ?_
  · exact stocked.sound.regular.nodup_starts.sublist (List.filter_sublist.map _)
  · rw [List.mem_map, List.mem_flatMap]
    constructor
    · rintro ⟨page, member, rfl⟩
      obtain ⟨⟨frame, found⟩, owner⟩ := DescriptorTable.mem_ownedBy_iff.1 member
      obtain ⟨cache, there, listed, -⟩ := stocked.serving_of_slab found owner
      exact ⟨cache, there, listed⟩
    · rintro ⟨cache, there, listed⟩
      exact ⟨_, DescriptorTable.mem_ownedBy_iff.2
        ⟨⟨_, stocked.owned cache there slab listed⟩, rfl⟩, rfl⟩

end BuddyAllocator

def MemoryLayout.InRam (layout : MemoryLayout) (address : Nat) : Prop :=
  layout.ramStart ≤ address ∧ address < layout.ramStart + layout.ramSize

def Manager.rooms (manager : Manager) : List Room :=
  (List.range orderCount).map (fun order =>
    ⟨((manager.tiers.buddy.zones.get .heap).areaOf order).pairs.words.size, BootPlan.wordSize⟩) ++
  [⟨manager.tiers.buddy.pages.pages.size, DescriptorTable.descriptorSize⟩, ⟨1, CacheRecord.size⟩]

/-- Where the bitmaps, the descriptors and the first cache's record of a manager begin. -/
def Manager.places (manager : Manager) : List Nat :=
  (List.range orderCount).map (fun order =>
    ((manager.tiers.buddy.zones.get .heap).areaOf order).pairs.place) ++
  [manager.tiers.buddy.pages.place, manager.tiers.slab.head]

/-- Where a manager has its records, which pages it knows and who has them. -/
structure BootPlan.Realized (plan : BootPlan) (layout : MemoryLayout) (manager : Manager) :
    Prop where
  carved : List.Forall₂ Carved manager.rooms plan.regions
  places : manager.places = plan.regions.map Region.start
  apart : plan.regions.Pairwise fun first second => first.stop ≤ second.start
  behind : ∀ region ∈ plan.regions, layout.kernelEnd ≤ region.start ∧ region.stop ≤ plan.heapStart
  record : plan.regions.getLast? =
    some ⟨manager.tiers.slab.head, manager.tiers.slab.head + CacheRecord.size⟩
  heap_first : IsLeast {boundary | layout.pageSize ∣ boundary ∧
    ∀ region ∈ plan.regions, region.stop ≤ boundary} plan.heapStart
  divides : layout.InRam plan.heapStart
  noHeap : (manager.tiers.buddy.zones.get .noHeap).extent =
    ⟨layout.ramStart, plan.heapStart - layout.ramStart⟩
  heap : (manager.tiers.buddy.zones.get .heap).extent =
    ⟨plan.heapStart, layout.ramStart + layout.ramSize - plan.heapStart⟩
  page_count : manager.tiers.buddy.pages.pages.size = layout.ramSize / layout.pageSize
  covers : ∀ address, manager.tiers.buddy.pages.contains address = true ↔ layout.InRam address
  described : ∀ address, layout.InRam address →
    ∃ page, manager.tiers.buddy.pages.ofAddress address = .ok page ∧
      page.start = address - address % layout.pageSize ∧
        ∀ id, (manager.tiers.buddy.zones.get id).contains address = .ok (decide (page.zone = id))
  no_other : ∀ address < Word.limit, ∀ page,
    manager.tiers.buddy.pages.ofAddress address = .ok page → layout.InRam address
  paired : ∀ frame, (manager.tiers.buddy.zones.get .heap).Has frame → ∀ order < orderCount,
    ∃ pair, ((manager.tiers.buddy.zones.get .heap).areaOf order).pairs.locate frame = .ok pair
  opened : ∃ slab, (Session.start manager).slabs = [slab] ∧
    (manager.tiers.buddy.zones.get .heap).Has (manager.tiers.geometry.frameOf slab) ∧
      (Session.start manager).pageOf? slab = some (.serving slab manager.tiers.slab.head) ∧
        ∀ frame page, manager.tiers.buddy.pages.page? frame = some page → page.start ≠ slab →
          page = .unowned page.zone page.start
  free : ∃ free, manager.freeBytes = .ok free ∧
    free + layout.pageSize = (manager.tiers.buddy.zones.get .heap).size

namespace Booted

variable {layout : MemoryLayout} {manager : Manager} {plan : BootPlan}
  {raw seeded : BuddyAllocator}

theorem zone (booted : Booted layout manager plan raw seeded) (id : ZoneId) :
    Zone.Alike (plan.zones.get id) (manager.tiers.buddy.zones.get id) := by
  obtain ⟨zone, steady, -⟩ := booted.opened
  exact (zone id).trans (steady.alike id)

theorem size_eq (booted : Booted layout manager plan raw seeded) :
    manager.tiers.buddy.pages.pages.size = plan.totalPages := by
  obtain ⟨-, steady, -⟩ := booted.opened
  rw [steady.size_eq, booted.built.sound.2.1, DescriptorTable.size_of_describe booted.described]

theorem head_eq (booted : Booted layout manager plan raw seeded) :
    manager.tiers.slab.head = plan.cachePlace := by
  obtain ⟨-, -, store, slab, stocked, -, caches, -⟩ := booted.opened
  exact stocked.head_eq.trans (List.cons.inj caches).1

theorem rooms_eq (booted : Booted layout manager plan raw seeded) :
    manager.rooms = BootPlan.rooms plan.span plan.totalPages := by
  rw [Manager.rooms, BootPlan.rooms, booted.size_eq]
  congr 1
  refine List.map_congr_left fun order member => ?_
  have h := List.mem_range.1 member
  rw [((booted.zone .heap).reach order).size_eq]
  change Room.mk ((plan.zones.heap.areaOf order).pairs.words.size) _ = _
  rw [plan.areaOf_heap h]
  simp [FreeArea.ofPairs, PairBitmap.clear]

theorem places_eq (booted : Booted layout manager plan raw seeded) :
    manager.places = plan.regions.map Region.start := by
  obtain ⟨-, steady, -⟩ := booted.opened
  have table : manager.tiers.buddy.pages.place = plan.recordPlace orderCount := by
    rw [steady.table_eq, booted.built.sound.2.1]
    exact DescriptorTable.place_of_describe booted.described
  rw [(BootPlan.ofLayout_eq_ok booted.planned).starts_eq, Manager.places, table, booted.head_eq]
  congr 1
  refine List.map_congr_left fun order member => ?_
  rw [((booted.zone .heap).reach order).place_eq]
  change (plan.zones.heap.areaOf order).pairs.place = _
  rw [plan.areaOf_heap (List.mem_range.1 member)]
  rfl

/-- The pages of memory are in the zones of the plan. -/
theorem place_eq (booted : Booted layout manager plan raw seeded) (frame : Nat) :
    (manager.tiers.buddy.pages.page? frame).map Page.place =
      if plan.geometry.frameOf layout.ramStart ≤ frame ∧
          frame < plan.geometry.frameOf layout.ramStart + plan.totalPages then
        some (frame * plan.geometry.size, plan.zoneOf (frame * plan.geometry.size))
      else none := by
  obtain ⟨-, steady, -⟩ := booted.opened
  have fits := BootPlan.ofLayout_eq_ok booted.planned
  obtain ⟨-, -, read⟩ := DescriptorTable.describe_eq_ok fits.ram_aligned booted.described
  rw [steady.placed, booted.built.sound.2.1, read]
  split <;> rfl

theorem contains_iff (booted : Booted layout manager plan raw seeded) (address : Nat) :
    manager.tiers.buddy.pages.contains address = true ↔ layout.InRam address := by
  have fits := BootPlan.ofLayout_eq_ok booted.planned
  have geometry : manager.tiers.buddy.pages.geometry = plan.geometry := booted.geometry_eq
  rw [DescriptorTable.contains_eq, ← Option.isSome_map (f := Page.place), booted.place_eq,
    geometry, MemoryLayout.InRam, ← fits.ram_frame_iff]
  split <;> simp_all

theorem heap_first (booted : Booted layout manager plan raw seeded) :
    IsLeast {boundary | layout.pageSize ∣ boundary ∧
      ∀ region ∈ plan.regions, region.stop ≤ boundary} plan.heapStart := by
  have fits := BootPlan.ofLayout_eq_ok booted.planned
  rw [fits.page_size]
  refine ⟨⟨Nat.dvd_of_mod_eq_zero fits.heap_aligned, fun region => booted.regions_below⟩, ?_⟩
  rintro boundary ⟨whole, above⟩
  have laid := fits.laid
  rw [BootPlan.rooms, List.append_cons] at laid
  obtain ⟨region, last, -, stop_eq⟩ := laid.last
  have reach := above region (List.mem_of_getLast? last)
  rw [stop_eq] at reach
  -- a boundary below it would be a page at least below it
  by_contra less
  obtain ⟨count, start⟩ := Nat.dvd_of_mod_eq_zero fits.heap_aligned
  obtain ⟨lower, rfl⟩ := whole
  have least := fits.heap_least
  rw [start] at less least
  have step := Nat.mul_le_mul_left plan.geometry.size
    (Nat.lt_of_mul_lt_mul_left (Nat.lt_of_not_le less))
  rw [Nat.mul_succ] at step
  omega

/-- Memory is divided where the heap begins. -/
theorem extents (booted : Booted layout manager plan raw seeded) :
    layout.InRam plan.heapStart ∧
      (manager.tiers.buddy.zones.get .noHeap).extent =
        ⟨layout.ramStart, plan.heapStart - layout.ramStart⟩ ∧
      (manager.tiers.buddy.zones.get .heap).extent =
        ⟨plan.heapStart, layout.ramStart + layout.ramSize - plan.heapStart⟩ := by
  have fits := BootPlan.ofLayout_eq_ok booted.planned
  have below := fits.heap_below
  rw [fits.ram_end] at below
  have extent : ∀ id, (manager.tiers.buddy.zones.get id).extent = (plan.zones.get id).extent :=
    fun id => congrArg₂ Extent.mk (booted.zone id).start_eq (booted.zone id).size_eq
  refine ⟨⟨Nat.le_trans fits.kernel_above fits.kernel_below, below⟩, ?_, ?_⟩
  · rw [extent, ← fits.layout_eq]
    rfl
  · rw [extent, ← fits.ram_end]
    rfl

/-- An address in memory is in the zone that the plan has it in, and in no other. -/
theorem contains_zone (booted : Booted layout manager plan raw seeded) {address : Nat}
    (inside : layout.InRam address) (id : ZoneId) :
    (manager.tiers.buddy.zones.get id).contains address =
      .ok (decide (plan.zoneOf address = id)) := by
  have fits := BootPlan.ofLayout_eq_ok booted.planned
  have word := fits.ram_end_lt
  rw [fits.ram_end] at word
  obtain ⟨⟨low, high⟩, noHeap, heap⟩ := booted.extents
  obtain ⟨start, size⟩ := Extent.mk.inj noHeap
  obtain ⟨start', size'⟩ := Extent.mk.inj heap
  obtain ⟨above, below⟩ := inside
  unfold BootPlan.zoneOf
  cases id with
  | noHeap =>
      rw [Zone.contains_of_lt (by omega), start, size, Except.ok.injEq, decide_eq_decide]
      split <;> simp <;> omega
  | heap =>
      rw [Zone.contains_of_lt (by omega), start', size', Except.ok.injEq, decide_eq_decide]
      split <;> simp <;> omega

/-- The descriptor that is found for an address tells its page's start and its zone. -/
theorem place_of_page (booted : Booted layout manager plan raw seeded) {address : Nat}
    {page : Page}
    (found : manager.tiers.buddy.pages.page? (plan.geometry.frameOf address) = some page) :
    page.start = address - address % layout.pageSize ∧ page.zone = plan.zoneOf address := by
  have fits := BootPlan.ofLayout_eq_ok booted.planned
  have place := booted.place_eq (plan.geometry.frameOf address)
  rw [found, Option.map_some] at place
  split at place
  · obtain ⟨start, zone⟩ := Prod.mk.inj (Option.some.inj place)
    have division := Nat.div_add_mod' address plan.geometry.size
    have rest := Nat.mod_lt address plan.geometry.size_pos
    refine ⟨?_, zone.trans ?_⟩
    · rw [start, fits.page_size, Geometry.frameOf]
      omega
    · -- the heap begins at a page boundary, so the page's start is in the zone of its bytes
      have boundary : address < plan.heapStart ↔
          plan.geometry.frameOf address * plan.geometry.size < plan.heapStart := by
        obtain ⟨count, start⟩ := Nat.dvd_of_mod_eq_zero fits.heap_aligned
        rw [start, Nat.mul_comm, Geometry.frameOf, Nat.mul_lt_mul_right plan.geometry.size_pos,
          Nat.div_lt_iff_lt_mul plan.geometry.size_pos]
      rw [BootPlan.zoneOf, BootPlan.zoneOf, if_congr boundary rfl rfl]
  · cases place

/-- One page of the heap serves the slab of the first cache, and no other page a slab. -/
theorem first_slab (booted : Booted layout manager plan raw seeded) :
    ∃ slab, (Session.start manager).slabs = [slab] ∧
      (manager.tiers.buddy.zones.get .heap).Has (manager.tiers.geometry.frameOf slab) ∧
        (Session.start manager).pageOf? slab = some (.serving slab manager.tiers.slab.head) ∧
          (manager.tiers.buddy.pages.ownedBy .slab).map Page.start = [slab] := by
  obtain ⟨-, -, store, slab, stocked, -, caches, all, -⟩ := booted.opened
  have member : plan.cachePlace ∈ store.caches := by
    rw [caches]
    exact List.mem_cons_self
  have listed : slab ∈ (store.stock plan.cachePlace).all := by
    rw [all]
    exact List.mem_cons_self
  have starts := stocked.starts_perm
  rw [caches, List.flatMap_singleton, all] at starts
  refine ⟨slab, ?_, (stocked.slab_page member listed).2.2, ?_, List.perm_singleton.1 starts⟩
  · have ring : manager.tiers.slab.ring manager.tiers.ram = store.caches := stocked.ring_eq
    have lists : Cache.slabs manager.tiers.ram plan.cachePlace =
        (store.stock plan.cachePlace).slabs := funext (stocked.slabs_eq member)
    change (manager.tiers.slab.ring manager.tiers.ram).flatMap (fun cache =>
      Fill.all.flatMap (Cache.slabs manager.tiers.ram cache)) = _
    rw [ring, caches, List.flatMap_singleton, lists, ← all]
    rfl
  · rw [booted.head_eq]
    exact stocked.owned plan.cachePlace member slab listed

/-- Nobody owns a page that is not the first slab. -/
theorem unowned_of_ne (booted : Booted layout manager plan raw seeded) {slab frame : Nat}
    {page : Page} (starts : (manager.tiers.buddy.pages.ownedBy .slab).map Page.start = [slab])
    (found : manager.tiers.buddy.pages.page? frame = some page) (other : page.start ≠ slab) :
    page = .unowned page.zone page.start := by
  have unowned : page.owner = .unowned := by
    cases owner : page.owner with
    | unowned => rfl
    | buddy => exact absurd owner (booted.unlent found)
    | slab =>
        have served := List.mem_map_of_mem (f := Page.start)
          (DescriptorTable.mem_ownedBy_iff.2 ⟨⟨frame, found⟩, owner⟩)
        rw [starts] at served
        exact absurd (List.mem_singleton.1 served) other
  obtain ⟨-, steady, -⟩ := booted.opened
  obtain ⟨order, cache⟩ := steady.unownedBare booted.built.unownedBare frame page found unowned
  rw [Page.unowned, ← unowned, ← order, ← cache]

theorem freeBytes_eq (booted : Booted layout manager plan raw seeded) :
    ∃ free, manager.freeBytes = .ok free ∧
      free + layout.pageSize = (manager.tiers.buddy.zones.get .heap).size := by
  obtain ⟨-, -, store, -, stocked, -⟩ := booted.opened
  obtain ⟨free, answers, sum⟩ := stocked.sum_heap booted.heap_whole
  obtain ⟨slab, -, -, -, starts⟩ := booted.first_slab
  have blocks : manager.tiers.buddy.pages.ownedBy .buddy = [] :=
    List.eq_nil_iff_forall_not_mem.2 fun page member => by
      obtain ⟨⟨frame, found⟩, owner⟩ := DescriptorTable.mem_ownedBy_iff.1 member
      exact booted.unlent found owner
  have count := congrArg List.length starts
  rw [List.length_map, List.length_singleton] at count
  rw [blocks, count, booted.geometry_eq,
    ← (BootPlan.ofLayout_eq_ok booted.planned).page_size] at sum
  exact ⟨free, answers, by simpa using sum⟩

end Booted

/-- A manager that is booted has its records, its zones and its pages as planned. -/
theorem Manager.boot_realized {layout : MemoryLayout} {ram : Ram} {manager : Manager}
    (answers : Action.Answers (Manager.boot layout ram) () (.ok manager) ()) :
    ∃ plan, (BootPlan.ofLayout layout).run = .ok (.ok plan) ∧ plan.Realized layout manager := by
  obtain ⟨plan, raw, seeded, booted⟩ := Manager.boot_eq_ok answers
  have fits := BootPlan.ofLayout_eq_ok booted.planned
  obtain ⟨divides, noHeap, heap⟩ := booted.extents
  obtain ⟨slab, slabs, has, serving, starts⟩ := booted.first_slab
  obtain ⟨-, -, store, -, stocked, -⟩ := booted.opened
  have geometry : manager.tiers.buddy.pages.geometry = plan.geometry := booted.geometry_eq
  -- an address that is a word finds the descriptor of its own frame
  have read : ∀ address < Word.limit, ∀ page,
      manager.tiers.buddy.pages.ofAddress address = .ok page ↔
        manager.tiers.buddy.pages.page? (plan.geometry.frameOf address) = some page := by
    intro address word page
    rw [← geometry]
    exact stocked.sound.regular.ofFrame_eq_ok_iff (Nat.lt_of_le_of_lt (Nat.div_le_self _ _) word)
  have known : ∀ address < Word.limit,
      (∃ page, manager.tiers.buddy.pages.ofAddress address = .ok page) ↔ layout.InRam address := by
    intro address word
    rw [← booted.contains_iff, DescriptorTable.contains_eq, geometry, Option.isSome_iff_exists]
    exact exists_congr (read address word)
  refine ⟨plan, booted.planned, ?_, booted.places_eq, fits.laid.pairwise,
    fun region member => ?_, ?_,
    booted.heap_first, divides, noHeap, heap, ?_, booted.contains_iff, fun address inside => ?_,
    fun address word page answered => (known address word).1 ⟨page, answered⟩, ?_,
    ⟨slab, slabs, has, serving, fun frame page => booted.unowned_of_ne starts⟩, booted.freeBytes_eq⟩
  · rw [booted.rooms_eq]
    exact fits.laid.carved
  · exact ⟨(fits.laid.bounds.2 region member).1, booted.regions_below member⟩
  · rw [booted.head_eq]
    exact booted.cache_region.1
  · rw [booted.size_eq, fits.total_pages, fits.page_size]
  · have word := Nat.lt_trans inside.2 (fits.ram_end ▸ fits.ram_end_lt)
    obtain ⟨page, answered⟩ := (known address word).2 inside
    obtain ⟨start, zone⟩ := booted.place_of_page ((read address word page).1 answered)
    exact ⟨page, answered, start, fun id => by rw [zone]; exact booted.contains_zone inside id⟩
  · exact fun frame has order h => ⟨_, (stocked.sound.ready stocked.heap).locate_eq h has⟩

/-- On a small machine the records take two pages, the third is a slab, and the rest is free. -/
theorem Manager.boot_realized_sample :
    Action.Answers (Manager.boot .sixteenPages) () (.ok Session.sampleManager) () ∧
    (Session.start Session.sampleManager).slabs = [5120] ∧
    Session.sampleManager.freeBytes = .ok (13 * 512) ∧
    ∃ plan, (BootPlan.ofLayout .sixteenPages).run = .ok (.ok plan) ∧
      plan.Realized .sixteenPages Session.sampleManager :=
  ⟨Session.sampleManager_booted, by decide +kernel, by decide +kernel,
    Manager.boot_realized Session.sampleManager_booted⟩

end PhysicalMemory
