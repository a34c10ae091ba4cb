import PhysicalMemory.Proofs.Boot.Plan
import PhysicalMemory.Proofs.Manager.Session
import PhysicalMemory.Proofs.Slab.Filling

/-!
# What booting leaves

Seeding leaves all pages of the heap free.  The first record is then written
below the heap and a page becomes its slab, so a manager that was booted has one
cache, whose slab is empty, and nothing is live.  Whatever is called from then on,
live allocations overlap with nothing.
-/

namespace PhysicalMemory

namespace Store

def initial (place : Nat) : Store :=
  ⟨place, [], fun _ => .bare CacheRecord.objectSize⟩

theorem seated_initial (place pageSize : Nat) : (initial place).Seated pageSize [] [] :=
  ⟨⟨fun _ member => absurd member List.not_mem_nil, List.nodup_nil,
    fun _ _ _ _ held => absurd held.1 Stock.not_mem_bare⟩, rfl⟩

end Store

namespace BuddyAllocator

variable {buddy after : BuddyAllocator} {place : Nat}

/-- Both tiers are stocked once the first record is written below a heap that nobody uses. -/
theorem Sound.stocked_initial (sound : buddy.Sound)
    (heap : (buddy.zones.get .heap).allocatable = true)
    (reserved : (buddy.zones.get .noHeap).allocatable = false)
    (untaken : ∀ frame, ¬ buddy.pages.Taken frame) (positive : 0 < place)
    (low : place + CacheRecord.size ≤ (buddy.zones.get .heap).start)
    (aligned : place % CacheRecord.alignment = 0)
    (room : 0 < Slab.capacity buddy.geometry.size CacheRecord.objectSize) :
    ({ buddy with
      ram := Cache.writeRecord buddy.ram place place CacheRecord.objectSize } :
        BuddyAllocator).Stocked ⟨buddy.geometry.size, place⟩ (.initial place) := by
  have word : place < Word.limit := by
    have stop := (sound.ready heap).stop_lt
    omega
  have only : ∀ {cache}, cache ∈ (Store.initial place).caches → cache = place :=
    fun member => List.mem_singleton.1 member
  refine ⟨?_, heap, reserved, rfl, rfl, positive, low, rfl, ?_, ?_, List.nodup_singleton _,
    fun cache member => (by decide : 0 < CacheRecord.objectSize), ?_, ?_, ?_, ?_, ?_,
    fun cache member => absurd member List.not_mem_nil, List.nodup_singleton _, ?_⟩
  · refine sound.congr_ram (Cache.agreesOff_writeRecord _ _ _ _)
      fun byte record id allocatable vacant => ?_
    obtain rfl : id = .heap := by
      cases id with
      | heap => rfl
      | noHeap =>
          rw [reserved] at allocatable
          cases allocatable
    have above := vacant.1.1
    rw [sound.geometry_eq] at above
    have below : buddy.geometry.frameOf byte * buddy.pages.geometry.size ≤ byte :=
      Nat.div_mul_le_self _ _
    simp only [Cache.Record] at record
    omega
  · intro cache member
    rw [only member]
    exact aligned
  · exact Cache.next_writeRecord word
  · exact fun cache member => room
  · intro cache member
    rw [only member]
    exact Stock.kept_writeRecord (by decide)
  · exact fun cache member => Stock.oneReady_bare _ _
  · exact fun cache member slab listed => absurd listed Stock.not_mem_bare
  · intro frame page found owner
    exact absurd ⟨frame, page.order, ⟨page, found, by rw [owner]; decide, rfl⟩, rfl⟩ (untaken frame)
  · intro cache member other member' distinct
    exact absurd ((only member).trans (only member').symm) distinct

/-- Where a slab of records has room, booting goes on behind the first record. -/
private theorem bootstrap_of_written {answer : Except AllocFailure SlabAllocator}
    (room : 0 < Slab.capacity buddy.geometry.size CacheRecord.objectSize)
    (rest : Action.Answers (do
        let slab ← BuddyAllocator.createSlab place CacheRecord.objectSize
        BuddyAllocator.onRam do modify fun ram => Cache.setFirstSlab ram place .empty (some slab)
        Attempt.report (.bootstrapCacheReady
          (Slab.capacity buddy.geometry.size CacheRecord.objectSize))
        return ⟨buddy.geometry.size, place⟩ : Attempt BuddyAllocator SlabAllocator).outcome
      { buddy with ram := Cache.writeRecord buddy.ram place place CacheRecord.objectSize }
      answer after) :
    Action.Answers (SlabAllocator.bootstrap place).outcome buddy answer after := by
  unfold SlabAllocator.bootstrap
  refine Attempt.answers_bind_of_ok (Attempt.answers_outcome_get_iff.2 ⟨rfl, rfl⟩) ?_
  dsimp only
  rw [if_neg (Nat.ne_of_gt room)]
  exact Attempt.answers_bind_of_ok (answers_onRam_modify _) rest

private theorem bootstrap_of_small
    (room : Slab.capacity buddy.geometry.size CacheRecord.objectSize = 0) :
    Action.Answers (SlabAllocator.bootstrap place).outcome buddy
      (.error (.objectTooLarge CacheRecord.objectSize)) buddy := by
  unfold SlabAllocator.bootstrap
  refine Attempt.answers_bind_of_ok (Attempt.answers_outcome_get_iff.2 ⟨rfl, rfl⟩) ?_
  dsimp only
  rw [if_pos room]
  exact Attempt.answers_bind_of_error (Action.answers_pure_iff.2 ⟨rfl, rfl⟩)

/-- A slab allocator that is set up has one cache, with an empty slab and no seat taken. -/
theorem Sound.bootstrap (sound : buddy.Sound)
    (heap : (buddy.zones.get .heap).allocatable = true)
    (reserved : (buddy.zones.get .noHeap).allocatable = false)
    (untaken : ∀ frame, ¬ buddy.pages.Taken frame) (positive : 0 < place)
    (low : place + CacheRecord.size ≤ (buddy.zones.get .heap).start)
    (aligned : place % CacheRecord.alignment = 0) {allocator : SlabAllocator}
    (answers : Action.Answers (SlabAllocator.bootstrap place).outcome buddy (.ok allocator) after) :
    buddy.Steady after ∧ ∃ store slab, after.Stocked allocator store ∧
      store.Seated buddy.geometry.size [] [] ∧ store.caches = [place] ∧
        (store.stock place).all = [slab] ∧ (store.stock place).slabs .empty = [slab] := by
  rcases Nat.eq_zero_or_pos (Slab.capacity buddy.geometry.size CacheRecord.objectSize) with
    small | room
  · cases answers.value_unique (bootstrap_of_small small)
  have stocked := sound.stocked_initial heap reserved untaken positive low aligned room
  have opened := fun answer after => @bootstrap_of_written buddy after place answer room
  have steady := Steady.of_ram buddy
    (Cache.writeRecord buddy.ram place place CacheRecord.objectSize)
  -- from here on it does not matter what exactly was written
  generalize ({ buddy with
    ram := Cache.writeRecord buddy.ram place place CacheRecord.objectSize } :
      BuddyAllocator) = written at stocked opened steady
  have geometry := steady.geometry_eq
  have enough : 0 < Slab.capacity written.geometry.size CacheRecord.objectSize := by
    rw [geometry]
    exact room
  rcases stocked.sound.createSlab stocked.heap stocked.reserved enough with
    ⟨refused, -⟩ | ⟨frame, slab, middle, grown, created⟩
  · cases answers.value_unique (opened _ _ (Attempt.answers_bind_of_error refused))
  · have made := opened _ _ (Attempt.answers_bind_of_ok created (Attempt.answers_bind_of_ok
      (answers_onRam_modify _) (Attempt.answers_bind_of_ok
        (Attempt.answers_outcome_report_iff.2 ⟨rfl, rfl⟩)
        (Action.answers_pure_iff.2 ⟨rfl, rfl⟩))))
    obtain rfl := Except.ok.inj (answers.value_unique made)
    obtain rfl := answers.state_unique made
    have member : place ∈ (Store.initial place).caches := List.mem_cons_self
    have fresh := stocked.grown_fresh grown member
    refine ⟨(steady.trans (grown.steady stocked.sound stocked.heap)).trans (.of_ram middle _), _,
      slab, stocked.grow grown member ⟨rfl, rfl⟩, ?_, rfl, ?_⟩
    · rw [← geometry]
      exact (Store.seated_initial place _).mono (Store.retains_add fresh) rfl
    · rw [Store.stock_restock_self]
      exact ⟨rfl, rfl⟩

/-- A slab allocator can be set up where a frame of the heap is free for a slab of records. -/
theorem Sound.exists_bootstrap (sound : buddy.Sound)
    (heap : (buddy.zones.get .heap).allocatable = true)
    (reserved : (buddy.zones.get .noHeap).allocatable = false)
    (untaken : ∀ frame, ¬ buddy.pages.Taken frame) (positive : 0 < place)
    (low : place + CacheRecord.size ≤ (buddy.zones.get .heap).start)
    (aligned : place % CacheRecord.alignment = 0)
    (room : 0 < Slab.capacity buddy.geometry.size CacheRecord.objectSize) {frame : Nat}
    (free : (buddy.zones.get .heap).Has frame) :
    ∃ allocator after,
      Action.Answers (SlabAllocator.bootstrap place).outcome buddy (.ok allocator) after := by
  have stocked := sound.stocked_initial heap reserved untaken positive low aligned room
  rcases stocked.sound.createSlab stocked.heap stocked.reserved room with
    ⟨-, absent⟩ | ⟨frame, slab, middle, grown, created⟩
  · exact absurd ⟨free, untaken frame⟩ (absent frame)
  · exact ⟨_, _, bootstrap_of_written room (Attempt.answers_bind_of_ok created
      (Attempt.answers_bind_of_ok (answers_onRam_modify _) (Attempt.answers_bind_of_ok
        (Attempt.answers_outcome_report_iff.2 ⟨rfl, rfl⟩)
        (Action.answers_pure_iff.2 ⟨rfl, rfl⟩))))⟩

end BuddyAllocator

/-- How a manager comes to be: a plan is followed, the heap seeded, the first cache set up. -/
structure Booted (layout : MemoryLayout) (manager : Manager) (plan : BootPlan)
    (raw seeded : BuddyAllocator) : Prop where
  planned : (BootPlan.ofLayout layout).run = .ok (.ok plan)
  zones_eq : raw.zones = plan.zones
  described : DescriptorTable.describe plan.geometry layout.ramStart plan.totalPages
    plan.zoneOf (plan.recordPlace orderCount) = .ok raw.pages
  built : raw.Built seeded
  bootstrapped : Action.Answers (SlabAllocator.bootstrap plan.cachePlace).outcome seeded
    (.ok manager.tiers.slab) manager.tiers.buddy

/-- Building goes on from the seeded heap, and it ends as setting the slab allocator up does. -/
theorem BootPlan.build_answers {layout : MemoryLayout} {plan : BootPlan} {ram : Ram}
    {outcome : Except AllocFailure Tiers} (fits : plan.Fits layout)
    (answers : Action.Answers (plan.build ram) () outcome ()) :
    ∃ (raw seeded : BuddyAllocator) (slabs : Except AllocFailure SlabAllocator)
      (buddy : BuddyAllocator), raw.zones = plan.zones ∧
      DescriptorTable.describe plan.geometry layout.ramStart plan.totalPages plan.zoneOf
        (plan.recordPlace orderCount) = .ok raw.pages ∧ raw.Built seeded ∧
      Action.Answers (SlabAllocator.bootstrap plan.cachePlace).outcome seeded slabs buddy ∧
        outcome = slabs.map (Tiers.mk buddy) := by
  unfold BootPlan.build at answers
  simp only [Action.answers_bind_iff, Action.answers_report_iff, Action.liftM_eq_check,
    Action.answers_check_iff, Action.answers_runFrom_iff] at answers
  obtain ⟨_, _, _, _, _, _, pages, _, ⟨described, -⟩, ⟨⟨⟩, seeded⟩, _, ⟨seeding, -⟩,
    _, _, _, _, _, _,
    ⟨slabs, buddy⟩, _, ⟨bootstrapped, -⟩, answers⟩ := answers
  rw [fits.layout_eq] at described
  refine ⟨⟨ram, plan.zones, pages⟩, seeded, slabs, buddy, rfl, described,
    ⟨fits.prepared described ram, seeding⟩, bootstrapped, ?_⟩
  cases slabs with
  | error failure => exact (Action.answers_pure_iff.1 answers).1
  | ok slab =>
      simp only [Action.answers_bind_iff] at answers
      obtain ⟨_, _, _, _, _, _, answers⟩ := answers
      exact (Action.answers_pure_iff.1 answers).1

theorem Manager.boot_eq_ok {layout : MemoryLayout} {ram : Ram} {manager : Manager}
    (answers : Action.Answers (Manager.boot layout ram) () (.ok manager) ()) :
    ∃ plan raw seeded, Booted layout manager plan raw seeded := by
  unfold Manager.boot at answers
  simp only [Action.answers_bind_iff, Action.liftM_eq_check, Action.answers_check_iff] at answers
  obtain ⟨planned, _, ⟨found, -⟩, answers⟩ := answers
  cases planned with
  | error failure => cases (Action.answers_pure_iff.1 answers).1
  | ok plan =>
      simp only [Action.answers_bind_iff] at answers
      obtain ⟨built, _, building, answers⟩ := answers
      cases built with
      | error failure => cases (Action.answers_pure_iff.1 answers).1
      | ok tiers =>
          obtain rfl := Except.ok.inj (Action.answers_pure_iff.1 answers).1
          obtain ⟨raw, seeded, slabs, buddy, zones_eq, described, built, bootstrapped, same⟩ :=
            BootPlan.build_answers (BootPlan.ofLayout_eq_ok found) building
          cases slabs with
          | error failure => cases same
          | ok slab =>
              obtain rfl := Except.ok.inj same
              exact ⟨plan, raw, seeded, found, zones_eq, described, built, bootstrapped⟩

namespace Booted

variable {layout : MemoryLayout} {manager : Manager} {plan : BootPlan}
  {raw seeded : BuddyAllocator}

theorem regions_below (booted : Booted layout manager plan raw seeded) {region : Region}
    (member : region ∈ plan.regions) : region.stop ≤ plan.heapStart := by
  have fits := BootPlan.ofLayout_eq_ok booted.planned
  exact Nat.le_trans (fits.laid.bounds.2 region member).2.2 fits.heap_above

theorem cache_region (booted : Booted layout manager plan raw seeded) :
    plan.regions.getLast? = some ⟨plan.cachePlace, plan.cachePlace + CacheRecord.size⟩ ∧
      plan.cachePlace % CacheRecord.alignment = 0 :=
  (BootPlan.ofLayout_eq_ok booted.planned).cache_region

/-- The zones are still those of the plan, and the one cache has one slab. -/
theorem opened (booted : Booted layout manager plan raw seeded) :
    (∀ id, Zone.Alike (plan.zones.get id) (seeded.zones.get id)) ∧
      seeded.Steady manager.tiers.buddy ∧ ∃ store slab,
        manager.tiers.buddy.Stocked manager.tiers.slab store ∧
          store.Seated manager.tiers.buddy.geometry.size [] [] ∧
            store.caches = [plan.cachePlace] ∧ (store.stock plan.cachePlace).all = [slab] ∧
              (store.stock plan.cachePlace).slabs .empty = [slab] := by
  obtain ⟨sound, -, alike, untaken⟩ := booted.built.sound
  obtain ⟨positive, low, aligned⟩ := (BootPlan.ofLayout_eq_ok booted.planned).cachePlace_bounds
  have zone : ∀ id, Zone.Alike (plan.zones.get id) (seeded.zones.get id) := fun id => by
    rw [← booted.zones_eq]
    exact alike id
  have start : (seeded.zones.get .heap).start = plan.heapStart := (zone .heap).start_eq
  obtain ⟨steady, opened⟩ := sound.bootstrap (zone .heap).allocatable_eq
    (zone .noHeap).allocatable_eq untaken positive (by rw [start]; exact low) aligned
      booted.bootstrapped
  rw [← steady.geometry_eq] at opened
  exact ⟨zone, steady, opened⟩

theorem geometry_eq (booted : Booted layout manager plan raw seeded) :
    manager.tiers.buddy.geometry = plan.geometry := by
  obtain ⟨zone, steady, -⟩ := booted.opened
  have heap := booted.built.sound.1.geometry_eq .heap
  exact steady.geometry_eq.trans (heap.symm.trans (zone .heap).geometry_eq)

/-- The first cache has a slab to hand objects out of, and no other size has a cache yet. -/
theorem awaits (booted : Booted layout manager plan raw seeded) {size : Nat}
    (other : size ≠ CacheRecord.objectSize) :
    ∃ store, manager.tiers.buddy.Stocked manager.tiers.slab store ∧
      store.Seated manager.tiers.buddy.geometry.size [] [] ∧
        manager.tiers.buddy.Awaits store size manager.tiers.buddy.freeFrames.length [] 0 := by
  obtain ⟨-, -, store, slab, stocked, seated, caches, -, empty⟩ := booted.opened
  have head : store.head = plan.cachePlace := (List.cons.inj caches).1
  refine ⟨store, stocked, seated, .first (fun cache there same => other ?_) (fun none => ?_) rfl⟩
  · rw [caches, List.mem_singleton] at there
    rw [← same, there, ← head, stocked.head_size]
  · rw [head, empty] at none
    cases none.2

theorem unlent (booted : Booted layout manager plan raw seeded) {frame : Nat} {page : Page}
    (found : manager.tiers.buddy.pages.page? frame = some page) : page.owner ≠ .buddy := by
  intro owner
  obtain ⟨-, steady, -⟩ := booted.opened
  have before := (steady.lent frame page owner).1 found
  exact booted.built.sound.2.2.2 frame
    ⟨frame, page.order, ⟨page, before, by rw [owner]; decide, rfl⟩, rfl⟩

theorem accounts (booted : Booted layout manager plan raw seeded) :
    (Session.start manager).AccountsForLive ⟨{}, plan.zones, manager.tiers.buddy.pages⟩ := by
  obtain ⟨zone, steady, store, slab, stocked, seated, -⟩ := booted.opened
  exact ⟨store, [], [], [], ⟨stocked, seated,
    ⟨fun block member => absurd member List.not_mem_nil, List.nodup_nil,
      fun frame page found owner => absurd owner (booted.unlent found)⟩,
    steady.unownedBare booted.built.unownedBare,
    ⟨fun id => (zone id).trans (steady.alike id), rfl, rfl, rfl, fun _ => rfl,
      fun _ _ _ found => found⟩⟩,
    .refl _⟩

end Booted

namespace Session

/--
Whatever is called on a manager that was booted, refusals, halts and writes of
those who hold memory included: at every point the live allocations are apart from
each other, lie in the heap, and have no byte in common with a slab's header or
links, the record of a cache, a free block or the boot records.
-/
theorem run_noOverlap {layout : MemoryLayout} {ram : Ram} {manager : Manager}
    (booted : Action.Answers (Manager.boot layout ram) () (.ok manager) ()) :
    ∃ plan, (BootPlan.ofLayout layout).run = .ok (.ok plan) ∧
      ∀ calls, (start manager).Allows calls → ((start manager).run calls).NoOverlap plan := by
  obtain ⟨plan, raw, seeded, booted⟩ := Manager.boot_eq_ok booted
  refine ⟨plan, booted.planned, fun calls allowed => ?_⟩
  exact (booted.accounts.run allowed).noOverlap rfl fun region => booted.regions_below

def sampleManager : Manager :=
  match ((Manager.boot .sixteenPages).run ()).result with
  | .ok (.ok manager) => manager
  | _ => default

theorem sampleManager_booted :
    Action.Answers (Manager.boot .sixteenPages) () (.ok sampleManager) () := by
  have booted : (match ((Manager.boot .sixteenPages).run ()).result with
      | .ok (.ok _) => true
      | _ => false) = true := by decide +kernel
  unfold sampleManager Action.Answers
  generalize ((Manager.boot .sixteenPages).run ()).result = result at booted
  refine ⟨?_, Subsingleton.elim _ _⟩
  rcases result with halt | failure | manager
  · cases booted
  · cases booted
  · rfl

/-- On a small machine an object, an aligned object and pages are live, and one is given back. -/
theorem run_noOverlap_sample :
    Action.Answers (Manager.boot .sixteenPages) () (.ok sampleManager) () ∧
    ((start sampleManager).run [.allocate 24, .allocateAligned 40 64, .allocatePages 1,
      .release 5724]).live = [⟨7168, 1024⟩, ⟨6208, 40⟩] ∧
    ∃ plan, (BootPlan.ofLayout .sixteenPages).run = .ok (.ok plan) ∧
      ((start sampleManager).run [.allocate 24, .allocateAligned 40 64, .allocatePages 1,
        .release 5724]).NoOverlap plan := by
  refine ⟨sampleManager_booted, by decide +kernel, ?_⟩
  obtain ⟨plan, planned, apart⟩ := run_noOverlap sampleManager_booted
  refine ⟨plan, planned, apart _ ⟨trivial, trivial, trivial, fun _ => .inl ?_, trivial⟩⟩
  decide +kernel

end Session

end PhysicalMemory
