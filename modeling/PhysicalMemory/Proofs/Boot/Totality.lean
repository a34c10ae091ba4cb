import PhysicalMemory.Proofs.Boot.Refusals
import PhysicalMemory.Proofs.Buddy.Conservation
import PhysicalMemory.Proofs.Buddy.Cover

/-!
# Where booting halts

Booting is a total function of the layout up to seeding: planning never halts, and
nothing behind a seeded heap does.  Seeding halts for some layouts that were not
refused: where the bytes of a largest block are no word, and where the heap has a
page from which a block up to the largest ends just where all addresses do.
-/

namespace PhysicalMemory

namespace MemoryLayout

def Accepted (layout : MemoryLayout) : Prop :=
  layout.HasPages ∧ layout.HasWindow ∧ layout.HoldsKernel ∧ layout.HasHeap

/-- The bytes of a largest block are no word. -/
def Oversized (layout : MemoryLayout) : Prop :=
  Word.limit ≤ layout.pageSize <<< topOrder

/-- The last block of some order, the one that ends where all addresses do, begins in the heap. -/
def Overruns (layout : MemoryLayout) : Prop :=
  ∃ order ≤ topOrder, layout.heapStart + layout.pageSize <<< order ≤ Word.limit ∧
    Word.limit < layout.ramStart + layout.ramSize + layout.pageSize <<< order

instance (layout : MemoryLayout) : Decidable layout.Accepted :=
  inferInstanceAs (Decidable (_ ∧ _ ∧ _ ∧ _))

instance (layout : MemoryLayout) : Decidable layout.Oversized :=
  inferInstanceAs (Decidable (_ ≤ _))

instance (layout : MemoryLayout) : Decidable layout.Overruns :=
  inferInstanceAs (Decidable (∃ order ≤ topOrder, _))

end MemoryLayout

namespace BootPlan

theorem reportZone_answers {zone : Zone} (stop_lt : zone.start + zone.size < Word.limit) :
    Action.Answers (reportZone zone) () () () :=
  Action.answers_check_bind_iff.2 ⟨_, Word.add_of_lt stop_lt, Action.answers_report_iff.2 rfl⟩

namespace Fits

variable {layout : MemoryLayout} {plan : BootPlan}

theorem reserved_zone_stop (fits : plan.Fits layout) :
    plan.zones.noHeap.start + plan.zones.noHeap.size = plan.heapStart := by
  change plan.layout.ramStart + (plan.heapStart - plan.layout.ramStart) = plan.heapStart
  rw [fits.layout_eq]
  exact Nat.add_sub_cancel' (Nat.le_trans fits.kernel_above fits.kernel_below)

theorem heap_zone_stop (fits : plan.Fits layout) :
    plan.zones.heap.start + plan.zones.heap.size = plan.ramEnd :=
  fits.heap_stop

theorem oversized_iff (fits : plan.Fits layout) :
    layout.Oversized ↔ 64 ≤ plan.geometry.shift + topOrder := by
  have words : Word.limit = 2 ^ 64 := rfl
  rw [MemoryLayout.Oversized, fits.page_size, Geometry.size, ← Nat.shiftLeft_add,
    Nat.one_shiftLeft, words]
  exact Nat.pow_le_pow_iff_right (by decide : 1 < 2)

theorem pageSize_shiftLeft (fits : plan.Fits layout) (order : Nat) :
    layout.pageSize <<< order = 1 <<< (plan.geometry.shift + order) := by
  rw [fits.page_size, Geometry.size, Nat.shiftLeft_add]

theorem overruns_iff (fits : plan.Fits layout) (start : plan.heapStart = layout.heapStart) :
    layout.Overruns ↔ ∃ order ≤ topOrder, ∃ frame, plan.zones.heap.Has frame ∧
      plan.geometry.BeginsLast order frame := by
  refine exists_congr fun order => and_congr_right fun _ => ?_
  rw [← start, ← fits.ram_end, fits.pageSize_shiftLeft]
  constructor
  · rintro ⟨low, high⟩
    have fewer : 2 ^ order ≤ 2 ^ (64 - plan.geometry.shift) := by
      refine Nat.le_of_mul_le_mul_right ?_ plan.geometry.size_pos
      rw [Geometry.mul_size_eq_limit, Geometry.size, Nat.one_shiftLeft, ← Nat.pow_add,
        Nat.add_comm, ← Nat.one_shiftLeft]
      exact Nat.le_trans (Nat.le_add_left _ _) low
    have last : plan.geometry.BeginsLast order (2 ^ (64 - plan.geometry.shift) - 2 ^ order) :=
      Geometry.beginsLast_iff.2 (Nat.sub_add_cancel fewer)
    refine ⟨_, (fits.heap_has_iff_place _).2 ?_, last⟩
    rw [Geometry.BeginsLast] at last
    omega
  · rintro ⟨frame, has, last⟩
    have place := (fits.heap_has_iff_place frame).1 has
    rw [Geometry.BeginsLast] at last
    omega

/-- If no last block begins in the heap, a page fits behind it below the end of addresses. -/
theorem above_of_not_overruns (fits : plan.Fits layout) (start : plan.heapStart = layout.heapStart)
    (none : ¬ layout.Overruns) : plan.ramEnd + plan.geometry.size < Word.limit := by
  refine Nat.lt_of_not_le fun reached => none ⟨1, by decide, ?_⟩
  have page : plan.heapStart + plan.geometry.size ≤ plan.ramEnd := by
    have last := fits.heap_has_first.2
    rw [fits.heap_zone_stop, Nat.succ_mul] at last
    rwa [← fits.frameOf_heapStart]
  have behind : plan.ramEnd + plan.geometry.size ≤ Word.limit :=
    Word.add_one_shiftLeft_le plan.geometry.shift_lt.le fits.ram_end_aligned fits.ram_end_lt
  have positive := plan.geometry.size_pos
  rw [← start, ← fits.ram_end, fits.page_size, Nat.shiftLeft_eq]
  omega

theorem exists_describe (fits : plan.Fits layout) :
    ∃ pages, DescriptorTable.describe plan.geometry layout.ramStart plan.totalPages plan.zoneOf
      (plan.recordPlace orderCount) = .ok pages := by
  have whole : plan.totalPages * plan.geometry.size = layout.ramSize := by
    rw [fits.total_pages]
    exact Nat.div_mul_cancel (Nat.dvd_of_mod_eq_zero fits.ram_whole)
  have word := fits.ram_end_lt
  rw [fits.ram_end] at word
  refine ⟨_, if_neg ?_⟩
  rw [whole]
  exact fun large => absurd word (Nat.not_lt.2 large.2)

theorem build_halts (fits : plan.Fits layout) {ram : Ram} {cause : Halt} {pool : Pool}
    (halts : Action.Halts Pool.seed ⟨ram, plan.zones.heap⟩ cause pool) :
    Action.Halts (plan.build ram) () cause () := by
  obtain ⟨pages, described⟩ := fits.exists_describe
  have seeding : Action.Halts BuddyAllocator.seed ⟨ram, plan.zones, pages⟩ cause _ :=
    (BuddyAllocator.seed_endsAs rfl rfl).halts_iff.2
      (BuddyAllocator.halts_inZone_iff.2 ⟨pool, halts, rfl⟩)
  unfold BootPlan.build
  rw [fits.layout_eq]
  refine Action.halts_bind_iff.2 (.inr ⟨(), (), Action.answers_report_iff.2 rfl, ?_⟩)
  refine Action.halts_bind_iff.2 (.inr ⟨(), (), Action.answers_report_iff.2 rfl, ?_⟩)
  refine Action.halts_check_bind_iff.2 (.inr ⟨pages, described, ?_⟩)
  exact Action.halts_bind_iff.2 (.inl (Action.halts_runFrom_iff.2 ⟨⟨_, seeding⟩, rfl⟩))

theorem exists_build (fits : plan.Fits layout) {ram : Ram} {pool : Pool}
    (answers : Action.Answers Pool.seed ⟨ram, plan.zones.heap⟩ () pool) :
    ∃ tiers, Action.Answers (plan.build ram) () (.ok tiers) () := by
  obtain ⟨pages, described⟩ := fits.exists_describe
  have seeding : Action.Answers BuddyAllocator.seed ⟨ram, plan.zones, pages⟩ () _ :=
    (BuddyAllocator.seed_endsAs rfl rfl).answers_iff.2
      (BuddyAllocator.answers_inZone_iff.2 ⟨pool, answers, rfl⟩)
  have built : BuddyAllocator.Built ⟨ram, plan.zones, pages⟩ _ :=
    ⟨fits.prepared described ram, seeding⟩
  obtain ⟨-, -, alike, -⟩ := built.sound
  obtain ⟨slab, buddy, bootstrapped, sound⟩ := fits.exists_bootstrap rfl built
  have reserved : ∀ {zone : Zone}, Zone.Alike plan.zones.noHeap zone →
      Action.Answers (reportZone zone) () () () := fun {zone} same => by
    refine reportZone_answers ?_
    rw [same.start_eq, same.size_eq, fits.reserved_zone_stop]
    exact Nat.lt_trans fits.heap_below fits.ram_end_lt
  have heap : ∀ {zone : Zone}, Zone.Alike plan.zones.heap zone →
      Action.Answers (reportZone zone) () () () := fun {zone} same => by
    refine reportZone_answers ?_
    rw [same.start_eq, same.size_eq, fits.heap_zone_stop]
    exact fits.ram_end_lt
  refine ⟨⟨buddy, slab⟩, ?_⟩
  unfold BootPlan.build
  rw [fits.layout_eq]
  refine Action.answers_bind_iff.2 ⟨(), (), Action.answers_report_iff.2 rfl, ?_⟩
  refine Action.answers_bind_iff.2 ⟨(), (), Action.answers_report_iff.2 rfl, ?_⟩
  refine Action.answers_check_bind_iff.2 ⟨pages, described, ?_⟩
  refine Action.answers_bind_iff.2
    ⟨((), _), (), Action.answers_runFrom_iff.2 ⟨seeding, rfl⟩, ?_⟩
  refine Action.answers_bind_iff.2 ⟨(), (), reserved (alike .noHeap), ?_⟩
  refine Action.answers_bind_iff.2 ⟨(), (), heap (alike .heap), ?_⟩
  refine Action.answers_bind_iff.2
    ⟨(.ok slab, buddy), (), Action.answers_runFrom_iff.2 ⟨bootstrapped, rfl⟩, ?_⟩
  refine Action.answers_check_bind_iff.2 ⟨_, sound.freeBytes_eq, ?_⟩
  refine Action.answers_bind_iff.2 ⟨(), (), Action.answers_report_iff.2 rfl, ?_⟩
  exact Action.answers_pure_iff.2 ⟨rfl, rfl⟩

/-- Following a plan halts for the two kinds of layouts whose heap cannot be seeded, or answers. -/
theorem build_cases (fits : plan.Fits layout) (start : plan.heapStart = layout.heapStart)
    (ram : Ram) :
    (layout.Oversized ∧ Action.Halts (plan.build ram) () (.overflow .subtract) ()) ∨
      (¬ layout.Oversized ∧ layout.Overruns ∧
        Action.Halts (plan.build ram) () (.overflow .add) ()) ∨
        (¬ layout.Oversized ∧ ¬ layout.Overruns ∧
          ∃ tiers, Action.Answers (plan.build ram) () (.ok tiers) ()) := by
  have stop_lt : plan.zones.heap.start + plan.zones.heap.size < Word.limit := by
    rw [fits.heap_zone_stop]
    exact fits.ram_end_lt
  by_cases oversized : layout.Oversized
  · refine .inl ⟨oversized, fits.build_halts (Pool.seed_halts_of_large fits.heap_aligned stop_lt
      fits.heap_has_first (fits.oversized_iff.1 oversized))⟩
  have ready : plan.zones.heap.Ready :=
    fits.heap_blank.ready (Nat.le_trans (by decide : 8 ≤ minPageSize) fits.large)
      fits.heap_aligned stop_lt fun _ _ =>
        Nat.lt_of_not_le fun large => oversized (fits.oversized_iff.2 large)
  by_cases overruns : layout.Overruns
  · obtain ⟨order, le, frame, has, last⟩ := (fits.overruns_iff start).1 overruns
    obtain ⟨pool, halts⟩ : ∃ pool, Action.Halts Pool.seed ⟨ram, plan.zones.heap⟩ (.overflow .add)
        pool := Pool.seed_halts fits.heap_blank ready has le last
    exact .inr (.inl ⟨oversized, overruns, fits.build_halts halts⟩)
  · have above := fits.above_of_not_overruns start overruns
    rw [← fits.heap_zone_stop] at above
    obtain ⟨pool, answers⟩ : ∃ pool, Action.Answers Pool.seed ⟨ram, plan.zones.heap⟩ () pool :=
      Pool.exists_seed fits.heap_blank ready above fun frame has order le last =>
        overruns ((fits.overruns_iff start).2 ⟨order, le, frame, has, last⟩)
    exact .inr (.inr ⟨oversized, overruns, fits.exists_build answers⟩)

end Fits

end BootPlan

/-- Booting halts just when following a plan does. -/
theorem Manager.boot_halts_iff_build {layout : MemoryLayout} {ram : Ram} {cause : Halt} :
    Action.Halts (Manager.boot layout ram) () cause () ↔
      ∃ plan, (BootPlan.ofLayout layout).run = .ok (.ok plan) ∧
        Action.Halts (plan.build ram) () cause () := by
  unfold Manager.boot
  simp only [Action.liftM_eq_check, Action.halts_check_bind_iff]
  constructor
  · rintro (⟨halted, -⟩ | ⟨outcome, planned, halts⟩)
    · obtain ⟨outcome, planned, -⟩ := BootPlan.exists_verdict layout
      rw [planned] at halted
      cases halted
    · cases outcome with
      | error failure => exact (Action.halts_pure_iff.1 halts).elim
      | ok plan =>
          rcases Action.halts_bind_iff.1 halts with building | ⟨built, _, -, halts⟩
          · exact ⟨plan, planned, building⟩
          · cases built with
            | error failure => exact (Action.halts_pure_iff.1 halts).elim
            | ok tiers => exact (Action.halts_pure_iff.1 halts).elim
  · rintro ⟨plan, planned, halts⟩
    exact .inr ⟨.ok plan, planned, Action.halts_bind_iff.2 (.inl halts)⟩

theorem MemoryLayout.accepted_iff {layout : MemoryLayout} :
    layout.Accepted ↔ ∃ plan, (BootPlan.ofLayout layout).run = .ok (.ok plan) := by
  constructor
  · rintro ⟨pages, window, kernel, heap⟩
    obtain ⟨outcome, planned, verdict⟩ := BootPlan.exists_verdict layout
    cases verdict with
    | pages lacks => exact absurd pages lacks
    | window _ lacks => exact absurd window lacks
    | kernel _ _ lacks => exact absurd kernel lacks
    | heap _ _ _ _ lacks => exact absurd heap lacks
    | planned plan => exact ⟨plan, planned⟩
  · rintro ⟨plan, planned⟩
    cases BootPlan.verdict_of_run planned with
    | planned _ pages window kernel heap => exact ⟨pages, window, kernel, heap⟩

theorem BootPlan.heapStart_of_run {layout : MemoryLayout} {plan : BootPlan}
    (planned : (ofLayout layout).run = .ok (.ok plan)) : plan.heapStart = layout.heapStart := by
  cases verdict_of_run planned with
  | planned _ _ _ _ _ start => exact start

/-- An accepted layout is booted unless its heap cannot be seeded. -/
theorem Manager.exists_boot {layout : MemoryLayout} (accepted : layout.Accepted)
    (word : ¬ layout.Oversized) (ends : ¬ layout.Overruns) (ram : Ram) :
    ∃ manager, Action.Answers (Manager.boot layout ram) () (.ok manager) () := by
  obtain ⟨plan, planned⟩ := MemoryLayout.accepted_iff.1 accepted
  rcases (BootPlan.ofLayout_eq_ok planned).build_cases (BootPlan.heapStart_of_run planned) ram with
    ⟨oversized, -⟩ | ⟨-, overruns, -⟩ | ⟨-, -, tiers, answers⟩
  · exact absurd oversized word
  · exact absurd overruns ends
  · refine ⟨⟨layout, tiers⟩, Action.answers_check_bind_iff.2 ⟨.ok plan, planned, ?_⟩⟩
    exact Action.answers_bind_iff.2 ⟨.ok tiers, (), answers, Action.answers_pure_iff.2 ⟨rfl, rfl⟩⟩

/--
Booting halts just for accepted layouts whose heap cannot be seeded: blocks of the
largest order are too large for a word, or one up to that order that begins in the
heap ends where all addresses do.
-/
theorem Manager.boot_halts_iff (layout : MemoryLayout) (ram : Ram) (cause : Halt) :
    Action.Halts (Manager.boot layout ram) () cause () ↔ layout.Accepted ∧
      (layout.Oversized ∧ cause = .overflow .subtract ∨
        ¬ layout.Oversized ∧ layout.Overruns ∧ cause = .overflow .add) := by
  rw [boot_halts_iff_build, MemoryLayout.accepted_iff, ← exists_and_right]
  refine exists_congr fun plan => and_congr_right fun planned => ?_
  rcases (BootPlan.ofLayout_eq_ok planned).build_cases (BootPlan.heapStart_of_run planned) ram with
    ⟨oversized, halts⟩ | ⟨word, overruns, halts⟩ | ⟨word, none, tiers, answers⟩
  · refine ⟨fun halts' => .inl ⟨oversized, halts'.cause_unique halts⟩, ?_⟩
    rintro (⟨-, rfl⟩ | ⟨word, -⟩)
    · exact halts
    · exact absurd oversized word
  · refine ⟨fun halts' => .inr ⟨word, overruns, halts'.cause_unique halts⟩, ?_⟩
    rintro (⟨oversized, -⟩ | ⟨-, -, rfl⟩)
    · exact absurd oversized word
    · exact halts
  · refine ⟨fun halts' => absurd answers halts'.not_answers, ?_⟩
    rintro (⟨oversized, -⟩ | ⟨-, overruns, -⟩)
    · exact absurd oversized word
    · exact absurd overruns none

def MemoryLayout.highPages : MemoryLayout :=
  ⟨0xffffffffffffd000, 0x2000, 0xffffffffffffd000, 0x1000⟩

def MemoryLayout.widePages : MemoryLayout :=
  ⟨2 ^ 54, 2 ^ 55, 2 ^ 54, 2 ^ 54⟩

private theorem halts_of_result {layout : MemoryLayout} {cause : Halt}
    (result : (match ((Manager.boot layout).run ()).result with
      | .error other => decide (other = cause)
      | .ok _ => false) = true) : Action.Halts (Manager.boot layout) () cause () := by
  refine ⟨?_, Subsingleton.elim _ _⟩
  split at result
  · next other halted => rw [halted, of_decide_eq_true result]
  · cases result

/-- Either kind of layout that is accepted and halts occurs, so booting does not always answer. -/
theorem Manager.not_boot_answers :
    MemoryLayout.highPages.Accepted ∧
      Action.Halts (Manager.boot .highPages) () (.overflow .add) () ∧
    MemoryLayout.widePages.Accepted ∧
      Action.Halts (Manager.boot .widePages) () (.overflow .subtract) () ∧
    ¬ ∀ layout, ∃ outcome, Action.Answers (Manager.boot layout) () outcome () := by
  have high : Action.Halts (Manager.boot .highPages) () (.overflow .add) () :=
    halts_of_result (by decide +kernel)
  have wide : Action.Halts (Manager.boot .widePages) () (.overflow .subtract) () :=
    halts_of_result (by decide +kernel)
  refine ⟨by decide +kernel, high, by decide +kernel, wide, fun answered => ?_⟩
  obtain ⟨outcome, answers⟩ := answered .highPages
  exact high.not_answers answers

end PhysicalMemory
