import PhysicalMemory.Proofs.Buddy.Allocator
import PhysicalMemory.Proofs.Buddy.Seed

/-!
# Runs of the buddy allocator

An allocator is prepared when its zones are blank and its table describes their
pages, and built when it was prepared and then seeded.  What one call can do is
said once, for calls that halt too: nothing, hand a block out, take one back, or
write in one.  So every allocator that any calls lead to from a built one is sound.
-/

namespace PhysicalMemory

namespace BuddyAllocator

open Cell (Within)

/-- An allocator as it is before its zones are seeded. -/
structure Prepared (raw : BuddyAllocator) : Prop where
  linkable : 8 ≤ raw.geometry.size
  geometry_eq : ∀ id, (raw.zones.get id).geometry = raw.geometry
  blank : ∀ id, (raw.zones.get id).allocatable = true → (raw.zones.get id).Blank
  idle : ∀ id, (raw.zones.get id).allocatable = false → ∀ order < orderCount,
    ((raw.zones.get id).areaOf order).free = {} ∧
      ((raw.zones.get id).areaOf order).pairs.order = order
  described : ∃ start length zoneOf place, start % raw.geometry.size = 0 ∧
    DescriptorTable.describe raw.geometry start length zoneOf place = .ok raw.pages
  tagged : ∀ id, (raw.zones.get id).allocatable = true → ∀ frame,
    (raw.zones.get id).Has frame → ∃ page, raw.pages.page? frame = some page ∧ page.zone = id

/-- The allocator was prepared and then seeded without a halt. -/
structure Built (raw buddy : BuddyAllocator) : Prop where
  prepared : raw.Prepared
  seeded : Action.Answers seed raw () buddy

def overwrite (buddy : BuddyAllocator) (start offset : Nat) (value : UInt8) : BuddyAllocator :=
  match buddy.pages.page? (buddy.geometry.frameOf start) with
  | some page =>
      if page.owner = .buddy ∧ offset < buddy.geometry.size <<< page.order then
        { buddy with ram := buddy.ram.setByte (page.start + offset) value }
      else buddy
  | none => buddy

/-- What can be asked of an allocator, with any arguments, and the writes of block holders. -/
inductive Call where
  | allocate (order : Nat)
  | free (start order : Nat)
  | write (start offset : Nat) (value : UInt8)

def Call.perform (buddy : BuddyAllocator) : Call → BuddyAllocator
  | .allocate order => ((BuddyAllocator.allocate order).outcome.run buddy).state
  | .free start order => ((BuddyAllocator.free start order).run buddy).state
  | .write start offset value => buddy.overwrite start offset value

def run (buddy : BuddyAllocator) (calls : List Call) : BuddyAllocator :=
  calls.foldl Call.perform buddy

variable {raw buddy after : BuddyAllocator}

/-- The zones with some ids are blank still, and the others are coalesced over all their frames. -/
structure Seeding (buddy : BuddyAllocator) (ids : List ZoneId) : Prop where
  linkable : ∀ id, 8 ≤ (buddy.zones.get id).geometry.size
  geometry_eq : ∀ id other, (buddy.zones.get id).geometry = (buddy.zones.get other).geometry
  apart : ∀ id other frame, (buddy.zones.get id).allocatable = true →
    (buddy.zones.get other).allocatable = true → (buddy.zones.get id).Has frame →
      (buddy.zones.get other).Has frame → id = other
  blank : ∀ id ∈ ids, (buddy.zones.get id).allocatable = true → (buddy.zones.get id).Blank
  done : ∀ id ∉ ids, (buddy.zones.get id).allocatable = true →
    ∃ cells, (buddy.pool id).Coalesced cells (buddy.zones.get id).Has

structure SeedsTo (buddy after : BuddyAllocator) : Prop where
  pages_eq : after.pages = buddy.pages
  alike : ∀ id, Zone.Alike (buddy.zones.get id) (after.zones.get id)
  kept : ∀ id, (buddy.zones.get id).allocatable = false → after.zones.get id = buddy.zones.get id

theorem SeedsTo.refl (buddy : BuddyAllocator) : buddy.SeedsTo buddy :=
  ⟨rfl, fun _ => .refl _, fun _ _ => rfl⟩

theorem SeedsTo.trans {middle : BuddyAllocator} (first : buddy.SeedsTo middle)
    (second : middle.SeedsTo after) : buddy.SeedsTo after where
  pages_eq := second.pages_eq.trans first.pages_eq
  alike := fun id => (first.alike id).trans (second.alike id)
  kept := fun id there => by
    rw [second.kept id (by rwa [(first.alike id).allocatable_eq]), first.kept id there]

theorem Prepared.seeding (prepared : raw.Prepared) : raw.Seeding ZoneId.all where
  linkable := fun id => by
    rw [prepared.geometry_eq]
    exact prepared.linkable
  geometry_eq := fun id other => (prepared.geometry_eq id).trans (prepared.geometry_eq other).symm
  apart := by
    intro id other frame there there' has has'
    obtain ⟨page, found, rfl⟩ := prepared.tagged id there frame has
    obtain ⟨page', found', rfl⟩ := prepared.tagged other there' frame has'
    rw [found] at found'
    rw [Option.some.inj found']
  blank := fun id _ => prepared.blank id
  done := fun id absent => absurd (ZoneId.mem_all id) absent

namespace Seeding

variable {id : ZoneId} {ids rest : List ZoneId}

theorem skip (seeding : buddy.Seeding (id :: rest))
    (reserved : (buddy.zones.get id).allocatable ≠ true) : buddy.Seeding rest where
  linkable := seeding.linkable
  geometry_eq := seeding.geometry_eq
  apart := seeding.apart
  blank := fun other member => seeding.blank other (List.mem_cons_of_mem _ member)
  done := by
    intro other absent there
    refine seeding.done other ?_ there
    rintro (_ | ⟨_, member⟩)
    · exact reserved there
    · exact absent member

/-- Seeding a zone coalesces it and leaves the others as they were. -/
theorem step (seeding : buddy.Seeding (id :: rest)) (fresh : id ∉ rest)
    (allocatable : (buddy.zones.get id).allocatable = true) {pool : Pool}
    (laid : Action.Answers Pool.seed (buddy.pool id) () pool) :
    (buddy.withPool id pool buddy.pages).Seeding rest ∧
      buddy.SeedsTo (buddy.withPool id pool buddy.pages) := by
  have clear : (buddy.pool id).zone.Blank := seeding.blank id List.mem_cons_self allocatable
  obtain ⟨cells, coalesced, touches⟩ := Pool.Coalesced.seed clear (seeding.linkable id) laid
  have alike : ∀ other, Zone.Alike (buddy.zones.get other)
      ((buddy.withPool id pool buddy.pages).zones.get other) := withPool_alike touches.alike
  have kept : ∀ other, (buddy.zones.get other).allocatable = false →
      (buddy.withPool id pool buddy.pages).zones.get other = buddy.zones.get other := by
    intro other there
    rw [withPool_zone, if_neg]
    rintro rfl
    rw [allocatable] at there
    cases there
  refine ⟨⟨?_, ?_, ?_, ?_, ?_⟩, rfl, alike, kept⟩
  · intro other
    rw [(alike other).geometry_eq]
    exact seeding.linkable other
  · intro first second
    rw [(alike first).geometry_eq, (alike second).geometry_eq]
    exact seeding.geometry_eq first second
  · intro first second frame there there' has has'
    rw [(alike _).allocatable_eq] at there there'
    rw [(alike _).has_iff] at has has'
    exact seeding.apart first second frame there there' has has'
  · intro other member there
    rw [(alike other).allocatable_eq] at there
    rw [withPool_zone, if_neg (by rintro rfl; exact fresh member)]
    exact seeding.blank other (List.mem_cons_of_mem _ member) there
  · intro other absent there
    rw [(alike other).allocatable_eq] at there
    by_cases same : other = id
    · subst same
      rw [withPool_pool_self]
      exact ⟨cells, coalesced.congr_free fun frame => ((alike other).has_iff frame).symm⟩
    · obtain ⟨cells', coalesced'⟩ := seeding.done other
        (fun member => (List.mem_cons.1 member).elim same absent) there
      refine ⟨cells', Pool.Coalesced.congr_free (coalesced_withPool_of_ne same coalesced' touches
        (seeding.geometry_eq id other) ?_) fun frame => ((alike other).has_iff frame).symm⟩
      exact fun frame has has' =>
        same (seeding.apart other id frame there allocatable has' has)

/-- Seeding zones one after the other leaves each coalesced over all its frames. -/
theorem run (seeding : buddy.Seeding ids) (nodup : ids.Nodup)
    (answers : Action.Answers (seedZones ids) buddy () after) :
    after.Seeding [] ∧ buddy.SeedsTo after := by
  induction ids generalizing buddy with
  | nil =>
      obtain ⟨-, rfl⟩ := Action.answers_pure_iff.1 answers
      exact ⟨seeding, .refl _⟩
  | cons id rest ih =>
      obtain ⟨fresh, nodup⟩ := List.nodup_cons.1 nodup
      simp only [seedZones, Action.answers_get_bind_iff] at answers
      by_cases allocatable : (buddy.zones.get id).allocatable = true
      · rw [if_pos allocatable] at answers
        obtain ⟨⟨⟩, middle, seeded, answers⟩ := Action.answers_bind_iff.1 answers
        obtain ⟨pool, laid, rfl⟩ := answers_inZone_iff.1 seeded
        obtain ⟨seeding', first⟩ := seeding.step fresh allocatable laid
        obtain ⟨finished, others⟩ := ih seeding' nodup answers
        exact ⟨finished, first.trans others⟩
      · rw [if_neg allocatable] at answers
        exact ih (seeding.skip allocatable) nodup answers

end Seeding

/-- A built allocator is sound, and nobody holds a page of it. -/
theorem Built.sound (built : Built raw buddy) :
    buddy.Sound ∧ buddy.pages = raw.pages ∧
      (∀ id, Zone.Alike (raw.zones.get id) (buddy.zones.get id)) ∧
      ∀ frame, ¬ buddy.pages.Taken frame := by
  obtain ⟨prepared, seeded⟩ := built
  obtain ⟨start, length, zoneOf, place, start_aligned, described⟩ := prepared.described
  obtain ⟨-, regular, read⟩ := DescriptorTable.describe_eq_ok start_aligned described
  obtain ⟨finished, pages, alike, kept⟩ := prepared.seeding.run (by decide) seeded
  have unheld : ∀ head order, ¬ buddy.pages.Holds head order := by
    rintro head order ⟨page, found, owned, -⟩
    rw [pages, read] at found
    split at found
    · obtain rfl := Option.some.inj found
      exact owned rfl
    · cases found
  have untaken : ∀ frame, ¬ buddy.pages.Taken frame := by
    rintro frame ⟨head, order, holds, -⟩
    exact unheld head order holds
  refine ⟨⟨?_, ?_, ?_, ?_, ?_, ?_, ?_⟩, pages, alike, untaken⟩
  · rw [pages]
    exact regular
  · intro id
    rw [(alike id).geometry_eq, pages]
    exact prepared.geometry_eq id
  · intro id there frame has
    rw [(alike id).allocatable_eq] at there
    rw [(alike id).has_iff] at has
    rw [pages]
    exact prepared.tagged id there frame has
  · exact ⟨fun head order holds => (unheld head order holds).elim,
      fun head order holds => (unheld head order holds).elim,
      fun head order holds => (unheld head order holds).elim,
      fun frame head order _ _ holds => (unheld head order holds).elim⟩
  · intro id order h
    rw [((alike id).reach order).order_eq]
    cases there : (raw.zones.get id).allocatable with
    | true => exact (prepared.blank id there).order_eq order h
    | false => exact (prepared.idle id there order h).2
  · intro id there order h
    rw [(alike id).allocatable_eq] at there
    rw [kept id there]
    exact (prepared.idle id there order h).1
  · intro id there
    obtain ⟨cells, coalesced⟩ := finished.done id List.not_mem_nil there
    exact ⟨cells, coalesced.congr_free fun frame => (and_iff_left (untaken frame)).symm⟩

structure Overwritten (buddy after : BuddyAllocator) : Prop where
  zones_eq : after.zones = buddy.zones
  pages_eq : after.pages = buddy.pages
  agrees : buddy.ram.AgreesOff after.ram fun byte =>
    buddy.pages.Taken (buddy.geometry.frameOf byte)

/-- The bytes of a block that is held are in frames that are taken. -/
theorem Sound.taken_of_offset (sound : buddy.Sound) {head offset : Nat} {page : Page}
    (found : buddy.pages.page? head = some page) (owned : page.owner ≠ .unowned)
    (inside : offset < buddy.geometry.size <<< page.order) :
    buddy.pages.Taken (buddy.geometry.frameOf (page.start + offset)) := by
  have holds : buddy.pages.Holds head page.order := ⟨page, found, owned, rfl⟩
  refine ⟨head, page.order, holds, Cell.shiftRight_eq_iff.2 ?_⟩
  have start : page.start = head * buddy.geometry.size := sound.regular.placed head page found
  have frame : buddy.geometry.frameOf (page.start + offset) =
      head + offset / buddy.geometry.size := by
    rw [start, Geometry.frameOf, Nat.mul_comm, Nat.mul_add_div buddy.geometry.size_pos]
  have pages : offset / buddy.geometry.size < 2 ^ page.order := by
    rw [Nat.div_lt_iff_lt_mul buddy.geometry.size_pos, Nat.mul_comm, ← Nat.shiftLeft_eq]
    exact inside
  have aligned := sound.held.aligned head page.order holds
  rw [Nat.shiftLeft_eq] at aligned
  rw [frame, Nat.shiftLeft_eq, Nat.shiftLeft_eq, Nat.add_mul, aligned, Nat.one_mul]
  exact ⟨Nat.le_add_right _ _, Nat.add_lt_add_left pages head⟩

theorem Sound.overwritten (sound : buddy.Sound) (start offset : Nat) (value : UInt8) :
    buddy.overwrite start offset value = buddy ∨
      buddy.Overwritten (buddy.overwrite start offset value) := by
  unfold BuddyAllocator.overwrite
  split
  · next page found =>
      split
      · next inside =>
          refine .inr ⟨rfl, rfl, fun byte untaken => ?_⟩
          have taken := sound.taken_of_offset found (by rw [inside.1]; decide) inside.2
          rw [Ram.byte_setByte, if_neg]
          rintro rfl
          exact untaken taken
      · exact .inl rfl
  · exact .inl rfl

/-- The free blocks are not what was written in. -/
theorem Overwritten.sound (written : buddy.Overwritten after) (sound : buddy.Sound) :
    after.Sound := by
  have same : after = { buddy with ram := after.ram } := by
    rw [← written.zones_eq, ← written.pages_eq]
  rw [same]
  exact sound.congr_ram written.agrees fun byte taken id _ free => free.2 taken

/-- All that a call can do: nothing, hand a block out, take one back, or write in one. -/
theorem Sound.perform_cases (sound : buddy.Sound) (call : Call) :
    call.perform buddy = buddy ∨
      (∃ order id cell, buddy.Handed (call.perform buddy) order id cell) ∨
      (∃ head live, buddy.Recovered (call.perform buddy) head live) ∨
      buddy.Overwritten (call.perform buddy) := by
  cases call with
  | allocate order =>
      rcases Nat.lt_or_ge order orderCount with h | h
      · rcases sound.allocate h with ⟨answers, -⟩ | ⟨id, cell, after, handed, answers⟩
        · exact .inl answers.2
        · refine .inr (.inl ⟨order, id, cell, ?_⟩)
          rw [Call.perform, answers.2]
          exact handed
      · exact .inl (allocate_large h).2
  | free start order =>
      have confirmed := sound.confirm_eq start order
      split at confirmed
      · exact .inl (free_of_error confirmed).2
      · next live found =>
          split at confirmed
          · exact .inl (free_of_error confirmed).2
          · next owner =>
              split at confirmed
              · exact .inl (free_of_error confirmed).2
              · next same =>
                  obtain rfl := Decidable.not_not.1 same
                  obtain ⟨after, recovered, answers⟩ :=
                    sound.free found (Decidable.not_not.1 owner)
                  refine .inr (.inr (.inl ⟨buddy.geometry.frameOf start, live, ?_⟩))
                  rw [Call.perform, answers.2]
                  exact recovered
  | write start offset value =>
      exact (sound.overwritten start offset value).imp_right fun written => .inr (.inr written)

theorem Sound.perform (sound : buddy.Sound) (call : Call) : (call.perform buddy).Sound := by
  rcases sound.perform_cases call with same | ⟨order, id, cell, handed⟩ |
    ⟨head, live, recovered⟩ | written
  · rwa [same]
  · exact handed.sound
  · exact recovered.sound
  · exact written.sound sound

theorem Sound.run (sound : buddy.Sound) (calls : List Call) : (buddy.run calls).Sound := by
  induction calls generalizing buddy with
  | nil => exact sound
  | cons call rest ih => exact ih (sound.perform call)

/-- A zone that blocks are not handed out from never changes. -/
theorem Sound.run_idle (sound : buddy.Sound) (calls : List Call) {id : ZoneId}
    (idle : (buddy.zones.get id).allocatable = false) :
    (buddy.run calls).zones.get id = buddy.zones.get id := by
  induction calls generalizing buddy with
  | nil => rfl
  | cons call rest ih =>
      have other : ∀ {id'}, (buddy.zones.get id').allocatable = true → id ≠ id' := by
        rintro _ allocatable rfl
        rw [idle] at allocatable
        cases allocatable
      have step : (call.perform buddy).zones.get id = buddy.zones.get id := by
        rcases sound.perform_cases call with same | ⟨order, id', cell, handed⟩ |
          ⟨head, live, recovered⟩ | written
        · rw [same]
        · exact handed.elsewhere id (other handed.allocatable)
        · have owned : live.owner ≠ .unowned := by simp [recovered.owner_eq]
          exact recovered.elsewhere id (other (sound.zone_of_head recovered.found owned).1)
        · rw [written.zones_eq]
      rw [BuddyAllocator.run, List.foldl_cons]
      exact (ih (sound.perform call) (by rwa [step])).trans step

theorem Sound.run_alike (sound : buddy.Sound) (calls : List Call) (id : ZoneId) :
    Zone.Alike (buddy.zones.get id) ((buddy.run calls).zones.get id) := by
  induction calls generalizing buddy with
  | nil => exact .refl _
  | cons call rest ih =>
      refine .trans ?_ (ih (sound.perform call))
      rcases sound.perform_cases call with same | ⟨order, _, cell, handed⟩ |
        ⟨head, live, recovered⟩ | written
      · rw [same]
        exact .refl _
      · exact handed.alike id
      · exact recovered.alike id
      · rw [written.zones_eq]
        exact .refl _

end BuddyAllocator

end PhysicalMemory
