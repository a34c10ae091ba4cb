import PhysicalMemory.Proofs.Manager.Ownership
import PhysicalMemory.Proofs.Manager.Turns

/-!
# The discipline of the lists

Objects come from the one partly full slab that a cache has, or from one that is made
partly full for them: the empty one, or a new page if there is neither.  A slab that is
partly full has a free object at its cursor, so whoever takes one follows a link and
never the end mark.
-/

namespace PhysicalMemory

/-- Where a slab has a free object, its cursor names one that the slab has. -/
theorem Slab.ListsFree.cursor_mem {ram : Ram} {slab capacity : Nat} {free : List Nat}
    (keeps : Slab.ListsFree ram slab capacity free) (some : free ≠ []) :
    Slab.cursor ram slab ∈ free ∧ Slab.cursor ram slab ≠ Slab.endMark ∧
      Slab.cursor ram slab < capacity := by
  have leads := keeps.leads
  cases free with
  | nil => exact absurd rfl some
  | cons first rest =>
      have below := keeps.below first List.mem_cons_self
      rw [leads.1]
      exact ⟨List.mem_cons_self, Slab.not_endMark below,
        Nat.lt_of_lt_of_le below (Slab.room_le _)⟩

namespace SlabAllocator

/--
A cache is asked for an object, in the state that the page tier then is in, in the course of a
request of some size: the cache of the size, or else the first one, for the record
of a new cache, and then the new one.
-/
inductive Asks (allocator : SlabAllocator) (buddy : BuddyAllocator) (size : Nat) :
    Nat → BuddyAllocator → Prop where
  | known {cache : Nat} (found : allocator.find? buddy.ram size = some cache) :
      Asks allocator buddy size cache buddy
  | record (unknown : allocator.find? buddy.ram size = none) :
      Asks allocator buddy size allocator.head buddy
  | made {cache : Nat} {after : BuddyAllocator}
      (unknown : allocator.find? buddy.ram size = none)
      (created : Action.Answers (allocator.createCache size).outcome buddy (.ok cache) after) :
      Asks allocator buddy size cache after

end SlabAllocator

namespace BuddyAllocator

variable {buddy after : BuddyAllocator} {allocator : SlabAllocator} {store : Store}
  {cache slab size : Nat}

/--
The slab that was made ready for a cache has a free object at its cursor, it was not full
before, and no page was taken for it unless the cache had neither a partly full slab nor
an empty one.
-/
structure Ready (buddy after : BuddyAllocator) (cache slab : Nat) : Prop where
  cursor_ne : Slab.cursor after.ram slab ≠ Slab.endMark
  cursor_lt : Slab.cursor after.ram slab <
    Slab.capacity buddy.geometry.size (Cache.objectSize after.ram cache)
  first : Cache.firstSlab after.ram cache .partly = some slab
  not_full : slab ∉ Cache.slabs buddy.ram cache .full
  pages : (after.zones = buddy.zones ∧ after.pages = buddy.pages) ∨
    Cache.slabs buddy.ram cache .partly = [] ∧ Cache.slabs buddy.ram cache .empty = []

namespace Stocked

theorem ready (stocked : buddy.Stocked allocator store) (member : cache ∈ store.caches)
    (answers : Action.Answers (BuddyAllocator.partlyFullSlab cache).outcome buddy (.ok slab)
      after) : buddy.Ready after cache slab := by
  rcases stocked.partlyFullSlab member with ⟨refused, -⟩ |
    ⟨other, rest, stock, last, answers', stocked', steady, opened, first⟩
  · cases answers.value_unique refused
  · obtain rfl : slab = other := Except.ok.inj (answers.value_unique answers')
    obtain rfl := answers.state_unique answers'
    have here : (store.restock cache stock).stock cache = stock := by
      rw [Store.stock_restock_self]
    have kept := stocked'.kept cache member
    have oneReady := stocked'.oneReady cache member
    rw [here] at kept oneReady
    have listed : slab ∈ stock.slabs .partly := by rw [first]; exact List.mem_cons_self
    have threads := kept.threads .partly
    rw [first] at threads
    obtain ⟨-, named, inside⟩ :=
      (kept.keeps slab (Stock.mem_all listed)).cursor_mem (oneReady.partial_free slab listed)
    refine ⟨named, ?_, threads.1, fun full => ?_, ?_⟩
    · rw [kept.size_eq, ← steady.geometry_eq]
      exact inside
    · -- a full slab stays so, and no slab is on two lists
      rw [stocked.slabs_eq member] at full
      have still := opened.readied.onward.stays_full full
      have nodup := oneReady.nodup
      rw [Stock.all_eq, List.nodup_append] at nodup
      exact nodup.2.2 slab still slab (List.mem_append_left _ listed) rfl
    · rw [stocked.slabs_eq member, stocked.slabs_eq member]
      cases opened with
      | old agrees => exact .inl ⟨rfl, rfl⟩
      | new none fresh grown agrees => exact .inr none

/-- In the course of a request the slab is ready, whenever a cache is asked. -/
theorem ready_of_asks (stocked : buddy.Stocked allocator store) {records objects : List Seat}
    (seated : store.Seated buddy.geometry.size records objects) (sized : 0 < size)
    (positive : 0 < Slab.capacity buddy.geometry.size size) {state : BuddyAllocator}
    (asks : allocator.Asks buddy size cache state)
    (answers : Action.Answers (BuddyAllocator.partlyFullSlab cache).outcome state (.ok slab)
      after) : state.Ready after cache slab := by
  cases asks with
  | known found => exact stocked.ready (stocked.find?_eq_some found).1 answers
  | record unknown =>
      rw [stocked.head_eq] at answers ⊢
      exact stocked.ready List.mem_cons_self answers
  | made unknown created =>
      obtain ⟨answer, last, store', created', founding⟩ :=
        stocked.createCache seated (stocked.find?_eq_none unknown) sized positive
      obtain rfl := created'.value_unique created
      obtain rfl := created'.state_unique created
      exact (founding.stocked_after stocked).ready founding.made.1 answers

end Stocked

end BuddyAllocator

namespace Session

/--
Every cache has at most one slab to hand objects out of, an empty one with all its
objects free or a partly full one with a free object at its cursor.  Whenever a cache
is asked for an object the slab is ready, a cache that gets a page had no such slab
before, a new cache gets one page at most at once, and from now on slabs go from empty
to partly full to full and stay so.
-/
structure Disciplined (session : Session) : Prop where
  single : ∀ cache ∈ session.tiers.slab.ring session.tiers.ram,
    (Cache.slabs session.tiers.ram cache .partly).length +
      (Cache.slabs session.tiers.ram cache .empty).length ≤ 1
  empty : ∀ cache ∈ session.tiers.slab.ring session.tiers.ram,
    ∀ slab ∈ Cache.slabs session.tiers.ram cache .empty,
      Slab.handedOut session.tiers.ram slab = 0 ∧
      let size := Cache.objectSize session.tiers.ram cache
      ∀ index < session.tiers.slab.capacityFor size,
        ¬ session.Uses (Slab.slot session.tiers.ram slab size index)
  partly : ∀ cache ∈ session.tiers.slab.ring session.tiers.ram,
    ∀ slab ∈ Cache.slabs session.tiers.ram cache .partly,
      let size := Cache.objectSize session.tiers.ram cache
      let index := Slab.cursor session.tiers.ram slab
      index ≠ Slab.endMark ∧ index < session.tiers.slab.capacityFor size ∧
        ¬ session.Uses (Slab.slot session.tiers.ram slab size index)
  ready : ∀ size, 0 < size → session.tiers.slab.fits size = true → ∀ cache state,
    session.tiers.slab.Asks session.tiers.buddy size cache state → ∀ slab after,
      Action.Answers (BuddyAllocator.partlyFullSlab cache).outcome state (.ok slab) after →
        state.Ready after cache slab
  grows : ∀ call, session.Permits call → ∀ frame page cache,
    (session.perform call).tiers.buddy.pages.page? frame = some page → page.owner = .slab →
      page.cache = some cache → cache ∈ session.tiers.slab.ring session.tiers.ram →
        session.tiers.buddy.pages.page? frame ≠ some page →
          Cache.slabs session.tiers.ram cache .partly = [] ∧
            Cache.slabs session.tiers.ram cache .empty = []
  made : ∀ call, session.Permits call →
    ∀ cache ∈ session.tiers.slab.ring (session.perform call).tiers.ram,
      cache ∉ session.tiers.slab.ring session.tiers.ram →
        (Fill.all.flatMap (Cache.slabs (session.perform call).tiers.ram cache)).length ≤ 1
  onward : ∀ calls, session.Allows calls → (session.run calls).tiers.slab = session.tiers.slab ∧
    session.tiers.slab.Onward session.tiers.ram (session.run calls).tiers.ram

variable {session : Session} {origin : BuddyAllocator} {store : Store}
  {records objects : List Seat} {blocks : List Extent} {cache slab : Nat}

/-- In an object that is free nothing lives. -/
theorem not_uses_of_free
    (tenancy : session.tiers.StockedSeatedLent origin store records objects blocks)
    (same : session.live.Perm (objects.map Seat.extent ++ blocks)) (member : cache ∈ store.caches)
    (listed : slab ∈ (store.stock cache).all) {index : Nat}
    (below : index < (store.stock cache).capacity session.tiers.buddy.geometry.size)
    (free : ¬ (store.stock cache).Held session.tiers.buddy.geometry.size slab index) :
    ¬ session.Uses (Slab.slot session.tiers.ram slab
      (Cache.objectSize session.tiers.ram cache) index) := by
  have used := tenancy.held_iff same member listed below (tenancy.slot_eq member listed index)
  rw [Uses, tenancy.ring_eq]
  exact fun uses => free (used.2 uses)

section

variable (tenancy : session.tiers.StockedSeatedLent origin store records objects blocks)
  (same : session.live.Perm (objects.map Seat.extent ++ blocks))
  (there : cache ∈ session.tiers.slab.ring session.tiers.ram)

include tenancy there

theorem length_slabs_le_one : (Cache.slabs session.tiers.ram cache .partly).length +
    (Cache.slabs session.tiers.ram cache .empty).length ≤ 1 := by
  rw [tenancy.ring_eq] at there
  rw [tenancy.slabs_eq there, tenancy.slabs_eq there]
  exact (tenancy.stocked.oneReady cache there).single

include same

theorem empty_slab_unused (listed : slab ∈ Cache.slabs session.tiers.ram cache .empty) :
    Slab.handedOut session.tiers.ram slab = 0 ∧
      ∀ index < session.tiers.slab.capacityFor (Cache.objectSize session.tiers.ram cache),
        ¬ session.Uses (Slab.slot session.tiers.ram slab
          (Cache.objectSize session.tiers.ram cache) index) := by
  rw [tenancy.ring_eq] at there
  rw [tenancy.slabs_eq there] at listed
  have stocked := tenancy.stocked
  have fresh := (stocked.oneReady cache there).fresh slab listed
  have counted := ((stocked.kept cache there).keeps slab (Stock.mem_all listed)).counted
  rw [fresh, List.length_range] at counted
  refine ⟨Nat.add_eq_right.1 counted, fun index below => ?_⟩
  rw [tenancy.capacityFor_eq there] at below
  refine not_uses_of_free tenancy same there (Stock.mem_all listed) below fun held => ?_
  exact held.2.2 (by rw [fresh]; exact List.mem_range.2 held.2.1)

theorem cursor_unused (listed : slab ∈ Cache.slabs session.tiers.ram cache .partly) :
    Slab.cursor session.tiers.ram slab ≠ Slab.endMark ∧
      Slab.cursor session.tiers.ram slab <
        session.tiers.slab.capacityFor (Cache.objectSize session.tiers.ram cache) ∧
      ¬ session.Uses (Slab.slot session.tiers.ram slab (Cache.objectSize session.tiers.ram cache)
        (Slab.cursor session.tiers.ram slab)) := by
  rw [tenancy.ring_eq] at there
  rw [tenancy.slabs_eq there] at listed
  have stocked := tenancy.stocked
  have keeps := (stocked.kept cache there).keeps slab (Stock.mem_all listed)
  obtain ⟨member, named, inside⟩ :=
    keeps.cursor_mem ((stocked.oneReady cache there).partial_free slab listed)
  rw [tenancy.capacityFor_eq there]
  exact ⟨named, inside, not_uses_of_free tenancy same there (Stock.mem_all listed) inside
    fun held => held.2.2 member⟩

end

section

variable (accounts : session.AccountsForLive origin) {call : Call}
  (permitted : session.Permits call)

include accounts permitted

/-- A cache that a call gives a page had no slab to hand objects out of. -/
theorem AccountsForLive.slabs_eq_nil_of_grows {frame : Nat} {page : Page}
    (found : (session.perform call).tiers.buddy.pages.page? frame = some page)
    (owner : page.owner = .slab) (named : page.cache = some cache)
    (there : cache ∈ session.tiers.slab.ring session.tiers.ram)
    (new : session.tiers.buddy.pages.page? frame ≠ some page) :
    Cache.slabs session.tiers.ram cache .partly = [] ∧
      Cache.slabs session.tiers.ram cache .empty = [] := by
  obtain ⟨store, records, objects, blocks, tenancy, same⟩ := id accounts
  have stocked := tenancy.stocked
  rw [tenancy.ring_eq] at there
  rw [tenancy.slabs_eq there, tenancy.slabs_eq there]
  obtain ⟨store', turn⟩ := turn_perform accounts tenancy same permitted
  obtain ⟨other, member, named', listed⟩ := turn.stocked.served frame page found owner
  obtain rfl : cache = other := Option.some.inj (named.symm.trans named')
  refine turn.growsSpent cache there page.start listed fun old => new ?_
  -- a slab that was there before is told of by the same descriptor
  have frame_eq : session.tiers.buddy.geometry.frameOf page.start = frame := by
    rw [Geometry.frameOf, ← stocked.page_eq, turn.stocked.page_eq]
    exact turn.stocked.sound.regular.frameOf_start found
  rw [turn.stocked.page_of_start found member listed, ← frame_eq]
  exact stocked.owned cache there page.start old

theorem AccountsForLive.length_slabs_of_new
    (there : cache ∈ session.tiers.slab.ring (session.perform call).tiers.ram)
    (absent : cache ∉ session.tiers.slab.ring session.tiers.ram) :
    (Fill.all.flatMap (Cache.slabs (session.perform call).tiers.ram cache)).length ≤ 1 := by
  obtain ⟨store, records, objects, blocks, tenancy, same⟩ := id accounts
  obtain ⟨store', turn⟩ := turn_perform accounts tenancy same permitted
  rw [tenancy.ring_eq] at absent
  have ring : session.tiers.slab.ring (session.perform call).tiers.ram = store'.caches :=
    turn.stocked.ring_eq
  rw [ring] at there
  have slabs := turn.made_slabs there absent
  rwa [Stock.all, ← funext (turn.stocked.slabs_eq there)] at slabs

end

theorem AccountsForLive.disciplined (accounts : session.AccountsForLive origin) :
    session.Disciplined := by
  obtain ⟨store, records, objects, blocks, tenancy, same⟩ := id accounts
  exact {
    single := fun _ there => length_slabs_le_one tenancy there
    empty := fun _ there _ listed => empty_slab_unused tenancy same there listed
    partly := fun _ there _ listed => cursor_unused tenancy same there listed
    ready := fun size sized fits cache state asks slab after answers => by
      refine tenancy.stocked.ready_of_asks tenancy.seated sized ?_ asks answers
      rw [SlabAllocator.fits, SlabAllocator.capacityFor, tenancy.stocked.page_eq] at fits
      exact of_decide_eq_true fits
    grows := fun _ permitted _ _ _ found owner named there new =>
      accounts.slabs_eq_nil_of_grows permitted found owner named there new
    made := fun _ permitted _ there absent =>
      accounts.length_slabs_of_new permitted there absent
    onward := fun _ => accounts.onward_run }

/--
Whatever is called on a manager that was booted, the lists of all its caches are
disciplined at every point, in the course of every request, and from then on.
-/
theorem run_disciplined {layout : MemoryLayout} {ram : Ram} {manager : Manager}
    (booted : Action.Answers (Manager.boot layout ram) () (.ok manager) ()) {calls : List Call}
    (allowed : (start manager).Allows calls) : ((start manager).run calls).Disciplined := by
  obtain ⟨plan, raw, seeded, booted⟩ := Manager.boot_eq_ok booted
  exact (booted.accounts.run allowed).disciplined

def fullCalls : List Call :=
  [.allocate 200, .allocate 200, .release 5664]

/-- A full slab stays on its list with an object free. -/
theorem run_disciplined_sample :
    Action.Answers (Manager.boot .sixteenPages) () (.ok sampleManager) () ∧
    (start sampleManager).Allows fullCalls ∧
    let session := (start sampleManager).run fullCalls
    Cache.slabs session.tiers.ram 5184 .full = [5632] ∧
      Slab.chain session.tiers.ram 5632 2 = [0] ∧ session.Disciplined := by
  have allowed : (start sampleManager).Allows fullCalls :=
    ⟨trivial, trivial, fun _ => .inl (by decide +kernel), trivial⟩
  exact ⟨sampleManager_booted, allowed, by decide +kernel, by decide +kernel,
    run_disciplined sampleManager_booted allowed⟩

end Session

end PhysicalMemory
