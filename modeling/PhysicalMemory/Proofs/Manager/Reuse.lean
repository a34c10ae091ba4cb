import PhysicalMemory.Proofs.Manager.Aligned
import PhysicalMemory.Proofs.Manager.Registry
import PhysicalMemory.Proofs.Slab.Reuse

/-!
# Objects that are used again

Whoever gives an object back and asks for one of its size gets it again, if its slab was partly
full, wherever in the object the address was that is given back.  Whoever asks for an object and
gives it back has changed nothing either, if its slab had another one.  Both leave all caches
and all slabs as they were, and no page changes hands.
-/

namespace PhysicalMemory

structure Tiers.Traceless (tiers after : Tiers) : Prop where
  slab_eq : after.slab = tiers.slab
  zones_eq : after.buddy.zones = tiers.buddy.zones
  pages_eq : after.buddy.pages = tiers.buddy.pages
  alike : tiers.slab.Alike tiers.ram after.ram

namespace Session

structure GetsAgain (session : Session) (extent slot : Extent) : Prop where
  told : (session.perform (.release extent.start)).told (Manager.allocate slot.size) =
    .ok (.ok slot.start)
  traceless : session.tiers.Traceless
    ((session.perform (.release extent.start)).perform (.allocate slot.size)).tiers

/-- Asking for an object gives the one at the slot, and giving that back leaves no trace. -/
structure GivesBack (session : Session) (slot : Extent) : Prop where
  told : session.told (Manager.allocate slot.size) = .ok (.ok slot.start)
  answers : ∃ manager, Action.Answers (Manager.release slot.start)
    (session.perform (.allocate slot.size)).manager () manager
  traceless : session.tiers.Traceless
    ((session.perform (.allocate slot.size)).perform (.release slot.start)).tiers

/--
Objects are handed out in the order of their slab's chain, so what was given back comes next.
This holds of each live extent in a slab that is partly full, and the other way around of each
partly full slab with more than one free object.
-/
structure Reuses (session : Session) : Prop where
  given : ∀ extent ∈ session.live, ∀ page, session.pageOf? extent.start = some page →
    page.owner = .slab → ∃ cache ∈ session.caches, page.cache = some cache ∧
      ∃ index slot, slot.size = Cache.objectSize session.tiers.ram cache ∧
        session.InSlot page index slot extent ∧
        (page.start ∈ Cache.slabs session.tiers.ram cache .partly → session.GetsAgain extent slot)
  taken : ∀ cache ∈ session.caches, ∀ slab ∈ Cache.slabs session.tiers.ram cache .partly,
    let size := Cache.objectSize session.tiers.ram cache
    ∀ first second rest,
      Slab.chain session.tiers.ram slab (session.tiers.slab.capacityFor size) =
        first :: second :: rest →
      session.GivesBack (Slab.slot session.tiers.ram slab size first)

variable {session : Session} {origin : BuddyAllocator} {store : Store}
  {records objects : List Seat} {blocks : List Extent} {cache slab index : Nat} {others : List Nat}
  {seat : Seat}

/-- Where a cache has a partly full slab, a request gets the slab's first free object. -/
theorem allocate_continued (stocked : session.tiers.buddy.Stocked session.tiers.slab store)
    (seated : store.Seated session.tiers.buddy.geometry.size records objects)
    (member : cache ∈ store.caches) (partly : slab ∈ (store.stock cache).slabs .partly)
    (free : (store.stock cache).free slab = index :: others) :
    let size := (store.stock cache).size
    session.told (Manager.allocate size) =
        .ok (.ok ((store.stock cache).slot session.tiers.buddy.geometry.size slab index)) ∧
      (session.perform (.allocate size)).tiers.slab = session.tiers.slab ∧
      session.tiers.buddy.Continued (session.perform (.allocate size)).tiers.buddy
        session.tiers.slab store cache slab index := by
  obtain ⟨answer, store', told, slab_eq, course⟩ := course_allocate stocked seated
    (stocked.sized cache member) (stocked.positive cache member)
  obtain ⟨rfl, continued⟩ := course.continued stocked member rfl partly free
  exact ⟨told, slab_eq, continued⟩

/-- What was given back to a partly full slab is the next object, with no trace left. -/
theorem allocate_given {tiers : Tiers} {ram : Ram}
    (stocked : tiers.buddy.Stocked tiers.slab store)
    (same : session.tiers = ⟨{ tiers.buddy with ram := ram }, tiers.slab⟩)
    (given : session.tiers.buddy.Stocked session.tiers.slab
      (store.restock cache ((store.stock cache).give slab index)))
    (seated : (store.restock cache ((store.stock cache).give slab index)).Seated
      session.tiers.buddy.geometry.size records objects)
    (member : cache ∈ store.caches) (partly : slab ∈ (store.stock cache).slabs .partly) :
    let slot := (store.stock cache).extent tiers.buddy.geometry.size slab index
    session.told (Manager.allocate slot.size) = .ok (.ok slot.start) ∧
      tiers.Traceless (session.perform (.allocate slot.size)).tiers := by
  have some := (stocked.oneReady cache member).partial_free slab partly
  have here := Store.stock_restock_self store cache ((store.stock cache).give slab index)
  have chained : ((store.stock cache).give slab index).free slab =
      index :: (store.stock cache).free slab := by
    rw [Stock.give, Stock.free_chain, if_pos rfl]
  obtain ⟨told, slab_eq, continued⟩ :=
    allocate_continued given seated member (by rwa [here]) (by rw [here, chained])
  have restocked := continued.served.stocked
  rw [here, Stock.take_give some, Store.restock_restock, Store.restock_self] at restocked
  rw [here] at told slab_eq continued
  rw [same] at told slab_eq continued restocked
  exact ⟨told, slab_eq, continued.zones_eq, continued.pages_eq, stocked.alike restocked⟩

/-- A live extent in a partly full slab is given back, and then its object is the next one. -/
theorem AccountsForLive.getsAgain (accounts : session.AccountsForLive origin)
    (stocked : session.tiers.buddy.Stocked session.tiers.slab store)
    (seated : store.Seated session.tiers.buddy.geometry.size records objects)
    (there : seat ∈ objects) (member : cache ∈ store.caches)
    (inside : seat.Inside (store.stock cache) session.tiers.buddy.geometry.size)
    (partly : seat.slab ∈ (store.stock cache).slabs .partly) :
    session.GetsAgain seat.extent
      ((store.stock cache).extent session.tiers.buddy.geometry.size seat.slab seat.index) := by
  obtain ⟨ram, answers, given, seated'⟩ := accounts.release_seat stocked seated there member inside
  have released : (session.perform (.release seat.extent.start)).tiers =
      ⟨{ session.tiers.buddy with ram := ram }, session.tiers.slab⟩ :=
    congrArg tiers (follow_of_answers answers _)
  obtain ⟨told, traceless⟩ := allocate_given stocked released (by rwa [released])
    (by rwa [released]) member partly
  exact ⟨told, traceless⟩

/-- An object that was taken from several can be given back, with no trace left. -/
theorem AccountsForLive.release_taken {tiers : Tiers} (accounts : session.AccountsForLive origin)
    (stocked : tiers.buddy.Stocked tiers.slab store) (slab_eq : session.tiers.slab = tiers.slab)
    (continued : tiers.buddy.Continued session.tiers.buddy tiers.slab store cache slab index)
    (seated : store.Seated tiers.buddy.geometry.size records objects)
    (member : cache ∈ store.caches)
    (free : (store.stock cache).free slab = index :: others) (more : others ≠ []) :
    let slot := (store.stock cache).extent tiers.buddy.geometry.size slab index
    (∃ manager, Action.Answers (Manager.release slot.start) session.manager () manager) ∧
      tiers.Traceless (session.perform (.release slot.start)).tiers := by
  obtain ⟨seated', inside⟩ := continued.seated stocked member seated
  have served := continued.served
  have geometry := served.steady.geometry_eq
  have taken := served.stocked
  rw [← geometry] at seated' inside
  rw [← slab_eq] at taken
  obtain ⟨ram', answers, given, -⟩ :=
    accounts.release_seat taken seated' List.mem_cons_self member inside
  rw [Store.stock_restock_self, Stock.give_take free more, Store.restock_restock,
    Store.restock_self] at given
  rw [slab_eq] at given
  dsimp only
  rw [← geometry]
  refine ⟨⟨_, Manager.answers_inTiers answers⟩, ?_⟩
  rw [perform_release, follow_of_answers answers]
  exact ⟨slab_eq, continued.zones_eq, continued.pages_eq, stocked.alike given⟩

/-- The first of several free objects is handed out, and given back it is the first again. -/
theorem AccountsForLive.givesBack (accounts : session.AccountsForLive origin)
    (stocked : session.tiers.buddy.Stocked session.tiers.slab store)
    (seated : store.Seated session.tiers.buddy.geometry.size records objects)
    (member : cache ∈ store.caches) (partly : slab ∈ (store.stock cache).slabs .partly)
    (free : (store.stock cache).free slab = index :: others) (more : others ≠ []) :
    session.GivesBack
      ((store.stock cache).extent session.tiers.buddy.geometry.size slab index) := by
  obtain ⟨told, slab_eq, continued⟩ := allocate_continued stocked seated member partly free
  have accounts' : (session.perform (.allocate (store.stock cache).size)).AccountsForLive origin :=
    accounts.perform trivial
  obtain ⟨answers, traceless⟩ :=
    accounts'.release_taken stocked slab_eq continued seated member free more
  exact ⟨told, answers, traceless⟩

theorem AccountsForLive.reuses (accounts : session.AccountsForLive origin) : session.Reuses := by
  obtain ⟨store, records, objects, blocks, tenancy, same⟩ := id accounts
  have stocked := tenancy.stocked
  have caches : session.caches = store.caches := tenancy.ring_eq
  constructor
  case given =>
    intro extent live page found owner
    rcases tenancy.cases_live same live with ⟨seat, there, rfl⟩ | ⟨page', lends⟩
    · obtain ⟨cache, member, inside⟩ := tenancy.inside_of_seat there
      obtain rfl : page = .serving seat.slab cache :=
        Option.some.inj (found.symm.trans (stocked.page_of_seat member inside))
      refine ⟨cache, caches ▸ member, rfl, seat.index, (store.stock cache).extent
        session.tiers.buddy.geometry.size seat.slab seat.index, ?_, ?_, ?_⟩
      · exact (tenancy.objectSize_eq member).symm
      · exact accounts.inSlot (Tiers.isSlot_of_held stocked member inside.held)
          ⟨inside.low, inside.high⟩ inside.positive
      · rw [tenancy.slabs_eq member]
        exact accounts.getsAgain stocked tenancy.seated there member inside
    · -- the page of a block is no slab's
      rw [Option.some.inj (found.symm.trans lends.found), lends.owner_eq] at owner
      cases owner
  case taken =>
    intro cache there slab partly size first second rest chained
    rw [caches] at there
    rw [tenancy.slabs_eq there] at partly
    have free := (tenancy.chain_eq there (Stock.mem_all partly)).symm.trans chained
    rw [show Slab.slot session.tiers.ram slab size first = _ from
      tenancy.slot_eq there (Stock.mem_all partly) first]
    exact accounts.givesBack stocked tenancy.seated there partly free (List.cons_ne_nil _ _)

/--
Whatever is called on a manager that was booted, objects are used again in the order of their
slab's chain: giving one back and asking for one like it, or the other way around, leaves no
trace.
-/
theorem run_reuses {layout : MemoryLayout} {ram : Ram} {manager : Manager}
    (booted : Action.Answers (Manager.boot layout ram) () (.ok manager) ()) {calls : List Call}
    (allowed : (start manager).Allows calls) : ((start manager).run calls).Reuses := by
  obtain ⟨plan, raw, seeded, booted⟩ := Manager.boot_eq_ok booted
  exact (booted.accounts.run allowed).reuses

/-- Bytes that were moved up in their object are live in a slab that has three more. -/
theorem run_reuses_sample :
    Action.Answers (Manager.boot .sixteenPages) () (.ok sampleManager) () ∧
    (start sampleManager).Allows sampleCalls ∧
    let session := (start sampleManager).run sampleCalls
    ⟨6208, 40⟩ ∈ session.live ∧
      Cache.slabs session.tiers.ram 5232 .partly = [6144] ∧
      Slab.chain session.tiers.ram 6144 (session.tiers.slab.capacityFor 103) = [1, 2, 3] ∧
      session.Reuses :=
  ⟨sampleManager_booted, sampleCalls_allowed, by decide +kernel, by decide +kernel,
    by decide +kernel, run_reuses sampleManager_booted sampleCalls_allowed⟩

end Session

end PhysicalMemory
