import PhysicalMemory.Proofs.Manager.Chains

/-!
# What descriptors say

Whoever gives an address back is known by the descriptor of its page alone.  At any
time the pages that belong to the page tier are the first pages of the live blocks,
those that belong to a slab are the slabs on the lists of the caches, and the other
descriptors say nothing.  So the pages of blocks, the pages of slabs and the free
bytes make up the heap, and a page that serves a slab serves it for good.
-/

namespace PhysicalMemory

namespace DescriptorTable

def ownedBy (table : DescriptorTable) (owner : Owner) : List Page :=
  table.pages.toList.filter (·.owner = owner)

theorem owned_perm (table : DescriptorTable) :
    table.owned.Perm (table.ownedBy .buddy ++ table.ownedBy .slab) := by
  refine (List.filter_append_perm (fun page => decide (page.owner = .buddy)) _).symm.trans
    (.of_eq (congrArg₂ (· ++ ·) ?_ ?_))
  · rw [owned, List.filter_filter]
    exact List.filter_congr fun page _ => by cases page.owner <;> rfl
  · rw [owned, List.filter_filter]
    exact List.filter_congr fun page _ => by cases page.owner <;> rfl

theorem mem_ownedBy_iff {table : DescriptorTable} {owner : Owner} {page : Page} :
    page ∈ table.ownedBy owner ↔
      (∃ frame, table.page? frame = some page) ∧ page.owner = owner := by
  rw [ownedBy, List.mem_filter, mem_pages_iff, decide_eq_true_iff]

end DescriptorTable

namespace BuddyAllocator

variable {buddy : BuddyAllocator}

/-- Where slabs are single pages, free bytes, blocks and slabs make up the zones. -/
theorem Sound.sum_owned (sound : buddy.Sound)
    (single : ∀ page ∈ buddy.pages.ownedBy .slab, page.order = 0) :
    ∃ free, buddy.freeBytes = .ok free ∧
      free + buddy.geometry.size * (((buddy.pages.ownedBy .buddy).map fun page =>
        1 <<< page.order).sum + (buddy.pages.ownedBy .slab).length) =
          buddy.wholeFrames.length * buddy.geometry.size := by
  refine ⟨_, sound.freeBytes_eq, ?_⟩
  rw [← sound.sum_bytes, Nat.add_left_cancel_iff]
  have bytes : ∀ page : Page, Block.bytes buddy.geometry ⟨page.start, page.order⟩ =
      buddy.geometry.size * 1 <<< page.order := fun page => by
    rw [Nat.one_shiftLeft]
    exact Nat.shiftLeft_eq _ _
  have slabs : ((buddy.pages.ownedBy .slab).map fun page => 1 <<< page.order).sum =
      (buddy.pages.ownedBy .slab).length := by
    rw [List.map_congr_left fun page member => by rw [single page member], List.map_const',
      List.sum_replicate, smul_eq_mul]
    exact Nat.mul_one _
  rw [heldBlocks, List.map_map, ((buddy.pages.owned_perm).map _).sum_eq, ← slabs,
    ← List.sum_append, ← List.map_append, ← List.sum_map_mul_left]
  exact congrArg List.sum (List.map_congr_left fun page _ => (bytes page).symm)

end BuddyAllocator

namespace BuddyAllocator.Stocked

variable {buddy : BuddyAllocator} {allocator : SlabAllocator} {store : Store}
  {cache : Nat} {seat : Seat} {frame : Nat} {page : Page}

theorem page_of_start (stocked : buddy.Stocked allocator store)
    (found : buddy.pages.page? frame = some page) (member : cache ∈ store.caches)
    (listed : page.start ∈ (store.stock cache).all) : page = .serving page.start cache := by
  have own : buddy.geometry.frameOf page.start = frame :=
    stocked.sound.regular.frameOf_start found
  have serving := stocked.owned cache member page.start listed
  rw [own, found] at serving
  exact Option.some.inj serving

/-- The page of a slab is one of those that a cache has. -/
theorem serving_of_slab (stocked : buddy.Stocked allocator store)
    (found : buddy.pages.page? frame = some page) (owner : page.owner = .slab) :
    ∃ cache ∈ store.caches, page.start ∈ (store.stock cache).all ∧
      page = .serving page.start cache := by
  obtain ⟨cache, member, -, listed⟩ := stocked.served frame page found owner
  exact ⟨cache, member, listed, stocked.page_of_start found member listed⟩

theorem nodup_slabs (stocked : buddy.Stocked allocator store) :
    (store.caches.flatMap fun cache => (store.stock cache).all).Nodup := by
  rw [List.nodup_flatMap]
  refine ⟨fun cache member => (stocked.oneReady cache member).nodup, ?_⟩
  refine (List.nodup_iff_pairwise_ne.1 stocked.nodup).imp_of_mem
    fun {cache other} member member' distinct slab listed listed' => ?_
  exact distinct (stocked.cache_unique member member' listed listed')

theorem seat_start_ne (stocked : buddy.Stocked allocator store) (member : cache ∈ store.caches)
    (inside : seat.Inside (store.stock cache) buddy.geometry.size) :
    seat.extent.start ≠ frame * buddy.geometry.size := by
  intro same
  have bounds := stocked.seat_bounds member inside
  have positive := inside.positive
  have header : 0 < Slab.metadataSize ((store.stock cache).capacity buddy.geometry.size) :=
    Nat.lt_of_lt_of_le (by decide : 0 < Slab.headerSize) (Nat.le_add_right _ _)
  have home : buddy.geometry.frameOf seat.extent.start = buddy.geometry.frameOf seat.slab :=
    stocked.frame_of_slab member inside.held.1 (by omega) (by omega)
  have place := (stocked.slab_page member inside.held.1).1
  rw [same, Geometry.frameOf_mul] at home
  rw [← home] at place
  omega

/-- Free bytes, the blocks of the page tier and the slabs make up a heap of whole pages. -/
theorem sum_heap (stocked : buddy.Stocked allocator store)
    (whole : (buddy.zones.get .heap).size % buddy.geometry.size = 0) :
    ∃ free, buddy.freeBytes = .ok free ∧
      free + buddy.geometry.size * (((buddy.pages.ownedBy .buddy).map fun page =>
        1 <<< page.order).sum + (buddy.pages.ownedBy .slab).length) =
          (buddy.zones.get .heap).size := by
  obtain ⟨free, answers, sum⟩ := stocked.sound.sum_owned fun page member => by
    obtain ⟨⟨frame, found⟩, owner⟩ := DescriptorTable.mem_ownedBy_iff.1 member
    obtain ⟨cache, -, -, serving⟩ := stocked.serving_of_slab found owner
    rw [serving]
    rfl
  refine ⟨free, answers, sum.trans ?_⟩
  have ids : buddy.heapIds = [.heap] := by
    simp [heapIds, ZoneId.all, stocked.heap, stocked.reserved]
  have aligned := (stocked.sound.ready stocked.heap).start_aligned
  rw [stocked.sound.geometry_eq] at aligned
  change _ % buddy.geometry.size = 0 at aligned
  have count : buddy.wholeFrames.length =
      (buddy.zones.get .heap).size / buddy.geometry.size := by
    rw [wholeFrames, ids, List.flatMap_singleton, Zone.frames, List.length_range',
      stocked.sound.geometry_eq]
    change (_ + _) / buddy.geometry.size - _ / buddy.geometry.size = _
    rw [Nat.add_div_of_dvd_right (Nat.dvd_of_mod_eq_zero aligned), Nat.add_sub_cancel_left]
  rw [count]
  exact Nat.div_mul_cancel (Nat.dvd_of_mod_eq_zero whole)

end BuddyAllocator.Stocked

namespace Session

variable {session : Session} {origin : BuddyAllocator}

def slabs (session : Session) : List Nat :=
  (session.tiers.slab.ring session.tiers.ram).flatMap fun cache =>
    Fill.all.flatMap (Cache.slabs session.tiers.ram cache)

/-- A block of the order is live: an allocation that starts with a page and needs that order. -/
def Heads (session : Session) (address order : Nat) : Prop :=
  session.tiers.geometry.size ∣ address ∧ ∃ extent ∈ session.live, extent.start = address ∧
    session.tiers.geometry.IsOrderFor extent.size order

instance (session : Session) (address order : Nat) : Decidable (session.Heads address order) :=
  inferInstanceAs (Decidable (_ ∧ ∃ extent ∈ session.live, _))

/--
The descriptors tell who has which page.  They keep what they said of the pages at an
origin, name the heads of the live blocks and the slabs on the lists, each with what
it serves, and say nothing of other pages.
-/
structure Ownership (session : Session) (origin : BuddyAllocator) : Prop where
  placed : ∀ frame, (session.tiers.buddy.pages.page? frame).map Page.place =
    (origin.pages.page? frame).map Page.place
  heads : ∀ frame page, session.tiers.buddy.pages.page? frame = some page → ∀ order,
    (page.owner = .buddy ∧ page.order = order) ↔ session.Heads page.start order
  backs : ∀ frame page, session.tiers.buddy.pages.page? frame = some page →
    (page.owner = .slab ↔ page.start ∈ session.slabs)
  nodup_slabs : session.slabs.Nodup
  serving : ∀ cache ∈ session.tiers.slab.ring session.tiers.ram, ∀ fill,
    ∀ slab ∈ Cache.slabs session.tiers.ram cache fill,
      session.pageOf? slab = some (.serving slab cache)
  unownedBare : session.tiers.buddy.pages.UnownedBare
  starts : ∀ extent ∈ session.live, ∃ page, session.pageOf? extent.start = some page ∧
    (page.owner = .slab ∨ page.owner = .buddy ∧ page.start = extent.start)
  conserved : ∃ free, session.manager.freeBytes = .ok free ∧
    free + session.tiers.geometry.size *
      (((session.tiers.buddy.pages.ownedBy .buddy).map fun page => 1 <<< page.order).sum +
        (session.tiers.buddy.pages.ownedBy .slab).length) = (origin.zones.get .heap).size

theorem AccountsForLive.rooted (accounts : session.AccountsForLive origin) :
    session.AccountsForLive session.tiers.buddy := by
  obtain ⟨store, records, objects, blocks, tenancy, same⟩ := accounts
  exact ⟨store, records, objects, blocks,
    ⟨tenancy.stocked, tenancy.seated, tenancy.lent, tenancy.unownedBare, .refl _⟩, same⟩

end Session

namespace Tiers.StockedSeatedLent

variable {tiers : Tiers} {origin : BuddyAllocator} {store : Store} {records objects : List Seat}
  {blocks live : List Extent} {frame order : Nat} {page : Page}

/-- A page is the head of a block just when an allocation lives in it from its start. -/
theorem heads_iff (tenancy : tiers.StockedSeatedLent origin store records objects blocks)
    (same : live.Perm (objects.map Seat.extent ++ blocks))
    (found : tiers.buddy.pages.page? frame = some page) :
    (page.owner = .buddy ∧ page.order = order) ↔ ∃ extent ∈ live, extent.start = page.start ∧
      tiers.geometry.IsOrderFor extent.size order := by
  have place := tenancy.stocked.sound.regular.placed frame page found
  have own : tiers.buddy.geometry.frameOf page.start = frame :=
    tenancy.stocked.sound.regular.frameOf_start found
  -- a block that starts there is the one that the descriptor tells of
  have told : ∀ {extent page'}, tiers.buddy.Lends extent page' → extent.start = page.start →
      page' = page := fun lends start => by
    have found' := lends.found
    rw [start, own, found] at found'
    exact (Option.some.inj found').symm
  constructor
  · rintro ⟨owner, rfl⟩
    obtain ⟨block, listed, start⟩ := tenancy.lent.known frame page found owner
    obtain ⟨page', lends⟩ := tenancy.lent.lends block listed
    have least := lends.least
    rw [told lends start] at least
    exact ⟨block, same.mem_iff.2 (List.mem_append_right _ listed), start, least⟩
  · rintro ⟨extent, member, start, least⟩
    rcases tenancy.cases_live same member with ⟨seat, there, rfl⟩ | ⟨page', lends⟩
    · obtain ⟨cache, member, inside⟩ := tenancy.inside_of_seat there
      exact absurd (start.trans place) (tenancy.stocked.seat_start_ne member inside)
    · obtain rfl := told lends start
      exact ⟨lends.owner_eq, lends.least.unique least⟩

/-- A live allocation starts in the page of a slab or at the head of a block. -/
theorem page_of_live (tenancy : tiers.StockedSeatedLent origin store records objects blocks)
    (same : live.Perm (objects.map Seat.extent ++ blocks)) {extent : Extent}
    (member : extent ∈ live) :
    ∃ page, tiers.buddy.pages.page? (tiers.geometry.frameOf extent.start) = some page ∧
      (page.owner = .slab ∨ page.owner = .buddy ∧ page.start = extent.start) := by
  rcases tenancy.cases_live same member with ⟨seat, there, rfl⟩ | ⟨page, lends⟩
  · obtain ⟨cache, member, inside⟩ := tenancy.inside_of_seat there
    exact ⟨_, tenancy.stocked.page_of_seat member inside, .inl rfl⟩
  · exact ⟨page, lends.found, .inr ⟨lends.owner_eq, lends.start_eq⟩⟩

end Tiers.StockedSeatedLent

namespace Session

variable {session : Session} {origin : BuddyAllocator}

theorem AccountsForLive.ownership (accounts : session.AccountsForLive origin)
    (whole : (origin.zones.get .heap).size % origin.geometry.size = 0) :
    session.Ownership origin := by
  obtain ⟨store, records, objects, blocks, tenancy, same⟩ := accounts
  have stocked := tenancy.stocked
  have onward := tenancy.onward
  have slabs : session.slabs = store.caches.flatMap fun cache => (store.stock cache).all := by
    rw [Session.slabs, tenancy.ring_eq]
    exact List.flatMap_congr fun cache there => by
      rw [Stock.all, funext (tenancy.slabs_eq there)]
  refine ⟨onward.placed, fun frame page found order => ?_, ?_,
    by rw [slabs]; exact stocked.nodup_slabs, ?_, tenancy.unownedBare,
    fun extent => tenancy.page_of_live same, ?_⟩
  · refine (tenancy.heads_iff same found).trans (and_iff_right ?_).symm
    exact ⟨frame, (stocked.sound.regular.placed frame page found).trans (Nat.mul_comm _ _)⟩
  · intro frame page found
    rw [slabs, List.mem_flatMap]
    constructor
    · intro owner
      obtain ⟨cache, there, listed, -⟩ := stocked.serving_of_slab found owner
      exact ⟨cache, there, listed⟩
    · rintro ⟨cache, there, listed⟩
      rw [stocked.page_of_start found there listed]
      rfl
  · intro cache there fill slab listed
    rw [tenancy.ring_eq] at there
    rw [tenancy.slabs_eq there] at listed
    exact stocked.owned cache there slab (Stock.mem_all listed)
  · rw [← onward.geometry_eq, ← (onward.alike .heap).size_eq] at whole
    rw [← (onward.alike .heap).size_eq]
    exact stocked.sum_heap whole

end Session

namespace Booted

variable {layout : MemoryLayout} {manager : Manager} {plan : BootPlan}
  {raw seeded : BuddyAllocator}

theorem heap_whole (booted : Booted layout manager plan raw seeded) :
    (manager.tiers.buddy.zones.get .heap).size % manager.tiers.buddy.geometry.size = 0 := by
  obtain ⟨zone, steady, -⟩ := booted.opened
  have fits := BootPlan.ofLayout_eq_ok booted.planned
  have size : (manager.tiers.buddy.zones.get .heap).size = plan.ramEnd - plan.heapStart :=
    ((zone .heap).trans (steady.alike .heap)).size_eq
  rw [size, booted.geometry_eq, fits.ram_end]
  exact Nat.mod_eq_zero_of_dvd (Nat.dvd_sub (Nat.dvd_add (Nat.dvd_of_mod_eq_zero fits.ram_aligned)
    (Nat.dvd_of_mod_eq_zero fits.ram_whole)) (Nat.dvd_of_mod_eq_zero fits.heap_aligned))

end Booted

namespace Session

/--
Whatever is called on a manager that was booted: at every point its descriptors tell
the truth, as they did of start and zone when it was booted, the pages that they tell
of and the free bytes make up the heap, and no page that serves a slab ceases to.
-/
theorem run_ownership {layout : MemoryLayout} {ram : Ram} {manager : Manager}
    (booted : Action.Answers (Manager.boot layout ram) () (.ok manager) ()) {calls : List Call}
    (allowed : (start manager).Allows calls) :
    ((start manager).run calls).Ownership manager.tiers.buddy ∧
      ∀ more, ((start manager).run calls).Allows more → ∀ frame page, page.owner = .slab →
        ((start manager).run calls).tiers.buddy.pages.page? frame = some page →
          (((start manager).run calls).run more).tiers.buddy.pages.page? frame = some page := by
  obtain ⟨plan, raw, seeded, booted⟩ := Manager.boot_eq_ok booted
  have accounts := booted.accounts.rooted.run allowed
  refine ⟨accounts.ownership booted.heap_whole, fun more allowed' frame page owner found => ?_⟩
  obtain ⟨store, records, objects, blocks, tenancy, -⟩ := accounts.rooted.run allowed'
  exact tenancy.onward.slabs frame page owner found

/-- The pages that are live make a block of two, which the second page is no head of. -/
theorem run_ownership_sample :
    Action.Answers (Manager.boot .sixteenPages) () (.ok sampleManager) () ∧
    (start sampleManager).Allows sampleCalls ∧
    ((start sampleManager).run sampleCalls).slabs = [5120, 6144, 5632] ∧
    ((start sampleManager).run sampleCalls).pageOf? 7168 = some ⟨.heap, 7168, .buddy, 1, none⟩ ∧
    ((start sampleManager).run sampleCalls).pageOf? 7680 = some (.unowned .heap 7680) ∧
    ((start sampleManager).run sampleCalls).Ownership sampleManager.tiers.buddy :=
  ⟨sampleManager_booted, sampleCalls_allowed, by decide +kernel, by decide +kernel,
    by decide +kernel, (run_ownership sampleManager_booted sampleCalls_allowed).1⟩

end Session

end PhysicalMemory
