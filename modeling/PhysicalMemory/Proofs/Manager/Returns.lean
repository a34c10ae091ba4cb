import PhysicalMemory.Proofs.Boot.Map
import PhysicalMemory.Proofs.Boot.Totality
import PhysicalMemory.Proofs.Halts
import PhysicalMemory.Proofs.Manager.Progress
import PhysicalMemory.Proofs.Manager.Routing

/-!
# What is given back, whatever it is

Pages are taken back just when a live block of their order starts in their page,
whatever a copy of their descriptor says, and otherwise they are refused before
anything has changed.  An address is never refused: in the first page of a block
it gives the block back, in an object of a slab it frees that object, and
anywhere else it is ignored.
-/

namespace PhysicalMemory

namespace Session

variable {session : Session} {origin : BuddyAllocator} {address order : Nat} {page : Page}

def objection? (session : Session) (address order : Nat) : Option Violation :=
  match session.pageOf? address with
  | none => some (.freeOutsideRam address)
  | some live =>
      if live.owner ≠ .buddy then some (.freeNotBuddy address live.owner)
      else if live.order ≠ order then some (.freeAtWrongOrder address order live.order)
      else none

theorem objection?_eq_none_iff : session.objection? address order = none ↔
    ∃ live, session.pageOf? address = some live ∧ live.owner = .buddy ∧ live.order = order := by
  rw [objection?]
  split
  · next unknown => simp [unknown]
  · next live found =>
      simp only [found, Option.some.injEq, exists_eq_left']
      split
      · next other => simp [other]
      · next owner =>
          have owner := Decidable.not_not.1 owner
          split
          · next other => simp [other]
          · next same => simp [owner, Decidable.not_not.1 same]

/-- The page tier confirms pages unless there is an objection. -/
theorem AccountsForLive.confirm_error_iff (accounts : session.AccountsForLive origin)
    {halt : Halt} :
    session.tiers.buddy.confirm address order = .error halt ↔
      ∃ violation, session.objection? address order = some violation ∧
        halt = .violation violation := by
  obtain ⟨store, records, objects, blocks, tenancy, same⟩ := accounts
  have confirmed := tenancy.stocked.sound.confirm_eq address order
  rw [confirmed, objection?]
  cases found : session.pageOf? address with
  | none =>
      rw [show session.tiers.buddy.pages.page? (session.tiers.buddy.geometry.frameOf address) = none
        from found]
      simp [eq_comm]
  | some live =>
      rw [show session.tiers.buddy.pages.page? (session.tiers.buddy.geometry.frameOf address) =
        some live from found]
      dsimp only
      split
      · simp [eq_comm]
      · split <;> simp [eq_comm]

theorem AccountsForLive.knows_iff (accounts : session.AccountsForLive origin) :
    (∃ page, session.pageOf? address = some page) ↔ origin.pages.contains address = true := by
  obtain ⟨store, records, objects, blocks, tenancy, same⟩ := accounts
  have placed := tenancy.onward.placed (origin.geometry.frameOf address)
  have known := congrArg Option.isSome placed
  rw [Option.isSome_map, Option.isSome_map] at known
  rw [DescriptorTable.contains_eq, ← Option.isSome_iff_exists, pageOf?, Tiers.geometry,
    tenancy.onward.geometry_eq, known]
  rfl

/-- Pages are refused as the page tier objects, and then nothing has changed. -/
theorem AccountsForLive.halts_releasePages_iff (accounts : session.AccountsForLive origin)
    {halt : Halt}
    {after : Manager} :
    Action.Halts (Manager.releasePages page order) session.manager halt after ↔
      after = session.manager ∧ ∃ violation,
        session.objection? page.start order = some violation ∧ halt = .violation violation := by
  have halted : ∀ {refusal}, session.tiers.buddy.confirm page.start order = .error refusal →
      Action.Halts (Manager.releasePages page order) session.manager refusal session.manager := by
    intro refusal refused
    obtain ⟨result, state⟩ := BuddyAllocator.free_of_error refused
    exact ⟨result, congrArg (fun buddy => Manager.mk session.manager.layout
      ⟨buddy, session.tiers.slab⟩) state⟩
  constructor
  · intro halts
    rcases accounts.takesBack page order with ⟨refusal, refused⟩ | ⟨tiers, answers, -⟩
    · obtain ⟨result, state⟩ := halted refused
      obtain rfl : refusal = halt := Except.error.inj (result.symm.trans halts.1)
      exact ⟨halts.2.symm.trans state, accounts.confirm_error_iff.1 refused⟩
    · exact absurd (Manager.answers_inTiers answers) halts.not_answers
  · rintro ⟨rfl, objects⟩
    exact halted (accounts.confirm_error_iff.2 objects)

theorem pageOf?_start (session : Session) (address : Nat) :
    session.pageOf? (address - address % session.tiers.geometry.size) =
      session.pageOf? address := by
  have division := Nat.div_add_mod' address session.tiers.geometry.size
  rw [pageOf?, pageOf?, show address - address % session.tiers.geometry.size =
    session.tiers.geometry.frameOf address * session.tiers.geometry.size by
      rw [Geometry.frameOf]; omega, Geometry.frameOf_mul]

/-- A live block of an order starts in a page just when the page's descriptor says so. -/
theorem AccountsForLive.heads_iff (accounts : session.AccountsForLive origin) :
    session.Heads (address - address % session.tiers.geometry.size) order ↔
      ∃ live, session.pageOf? address = some live ∧ live.owner = .buddy ∧ live.order = order := by
  constructor
  · intro heads
    have known := accounts.page_of_heads heads
    rwa [session.pageOf?_start] at known
  · rintro ⟨live, found, owner, order⟩
    have place := accounts.regular.placed _ live found
    obtain ⟨store, records, objects, blocks, tenancy, same⟩ := accounts
    have division := Nat.div_add_mod' address session.tiers.geometry.size
    have start : address - address % session.tiers.geometry.size = live.start := by
      rw [place]
      change _ = address / session.tiers.geometry.size * session.tiers.geometry.size
      omega
    exact ⟨Nat.dvd_sub_mod address, by
      rw [start]; exact (tenancy.heads_iff same found).1 ⟨owner, order⟩⟩

/--
Giving back pages that start at an address halts outside memory, in a page that is
not the first of a block, and at another order than the block's, and then nothing
has changed.  It answers where a live block of the order starts in the page.
-/
structure Guarded (session : Session) (layout : MemoryLayout) (page : Page) (order : Nat) :
    Prop where
  known : (∃ live, session.pageOf? page.start = some live) ↔ layout.InRam page.start
  halts_iff : (∃ halt after,
      Action.Halts (Manager.releasePages page order) session.manager halt after) ↔
    ¬ layout.InRam page.start ∨ ∃ live, session.pageOf? page.start = some live ∧
      (live.owner ≠ .buddy ∨ live.order ≠ order)
  unchanged : ∀ halt after,
    Action.Halts (Manager.releasePages page order) session.manager halt after →
      after = session.manager ∧ ∃ violation,
        session.objection? page.start order = some violation ∧ halt = .violation violation
  answers_iff : (∃ after,
      Action.Answers (Manager.releasePages page order) session.manager () after) ↔
    session.Heads (page.start - page.start % layout.pageSize) order

/-- Pages are guarded where the pages of memory are those that were known at the origin. -/
theorem AccountsForLive.guarded (accounts : session.AccountsForLive origin) {layout : MemoryLayout}
    (covers : ∀ address, origin.pages.contains address = true ↔ layout.InRam address)
    (size : session.tiers.geometry.size = layout.pageSize) (page : Page) (order : Nat) :
    session.Guarded layout page order := by
  have known : (∃ live, session.pageOf? page.start = some live) ↔ layout.InRam page.start :=
    accounts.knows_iff.trans (covers page.start)
  have halts : (∃ halt after,
      Action.Halts (Manager.releasePages page order) session.manager halt after) ↔
        session.objection? page.start order ≠ none := by
    simp only [accounts.halts_releasePages_iff, Option.ne_none_iff_exists']
    constructor
    · rintro ⟨halt, after, -, violation, objects, -⟩
      exact ⟨violation, objects⟩
    · rintro ⟨violation, objects⟩
      exact ⟨_, _, rfl, violation, objects, rfl⟩
  refine ⟨known, halts.trans ?_, fun halt after => accounts.halts_releasePages_iff.1, ?_⟩
  · rw [← known, Ne, objection?_eq_none_iff]
    cases session.pageOf? page.start with
    | none => simp
    | some live =>
        simp only [Option.some.injEq, exists_eq_left', exists_eq', not_true_eq_false, false_or]
        exact Decidable.not_and_iff_or_not
  · rw [← size, accounts.heads_iff, ← objection?_eq_none_iff, ← not_iff_not, ← Ne, ← halts,
      Action.exists_halts_iff_not_answers]
    exact not_congr ⟨fun ⟨after, answers⟩ => ⟨(), after, answers⟩,
      fun ⟨⟨⟩, after, answers⟩ => ⟨after, answers⟩⟩

/--
Whatever is called on a manager that was booted, and whatever pages are then given
back at whatever order: giving them back halts just where it ought to, by what the
descriptor of their page says, and then nothing has changed.
-/
theorem run_guarded {layout : MemoryLayout} {ram : Ram} {manager : Manager}
    (booted : Action.Answers (Manager.boot layout ram) () (.ok manager) ()) {calls : List Call}
    (allowed : (start manager).Allows calls) (page : Page) (order : Nat) :
    ((start manager).run calls).Guarded layout page order := by
  obtain ⟨plan, raw, seeded, booted⟩ := Manager.boot_eq_ok booted
  have accounts := booted.accounts.rooted.run allowed
  have covers := booted.contains_iff
  have fits := BootPlan.ofLayout_eq_ok booted.planned
  refine accounts.guarded covers ?_ page order
  obtain ⟨store, records, objects, blocks, tenancy, -⟩ := accounts
  rw [Tiers.geometry, tenancy.onward.geometry_eq, fits.page_size]
  exact congrArg Geometry.size booted.geometry_eq

/-- The second page of a live block is refused, and so is the first at another order. -/
theorem run_guarded_sample :
    Action.Answers (Manager.boot .sixteenPages) () (.ok sampleManager) () ∧
    (start sampleManager).Allows sampleCalls ∧
    ((start sampleManager).run sampleCalls).objection? 7168 1 = none ∧
    ((start sampleManager).run sampleCalls).objection? 7168 0 =
      some (.freeAtWrongOrder 7168 0 1) ∧
    ((start sampleManager).run sampleCalls).objection? 7680 0 =
      some (.freeNotBuddy 7680 .unowned) ∧
    ((start sampleManager).run sampleCalls).Guarded .sixteenPages (.unowned .heap 7680) 0 :=
  ⟨sampleManager_booted, sampleCalls_allowed, by decide +kernel, by decide +kernel,
    by decide +kernel, run_guarded sampleManager_booted sampleCalls_allowed _ 0⟩

/-- The address lies in the object with a number, in the slab that the page is. -/
def InObject (session : Session) (page : Page) (index address : Nat) : Prop :=
  page.owner = .slab ∧ ∃ cache, page.cache = some cache ∧
    index < session.tiers.slab.capacityFor (Cache.objectSize session.tiers.ram cache) ∧
      let slot := Slab.slot session.tiers.ram page.start
        (Cache.objectSize session.tiers.ram cache) index
      slot.start ≤ address ∧ address < slot.start + slot.size

/-- In the page of a slab an address frees the object that it is in, or nothing. -/
theorem AccountsForLive.freeObject (accounts : session.AccountsForLive origin)
    (found : session.pageOf? address = some page) (owner : page.owner = .slab) :
    page.cache.isSome ∧
    (∀ index, session.InObject page index address →
      Action.Answers (Tiers.freeObject address page) session.tiers () (session.tiers.setRam
        (Slab.pushFree session.tiers.ram page.start (index % Slab.linkLimit)))) ∧
    ((∀ index, ¬ session.InObject page index address) →
      Action.Answers (Tiers.freeObject address page) session.tiers () session.tiers) := by
  obtain ⟨store, records, objects, blocks, tenancy, same⟩ := accounts
  have stocked := tenancy.stocked
  obtain ⟨cache, member, named, listed⟩ := stocked.served _ page found owner
  have kept := stocked.kept cache member
  have inObject : ∀ index, session.InObject page index address ↔
      index < (store.stock cache).capacity session.tiers.buddy.geometry.size ∧
        (store.stock cache).slot session.tiers.buddy.geometry.size page.start index ≤ address ∧
          address < (store.stock cache).slot session.tiers.buddy.geometry.size page.start index +
            (store.stock cache).size := by
    intro index
    simp only [InObject, owner, named, Option.some.injEq, exists_eq_left', true_and,
      tenancy.capacityFor_eq member, tenancy.slot_eq member listed]
    rfl
  have freed : ∀ {ram}, Action.Answers (session.tiers.slab.free address page)
      session.tiers.buddy.ram () ram →
        Action.Answers (Tiers.freeObject address page) session.tiers ()
          (session.tiers.setRam ram) :=
    fun answers => Action.answers_get_bind_iff.2 (Tiers.answers_inBuddy_iff.2
      ⟨_, BuddyAllocator.answers_inRam_iff.2 ⟨_, answers, rfl⟩, rfl⟩)
  refine ⟨by rw [named]; rfl, fun index inside => ?_, fun misses => ?_⟩
  · obtain ⟨inside, low, high⟩ := (inObject index).1 inside
    exact freed (kept.freeObject (stocked.placed member) listed inside low high stocked.page_eq rfl
      named)
  · refine freed (kept.missObject (stocked.placed member) listed (stocked.sized cache member) ?_
      stocked.page_eq rfl named)
    exact fun index inside within => misses index ((inObject index).2 ⟨inside, within⟩)

/-- The number of an object that a link can name is put in front of the chain. -/
theorem AccountsForLive.pushed (accounts : session.AccountsForLive origin) {cache index : Nat}
    (found : session.pageOf? address = some page) (named : page.cache = some cache)
    (inside : session.InObject page index address) :
    let capacity := session.tiers.slab.capacityFor (Cache.objectSize session.tiers.ram cache)
    let ram := Slab.pushFree session.tiers.ram page.start (index % Slab.linkLimit)
    index < Slab.room capacity →
      Slab.Pushed session.tiers.ram ram page.start capacity index ∧
        (index ∉ Slab.chain session.tiers.ram page.start capacity →
          Slab.chain ram page.start capacity =
            index :: Slab.chain session.tiers.ram page.start capacity) := by
  intro capacity ram below
  obtain ⟨owner, other, named', within, -⟩ := inside
  obtain rfl : cache = other := Option.some.inj (named.symm.trans named')
  obtain ⟨store, records, objects, blocks, tenancy, same⟩ := accounts
  have stocked := tenancy.stocked
  obtain ⟨known, member, named', listed⟩ := stocked.served _ page found owner
  obtain rfl : cache = known := Option.some.inj (named.symm.trans named')
  have capacity_eq : capacity = (store.stock cache).capacity session.tiers.buddy.geometry.size :=
    tenancy.capacityFor_eq member
  have numbered : index < Slab.linkLimit := Nat.lt_trans below (Slab.room_lt capacity)
  have ram_eq : ram = Slab.pushFree session.tiers.ram page.start index :=
    congrArg (Slab.pushFree session.tiers.ram page.start) (Nat.mod_eq_of_lt numbered)
  rw [ram_eq]
  refine ⟨Slab.pushed_pushFree _ _ within numbered, fun taken => ?_⟩
  have keeps := (stocked.kept cache member).keeps _ listed
  rw [← capacity_eq] at keeps
  have chain_eq : Slab.chain session.tiers.ram page.start capacity =
      (store.stock cache).free page.start := tenancy.chain_eq member listed
  rw [chain_eq] at taken ⊢
  exact (keeps.give below taken).1.chain_eq

/--
The object that a live address is in is one that a link can name, whatever the size of
the pages, and it is not on the chain of its slab.
-/
theorem AccountsForLive.handedOut (accounts : session.AccountsForLive origin) {cache index : Nat}
    {extent : Extent}
    (found : session.pageOf? address = some page) (named : page.cache = some cache)
    (inside : session.InObject page index address) (live : extent ∈ session.live)
    (start : extent.start = address) :
    let capacity := session.tiers.slab.capacityFor (Cache.objectSize session.tiers.ram cache)
    index < Slab.room capacity ∧ index ∉ Slab.chain session.tiers.ram page.start capacity := by
  subst start
  intro capacity
  obtain ⟨owner, other, named', -, low, high⟩ := inside
  obtain rfl : cache = other := Option.some.inj (named.symm.trans named')
  obtain ⟨store, records, objects, blocks, tenancy, same⟩ := accounts
  have stocked := tenancy.stocked
  rcases tenancy.cases_live same live with ⟨seat, there, rfl⟩ | ⟨block, lends⟩
  · obtain ⟨known, member, sits⟩ := tenancy.inside_of_seat there
    have serving : page = .serving seat.slab known :=
      Option.some.inj (found.symm.trans (stocked.page_of_seat member sits))
    have start : page.start = seat.slab := congrArg Page.start serving
    obtain rfl : known = cache := Option.some.inj ((congrArg Page.cache serving).symm.trans named)
    have listed := sits.held.1
    rw [start] at low high ⊢
    -- two objects of a slab have no byte in common, so the seat is in this one
    obtain rfl : seat.index = index := by
      by_contra distinct
      have apart := @Stock.slot_apart (store.stock known) session.tiers.buddy.geometry.size
        seat.slab _ _ distinct
      have positive := sits.positive
      have seat_low := sits.low
      have seat_high := sits.high
      rw [tenancy.slot_eq member listed] at low high
      simp only [Stock.extent] at low high
      omega
    rw [show Slab.chain session.tiers.ram seat.slab capacity = _ from
      tenancy.chain_eq member listed, show capacity = _ from tenancy.capacityFor_eq member]
    exact sits.held.2
  · have buddy := lends.owner_eq
    rw [Option.some.inj (lends.found.symm.trans found), owner] at buddy
    cases buddy

/-- In a page that is not huge a link can name every object. -/
theorem AccountsForLive.nameable (accounts : session.AccountsForLive origin)
    (small : session.tiers.geometry.size ≤ 1 <<< 34) {cache index : Nat}
    (named : page.cache = some cache) (inside : session.InObject page index address) :
    index < Slab.room
      (session.tiers.slab.capacityFor (Cache.objectSize session.tiers.ram cache)) := by
  obtain ⟨-, other, named', within, -⟩ := inside
  obtain rfl : cache = other := Option.some.inj (named.symm.trans named')
  obtain ⟨store, records, objects, blocks, tenancy, same⟩ := accounts
  have page_eq : session.tiers.slab.pageSize = session.tiers.geometry.size :=
    tenancy.stocked.page_eq
  rw [SlabAllocator.capacityFor] at within ⊢
  rwa [Slab.room_capacity (by rwa [page_eq])]

/-- An address in the first page of a block gives the block back at the order it is recorded at. -/
theorem AccountsForLive.run_release_of_block (accounts : session.AccountsForLive origin)
    (found : session.pageOf? address = some page) (owner : page.owner = .buddy) :
    (Manager.release address).run session.manager =
      (Manager.releasePages page page.order).run session.manager := by
  have nonzero := accounts.ne_zero_of_owned found (by rw [owner]; decide)
  have known : session.tiers.buddy.pages.page?
      (session.tiers.buddy.pages.geometry.frameOf address) = some page := found
  have contains : session.tiers.buddy.pages.contains address = true := by
    rw [DescriptorTable.contains_eq, known]
    rfl
  have address_eq : session.tiers.buddy.pages.ofAddress address = .ok page :=
    accounts.regular.ofFrame_eq known
  have released : (Tiers.release address).run session.tiers =
      (Tiers.inBuddy (BuddyAllocator.free page.start page.order)).run session.tiers := by
    unfold Tiers.release
    rw [if_neg nonzero, Action.run_get_bind]
    dsimp only
    rw [contains, if_neg (by decide), address_eq]
    simp only [Action.liftM_eq_check, Action.check_ok, pure_bind, owner]
  exact congrArg (fun outcome : Outcome Tiers Unit => (⟨outcome.result,
    ⟨session.manager.layout, outcome.state⟩, outcome.log⟩ : Outcome Manager Unit)) released

/--
What an address that is given back comes to, without a halt: the block in whose
first page it lies is given back, the object in which it lies is put in front of the
chain of its slab, and otherwise nothing changes.  A link has 32 bits, so the number
of an object is cut to them; only pages beyond `2 ^ 34` bytes have larger numbers,
and an object with one of those is never handed out.
-/
structure Released (session : Session) (address : Nat) : Prop where
  answers : ∃ after, Action.Answers (Manager.release address) session.manager () after
  block : ∀ page, session.pageOf? address = some page → page.owner = .buddy →
    (Manager.release address).run session.manager =
      (Manager.releasePages page page.order).run session.manager
  object : ∀ page index, session.pageOf? address = some page →
    session.InObject page index address →
      ((Manager.release address).run session.manager).state = session.manager.setRam
        (Slab.pushFree session.manager.ram page.start (index % Slab.linkLimit))
  pushed : ∀ page cache index, session.pageOf? address = some page → page.cache = some cache →
    session.InObject page index address →
      let capacity := session.tiers.slab.capacityFor (Cache.objectSize session.tiers.ram cache)
      let ram := ((Manager.release address).run session.manager).state.ram
      index < Slab.room capacity →
        Slab.Pushed session.manager.ram ram page.start capacity index ∧
          (index ∉ Slab.chain session.manager.ram page.start capacity →
            Slab.chain ram page.start capacity =
              index :: Slab.chain session.manager.ram page.start capacity)
  nameable : session.tiers.geometry.size ≤ 1 <<< 34 → ∀ page cache index,
    page.cache = some cache → session.InObject page index address →
      index < Slab.room
        (session.tiers.slab.capacityFor (Cache.objectSize session.tiers.ram cache))
  handedOut : (∃ extent ∈ session.live, extent.start = address) → ∀ page cache index,
    session.pageOf? address = some page → page.cache = some cache →
    session.InObject page index address →
      let capacity := session.tiers.slab.capacityFor (Cache.objectSize session.tiers.ram cache)
      index < Slab.room capacity ∧
        index ∉ Slab.chain session.manager.ram page.start capacity
  ignored : (∀ page, session.pageOf? address = some page →
      page.owner ≠ .buddy ∧ ∀ index, ¬ session.InObject page index address) →
    ((Manager.release address).run session.manager).state = session.manager

theorem AccountsForLive.released (accounts : session.AccountsForLive origin) (address : Nat) :
    session.Released address := by
  have object : ∀ page index, session.pageOf? address = some page →
      session.InObject page index address →
        Action.Answers (Manager.release address) session.manager () (session.manager.setRam
          (Slab.pushFree session.manager.ram page.start (index % Slab.linkLimit))) := by
    intro page index found inside
    obtain ⟨cached, frees, -⟩ := accounts.freeObject found inside.1
    exact Manager.answers_inTiers
      (accounts.release_of_slab found inside.1 cached (frees index inside))
  have ignored : (∀ page, session.pageOf? address = some page →
      page.owner ≠ .buddy ∧ ∀ index, ¬ session.InObject page index address) →
        Action.Answers (Manager.release address) session.manager () session.manager := by
    intro nowhere
    refine Manager.answers_inTiers ?_
    cases owner : session.ownerOf address with
    | unowned =>
        exact release_of_unowned accounts.regular fun page found =>
          (ownerOf_of_some found).symm.trans owner
    | buddy =>
        obtain ⟨page, found, owner⟩ := pageOf?_of_owned owner (by decide)
        exact absurd owner (nowhere page found).1
    | slab =>
        obtain ⟨page, found, owner⟩ := pageOf?_of_owned owner (by decide)
        obtain ⟨cached, -, misses⟩ := accounts.freeObject found owner
        exact accounts.release_of_slab found owner cached (misses (nowhere page found).2)
  refine ⟨?_, fun page found owner => accounts.run_release_of_block found owner,
    fun page index found inside => (object page index found inside).2, ?_,
    fun small page cache index named inside => accounts.nameable small named inside,
    fun ⟨extent, live, start⟩ page cache index found named inside =>
      accounts.handedOut found named inside live start,
    fun nowhere => (ignored nowhere).2⟩
  · by_cases block : ∃ page, session.pageOf? address = some page ∧ page.owner = .buddy
    · obtain ⟨page, found, owner⟩ := block
      obtain ⟨after, answers, -⟩ := accounts.releaseBlock found owner
      exact ⟨_, Manager.answers_inTiers answers⟩
    · by_cases inside : ∃ page index, session.pageOf? address = some page ∧
          session.InObject page index address
      · obtain ⟨page, index, found, inside⟩ := inside
        exact ⟨_, object page index found inside⟩
      · exact ⟨_, ignored fun page found => ⟨fun owner => block ⟨page, found, owner⟩,
          fun index within => inside ⟨page, index, found, within⟩⟩⟩
  · intro page cache index found named inside
    rw [(object page index found inside).2]
    exact accounts.pushed found named inside

/--
Whatever is called on a manager that was booted, giving any address back then comes
to what the address is in: a block, an object, or nothing that anybody holds.
-/
theorem run_released {layout : MemoryLayout} {ram : Ram} {manager : Manager}
    (booted : Action.Answers (Manager.boot layout ram) () (.ok manager) ()) {calls : List Call}
    (allowed : (start manager).Allows calls) (address : Nat) :
    ((start manager).run calls).Released address := by
  obtain ⟨plan, raw, seeded, booted⟩ := Manager.boot_eq_ok booted
  exact (booted.accounts.run allowed).released address

/-- An address in the header of a slab is in no object of it. -/
theorem run_released_sample :
    Action.Answers (Manager.boot .sixteenPages) () (.ok sampleManager) () ∧
    (start sampleManager).Allows sampleCalls ∧
    ((start sampleManager).run sampleCalls).ownerOf 5136 = .slab ∧
    ((start sampleManager).run sampleCalls).Misses 5136 ∧
    ((start sampleManager).run sampleCalls).Released 5136 :=
  ⟨sampleManager_booted, sampleCalls_allowed, by decide +kernel, by decide +kernel,
    run_released sampleManager_booted sampleCalls_allowed 5136⟩

theorem exists_inObject {store : Store} {cache slab : Nat}
    (stocked : session.tiers.buddy.Stocked session.tiers.slab store)
    (member : cache ∈ store.caches) (listed : slab ∈ (store.stock cache).all) (index : Nat)
    (inside : index < Slab.capacity session.tiers.buddy.geometry.size (store.stock cache).size) :
    ∃ address, session.pageOf? address = some (.serving slab cache) ∧
      session.InObject (.serving slab cache) index address := by
  have kept := stocked.kept cache member
  have bounds := (stocked.placed member).slot_bounds slab inside
  have sized := stocked.sized cache member
  have frame := stocked.frame_of_slab member listed (Nat.le_trans (Nat.le_add_right _ _) bounds.1)
    (Nat.lt_of_lt_of_le (Nat.lt_add_of_pos_right sized) bounds.2)
  have size_eq : Cache.objectSize session.tiers.ram cache = (store.stock cache).size :=
    kept.size_eq
  have slot_eq : Slab.slot session.tiers.ram slab (store.stock cache).size index =
      (store.stock cache).extent session.tiers.buddy.geometry.size slab index :=
    kept.slot_eq listed index
  refine ⟨(store.stock cache).slot session.tiers.buddy.geometry.size slab index, ?_, rfl, cache,
    rfl, ?_, ?_⟩
  · exact (congrArg session.tiers.buddy.pages.page? frame).trans
      (stocked.owned cache member slab listed)
  · exact Nat.lt_of_lt_of_eq inside (stocked.capacityFor_eq member).symm
  · rw [size_eq, show (Page.serving slab cache).start = slab from rfl, slot_eq]
    exact ⟨Nat.le_refl _, Nat.lt_add_of_pos_right sized⟩

/-- The first request of a size takes a free page, where all objects have that size. -/
theorem perform_first {layout : MemoryLayout} {manager : Manager} {plan : BootPlan}
    {raw seeded : BuddyAllocator} (booted : Booted layout manager plan raw seeded) (size : Nat)
    {free : Nat} (sized : 0 < size) (fits : 0 < Slab.capacity layout.pageSize size)
    (other : size ≠ CacheRecord.objectSize) (bytes : manager.freeBytes = .ok free)
    (some : 0 < free) :
    let session := (start manager).perform (.allocate size)
    session.tiers.buddy.geometry.size = layout.pageSize ∧ ∃ store cache slab,
      session.tiers.buddy.Stocked session.tiers.slab store ∧ cache ∈ store.caches ∧
        (store.stock cache).size = size ∧ slab ∈ (store.stock cache).all := by
  have page_size := (BootPlan.ofLayout_eq_ok booted.planned).page_size
  obtain ⟨store, stocked, seated, awaits⟩ := booted.awaits other
  rw [← booted.geometry_eq] at page_size
  rw [page_size] at fits ⊢
  obtain ⟨answer, store', told, slab_eq, course⟩ :=
    @course_allocate (start manager) size _ _ _ stocked seated sized fits
  obtain ⟨_, answered⟩ := course.answered stocked seated
  have fed := course.fed stocked fits awaits
  have stocked' := answered.stocked
  rw [← slab_eq] at stocked'
  refine ⟨congrArg Geometry.size answered.steady.geometry_eq, ?_⟩
  cases fed with
  | refused filling full absent =>
      have frames := Except.ok.inj (stocked.sound.freeBytes_eq_freeFrames.symm.trans bytes)
      rw [eq_comm, Nat.mul_eq_zero] at full
      rcases full with none | none
      · rw [none, Nat.zero_mul] at frames
        exact absurd frames (Nat.ne_of_lt some)
      · exact absurd none (Nat.ne_of_gt (Slab.room_pos fits))
  | @served cache slab pages' _ _ grows here filling =>
      have listed := filling.fills.perm_all.mem_iff.1 (List.mem_of_getElem? here)
      exact ⟨store', cache, slab, stocked', filling.member, filling.size_eq, listed⟩

end Session

/-- Sixteen pages, each so large that a link cannot name all the bytes of a slab. -/
def MemoryLayout.giantPages : MemoryLayout :=
  ⟨2 ^ 35, 2 ^ 39, 2 ^ 35 + 5, 2 ^ 35⟩

namespace Session

/-- An address in the object with number `2 ^ 32` does not push that object, but the first one. -/
theorem not_released_exactly :
    ∃ manager page address,
      Action.Answers (Manager.boot .giantPages) () (.ok manager) () ∧
      (start manager).Allows [.allocate 1] ∧
      let session := (start manager).run [.allocate 1]
      session.pageOf? address = some page ∧ session.InObject page (1 <<< 32) address ∧
        Slab.cursor ((Manager.release address).run session.manager).state.ram page.start = 0 := by
  have accepted : MemoryLayout.giantPages.Accepted := by decide +kernel
  obtain ⟨manager, answers⟩ :=
    Manager.exists_boot accepted (by decide +kernel) (by decide +kernel) {}
  obtain ⟨plan, raw, seeded, booted⟩ := Manager.boot_eq_ok answers
  obtain ⟨free, bytes, rest⟩ := booted.freeBytes_eq
  have heap := congrArg Extent.size booted.extents.2.2
  have start_eq : plan.heapStart = 2 ^ 36 :=
    (BootPlan.heapStart_of_run booted.planned).trans (by decide +kernel)
  have some : 0 < free := by
    simp only [Zone.extent, start_eq, MemoryLayout.giantPages] at heap rest
    omega
  obtain ⟨page_eq, store, cache, slab, stocked, member, size_eq, listed⟩ :=
    perform_first booted 1 (by decide) (by decide +kernel) (by decide) bytes some
  have numerous : 1 <<< 32 < Slab.capacity MemoryLayout.giantPages.pageSize 1 := by decide +kernel
  obtain ⟨address, found, inside⟩ := exists_inObject stocked member listed (1 <<< 32)
    (by rwa [page_eq, size_eq])
  have allowed : (start manager).Allows [.allocate 1] := ⟨trivial, trivial⟩
  have released := (booted.accounts.run allowed).released address
  have cut : (1 <<< 32) % Slab.linkLimit = 0 := rfl
  refine ⟨manager, _, address, answers, allowed, found, inside, ?_⟩
  rw [released.object _ _ found inside, cut]
  exact (Slab.pushed_pushFree _ _ Nat.one_pos (by decide)).cursor_eq

end Session

end PhysicalMemory
