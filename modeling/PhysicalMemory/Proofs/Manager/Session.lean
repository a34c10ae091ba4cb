import PhysicalMemory.Proofs.Manager.Releases

/-!
# Sessions

A session is a manager together with what is live: the allocations that were
answered and have not ended.  Calls come with any arguments, may be refused and
may halt; only an object is given back by its own address, and whoever holds
memory writes in it alone.  Every call that is allowed leaves the live
allocations accounted for, and so does every run of such calls.
-/

namespace PhysicalMemory

/-- What can be asked of a manager, and the writes of those who hold memory. -/
inductive Call where
  | allocatePages (order : Nat)
  | allocate (size : Nat)
  | allocateAligned (size alignment : Nat)
  | releasePages (page : Page) (order : Nat)
  | release (address : Nat)
  | write (ram : Ram)

/-- A manager and the live allocations. -/
structure Session where
  manager : Manager
  live : List Extent

namespace Session

variable {α : Type}

def start (manager : Manager) : Session :=
  ⟨manager, []⟩

def tiers (session : Session) : Tiers :=
  session.manager.tiers

def pageOf? (session : Session) (address : Nat) : Option Page :=
  session.tiers.buddy.pages.page? (session.tiers.geometry.frameOf address)

def ownerOf (session : Session) (address : Nat) : Owner :=
  match session.pageOf? address with
  | some page => page.owner
  | none => .unowned

def follow (session : Session) (action : Action Manager α) (live : α → List Extent) : Session :=
  ⟨(action.run session.manager).state,
    match (action.run session.manager).result with
    | .ok value => live value
    | .error _ => session.live⟩

def granted (live : List Extent) (extent : α → Extent) : Except AllocFailure α → List Extent
  | .ok value => extent value :: live
  | .error _ => live

/--
What is live after an address was given back: nothing that starts in the page if
that was the first of a block, and nothing that starts at the address if the page
is a slab.
-/
def remaining (session : Session) (address : Nat) : List Extent :=
  match session.ownerOf address with
  | .buddy => Tiers.beside session.tiers.geometry
      (session.tiers.geometry.frameOf address) session.live
  | .slab => session.live.filter fun extent => extent.start ≠ address
  | .unowned => session.live

/-- The session after a call. -/
def perform (session : Session) : Call → Session
  | .allocatePages order =>
      session.follow (Manager.allocatePages order).outcome
        (granted session.live fun page => ⟨page.start, session.tiers.geometry.size <<< order⟩)
  | .allocate size =>
      session.follow (Manager.allocate size).outcome
        (granted session.live fun address => ⟨address, size⟩)
  | .allocateAligned size alignment =>
      session.follow (Manager.allocateAligned size alignment).outcome
        (granted session.live fun address => ⟨address, size⟩)
  | .releasePages page order =>
      session.follow (Manager.releasePages page order) fun _ => session.remaining page.start
  | .release address =>
      session.follow (Manager.release address) fun _ => session.remaining address
  | .write ram => ⟨session.manager.setRam ram, session.live⟩

def Ignores (session : Session) (address : Nat) : Prop :=
  ((Manager.release address).run session.manager).state = session.manager

/--
In the pages of slabs only live addresses are given back, or such as are ignored,
and only live bytes are written.
-/
def Permits (session : Session) : Call → Prop
  | .release address => session.ownerOf address = .slab →
      (∃ extent ∈ session.live, extent.start = address) ∨ session.Ignores address
  | .write ram => session.manager.ram.AgreesOff ram fun byte =>
      ∃ extent ∈ session.live, extent.start ≤ byte ∧ byte < extent.start + extent.size
  | _ => True

def run (session : Session) (calls : List Call) : Session :=
  calls.foldl perform session

def Allows (session : Session) : List Call → Prop
  | [] => True
  | call :: rest => session.Permits call ∧ (session.perform call).Allows rest

def Misses (session : Session) (address : Nat) : Prop :=
  ∀ cache ∈ session.tiers.slab.ring session.tiers.ram, ∀ fill,
    ∀ slab ∈ Cache.slabs session.tiers.ram cache fill,
      ∀ index < session.tiers.slab.capacityFor (Cache.objectSize session.tiers.ram cache),
        let slot :=
          Slab.slot session.tiers.ram slab (Cache.objectSize session.tiers.ram cache) index
        ¬ (slot.start ≤ address ∧ address < slot.start + slot.size)

/-- Both tiers account for all that is live, and go on from an origin. -/
def AccountsForLive (session : Session) (origin : BuddyAllocator) : Prop :=
  session.tiers.AccountsFor origin session.live

variable {session : Session} {origin : BuddyAllocator}

/-- An action of the tiers that answers is followed to where it ends. -/
theorem follow_of_answers {action : Action Tiers α} {value : α} {after : Tiers}
    (answers : Action.Answers action session.tiers value after) (live : α → List Extent) :
    session.follow (Manager.inTiers action) live =
      ⟨⟨session.manager.layout, after⟩, live value⟩ := by
  have result : ((Manager.inTiers action).run session.manager).result = .ok value := answers.1
  obtain ⟨-, rfl⟩ := answers
  rw [follow, result]
  rfl

/-- An action that halts before it has changed anything leaves the session as it was. -/
theorem follow_of_halt {action : Action Tiers α} {halt : Halt}
    (result : (action.run session.tiers).result = .error halt)
    (state : (action.run session.tiers).state = session.tiers) (live : α → List Extent) :
    session.follow (Manager.inTiers action) live = session := by
  have halted : ((Manager.inTiers action).run session.manager).result = .error halt := result
  rw [follow, halted, Manager.run_inTiers]
  exact congrArg (fun tiers => (⟨⟨session.manager.layout, tiers⟩, session.live⟩ : Session)) state

/-- After a request its bytes are accounted for, too, unless it was refused or halted. -/
theorem AccountsForLive.request (accounts : session.AccountsForLive origin)
    {attempt : Attempt Tiers α} {size : Nat}
    {start : α → Nat}
    (grants : Tiers.Grants attempt session.tiers origin session.live size start) :
    (session.follow (Manager.tryTiers attempt).outcome
      (granted session.live fun value => ⟨start value, size⟩)).AccountsForLive origin := by
  change (session.follow (Manager.inTiers attempt.outcome) _).AccountsForLive origin
  rcases grants with ⟨-, halt, result, state⟩ | ⟨answer, after, answers, granted⟩
  · rw [follow_of_halt result state]
    exact accounts
  · rw [follow_of_answers answers]
    cases answer with
    | error failure => exact granted
    | ok value => exact granted

/-- A request for pages is granted a block of them, which needs its order. -/
theorem AccountsForLive.grantPages (accounts : session.AccountsForLive origin) (order : Nat) :
    ∃ answer after, Action.Answers (Tiers.tryBuddy (BuddyAllocator.allocate order)).outcome
        session.tiers answer after ∧
      after.Granted origin session.live
        (fun page => ⟨page.start, session.tiers.geometry.size <<< order⟩) answer := by
  rcases Tiers.AccountsFor.lend accounts order with
    ⟨failure, refused⟩ | ⟨page, after, answers, lent⟩
  · exact ⟨.error failure, session.tiers, refused, accounts⟩
  · refine ⟨.ok page, after, answers, lent _ ?_ (Geometry.isOrderFor_block _ order)⟩
    rw [Nat.shiftLeft_eq]
    exact Nat.mul_pos session.tiers.geometry.size_pos (Nat.two_pow_pos order)

theorem ownerOf_of_some {address : Nat} {page : Page}
    (found : session.pageOf? address = some page) : session.ownerOf address = page.owner := by
  rw [ownerOf, found]

theorem pageOf?_of_owned {address : Nat} {owner : Owner} (held : session.ownerOf address = owner)
    (owned : owner ≠ .unowned) :
    ∃ page, session.pageOf? address = some page ∧ page.owner = owner := by
  cases found : session.pageOf? address with
  | none =>
      rw [ownerOf, found] at held
      exact absurd held.symm owned
  | some page => exact ⟨page, rfl, (ownerOf_of_some found).symm.trans held⟩

theorem perform_releasePages (page : Page) (order : Nat) :
    session.perform (.releasePages page order) =
      session.follow (Manager.inTiers (Tiers.inBuddy (BuddyAllocator.free page.start order)))
        fun _ => session.remaining page.start :=
  rfl

/-- Pages whose descriptor does not confirm them are refused before anything has changed. -/
theorem releasePages_of_refused {page : Page} {order : Nat} {halt : Halt}
    (refused : session.tiers.buddy.confirm page.start order = .error halt) :
    session.perform (.releasePages page order) = session := by
  have halted := BuddyAllocator.free_of_error refused
  have result : ((Tiers.inBuddy (BuddyAllocator.free page.start order)).run
      session.tiers).result = .error halt := by
    rw [Tiers.run_inBuddy]
    exact halted.1
  have state : ((Tiers.inBuddy (BuddyAllocator.free page.start order)).run
      session.tiers).state = session.tiers := by
    rw [Tiers.run_inBuddy]
    exact congrArg (Tiers.mk · session.tiers.slab) halted.2
  rw [perform_releasePages, follow_of_halt result state]

/-- Pages that are given back are taken back if they are a block that was lent, or else refused. -/
theorem AccountsForLive.takesBack (accounts : session.AccountsForLive origin) (page : Page)
    (order : Nat) :
    (∃ halt, session.tiers.buddy.confirm page.start order = .error halt) ∨
      ∃ after, Action.Answers (Tiers.inBuddy (BuddyAllocator.free page.start order))
        session.tiers () after ∧ after.AccountsFor origin (session.remaining page.start) := by
  obtain ⟨store, records, objects, blocks, tenancy, same⟩ := accounts
  have confirmed := tenancy.stocked.sound.confirm_eq page.start order
  have accounts : session.AccountsForLive origin := ⟨store, records, objects, blocks, tenancy, same⟩
  split at confirmed
  · exact .inl ⟨_, confirmed⟩
  · next live found =>
      split at confirmed
      · exact .inl ⟨_, confirmed⟩
      · next owner =>
          split at confirmed
          · exact .inl ⟨_, confirmed⟩
          · next equal =>
              obtain rfl := Decidable.not_not.1 equal
              have owner := Decidable.not_not.1 owner
              obtain ⟨after, answers, accountsFor⟩ := Tiers.AccountsFor.recover accounts found owner
              refine .inr ⟨after, answers, ?_⟩
              rwa [remaining, ownerOf_of_some found, owner]

theorem AccountsForLive.releasePages (accounts : session.AccountsForLive origin) (page : Page)
    (order : Nat) :
    (session.perform (.releasePages page order)).AccountsForLive origin := by
  rcases accounts.takesBack page order with ⟨halt, refused⟩ | ⟨after, answers, accountsFor⟩
  · rwa [releasePages_of_refused refused]
  · rw [perform_releasePages, follow_of_answers answers]
    exact accountsFor

theorem perform_release (address : Nat) :
    session.perform (.release address) =
      session.follow (Manager.inTiers (Tiers.release address))
        fun _ => session.remaining address :=
  rfl

/-- What is released goes by the page that the address is in. -/
theorem release_of_page {tiers after : Tiers} {address : Nat} {page : Page}
    (regular : tiers.buddy.pages.Regular) (nonzero : address ≠ 0)
    (found : tiers.buddy.pages.page? (tiers.geometry.frameOf address) = some page)
    (answers : Action.Answers (match page.owner with
      | .buddy => Tiers.inBuddy (BuddyAllocator.free page.start page.order)
      | .slab => do
          if page.cache.isNone then Action.violate (.freeInPageWithoutCache page.start)
          Tiers.freeObject address page
      | .unowned => Action.report (.freeInUnownedPage address)) tiers () after) :
    Action.Answers (Tiers.release address) tiers () after := by
  have known : tiers.buddy.pages.page? (tiers.buddy.pages.geometry.frameOf address) = some page :=
    found
  have contains : tiers.buddy.pages.contains address = true := by
    rw [DescriptorTable.contains_eq, known]
    rfl
  unfold Tiers.release
  rw [if_neg nonzero]
  refine Action.answers_get_bind_iff.2 ?_
  dsimp only
  rw [contains, if_neg (by decide)]
  exact Action.answers_check_bind_iff.2 ⟨page, regular.ofFrame_eq known, answers⟩

/-- An address in a page that nobody owns, or in none, is reported, and nothing changes. -/
theorem release_of_unowned {tiers : Tiers} {address : Nat}
    (regular : tiers.buddy.pages.Regular)
    (unowned : ∀ page, tiers.buddy.pages.page? (tiers.geometry.frameOf address) = some page →
      page.owner = .unowned) :
    Action.Answers (Tiers.release address) tiers () tiers := by
  by_cases zero : address = 0
  · unfold Tiers.release
    rw [if_pos zero]
    exact Action.answers_pure_iff.2 ⟨rfl, rfl⟩
  cases found : tiers.buddy.pages.page? (tiers.geometry.frameOf address) with
  | some page =>
      refine release_of_page regular zero found ?_
      rw [unowned page found]
      exact Action.answers_report_iff.2 rfl
  | none =>
      have unknown : tiers.buddy.pages.page? (tiers.buddy.pages.geometry.frameOf address) = none :=
        found
      have outside : tiers.buddy.pages.contains address = false := by
        rw [DescriptorTable.contains_eq, unknown]
        rfl
      unfold Tiers.release
      rw [if_neg zero]
      refine Action.answers_get_bind_iff.2 ?_
      dsimp only
      rw [outside, if_pos (by decide)]
      exact Action.answers_report_iff.2 rfl

theorem AccountsForLive.regular (accounts : session.AccountsForLive origin) :
    session.tiers.buddy.pages.Regular := by
  obtain ⟨store, records, objects, blocks, tenancy, same⟩ := accounts
  exact tenancy.stocked.sound.regular

/-- The null address is in no page that anybody holds. -/
theorem AccountsForLive.ne_zero_of_owned (accounts : session.AccountsForLive origin) {address : Nat}
    {page : Page}
    (found : session.pageOf? address = some page) (owned : page.owner ≠ .unowned) :
    address ≠ 0 := by
  obtain ⟨store, records, objects, blocks, tenancy, same⟩ := accounts
  rintro rfl
  have positive := tenancy.stocked.frame_pos ⟨page, found, owned, rfl⟩
  rw [Geometry.frameOf, Nat.zero_div] at positive
  exact absurd positive (Nat.lt_irrefl 0)

/-- An address in the first page of a block gives the block back. -/
theorem AccountsForLive.releaseBlock (accounts : session.AccountsForLive origin) {address : Nat}
    {page : Page}
    (found : session.pageOf? address = some page) (owner : page.owner = .buddy) :
    ∃ after, Action.Answers (Tiers.release address) session.tiers () after ∧
      after.AccountsFor origin (session.remaining address) := by
  have nonzero := accounts.ne_zero_of_owned found (by rw [owner]; decide)
  have frame : session.tiers.geometry.frameOf page.start =
      session.tiers.geometry.frameOf address := accounts.regular.frameOf_start found
  obtain ⟨after, answers, accountsFor⟩ :=
    @Tiers.AccountsFor.recover _ _ _ page page.start accounts (by rw [frame]; exact found) owner
  refine ⟨after, release_of_page accounts.regular nonzero found (by rwa [owner]), ?_⟩
  rw [remaining, ownerOf_of_some found, owner]
  rwa [frame] at accountsFor

/-- In the page of a slab an address that misses all objects is ignored. -/
theorem AccountsForLive.missObject (accounts : session.AccountsForLive origin) {address : Nat}
    {page : Page}
    (found : session.pageOf? address = some page) (owner : page.owner = .slab)
    (misses : session.Misses address) :
    page.cache.isSome ∧ Action.Answers (Tiers.freeObject address page) session.tiers ()
      session.tiers := by
  obtain ⟨store, records, objects, blocks, tenancy, same⟩ := accounts
  have stocked := tenancy.stocked
  obtain ⟨cache, member, named, listed⟩ := stocked.served _ page found owner
  obtain ⟨fill, there⟩ := Stock.mem_all_iff.1 listed
  have kept := stocked.kept cache member
  have miss := misses cache (by rwa [tenancy.ring_eq]) fill page.start
    (by rwa [tenancy.slabs_eq member])
  simp only [tenancy.capacityFor_eq member, tenancy.slot_eq member listed] at miss
  refine ⟨by rw [named]; rfl,
    Action.answers_get_bind_iff.2 (Tiers.answers_inBuddy_iff.2 ⟨_, ?_, rfl⟩)⟩
  exact BuddyAllocator.answers_inRam_iff.2 ⟨_, kept.missObject (stocked.placed member) listed
    (stocked.sized cache member) miss stocked.page_eq rfl named, rfl⟩

/-- In the page of a slab the object tier says what giving an address back comes to. -/
theorem AccountsForLive.release_of_slab (accounts : session.AccountsForLive origin) {address : Nat}
    {page : Page}
    (found : session.pageOf? address = some page) (owner : page.owner = .slab)
    (cached : page.cache.isSome) {after : Tiers}
    (answers : Action.Answers (Tiers.freeObject address page) session.tiers () after) :
    Action.Answers (Tiers.release address) session.tiers () after := by
  have nonzero := accounts.ne_zero_of_owned found (by rw [owner]; decide)
  refine release_of_page accounts.regular nonzero found ?_
  rw [owner]
  dsimp only
  rw [if_neg (by simpa [Option.isNone_iff_eq_none, Option.isSome_iff_ne_none] using cached)]
  exact answers

/-- In the page of a slab a live address ends its allocation, and one in no object does nothing. -/
theorem AccountsForLive.releaseObject (accounts : session.AccountsForLive origin) {address : Nat}
    {page : Page}
    (found : session.pageOf? address = some page) (owner : page.owner = .slab)
    (known : (∃ extent ∈ session.live, extent.start = address) ∨ session.Misses address) :
    ∃ after, Action.Answers (Tiers.release address) session.tiers () after ∧
      after.AccountsFor origin (session.remaining address) := by
  rw [remaining, ownerOf_of_some found, owner]
  by_cases lives : ∃ extent ∈ session.live, extent.start = address
  · obtain ⟨extent, member, rfl⟩ := lives
    obtain ⟨cached, after, answers, accountsFor⟩ :=
      Tiers.AccountsFor.giveObject accounts member found owner
    exact ⟨after, accounts.release_of_slab found owner cached answers, accountsFor⟩
  · obtain ⟨cached, answers⟩ := accounts.missObject found owner (known.resolve_left lives)
    refine ⟨session.tiers, accounts.release_of_slab found owner cached answers, ?_⟩
    have same : (session.live.filter fun extent => extent.start ≠ address) = session.live :=
      List.filter_eq_self.2 fun extent member =>
        decide_eq_true fun start => lives ⟨extent, member, start⟩
    dsimp only
    rw [same]
    exact accounts

/--
An address is given back without a halt, ends what it should and leaves the rest
accounted for, unless it is in an object of a slab where nothing live starts.
-/
theorem AccountsForLive.answersRelease (accounts : session.AccountsForLive origin) {address : Nat}
    (known : session.ownerOf address = .slab →
      (∃ extent ∈ session.live, extent.start = address) ∨ session.Misses address) :
    ∃ after, Action.Answers (Tiers.release address) session.tiers () after ∧
      after.AccountsFor origin (session.remaining address) := by
  cases owner : session.ownerOf address with
  | unowned =>
      refine ⟨session.tiers, release_of_unowned accounts.regular fun page found => ?_, ?_⟩
      · exact (ownerOf_of_some found).symm.trans owner
      · rw [remaining, owner]
        exact accounts
  | buddy =>
      obtain ⟨page, found, owner⟩ := pageOf?_of_owned owner (by decide)
      exact accounts.releaseBlock found owner
  | slab =>
      obtain ⟨page, found, owned⟩ := pageOf?_of_owned owner (by decide)
      exact accounts.releaseObject found owned (known owner)

theorem AccountsForLive.release (accounts : session.AccountsForLive origin) {address : Nat}
    (permitted : session.Permits (.release address)) :
    (session.perform (.release address)).AccountsForLive origin := by
  rw [perform_release]
  by_cases known : session.ownerOf address = .slab →
      ∃ extent ∈ session.live, extent.start = address
  · obtain ⟨after, answers, accountsFor⟩ := accounts.answersRelease fun owner => .inl (known owner)
    rw [follow_of_answers answers]
    exact accountsFor
  · obtain ⟨owner, lives⟩ := Classical.not_imp.1 known
    have ignored : ((Manager.inTiers (Tiers.release address)).run session.manager).state =
        session.manager :=
      (permitted owner).resolve_left lives
    have same : session.remaining address = session.live := by
      rw [remaining, owner]
      exact List.filter_eq_self.2 fun extent member =>
        decide_eq_true fun start => lives ⟨extent, member, start⟩
    have followed : session.follow (Manager.inTiers (Tiers.release address))
        (fun _ => session.remaining address) = session := by
      rw [follow, same, ignored]
      split <;> rfl
    rw [followed]
    exact accounts

/-- What the caches have is not in live bytes, so writing there changes nothing for them. -/
theorem stocked_write {store : Store} {records objects : List Seat} {blocks : List Extent}
    (tenancy : session.tiers.StockedSeatedLent origin store records objects blocks)
    (same : session.live.Perm (objects.map Seat.extent ++ blocks)) {ram : Ram}
    (permitted : session.Permits (.write ram)) :
    ({ session.tiers.buddy with ram := ram } : BuddyAllocator).Stocked session.tiers.slab
      store := by
  have stocked := tenancy.stocked
  have agrees : session.tiers.buddy.ram.AgreesOff ram fun byte => ∃ extent ∈ session.live,
      extent.start ≤ byte ∧ byte < extent.start + extent.size := permitted
  have sound : ({ session.tiers.buddy with ram := ram } : BuddyAllocator).Sound := by
    refine stocked.sound.congr_ram agrees ?_
    rintro byte ⟨extent, member, low, high⟩ id allocatable
    obtain rfl := stocked.eq_heap allocatable
    rcases tenancy.cases_live same member with ⟨seat, there, rfl⟩ | ⟨page, lends⟩
    · obtain ⟨cache, member, home, sub⟩ := tenancy.page_of_seat there
      exact stocked.not_free_of_page member home (Nat.le_trans sub.1 low)
        (Nat.lt_of_lt_of_le high sub.2)
    · exact stocked.frame_taken lends low high
  have outside : ∀ cache ∈ store.caches, ∀ byte,
      (store.stock cache).Ground session.tiers.buddy.geometry.size cache byte →
        ¬ ∃ extent ∈ session.live, extent.start ≤ byte ∧ byte < extent.start + extent.size := by
    rintro cache there byte ground ⟨extent, member, low, high⟩
    rcases ground with record | ⟨slab, listed, metadata⟩
    · have apart := tenancy.apart_record same member there
      simp only [Extent.Apart, Cache.extent, Cache.Record] at apart record
      omega
    · have apart := tenancy.apart_metadata same member there listed
      simp only [Extent.Apart, Slab.metadata, Slab.Metadata] at apart metadata
      omega
  exact stocked.carry sound (fun _ => .refl _) rfl (fun _ _ _ => Iff.rfl) agrees outside

theorem AccountsForLive.write (accounts : session.AccountsForLive origin) {ram : Ram}
    (permitted : session.Permits (.write ram)) :
    (session.perform (.write ram)).AccountsForLive origin := by
  obtain ⟨store, records, objects, blocks, tenancy, same⟩ := accounts
  have steady := BuddyAllocator.Steady.of_ram session.tiers.buddy ram
  exact ⟨store, records, objects, blocks,
    ⟨stocked_write tenancy same permitted, tenancy.seated, tenancy.lent.steady steady,
      tenancy.unownedBare, tenancy.onward.trans steady.toOnward⟩, same⟩

theorem AccountsForLive.perform (accounts : session.AccountsForLive origin) {call : Call}
    (permitted : session.Permits call) : (session.perform call).AccountsForLive origin := by
  cases call with
  | allocatePages order => exact accounts.request (.inr (accounts.grantPages order))
  | allocate size => exact accounts.request (Tiers.AccountsFor.grant accounts size)
  | allocateAligned size alignment =>
      exact accounts.request (Tiers.AccountsFor.grantAligned accounts size alignment)
  | releasePages page order => exact accounts.releasePages page order
  | release address => exact accounts.release permitted
  | write ram => exact accounts.write permitted

theorem AccountsForLive.run (accounts : session.AccountsForLive origin) {calls : List Call}
    (allowed : session.Allows calls) : (session.run calls).AccountsForLive origin := by
  induction calls generalizing session with
  | nil => exact accounts
  | cons call rest ih => exact ih (accounts.perform allowed.1) allowed.2

/--
What is said of all live allocations: they are apart from each other, from the slabs
on the lists of the caches, which are all the slabs there are, and from all else.
-/
structure NoOverlap (session : Session) (plan : BootPlan) : Prop where
  apart : session.live.Pairwise Extent.Apart
  in_heap : ∀ extent ∈ session.live,
    extent.Sub (session.tiers.buddy.zones.get .heap).extent
  listed : ∀ frame page, session.tiers.buddy.pages.page? frame = some page →
    page.owner = .slab → ∃ cache ∈ session.tiers.slab.ring session.tiers.ram,
      page.cache = some cache ∧ ∃ fill, page.start ∈ Cache.slabs session.tiers.ram cache fill
  metadata : ∀ extent ∈ session.live, ∀ cache ∈ session.tiers.slab.ring session.tiers.ram,
    ∀ fill, ∀ slab ∈ Cache.slabs session.tiers.ram cache fill,
      (Slab.metadata slab (session.tiers.slab.capacityFor
        (Cache.objectSize session.tiers.ram cache))).Apart extent
  records : ∀ extent ∈ session.live, ∀ cache ∈ session.tiers.slab.ring session.tiers.ram,
    (Cache.extent cache).Apart extent
  free : ∀ extent ∈ session.live, ∀ id, ∀ block ∈ session.tiers.buddy.freeBlocks id,
    (block.extent session.tiers.geometry).Apart extent
  boot : ∀ extent ∈ session.live, plan.heapStart ≤ extent.start ∧
    ∀ region ∈ plan.regions, region.stop ≤ extent.start

theorem AccountsForLive.noOverlap (accounts : session.AccountsForLive origin) {plan : BootPlan}
    (start_eq : (origin.zones.get .heap).start = plan.heapStart)
    (above : ∀ region ∈ plan.regions, region.stop ≤ plan.heapStart) : session.NoOverlap plan := by
  obtain ⟨store, records, objects, blocks, tenancy, same⟩ := accounts
  have heapStart := ((tenancy.onward.alike .heap).start_eq.trans start_eq).symm
  have low : ∀ extent ∈ session.live, plan.heapStart ≤ extent.start := fun extent member =>
    heapStart ▸ (tenancy.in_heap same member).1
  refine ⟨tenancy.pairwise_apart same, fun extent => tenancy.in_heap same, ?_, ?_, ?_, ?_, ?_⟩
  · intro frame page found owner
    obtain ⟨cache, there, named, listed⟩ := tenancy.stocked.served frame page found owner
    obtain ⟨fill, listed⟩ := Stock.mem_all_iff.1 listed
    exact ⟨cache, by rwa [tenancy.ring_eq], named, fill, by rwa [tenancy.slabs_eq there]⟩
  · intro extent member cache there fill slab listed
    rw [tenancy.ring_eq] at there
    rw [tenancy.slabs_eq there] at listed
    rw [tenancy.capacityFor_eq there]
    exact tenancy.apart_metadata same member there (Stock.mem_all listed)
  · intro extent member cache there
    rw [tenancy.ring_eq] at there
    exact tenancy.apart_record same member there
  · intro extent member id block listed
    exact tenancy.apart_free same member listed
  · intro extent member
    exact ⟨low extent member, fun region there =>
      Nat.le_trans (above region there) (low extent member)⟩

end Session

end PhysicalMemory
