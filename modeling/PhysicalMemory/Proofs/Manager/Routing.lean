import PhysicalMemory.Proofs.Manager.Chains

/-!
# Which tier serves a request

A request for bytes that is not refused is answered with an object of exactly its size, in
a slab of the cache of that size, or with a block of the least order that holds it.  It is
refused if it is for nothing, if it is for more than the largest block, or if memory is out.
-/

namespace PhysicalMemory

namespace Tiers

variable {tiers after : Tiers} {store store' : Store} {size objectSize alignment : Nat}
  {answer : Except AllocFailure Nat}

/-- The extent is an object of the slab that a page is, one that a chain can name. -/
structure IsSlot (tiers : Tiers) (page : Page) (index : Nat) (slot : Extent) : Prop where
  found : tiers.buddy.pages.page? (tiers.geometry.frameOf slot.start) = some page
  owner_eq : page.owner = .slab
  cached : ∃ cache ∈ tiers.slab.ring tiers.ram, page.cache = some cache ∧
    Cache.objectSize tiers.ram cache = slot.size
  below : index < Slab.room (tiers.slab.capacityFor slot.size)
  slot_eq : Slab.slot tiers.ram page.start slot.size index = slot

def IsBlock (tiers : Tiers) (address order : Nat) : Prop :=
  tiers.buddy.pages.page? (tiers.geometry.frameOf address) =
    some ⟨.heap, address, .buddy, order, none⟩

/-- What a slab has handed out is an object of it. -/
theorem isSlot_of_held (stocked : tiers.buddy.Stocked tiers.slab store) {cache slab index : Nat}
    (member : cache ∈ store.caches)
    (held : (store.stock cache).Held tiers.buddy.geometry.size slab index) :
    tiers.IsSlot (.serving slab cache) index
      ⟨(store.stock cache).slot tiers.buddy.geometry.size slab index,
        (store.stock cache).size⟩ := by
  have kept := stocked.kept cache member
  have objects : Slab.objects tiers.ram slab = _ := (kept.keeps slab held.1).objects_eq
  have bounds := (stocked.placed member).slot_bounds slab
    (Nat.lt_of_lt_of_le held.2.1 (Slab.room_le _))
  have sized := stocked.sized cache member
  have frame := stocked.frame_of_slab member held.1 (Nat.le_trans (Nat.le_add_right _ _) bounds.1)
    (Nat.lt_of_lt_of_le (Nat.lt_add_of_pos_right sized) bounds.2)
  refine ⟨?_, rfl, ⟨cache, ?_, rfl, kept.size_eq⟩, ?_, ?_⟩
  · exact (congrArg _ frame).trans (stocked.owned cache member slab held.1)
  · exact stocked.ring_eq ▸ member
  · rw [SlabAllocator.capacityFor, stocked.page_eq]
    exact held.2.1
  · rw [Slab.slot, show (Page.serving slab cache).start = slab from rfl, objects]
    rfl

namespace Route

variable {address : Nat}

/-- What needs pages is served by a block of the least order, at a multiple of its size. -/
theorem block (route : tiers.Route store size objectSize after store' (.ok address))
    (sound : tiers.buddy.Sound) (pages : tiers.needsPages objectSize = true) :
    ∃ order, tiers.geometry.IsOrderFor size order ∧ after.IsBlock address order ∧
      address % tiers.geometry.size <<< order = 0 := by
  cases route with
  | object positive small course =>
      rw [pages] at small
      cases small
  | pages positive pages lending =>
      cases lending with
      | @lent order cell buddy least small handed =>
          refine ⟨order, least, ?_, ?_⟩
          · change buddy.pages.page? (buddy.geometry.frameOf _) = _
            rw [handed.geometry_eq, Geometry.frameOf_blockAt, handed.page?_eq sound, if_pos rfl]
          · rw [Geometry.blockAt_eq_mul, Nat.shiftLeft_eq, Nat.shiftLeft_eq, Nat.mul_assoc,
              Nat.mul_comm (2 ^ order)]
            exact Nat.mul_mod_left _ _

/-- Any other size is served by an object of exactly that size. -/
theorem slot (route : tiers.Route store size objectSize after store' (.ok address))
    (stocked : tiers.buddy.Stocked tiers.slab store) {records objects : List Seat}
    (seated : store.Seated tiers.buddy.geometry.size records objects)
    (small : tiers.needsPages objectSize = false) :
    ∃ page index, after.IsSlot page index ⟨address, objectSize⟩ := by
  cases route with
  | pages positive pages lending =>
      rw [small] at pages
      cases pages
  | object positive small course =>
      obtain ⟨records', answered⟩ := course.answered stocked seated
      obtain ⟨cache, member, rfl, slab, index, held, rfl⟩ := course.served_object
      rw [← answered.steady.geometry_eq] at held ⊢
      exact ⟨_, _, isSlot_of_held answered.stocked member held⟩

/-- A request is for nothing, or for more than the largest block, or it lacks memory. -/
theorem verdict {order : Nat} (route : tiers.Route store size size after store' answer)
    (page_eq : tiers.slab.pageSize = tiers.buddy.geometry.size)
    (least : tiers.geometry.IsOrderFor size order) :
    (size = 0 ∧ answer = .error .zeroSize) ∨
    (0 < size ∧ orderCount ≤ order ∧ answer = .error (.orderTooLarge order topOrder)) ∨
    (0 < size ∧ order < orderCount ∧
      ∀ failure, answer = .error failure → failure = .outOfMemory order) := by
  cases route with
  | nothing zero => exact .inl ⟨zero, rfl⟩
  | pages positive pages lending =>
      right
      cases lending with
      | tooLarge least' large =>
          obtain rfl := least.unique least'
          exact .inl ⟨positive, large, rfl⟩
      | exhausted least' small =>
          obtain rfl := least.unique least'
          exact .inr ⟨positive, small, fun _ refused => (Except.error.inj refused).symm⟩
      | lent least' small handed =>
          obtain rfl := least.unique least'
          exact .inr ⟨positive, small, fun _ refused => nomatch refused⟩
  | object positive small course =>
      -- an object is smaller than a page, so one page would do
      have page := lt_page page_eq small
      obtain rfl : order = 0 := least.unique ⟨Nat.le_of_lt page, fun _ below => nomatch below⟩
      refine .inr (.inr ⟨positive, by decide, ?_⟩)
      rintro failure rfl
      exact course.refused

end Route

end Tiers

namespace Session

variable {α : Type}

def told (session : Session) (attempt : Attempt Manager α) : Checked (Except AllocFailure α) :=
  (attempt.outcome.run session.manager).result

/--
What a request for so many bytes comes to, where an order is the least whose blocks
hold them.  An object of exactly the size or a block of the order is answered; and the
request is refused if it is for nothing, if it is for more than the largest block,
or if memory is out.
-/
structure Routed (session : Session) (size order : Nat) : Prop where
  answers : ∃ answer, session.told (Manager.allocate size) = .ok answer
  object : 0 < size → 0 < Slab.capacity session.tiers.geometry.size size → ∀ address,
    session.told (Manager.allocate size) = .ok (.ok address) →
      ∃ page index, (session.perform (.allocate size)).tiers.IsSlot page index ⟨address, size⟩
  block : ¬ (0 < size ∧ 0 < Slab.capacity session.tiers.geometry.size size) → ∀ address,
    session.told (Manager.allocate size) = .ok (.ok address) →
      (session.perform (.allocate size)).tiers.IsBlock address order ∧
        address % session.tiers.geometry.size <<< order = 0
  zeroSize : session.told (Manager.allocate size) = .ok (.error .zeroSize) ↔ size = 0
  orderTooLarge : ∀ asked most,
    session.told (Manager.allocate size) = .ok (.error (.orderTooLarge asked most)) ↔
      orderCount ≤ order ∧ asked = order ∧ most = topOrder
  otherwise : ∀ failure, session.told (Manager.allocate size) = .ok (.error failure) →
    failure = .zeroSize ∨ failure = .orderTooLarge order topOrder ∨ failure = .outOfMemory order

variable {session : Session} {origin : BuddyAllocator} {size : Nat}

theorem told_of_answers {attempt : Attempt Tiers α} {answer : Except AllocFailure α}
    {after : Tiers} (answers : Action.Answers attempt.outcome session.tiers answer after) :
    session.told (Manager.tryTiers attempt) = .ok answer :=
  answers.1

theorem tiers_allocate {answer : Except AllocFailure Nat} {after : Tiers}
    (answers : Action.Answers (Tiers.allocate size).outcome session.tiers answer after) :
    (session.perform (.allocate size)).tiers = after :=
  congrArg tiers (follow_of_answers answers _)

/-- A size that a slab has room for is asked for along one of the courses. -/
theorem course_allocate {store : Store} {records objects : List Seat}
    (stocked : session.tiers.buddy.Stocked session.tiers.slab store)
    (seated : store.Seated session.tiers.buddy.geometry.size records objects) (sized : 0 < size)
    (fits : 0 < Slab.capacity session.tiers.buddy.geometry.size size) :
    ∃ answer store', session.told (Manager.allocate size) = .ok answer ∧
      (session.perform (.allocate size)).tiers.slab = session.tiers.slab ∧
        session.tiers.buddy.Course session.tiers.slab store size
          (session.perform (.allocate size)).tiers.buddy store' answer := by
  have page_eq := stocked.page_eq
  have small : session.tiers.needsPages size = false := by
    rw [← Bool.not_eq_true, Tiers.needsPages_iff page_eq]
    exact Nat.ne_of_gt fits
  have word := Nat.lt_trans (Tiers.lt_page page_eq small)
    session.tiers.buddy.geometry.size_lt_limit
  obtain ⟨answer, after, store', answers, route⟩ :=
    (Tiers.routes_allocate stocked seated size).of_word word
  rw [Except.map_id] at answers
  cases route with
  | nothing zero => exact absurd zero (Nat.ne_of_gt sized)
  | pages _ large lending =>
      rw [small] at large
      cases large
  | object _ _ course =>
      refine ⟨answer, store', told_of_answers answers, ?_⟩
      rw [tiers_allocate answers]
      exact ⟨rfl, course⟩

/-- Every size that a word can say has an order, and is served or refused accordingly. -/
theorem AccountsForLive.routed (accounts : session.AccountsForLive origin)
    (word : size < Word.limit) :
    ∃ order, session.tiers.geometry.IsOrderFor size order ∧ session.Routed size order := by
  have linkable := Tiers.AccountsFor.linkable accounts
  obtain ⟨order, rounded⟩ := Geometry.exists_orderForSize linkable word
  have least := Geometry.isOrderFor_of_orderForSize rounded
  obtain ⟨store, records, objects, blocks, tenancy, same⟩ := accounts
  obtain ⟨answer, after, store', answers, route⟩ :=
    (Tiers.routes_allocate tenancy.stocked tenancy.seated size).of_word word
  rw [Except.map_id] at answers
  have told : session.told (Manager.allocate size) = .ok answer := told_of_answers answers
  have fits := @Tiers.needsPages_iff session.tiers size tenancy.stocked.page_eq
  have verdict := route.verdict tenancy.stocked.page_eq least
  refine ⟨order, least, ?_⟩
  constructor <;> simp only [told, tiers_allocate answers, Except.ok.injEq]
  case answers => exact ⟨answer, rfl⟩
  case object =>
    rintro positive room address rfl
    refine route.slot tenancy.stocked tenancy.seated (Bool.eq_false_iff.2 fun pages => ?_)
    exact Nat.ne_of_gt room (fits.1 pages)
  case block =>
    rintro outside address rfl
    -- nothing is answered to who asks for nothing
    have positive : 0 < size := by cases route <;> assumption
    have pages := fits.2 (Nat.eq_zero_of_not_pos fun room => outside ⟨positive, room⟩)
    obtain ⟨other, least', recorded, aligned⟩ := route.block tenancy.stocked.sound pages
    obtain rfl := least.unique least'
    exact ⟨recorded, aligned⟩
  case zeroSize =>
    rcases verdict with ⟨zero, rfl⟩ | ⟨positive, -, rfl⟩ | ⟨positive, -, reason⟩
    · simp [zero]
    · simp [Nat.ne_of_gt positive]
    · refine iff_of_false (fun refused => ?_) (Nat.ne_of_gt positive)
      cases reason _ refused
  case orderTooLarge =>
    intro asked most
    rcases verdict with ⟨zero, rfl⟩ | ⟨-, large, rfl⟩ | ⟨-, small, reason⟩
    · refine iff_of_false (fun refused => nomatch refused) fun large => ?_
      -- any larger order is for more than a page
      have more := least.2 0 (Nat.lt_of_lt_of_le (by decide) large.1)
      rw [zero] at more
      exact Nat.not_lt_zero _ more
    · simp [large, eq_comm]
    · refine iff_of_false (fun refused => ?_) fun large => absurd small (Nat.not_lt.2 large.1)
      cases reason _ refused
  case otherwise =>
    rintro failure rfl
    rcases verdict with ⟨-, same⟩ | ⟨-, -, same⟩ | ⟨-, -, reason⟩
    · exact .inl (Except.error.inj same)
    · exact .inr (.inl (Except.error.inj same))
    · exact .inr (.inr (reason failure rfl))

/--
Whatever is called on a manager that was booted, a request for bytes then is served by
the tier and in the size that it ought to be, or it is refused for the reason that it
ought to be.
-/
theorem run_routed {layout : MemoryLayout} {ram : Ram} {manager : Manager}
    (booted : Action.Answers (Manager.boot layout ram) () (.ok manager) ()) {calls : List Call}
    (allowed : (start manager).Allows calls) {size : Nat} (word : size < Word.limit) :
    ∃ order, ((start manager).run calls).tiers.geometry.IsOrderFor size order ∧
      ((start manager).run calls).Routed size order := by
  obtain ⟨plan, raw, seeded, booted⟩ := Manager.boot_eq_ok booted
  exact (booted.accounts.run allowed).routed word

/-- A thousand bytes are a block of two small pages. -/
theorem run_routed_sample :
    Action.Answers (Manager.boot .sixteenPages) () (.ok sampleManager) () ∧
    (start sampleManager).Allows sampleCalls ∧ 1000 < Word.limit ∧
    ((start sampleManager).run sampleCalls).told (Manager.allocate 1000) = .ok (.ok 8192) ∧
    ∃ order, ((start sampleManager).run sampleCalls).tiers.geometry.IsOrderFor 1000 order ∧
      ((start sampleManager).run sampleCalls).Routed 1000 order :=
  ⟨sampleManager_booted, sampleCalls_allowed, by decide, by decide +kernel,
    run_routed sampleManager_booted sampleCalls_allowed (by decide)⟩

end Session

end PhysicalMemory
