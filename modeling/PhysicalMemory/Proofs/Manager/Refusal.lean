import PhysicalMemory.Proofs.Manager.Aligned
import PhysicalMemory.Proofs.Slab.Remnant

/-!
# Refused requests

A request for bytes that is refused leaves everything as it was, unless it was for an object
that no page is left for.  Then no byte is free, whoever has an object or a block
keeps it, and all that may be left is a new cache without a slab, its record in an object of
the first cache.  Asked again, the same request is refused again, and nothing changes.
-/

namespace PhysicalMemory

namespace Tiers

/--
What a refused request for an object may leave.  There is a new cache of its size behind the
first one, without a slab, and its record lies in an object that the first cache has handed
out.  The other caches have what they had, and so has the first but for the slab of that object.
-/
structure Leaves (tiers after : Tiers) (size place slab index : Nat) : Prop where
  slab_eq : after.slab = tiers.slab
  new : ∀ cache ∈ tiers.slab.ring tiers.ram, Cache.objectSize tiers.ram cache ≠ size
  ring_eq : tiers.slab.ring after.ram =
    tiers.slab.head :: place :: (tiers.slab.ring tiers.ram).tail
  size_eq : Cache.objectSize after.ram place = size
  bare : ∀ fill, Cache.slabs after.ram place fill = []
  sizes : ∀ cache ∈ tiers.slab.ring tiers.ram,
    Cache.objectSize after.ram cache = Cache.objectSize tiers.ram cache
  others : ∀ cache ∈ (tiers.slab.ring tiers.ram).tail, ∀ fill,
    Cache.slabs after.ram cache fill = Cache.slabs tiers.ram cache fill
  beside : ∀ fill, (Cache.slabs after.ram tiers.slab.head fill).filter (· ≠ slab) =
    (Cache.slabs tiers.ram tiers.slab.head fill).filter (· ≠ slab)
  record : ∃ slot, after.IsSlot (.serving slab tiers.slab.head) index slot ∧
    slot.size = CacheRecord.objectSize ∧ (Cache.extent place).Sub slot
  housing : tiers.buddy.Housing after.buddy tiers.slab.head place slab index

variable {tiers : Tiers} {middle : BuddyAllocator} {store : Store}
  {size place slab index : Nat} {stock : Stock}

/-- The record of a new cache lies in an object that the first cache has handed out. -/
theorem isSlot_of_entered (stocked : tiers.buddy.Stocked tiers.slab store)
    (entered : tiers.buddy.Entered middle tiers.slab store size place slab index stock) :
    ∃ slot, IsSlot ⟨middle.enter store.head place size, tiers.slab⟩
        (.serving slab store.head) index slot ∧
      slot.size = CacheRecord.objectSize ∧ (Cache.extent place).Sub slot := by
  have stocked' := entered.stocked
  have held := entered.held
  rw [← entered.steady.geometry_eq, ← entered.stock_head] at held
  have isSlot := @isSlot_of_held ⟨middle.enter store.head place size, tiers.slab⟩ _ stocked' _ _ _
    List.mem_cons_self held
  refine ⟨_, isSlot, stocked'.head_size, ?_⟩
  have low := entered.low
  have high := entered.high
  rw [← Stock.slot_congr entered.served.size_eq, ← entered.steady.geometry_eq,
    ← entered.stock_head] at low high
  rw [stocked.head_size, ← stocked'.head_size] at high
  exact ⟨low, high⟩

section

variable (stocked : tiers.buddy.Stocked tiers.slab store)
  (entered : tiers.buddy.Entered middle tiers.slab store size place slab index stock)

include entered

theorem objectSize_new : Cache.objectSize (middle.enter store.head place size).ram place = size :=
  (entered.stocked.kept place (Store.mem_caches_found.2 (.inr rfl))).size_eq.trans
    (congrArg Stock.size (Store.stock_found_self _ place size))

theorem slabs_new_eq_nil (fill : Fill) :
    Cache.slabs (middle.enter store.head place size).ram place fill = [] := by
  refine (entered.stocked.slabs_eq (Store.mem_caches_found.2 (.inr rfl)) fill).trans ?_
  rw [Store.stock_found_self]
  rfl

include stocked

theorem objectSize_entered {cache : Nat} (there : cache ∈ store.caches) :
    Cache.objectSize (middle.enter store.head place size).ram cache =
      Cache.objectSize tiers.ram cache := by
  refine (entered.stocked.kept cache (Store.mem_caches_found.2 (.inl there))).size_eq.trans ?_
  rw [entered.stock_of_mem there, Store.size_restock entered.served.size_eq]
  exact (stocked.kept cache there).size_eq.symm

theorem slabs_entered_of_ne {cache : Nat} (there : cache ∈ store.caches)
    (distinct : cache ≠ store.head) (fill : Fill) :
    Cache.slabs (middle.enter store.head place size).ram cache fill =
      Cache.slabs tiers.ram cache fill := by
  refine (entered.stocked.slabs_eq (Store.mem_caches_found.2 (.inl there)) fill).trans ?_
  rw [entered.stock_of_mem there, Store.stock_restock, if_neg distinct]
  exact (stocked.slabs_eq there fill).symm

/-- On the lists of the first cache only the slab that has the record has moved. -/
theorem slabs_head_entered (fill : Fill) :
    (Cache.slabs (middle.enter store.head place size).ram store.head fill).filter (· ≠ slab) =
      (Cache.slabs tiers.ram store.head fill).filter (· ≠ slab) := by
  obtain ⟨rest, first⟩ := entered.served.first
  have head : store.head ∈ store.caches := List.mem_cons_self
  have lists : Cache.slabs (middle.enter store.head place size).ram store.head fill = _ :=
    entered.stocked.slabs_eq (Store.mem_caches_found.2 (.inl head)) fill
  have lists' : Cache.slabs tiers.ram store.head fill = _ := stocked.slabs_eq head fill
  rw [entered.stock_head] at lists
  rw [lists, lists']
  exact (entered.served.readied.beside first).trans (.take first) fill

/-- Where a record was entered and no page is left for a slab, nothing else is left. -/
theorem leaves (absent : ∀ frame, ¬ (middle.enter store.head place size).Free .heap frame) :
    tiers.Leaves ⟨middle.enter store.head place size, tiers.slab⟩ size place slab index := by
  have ring : tiers.slab.ring tiers.ram = store.caches := stocked.ring_eq
  have head := stocked.head_eq
  exact {
    slab_eq := rfl
    new := fun cache there => by
      rw [ring] at there
      exact (stocked.kept cache there).size_eq ▸ entered.new cache there
    ring_eq := by
      rw [ring, head]
      exact entered.stocked.ring_eq
    size_eq := objectSize_new entered
    bare := slabs_new_eq_nil entered
    sizes := fun cache there => by
      rw [ring] at there
      exact objectSize_entered stocked entered there
    others := fun cache there => by
      rw [ring] at there
      refine slabs_entered_of_ne stocked entered (List.mem_cons_of_mem _ there) ?_
      rintro rfl
      exact (List.nodup_cons.1 stocked.nodup).1 there
    beside := by
      rw [head]
      exact slabs_head_entered stocked entered
    record := by
      rw [head]
      exact isSlot_of_entered stocked entered
    housing := by
      rw [head]
      exact entered.housing stocked absent }

end

theorem needsPages_congr {after : Tiers} (slab_eq : after.slab = tiers.slab)
    (geometry_eq : after.geometry = tiers.geometry) (size : Nat) :
    after.needsPages size = tiers.needsPages size := by
  rw [needsPages, needsPages, slab_eq, geometry_eq]

end Tiers

/--
A request for bytes, plain or at a multiple of an alignment: what is attempted, for how many
bytes, in an object of what size, and how what it comes to is moved.
-/
inductive Call.Asks (geometry : Geometry) :
    Call → Attempt Tiers Nat → Nat → Nat → (Nat → Nat) → Prop where
  | plain (size : Nat) : Asks geometry (.allocate size) (Tiers.allocate size) size size id
  | aligned (size : Nat) {alignment : Nat} (valid : Word.isPowerOfTwo alignment = true)
      (low : alignment ≤ geometry.size) :
      Asks geometry (.allocateAligned size alignment) (Tiers.allocateAligned size alignment) size
        (Word.addSaturating size (alignment - 1)) (Word.roundUp · alignment)

namespace Session

/--
What becomes of a request that is refused.  Only one for an object that no page is left for
leaves a change.  What is live stays in its object or block, and asked again the request
is refused again and changes nothing.
-/
structure Refusal (session : Session) (call : Call) (attempt : Attempt Manager Nat)
    (objectSize : Nat) (failure : AllocFailure) : Prop where
  unchanged : (∀ order, failure ≠ .outOfMemory order) ∨
      session.tiers.needsPages objectSize = true → session.perform call = session
  exhausted : (∃ order, failure = .outOfMemory order) →
    session.tiers.needsPages objectSize = false →
      (session.perform call).manager.freeBytes = .ok 0
  live_eq : (session.perform call).live = session.live
  keeps : ∀ extent ∈ session.live,
    (∃ page index slot, session.InSlot page index slot extent ∧
      (session.perform call).InSlot page index slot extent) ∨
    ∃ page, session.InBlock page extent ∧ (session.perform call).InBlock page extent
  leaves : session.perform call = session ∨ ∃ after place slab index,
    session.perform call = ⟨⟨session.manager.layout, after⟩, session.live⟩ ∧
      session.tiers.Leaves after objectSize place slab index
  again : (session.perform call).told attempt = .ok (.error failure) ∧
    (session.perform call).perform call = session.perform call

end Session

namespace Call.Asks

open Session

variable {session : Session} {store : Store} {records objects : List Seat} {call : Call}
  {attempt : Attempt Tiers Nat} {size objectSize : Nat} {move : Nat → Nat} {failure : AllocFailure}
  (asks : call.Asks session.tiers.geometry attempt size objectSize move)

include asks

theorem perform_eq : session.perform call = session.follow (Manager.tryTiers attempt).outcome
    (granted session.live fun address => ⟨address, size⟩) := by
  cases asks <;> rfl

theorem permits : session.Permits call := by
  cases asks <;> trivial

theorem word (page_eq : session.tiers.slab.pageSize = session.tiers.buddy.geometry.size)
    (small : session.tiers.needsPages objectSize = false) : size < Word.limit := by
  have below := Nat.lt_trans (Tiers.lt_page page_eq small)
    session.tiers.buddy.geometry.size_lt_limit
  cases asks with
  | plain => exact below
  | aligned size valid low =>
      rw [Tiers.addSaturating_of_small page_eq small] at below
      exact Nat.lt_of_le_of_lt (Nat.le_add_right _ _) below

variable (stocked : session.tiers.buddy.Stocked session.tiers.slab store)
  (seated : store.Seated session.tiers.buddy.geometry.size records objects)

include stocked seated

theorem routes : Tiers.Routes attempt session.tiers store size objectSize move := by
  cases asks with
  | plain size => exact Tiers.routes_allocate stocked seated size
  | aligned size valid low => exact Tiers.routes_allocateAligned stocked seated size valid low

/-- A request that is refused has gone one of the ways, and what is live has not changed. -/
theorem refused (told : session.told (Manager.tryTiers attempt) = .ok (.error failure)) :
    ∃ after store', session.perform call = ⟨⟨session.manager.layout, after⟩, session.live⟩ ∧
      session.tiers.Route store size objectSize after store' (.error failure) := by
  rcases asks.routes stocked seated with ⟨-, halt, halts⟩ | ⟨answer, after, store', answers, route⟩
  · cases halts.1.symm.trans told
  · have mapped : answer.map move = .error failure :=
      Except.ok.inj ((told_of_answers answers).symm.trans told)
    cases answer with
    | ok start => cases mapped
    | error reason =>
        obtain rfl : reason = failure := Except.error.inj mapped
        exact ⟨after, store', asks.perform_eq.trans (follow_of_answers answers _), route⟩

end Call.Asks

namespace Session

variable {session : Session} {origin : BuddyAllocator} {store : Store}
  {records objects : List Seat} {blocks : List Extent} {call : Call} {attempt : Attempt Tiers Nat}
  {size objectSize : Nat} {move : Nat → Nat} {failure : AllocFailure}

/-- Whatever was live in an object or in a block is there still, where blocks stay lent. -/
theorem AccountsForLive.keeps (accounts : session.AccountsForLive origin)
    (permitted : session.Permits call)
    (steady : session.tiers.buddy.Steady (session.perform call).tiers.buddy) {extent : Extent}
    (live : extent ∈ session.live) :
    (∃ page index slot, session.InSlot page index slot extent ∧
      (session.perform call).InSlot page index slot extent) ∨
    ∃ page, session.InBlock page extent ∧ (session.perform call).InBlock page extent := by
  have after := accounts.perform permitted
  obtain ⟨store, records, objects, blocks, tenancy, same⟩ := id accounts
  rcases tenancy.cases_live same live with ⟨seat, there, rfl⟩ | ⟨page, lends⟩
  · left
    obtain ⟨cache, member, inside⟩ := tenancy.inside_of_seat there
    have isSlot := Tiers.isSlot_of_held tenancy.stocked member inside.held
    have allowed : session.Allows [call] := ⟨permitted, trivial⟩
    have isSlot' := accounts.isSlot_run isSlot allowed
    have sub : seat.extent.Sub ⟨_, (store.stock cache).size⟩ := ⟨inside.low, inside.high⟩
    exact ⟨_, _, _, accounts.inSlot isSlot sub inside.positive,
      after.inSlot isSlot' sub inside.positive⟩
  · right
    exact ⟨page, accounts.inBlock_of_lends lends, after.inBlock_of_lends (steady.lends_still lends)⟩

/-- A request that is refused with no change at all is so again. -/
theorem AccountsForLive.refusal_of_unchanged (accounts : session.AccountsForLive origin)
    (permitted : session.Permits call) (unchanged : session.perform call = session)
    (told : session.told (Manager.tryTiers attempt) = .ok (.error failure))
    (exhausted : (∃ order, failure = .outOfMemory order) →
      session.tiers.needsPages objectSize = false → session.manager.freeBytes = .ok 0) :
    session.Refusal call (Manager.tryTiers attempt) objectSize failure := by
  refine ⟨fun _ => unchanged, ?_, ?_, fun extent => accounts.keeps permitted ?_, .inl unchanged, ?_⟩
  · rwa [unchanged]
  · rw [unchanged]
  · rw [unchanged]
    exact .refl _
  · rw [unchanged]
    exact ⟨told, unchanged⟩

/-- Asked again where the record of the cache was left, a request is refused again. -/
theorem again_of_entered (asks : call.Asks session.tiers.geometry attempt size objectSize move)
    {origin middle : BuddyAllocator} {place slab index : Nat} {stock : Stock}
    (positive : 0 < size) (small : session.tiers.needsPages objectSize = false)
    (entered : origin.Entered middle session.tiers.slab store objectSize place slab index stock)
    (after : session.tiers.buddy = middle.enter store.head place objectSize)
    (seated : store.Seated origin.geometry.size records objects)
    (absent : ∀ frame, ¬ session.tiers.buddy.Free .heap frame) :
    session.told (Manager.tryTiers attempt) = .ok (.error (.outOfMemory 0)) ∧
      session.perform call = session := by
  have stocked := entered.stocked
  have seated' := entered.seated seated
  rw [← entered.steady.geometry_eq] at seated'
  rw [← after] at stocked seated'
  obtain ⟨answer, ends, store', answers, route⟩ :=
    (asks.routes stocked seated').of_word (asks.word stocked.page_eq small)
  cases route with
  | nothing zero => exact absurd zero (Nat.ne_of_gt positive)
  | pages positive pages lending =>
      rw [small] at pages
      cases pages
  | object positive small course =>
      rw [after] at course absent
      obtain ⟨rfl, rfl⟩ := entered.again absent course
      refine ⟨told_of_answers answers, ?_⟩
      rw [asks.perform_eq]
      refine (follow_of_answers answers _).trans ?_
      rw [← after]
      rfl

/-- A request that is refused once the record of a new cache was entered leaves just that. -/
theorem AccountsForLive.refusal_of_entered (accounts : session.AccountsForLive origin)
    (asks : call.Asks session.tiers.geometry attempt size objectSize move)
    {middle : BuddyAllocator} {place slab index : Nat} {stock : Stock}
    (stocked : session.tiers.buddy.Stocked session.tiers.slab store)
    (seated : store.Seated session.tiers.buddy.geometry.size records objects)
    (positive : 0 < size) (small : session.tiers.needsPages objectSize = false)
    (entered : session.tiers.buddy.Entered middle session.tiers.slab store objectSize place slab
      index stock)
    (absent : ∀ frame, ¬ (middle.enter store.head place objectSize).Free .heap frame)
    (performed : session.perform call = ⟨⟨session.manager.layout,
      ⟨middle.enter store.head place objectSize, session.tiers.slab⟩⟩, session.live⟩) :
    session.Refusal call (Manager.tryTiers attempt) objectSize (.outOfMemory 0) := by
  have buddy : (session.perform call).tiers.buddy = middle.enter store.head place objectSize := by
    rw [performed]
    rfl
  have slab_eq : (session.perform call).tiers.slab = session.tiers.slab := by
    rw [performed]
    rfl
  have geometry : (session.perform call).tiers.geometry = session.tiers.geometry := by
    rw [performed]
    exact entered.steady.geometry_eq
  refine ⟨fun case => ?_, fun _ _ => ?_, by rw [performed],
    fun extent => accounts.keeps asks.permits (by rw [buddy]; exact entered.steady),
    .inr ⟨_, place, slab, index, performed, Tiers.leaves stocked entered absent⟩, ?_⟩
  · rcases case with other | pages
    · exact absurd rfl (other 0)
    · rw [small] at pages
      cases pages
  · rw [performed]
    exact entered.stocked.freeBytes_eq_zero absent
  · rw [← geometry] at asks
    rw [← slab_eq] at entered
    refine again_of_entered asks positive ?_ entered buddy seated (by rw [buddy]; exact absent)
    rw [Tiers.needsPages_congr slab_eq geometry, small]

/-- Every request that is refused leaves what it may, and is refused again. -/
theorem AccountsForLive.refusal (accounts : session.AccountsForLive origin)
    (asks : call.Asks session.tiers.geometry attempt size objectSize move)
    (told : session.told (Manager.tryTiers attempt) = .ok (.error failure)) :
    session.Refusal call (Manager.tryTiers attempt) objectSize failure := by
  obtain ⟨store, records, objects, blocks, tenancy, same⟩ := id accounts
  have stocked := tenancy.stocked
  obtain ⟨after, store', performed, route⟩ := asks.refused stocked tenancy.seated told
  cases route with
  | nothing zero =>
      exact accounts.refusal_of_unchanged asks.permits performed told
        fun ⟨_, memory⟩ => nomatch memory
  | pages positive pages lending =>
      have unchanged : session.perform call = session := by
        cases lending <;> exact performed
      refine accounts.refusal_of_unchanged asks.permits unchanged told fun _ small => ?_
      rw [pages] at small
      cases small
  | object positive small course =>
      obtain rfl := course.refused
      have refusal := course.refusal
      cases refusal with
      | nothing absent =>
          exact accounts.refusal_of_unchanged asks.permits performed told fun _ _ =>
            stocked.freeBytes_eq_zero absent
      | record entered absent =>
          exact accounts.refusal_of_entered asks stocked tenancy.seated positive small entered
            absent performed

/-- A request whose alignment is refused leaves everything as it was. -/
theorem AccountsForLive.refusal_of_invalid (accounts : session.AccountsForLive origin)
    {alignment : Nat}
    (invalid : ¬ (Word.isPowerOfTwo alignment = true ∧ alignment ≤ session.tiers.geometry.size))
    (told : session.told (Manager.allocateAligned size alignment) = .ok (.error failure)) :
    session.Refusal (.allocateAligned size alignment) (Manager.allocateAligned size alignment)
      (Word.addSaturating size (alignment - 1)) failure := by
  have answers := @Tiers.answers_allocateAligned_invalid session.tiers size _ invalid
  obtain rfl : AllocFailure.invalidAlignment alignment = failure :=
    Except.error.inj (Except.ok.inj ((told_of_answers answers).symm.trans told))
  exact accounts.refusal_of_unchanged trivial (follow_of_answers answers _) told
    fun ⟨_, memory⟩ => nomatch memory

/--
Whatever is called on a manager that was booted, a request for bytes that is refused then,
plain or aligned, leaves what it may: nothing, unless no page is left, and then no more than a
cache without a slab.
-/
theorem run_refusal {layout : MemoryLayout} {ram : Ram} {manager : Manager}
    (booted : Action.Answers (Manager.boot layout ram) () (.ok manager) ()) {calls : List Call}
    (allowed : (start manager).Allows calls) :
    let session := (start manager).run calls
    (∀ size failure, session.told (Manager.allocate size) = .ok (.error failure) →
      session.Refusal (.allocate size) (Manager.allocate size) size failure) ∧
    ∀ size alignment failure,
      session.told (Manager.allocateAligned size alignment) = .ok (.error failure) →
        session.Refusal (.allocateAligned size alignment)
          (Manager.allocateAligned size alignment)
          (Word.addSaturating size (alignment - 1)) failure := by
  intro session
  obtain ⟨plan, raw, seeded, booted⟩ := Manager.boot_eq_ok booted
  have accounts : session.AccountsForLive _ := booted.accounts.run allowed
  refine ⟨fun size failure => accounts.refusal (.plain size), fun size alignment failure told => ?_⟩
  by_cases valid : Word.isPowerOfTwo alignment = true ∧ alignment ≤ session.tiers.geometry.size
  · exact accounts.refusal (.aligned size valid.1 valid.2) told
  · exact accounts.refusal_of_invalid valid told

def exhaustingCalls : List Call :=
  [.allocate 24, .allocatePages 3, .allocatePages 2]

/-- Without a page for a slab, a request of a new size leaves a cache and is refused for good. -/
theorem run_refusal_sample :
    Action.Answers (Manager.boot .sixteenPages) () (.ok sampleManager) () ∧
    (start sampleManager).Allows exhaustingCalls ∧
    let session := (start sampleManager).run exhaustingCalls
    session.tiers.slab.ring session.tiers.ram = [4576, 5184] ∧
      session.told (Manager.allocate 40) = .ok (.error (.outOfMemory 0)) ∧
      (session.perform (.allocate 40)).tiers.slab.ring (session.perform (.allocate 40)).tiers.ram =
        [4576, 5232, 5184] ∧
      session.Refusal (.allocate 40) (Manager.allocate 40) 40 (.outOfMemory 0) := by
  have allowed : (start sampleManager).Allows exhaustingCalls :=
    ⟨trivial, trivial, trivial, trivial⟩
  have told : ((start sampleManager).run exhaustingCalls).told (Manager.allocate 40) =
      .ok (.error (.outOfMemory 0)) := by decide +kernel
  exact ⟨sampleManager_booted, allowed, by decide +kernel, told, by decide +kernel,
    (run_refusal sampleManager_booted allowed).1 40 _ told⟩

end Session

end PhysicalMemory
