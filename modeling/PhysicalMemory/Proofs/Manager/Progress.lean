import PhysicalMemory.Proofs.Manager.Ownership

/-!
# Calls that always end well

A call is proper when its sizes are words and it gives back only what is live, or an
address that is in no object.  After such calls alone each of them comes to an answer:
what was asked for, a refusal that says why, or nothing to tell.  None halts.
-/

namespace PhysicalMemory

theorem Manager.answers_inTiers {α : Type} {action : Action Tiers α} {manager : Manager}
    {value : α} {after : Tiers} (answers : Action.Answers action manager.tiers value after) :
    Action.Answers (inTiers action) manager value ⟨manager.layout, after⟩ := by
  obtain ⟨result, rfl⟩ := answers
  exact ⟨result, rfl⟩

namespace Session

variable {session : Session} {origin : BuddyAllocator} {α : Type}

instance (session : Session) (address : Nat) : Decidable (session.Misses address) :=
  decidable_of_iff (∀ cache ∈ session.tiers.slab.ring session.tiers.ram, ∀ fill ∈ Fill.all,
    ∀ slab ∈ Cache.slabs session.tiers.ram cache fill,
      ∀ index < session.tiers.slab.capacityFor (Cache.objectSize session.tiers.ram cache),
        ¬ ((Slab.slot session.tiers.ram slab
            (Cache.objectSize session.tiers.ram cache) index).start ≤ address ∧
          address < (Slab.slot session.tiers.ram slab
            (Cache.objectSize session.tiers.ram cache) index).start +
              Cache.objectSize session.tiers.ram cache))
    ⟨fun misses cache there fill => misses cache there fill (by cases fill <;> simp [Fill.all]),
      fun misses cache there fill _ => misses cache there fill⟩

def Proper (session : Session) : Call → Prop
  | .allocatePages _ => True
  | .allocate size => size < Word.limit
  | .allocateAligned size _ => size < Word.limit
  | .releasePages page order => session.Heads page.start order
  | .release address => (∃ extent ∈ session.live, extent.start = address) ∨ session.Misses address
  | .write ram => session.Permits (.write ram)

/-- The call comes to an answer, be it a refusal. -/
def Answered (session : Session) : Call → Prop
  | .allocatePages order => ∃ answer after,
      Action.Answers (Manager.allocatePages order).outcome session.manager answer after
  | .allocate size => ∃ answer after,
      Action.Answers (Manager.allocate size).outcome session.manager answer after
  | .allocateAligned size alignment => ∃ answer after,
      Action.Answers (Manager.allocateAligned size alignment).outcome session.manager answer after
  | .releasePages page order => ∃ after,
      Action.Answers (Manager.releasePages page order) session.manager () after
  | .release address => ∃ after,
      Action.Answers (Manager.release address) session.manager () after
  | .write _ => True

def Each (holds : Session → Call → Prop) : Session → List Call → Prop
  | _, [] => True
  | session, call :: rest => holds session call ∧ Each holds (session.perform call) rest

/-- A request for so many bytes that a word can say them comes to an answer. -/
theorem answered_of_grants {attempt : Attempt Tiers α} {size : Nat} {start : α → Nat}
    (grants : Tiers.Grants attempt session.tiers origin session.live size start)
    (word : size < Word.limit) :
    ∃ answer after, Action.Answers (Manager.tryTiers attempt).outcome session.manager answer
      after := by
  rcases grants with ⟨large, -⟩ | ⟨answer, after, answers, -⟩
  · exact absurd word (Nat.not_lt.2 large)
  · exact ⟨answer, _, Manager.answers_inTiers answers⟩

/-- A live block has a descriptor that tells of it. -/
theorem AccountsForLive.page_of_heads (accounts : session.AccountsForLive origin)
    {address order : Nat}
    (heads : session.Heads address order) :
    ∃ page, session.pageOf? address = some page ∧ page.owner = .buddy ∧ page.order = order := by
  obtain ⟨store, records, objects, blocks, tenancy, same⟩ := accounts
  obtain ⟨whole, extent, member, rfl, least⟩ := heads
  obtain ⟨page, found, -⟩ := tenancy.page_of_live same member
  have place := tenancy.stocked.sound.regular.placed _ page found
  have start : extent.start = page.start := by
    rw [place]
    exact (Nat.div_mul_cancel whole).symm
  exact ⟨page, found, (tenancy.heads_iff same found).2 ⟨extent, member, start, least⟩⟩

theorem AccountsForLive.answered (accounts : session.AccountsForLive origin) {call : Call}
    (proper : session.Proper call) : session.Answered call := by
  cases call with
  | allocatePages order =>
      obtain ⟨answer, after, answers, -⟩ := accounts.grantPages order
      exact ⟨answer, _, Manager.answers_inTiers answers⟩
  | allocate size => exact answered_of_grants (Tiers.AccountsFor.grant accounts size) proper
  | allocateAligned size alignment =>
      exact answered_of_grants (Tiers.AccountsFor.grantAligned accounts size alignment) proper
  | releasePages page order =>
      obtain ⟨live, found, owner, rfl⟩ := accounts.page_of_heads proper
      obtain ⟨after, answers, -⟩ := Tiers.AccountsFor.recover accounts found owner
      exact ⟨_, Manager.answers_inTiers answers⟩
  | release address =>
      obtain ⟨after, answers, -⟩ := accounts.answersRelease fun _ => proper
      exact ⟨_, Manager.answers_inTiers answers⟩
  | write ram => trivial

theorem AccountsForLive.perform_proper (accounts : session.AccountsForLive origin) {call : Call}
    (proper : session.Proper call) : (session.perform call).AccountsForLive origin := by
  cases call with
  | release address =>
      obtain ⟨after, answers, accountsFor⟩ := accounts.answersRelease fun _ => proper
      rw [perform_release, follow_of_answers answers]
      exact accountsFor
  | write ram => exact accounts.perform proper
  | allocatePages order => exact accounts.perform trivial
  | allocate size => exact accounts.perform trivial
  | allocateAligned size alignment => exact accounts.perform trivial
  | releasePages page order => exact accounts.perform trivial

theorem AccountsForLive.each_answered (accounts : session.AccountsForLive origin)
    {calls : List Call}
    (proper : session.Each Proper calls) : session.Each Answered calls := by
  induction calls generalizing session with
  | nil => trivial
  | cons call rest ih =>
      exact ⟨accounts.answered proper.1, ih (accounts.perform_proper proper.1) proper.2⟩

/--
No proper call on a manager that was booted halts, however many there are: every
request is granted or refused, and whatever is given back is taken back or ignored.
-/
theorem run_answered {layout : MemoryLayout} {ram : Ram} {manager : Manager}
    (booted : Action.Answers (Manager.boot layout ram) () (.ok manager) ()) {calls : List Call}
    (proper : (start manager).Each Proper calls) : (start manager).Each Answered calls := by
  obtain ⟨plan, raw, seeded, booted⟩ := Manager.boot_eq_ok booted
  exact booted.accounts.each_answered proper

def properCalls : List Call :=
  [.allocate 24, .allocateAligned 40 64, .allocatePages 1, .allocate Word.last,
    .releasePages (.unowned .heap 7168) 1, .release 5136]

theorem properCalls_proper : (start sampleManager).Each Proper properCalls := by
  have word : ∀ size ∈ [24, 40, Word.last], size < Word.limit := by decide
  exact ⟨word 24 (by decide), word 40 (by decide), trivial, word Word.last (by decide),
    (by decide +kernel : Heads _ _ _), .inr (by decide +kernel), trivial⟩

/-- A request for all there is is refused, and what is given back is taken back or ignored. -/
theorem run_answered_sample :
    Action.Answers (Manager.boot .sixteenPages) () (.ok sampleManager) () ∧
    (start sampleManager).Each Proper properCalls ∧
    ((start sampleManager).run properCalls).live = [⟨6208, 40⟩, ⟨5724, 24⟩] ∧
    (start sampleManager).Each Answered properCalls :=
  ⟨sampleManager_booted, properCalls_proper, by decide +kernel,
    run_answered sampleManager_booted properCalls_proper⟩

end Session

end PhysicalMemory
