import PhysicalMemory.Proofs.Buddy.RoundTrip
import PhysicalMemory.Proofs.Manager.Progress

/-!
# Bytes given straight back

Bytes that are whole pages come from the page tier and go back to it by the
descriptor of their first page.  Given straight back they restore the page tier,
and since nothing was written but in free blocks, the slab tier was never touched.
-/

namespace PhysicalMemory

/--
Both tiers are as they were: the page tier with its lists, bits and descriptors, and
the slab tier with the ring of its caches, the slabs of each, and every byte of them.
-/
structure Tiers.Restored (tiers restored : Tiers) : Prop where
  buddy : tiers.buddy.Restored restored.buddy
  slab_eq : restored.slab = tiers.slab
  ring_eq : restored.slab.ring restored.ram = tiers.slab.ring tiers.ram
  slabs_eq : ∀ cache ∈ tiers.slab.ring tiers.ram, ∀ fill,
    Cache.slabs restored.ram cache fill = Cache.slabs tiers.ram cache fill
  records_eq : ∀ cache ∈ tiers.slab.ring tiers.ram, ∀ byte, Cache.Record cache byte →
    restored.ram.byte byte = tiers.ram.byte byte
  pages_eq : ∀ cache ∈ tiers.slab.ring tiers.ram, ∀ fill, ∀ slab ∈ Cache.slabs tiers.ram cache fill,
    ∀ byte, slab ≤ byte → byte < slab + tiers.geometry.size →
      restored.ram.byte byte = tiers.ram.byte byte

namespace Tiers

variable {tiers after : Tiers} {origin buddy : BuddyAllocator} {store : Store}
  {records objects : List Seat} {blocks live : List Extent} {order cell size address : Nat}
  {id : ZoneId}

/-- The first address of a block that was handed out gives the block back, and all is as before. -/
theorem StockedSeatedLent.restore
    (tenancy : tiers.StockedSeatedLent origin store records objects blocks)
    (handed : tiers.buddy.Handed buddy order id cell) :
    ∃ restored, Action.Answers (release (tiers.buddy.geometry.blockAt order cell))
      ⟨buddy, tiers.slab⟩ () restored ∧ tiers.Restored restored := by
  have stocked := tenancy.stocked
  have sound := stocked.sound
  obtain rfl := stocked.eq_heap handed.allocatable
  obtain ⟨last, answers, recovered⟩ := handed.exists_recovered sound
  have stocked' := (stocked.hand handed).recover recovered
  have agrees := handed.agrees_restored sound recovered
  refine ⟨⟨last, tiers.slab⟩, ?_, handed.restores sound recovered tenancy.unownedBare, rfl,
    ?_, ?_, ?_, ?_⟩
  · have within := handed.within.mono fun frame free => free.1
    have nonzero := (sound.ready handed.allocatable).block_word within
    rw [show (tiers.buddy.zones.get .heap).geometry = tiers.buddy.geometry from
      sound.geometry_eq .heap] at nonzero
    have found : buddy.pages.page?
        (buddy.geometry.frameOf (tiers.buddy.geometry.blockAt order cell)) =
          some ⟨.heap, tiers.buddy.geometry.blockAt order cell, .buddy, order, none⟩ := by
      rw [handed.geometry_eq, Geometry.frameOf_blockAt, handed.page?_eq sound, if_pos rfl]
    exact Session.release_of_page handed.sound.regular nonzero.2.2 found
      (answers_inBuddy_iff.2 ⟨last, answers, rfl⟩)
  · exact stocked'.ring_eq.trans tenancy.ring_eq.symm
  · intro cache there fill
    rw [tenancy.ring_eq] at there
    exact (stocked'.slabs_eq there fill).trans (tenancy.slabs_eq there fill).symm
  · intro cache there byte record
    rw [tenancy.ring_eq] at there
    exact agrees byte (stocked.not_free_of_ground there (.inl record))
  · intro cache there fill slab listed byte low high
    rw [tenancy.ring_eq] at there
    rw [tenancy.slabs_eq there] at listed
    exact agrees byte (stocked.not_free_of_page there (Stock.mem_all listed) low high)

/-- Bytes that are a block and are given straight back leave both tiers as they were. -/
theorem AccountsFor.restoreBlock (accountsFor : tiers.AccountsFor origin live)
    (answers : Action.Answers (allocateBlock size).outcome tiers (.ok address) after) :
    ∃ restored, Action.Answers (release address) after () restored ∧ tiers.Restored restored := by
  obtain ⟨store, records, objects, blocks, tenancy, -⟩ := accountsFor
  rcases byPages tenancy.stocked size with ⟨-, halt, halts⟩ | ⟨answer, ends, answers', lending⟩
  · cases answers.1.symm.trans halts.1
  · obtain rfl := answers.value_unique answers'
    obtain rfl := answers.state_unique answers'
    cases lending with
    | lent least small handed => exact tenancy.restore handed

theorem block_of_allocate (pages : tiers.needsPages size = true)
    (answers : Action.Answers (allocate size).outcome tiers (.ok address) after) :
    Action.Answers (allocateBlock size).outcome tiers (.ok address) after := by
  rcases Nat.eq_zero_or_pos size with rfl | positive
  · cases answers.value_unique answers_allocate_zero
  · rwa [Action.Answers, run_allocate positive, if_pos pages] at answers

theorem block_of_allocateAligned {alignment : Nat}
    (pages : tiers.needsPages (Word.addSaturating size (alignment - 1)) = true)
    (answers : Action.Answers (allocateAligned size alignment).outcome tiers (.ok address)
      after) :
    Action.Answers (allocateBlock size).outcome tiers (.ok address) after := by
  by_cases valid : Word.isPowerOfTwo alignment = true ∧ alignment ≤ tiers.geometry.size
  · rcases Nat.eq_zero_or_pos size with rfl | positive
    · cases answers.value_unique (answers_allocateAligned_zero valid.1 valid.2)
    · rwa [Action.Answers, run_allocateAligned valid.1 valid.2 positive, if_pos pages] at answers
  · cases answers.value_unique (answers_allocateAligned_invalid valid)

end Tiers

def Manager.Undoes (manager : Manager) (attempt : Attempt Manager Nat) : Prop :=
  ∀ address after, Action.Answers attempt.outcome manager (.ok address) after →
    ∃ restored, Action.Answers (Manager.release address) after () restored ∧
      restored.layout = manager.layout ∧ manager.tiers.Restored restored.tiers

namespace Session

variable {session : Session} {origin : BuddyAllocator}

/-- What is a block for the tiers is given straight back without a trace. -/
theorem AccountsForLive.undoes (accounts : session.AccountsForLive origin)
    {attempt : Attempt Tiers Nat} {size : Nat}
    (block : ∀ address after, Action.Answers attempt.outcome session.tiers (.ok address) after →
      Action.Answers (Tiers.allocateBlock size).outcome session.tiers (.ok address) after) :
    session.manager.Undoes (Manager.tryTiers attempt) := by
  rintro address after ⟨result, rfl⟩
  obtain ⟨restored, answers, same⟩ :=
    Tiers.AccountsFor.restoreBlock accounts (block address _ ⟨result, rfl⟩)
  exact ⟨⟨session.manager.layout, restored⟩, Manager.answers_inTiers answers, rfl, same⟩

/--
After any calls on an allocator that was built, a block that is handed out and given
straight back leaves every list in its order, every bit and every descriptor as they
were.  After any calls on a manager that was booted, so do bytes that are whole pages,
and they leave all that the slab tier has as it was.
-/
theorem run_roundTrip :
    (∀ raw buddy : BuddyAllocator, raw.Built buddy → ∀ calls order page after,
      Action.Answers (BuddyAllocator.allocate order).outcome (buddy.run calls) (.ok page) after →
        ∃ restored, Action.Answers (BuddyAllocator.free page.start order) after () restored ∧
          (buddy.run calls).Restored restored) ∧
    ∀ layout ram manager, Action.Answers (Manager.boot layout ram) () (.ok manager) () →
      ∀ calls, (start manager).Allows calls →
        (∀ size, ((start manager).run calls).tiers.needsPages size = true →
          ((start manager).run calls).manager.Undoes (Manager.allocate size)) ∧
        ∀ size alignment, ((start manager).run calls).tiers.needsPages
            (Word.addSaturating size (alignment - 1)) = true →
          ((start manager).run calls).manager.Undoes (Manager.allocateAligned size alignment) := by
  refine ⟨fun raw buddy built calls order page after => built.exists_restored calls, ?_⟩
  intro layout ram manager booted calls allowed
  obtain ⟨plan, raw, seeded, booted⟩ := Manager.boot_eq_ok booted
  have accounts := booted.accounts.run allowed
  exact ⟨fun size pages => accounts.undoes fun address after => Tiers.block_of_allocate pages,
    fun size alignment pages => accounts.undoes fun address after =>
      Tiers.block_of_allocateAligned pages⟩

def sampleLent : BuddyAllocator :=
  ((BuddyAllocator.allocate 1).outcome.run (BuddyAllocator.sampleSeeded.run [.allocate 0])).state

theorem sampleLent_answers :
    Action.Answers (BuddyAllocator.allocate 1).outcome
      (BuddyAllocator.sampleSeeded.run [.allocate 0]) (.ok ⟨.heap, 6144, .buddy, 1, none⟩)
      sampleLent :=
  ⟨by decide +kernel, rfl⟩

def sampleServed : Manager :=
  ((Manager.allocate 1000).outcome.run ((start sampleManager).run sampleCalls).manager).state

theorem sampleServed_answers :
    Action.Answers (Manager.allocate 1000).outcome ((start sampleManager).run sampleCalls).manager
      (.ok 8192) sampleServed :=
  ⟨by decide +kernel, rfl⟩

/-- Given straight back, both leave the small machine as it was. -/
theorem run_roundTrip_sample :
    (∃ restored, Action.Answers (BuddyAllocator.free 6144 1) sampleLent () restored ∧
      (BuddyAllocator.sampleSeeded.run [.allocate 0]).Restored restored) ∧
    ((start sampleManager).run sampleCalls).tiers.needsPages 1000 = true ∧
    ∃ restored, Action.Answers (Manager.release 8192) sampleServed () restored ∧
      restored.layout = ((start sampleManager).run sampleCalls).manager.layout ∧
      ((start sampleManager).run sampleCalls).manager.tiers.Restored restored.tiers := by
  have pages : ((start sampleManager).run sampleCalls).tiers.needsPages 1000 = true := by
    decide +kernel
  have lent := run_roundTrip.1 BuddyAllocator.sample BuddyAllocator.sampleSeeded
    BuddyAllocator.sample_built [.allocate 0] 1 ⟨.heap, 6144, .buddy, 1, none⟩ sampleLent
    sampleLent_answers
  have undoes := (run_roundTrip.2 .sixteenPages {} sampleManager sampleManager_booted sampleCalls
    sampleCalls_allowed).1 1000 pages
  exact ⟨lent, pages, undoes 8192 sampleServed sampleServed_answers⟩

end Session

end PhysicalMemory
