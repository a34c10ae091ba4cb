import PhysicalMemory.Proofs.Boot.Plan

/-!
# Pair bits agree with the free lists

Counted from an aligned base, the pairs of a bitmap are the cells of the next
order.  In a coalesced pool each bit therefore tells whether one half of its
pair is listed and the other is not, and short of the largest order the two
halves are never listed at once.  The one halt that wrong bits would bring
about cannot be reached.
-/

namespace PhysicalMemory

namespace Pool

variable {pool : Pool} {cells : Nat → List Nat} {free : Nat → Prop} {order pair : Nat}

def lowerHalf (pool : Pool) (order pair : Nat) : Nat :=
  ((pool.zone.areaOf order).pairs.base + pair <<< (order + 1)) * pool.zone.geometry.size

def upperHalf (pool : Pool) (order pair : Nat) : Nat :=
  pool.lowerHalf order pair + pool.zone.geometry.size <<< order

def listOf (pool : Pool) (order : Nat) : List Nat :=
  (pool.zone.areaOf order).free.toList pool.ram

/-- A pair is a cell of the next order, counted from the base. -/
theorem halves_eq (ready : pool.zone.Ready) (h : order < orderCount) (pair : Nat) :
    pool.lowerHalf order pair = pool.zone.geometry.blockAt order
        (2 * (pair + (pool.zone.areaOf order).pairs.base >>> (order + 1))) ∧
      pool.upperHalf order pair = pool.zone.geometry.blockAt order
        (2 * (pair + (pool.zone.areaOf order).pairs.base >>> (order + 1)) + 1) := by
  have base : (pool.zone.areaOf order).pairs.base >>> (order + 1) <<< (order + 1) =
      (pool.zone.areaOf order).pairs.base := by
    have aligned := Nat.dvd_of_mod_eq_zero (ready.base_aligned order h)
    rw [Nat.one_shiftLeft] at aligned
    rw [Nat.shiftRight_eq_div_pow, Nat.shiftLeft_eq]
    exact Nat.div_mul_cancel ((Nat.pow_dvd_pow 2 h).trans aligned)
  have sum : (pair + (pool.zone.areaOf order).pairs.base >>> (order + 1)) <<< (order + 1) =
      (pool.zone.areaOf order).pairs.base + pair <<< (order + 1) := by
    rw [Nat.shiftLeft_eq, Nat.add_mul, ← Nat.shiftLeft_eq, ← Nat.shiftLeft_eq, base, Nat.add_comm]
  have lower : pool.lowerHalf order pair = pool.zone.geometry.blockAt order
      (2 * (pair + (pool.zone.areaOf order).pairs.base >>> (order + 1))) := by
    rw [← Geometry.blockAt_succ, Geometry.blockAt_eq_mul, lowerHalf, sum]
  refine ⟨lower, ?_⟩
  rw [upperHalf, lower, Geometry.blockAt_add_one, Geometry.size, ← Nat.shiftLeft_add]

theorem Coalesced.mem_listOf_iff (coalesced : pool.Coalesced cells free)
    (h : order < orderCount) {cell : Nat} :
    pool.zone.geometry.blockAt order cell ∈ pool.listOf order ↔ cell ∈ cells order := by
  rw [listOf, coalesced.lists.toList_eq coalesced.ready h]
  exact List.mem_map_of_injective fun _ _ => pool.zone.geometry.blockAt_injective

/-- The bit of a pair tells whether one half is listed and the other is not. -/
theorem Coalesced.bit_eq (coalesced : pool.Coalesced cells free) (h : order < orderCount)
    (pair : Nat) :
    (pool.zone.areaOf order).pairs.bit pair =
      (decide (pool.lowerHalf order pair ∈ pool.listOf order) ^^
        decide (pool.upperHalf order pair ∈ pool.listOf order)) := by
  have paired := coalesced.paired order h
    (pair + (pool.zone.areaOf order).pairs.base >>> (order + 1)) (Nat.le_add_left _ _)
  rw [Zone.pairBit, Nat.add_sub_cancel] at paired
  obtain ⟨lower, upper⟩ := halves_eq coalesced.ready h pair
  simp only [paired, lower, upper, coalesced.mem_listOf_iff h]

/-- Short of the largest order a pair has not both halves listed: they would be one block. -/
theorem Coalesced.not_both (coalesced : pool.Coalesced cells free) (h : order < topOrder)
    (pair : Nat) :
    ¬ (pool.lowerHalf order pair ∈ pool.listOf order ∧
      pool.upperHalf order pair ∈ pool.listOf order) := by
  have h' : order < orderCount := Nat.lt_trans h (by decide)
  obtain ⟨lower, upper⟩ := halves_eq coalesced.ready h' pair
  rw [lower, upper, coalesced.mem_listOf_iff h', coalesced.mem_listOf_iff h']
  rintro ⟨first, second⟩
  have first := (coalesced.maximal order h' _).1 first
  have second := (coalesced.maximal order h' _).1 second
  apply first.2 h
  rw [Nat.mul_div_cancel_left _ (by decide), Cell.within_succ_iff]
  exact ⟨first.1, second.1⟩

end Pool

namespace BuddyAllocator

variable {raw buddy : BuddyAllocator}

/-- Why a call halts, if it does. -/
def Call.halt? (buddy : BuddyAllocator) : Call → Option Halt
  | .allocate order =>
      match ((BuddyAllocator.allocate order).outcome.run buddy).result with
      | .ok _ => none
      | .error cause => some cause
  | .free start order =>
      match ((BuddyAllocator.free start order).run buddy).result with
      | .ok _ => none
      | .error cause => some cause
  | .write _ _ _ => none

/-- The only calls that halt give back what no descriptor confirms. -/
theorem Sound.halt_cases (sound : buddy.Sound) {call : Call} {cause : Halt}
    (halts : call.halt? buddy = some cause) :
    ∃ start order, call = .free start order ∧ (cause = .violation (.freeOutsideRam start) ∨
      (∃ owner, cause = .violation (.freeNotBuddy start owner)) ∨
        ∃ recorded, cause = .violation (.freeAtWrongOrder start order recorded)) := by
  cases call with
  | allocate order =>
      exfalso
      have answered : ∃ result after,
          Action.Answers (BuddyAllocator.allocate order).outcome buddy result after := by
        rcases Nat.lt_or_ge order orderCount with h | h
        · rcases sound.allocate h with ⟨answers, -⟩ | ⟨id, cell, after, -, answers⟩
          · exact ⟨_, _, answers⟩
          · exact ⟨_, _, answers⟩
        · exact ⟨_, _, allocate_large h⟩
      obtain ⟨result, after, answers⟩ := answered
      rw [Call.halt?, answers.1] at halts
      cases halts
  | free start order =>
      refine ⟨start, order, rfl, ?_⟩
      have confirmed := sound.confirm_eq start order
      split at confirmed
      · rw [Call.halt?, (free_of_error confirmed).1] at halts
        exact .inl (Option.some.inj halts).symm
      · next live found =>
          split at confirmed
          · rw [Call.halt?, (free_of_error confirmed).1] at halts
            exact .inr (.inl ⟨_, (Option.some.inj halts).symm⟩)
          · next owner =>
              split at confirmed
              · rw [Call.halt?, (free_of_error confirmed).1] at halts
                exact .inr (.inr ⟨_, (Option.some.inj halts).symm⟩)
              · next same =>
                  obtain rfl := Decidable.not_not.1 same
                  obtain ⟨after, -, answers⟩ := sound.free found (Decidable.not_not.1 owner)
                  rw [Call.halt?, answers.1] at halts
                  cases halts
  | write start offset value => cases halts

/--
Whatever calls are made, each pair bit of an allocatable zone tells whether one
half of its pair is listed and the other is not, short of the largest order
never both are, and no call misses a buddy.
-/
theorem run_pairBits (built : Built raw buddy) (calls : List Call) :
    (∀ id, (raw.zones.get id).allocatable = true → ∀ order < orderCount, ∀ pair,
      (((buddy.run calls).zones.get id).areaOf order).pairs.covers pair = true →
        ((((buddy.run calls).zones.get id).areaOf order).pairs.bit pair =
          (decide (((buddy.run calls).pool id).lowerHalf order pair ∈
              ((buddy.run calls).pool id).listOf order) ^^
            decide (((buddy.run calls).pool id).upperHalf order pair ∈
              ((buddy.run calls).pool id).listOf order))) ∧
        (order < topOrder → ¬ (((buddy.run calls).pool id).lowerHalf order pair ∈
              ((buddy.run calls).pool id).listOf order ∧
            ((buddy.run calls).pool id).upperHalf order pair ∈
              ((buddy.run calls).pool id).listOf order))) ∧
    ∀ call other block order,
      Call.halt? (buddy.run calls) call ≠ some (.violation (.buddyMissing other block order)) := by
  obtain ⟨sound, -, alike, -⟩ := built.sound
  have alike' := sound.run_alike calls
  have sound := sound.run calls
  constructor
  · intro id allocatable order h pair _
    rw [← (alike id).allocatable_eq, ← (alike' id).allocatable_eq] at allocatable
    obtain ⟨cells, coalesced⟩ := sound.coalesced id allocatable
    exact ⟨coalesced.bit_eq h pair, fun below => coalesced.not_both below pair⟩
  · intro call other block order halts
    obtain ⟨_, _, -, cause | ⟨_, cause⟩ | ⟨_, cause⟩⟩ := sound.halt_cases halts
    all_goals cases cause

/-- On a small machine two calls, one of them halted, lead to no missing buddy. -/
theorem run_pairBits_sample : Built sample sampleSeeded ∧
    ∀ call other block order,
      Call.halt? (sampleSeeded.run [.allocate 1, .free 0x1400 0]) call ≠
        some (.violation (.buddyMissing other block order)) :=
  ⟨sample_built, (run_pairBits sample_built _).2⟩

end BuddyAllocator

end PhysicalMemory
