import PhysicalMemory.Proofs.Manager.Routes

/-!
# Requests

A request for pages or bytes is granted, and then its bytes are live besides
what was live before, or it is refused or halts, and then just what was live
before is live.  An aligned object is moved up within a larger one.
-/

namespace PhysicalMemory

namespace Tiers

variable {α : Type} {tiers after : Tiers} {origin : BuddyAllocator} {live : List Extent}
  {store store' : Store} {records objects : List Seat} {blocks : List Extent}
  {size objectSize : Nat} {answer : Except AllocFailure Nat}

def Granted (after : Tiers) (origin : BuddyAllocator) (live : List Extent) (extent : α → Extent) :
    Except AllocFailure α → Prop
  | .error _ => after.AccountsFor origin live
  | .ok value => after.AccountsFor origin (extent value :: live)

/--
A request for so many bytes is answered and leaves them live, or it is for more than
a word can say and halts before anything has changed.
-/
def Grants (attempt : Attempt Tiers α) (tiers : Tiers) (origin : BuddyAllocator)
    (live : List Extent) (size : Nat) (start : α → Nat) : Prop :=
  (Word.limit ≤ size ∧ ∃ halt, (attempt.outcome.run tiers).result = .error halt ∧
    (attempt.outcome.run tiers).state = tiers) ∨
  ∃ answer after, Action.Answers attempt.outcome tiers answer after ∧
    after.Granted origin live (fun value => ⟨start value, size⟩) answer

/-- A block that is handed out has bytes live that need it. -/
theorem StockedSeatedLent.lend
    (tenancy : tiers.StockedSeatedLent origin store records objects blocks)
    (same : live.Perm (objects.map Seat.extent ++ blocks)) {buddy : BuddyAllocator}
    {order cell : Nat} {id : ZoneId} (handed : tiers.buddy.Handed buddy order id cell)
    (positive : 0 < size) (least : tiers.geometry.IsOrderFor size order) :
    (⟨buddy, tiers.slab⟩ : Tiers).AccountsFor origin
      (⟨tiers.buddy.geometry.blockAt order cell, size⟩ :: live) := by
  have sound := tenancy.stocked.sound
  exact ⟨store, records, objects, ⟨tiers.buddy.geometry.blockAt order cell, size⟩ :: blocks,
    ⟨tenancy.stocked.hand handed, by rw [handed.geometry_eq]; exact tenancy.seated,
      tenancy.lent.hand sound handed positive least, handed.unownedBare sound tenancy.unownedBare,
      tenancy.onward.trans (handed.onward sound)⟩,
    (same.cons _).trans List.perm_middle.symm⟩

/-- A request for pages is answered with a block for bytes to live in, or it changes nothing. -/
theorem AccountsFor.lend (accountsFor : tiers.AccountsFor origin live) (order : Nat) :
    (∃ failure, Action.Answers (tryBuddy (BuddyAllocator.allocate order)).outcome tiers
      (.error failure) tiers) ∨
    ∃ page after, Action.Answers (tryBuddy (BuddyAllocator.allocate order)).outcome tiers
        (.ok page) after ∧
      ∀ size, 0 < size → tiers.geometry.IsOrderFor size order →
        after.AccountsFor origin (⟨page.start, size⟩ :: live) := by
  obtain ⟨store, records, objects, blocks, tenancy, same⟩ := accountsFor
  rcases Nat.lt_or_ge order orderCount with small | large
  · rcases tenancy.stocked.sound.allocate small with
      ⟨refused, -⟩ | ⟨id, cell, buddy, handed, answers⟩
    · exact .inl ⟨_, answers_tryBuddy refused⟩
    · exact .inr ⟨_, _, answers_tryBuddy answers, fun size => tenancy.lend same handed⟩
  · exact .inl ⟨_, answers_tryBuddy (BuddyAllocator.allocate_large large)⟩

theorem AccountsFor.linkable (accountsFor : tiers.AccountsFor origin live) :
    8 ≤ tiers.geometry.size := by
  obtain ⟨store, records, objects, blocks, tenancy, same⟩ := accountsFor
  have linkable := (tenancy.stocked.sound.ready tenancy.stocked.heap).linkable
  rwa [tenancy.stocked.sound.geometry_eq] at linkable

/-- Whatever way a request goes, what it is answered with has a block or an object to live in. -/
theorem StockedSeatedLent.granted
    (tenancy : tiers.StockedSeatedLent origin store records objects blocks)
    (same : live.Perm (objects.map Seat.extent ++ blocks)) {move : Nat → Nat}
    (route : tiers.Route store size objectSize after store' answer)
    (still : tiers.needsPages objectSize = true → ∀ {after answer},
      tiers.ByPages size after answer → answer.map move = answer)
    (inside : tiers.needsPages objectSize = false → ∀ object,
      Extent.Sub ⟨move object, size⟩ ⟨object, objectSize⟩) :
    after.Granted origin live (fun address => ⟨address, size⟩) (answer.map move) := by
  have accounts : tiers.AccountsFor origin live := ⟨store, records, objects, blocks, tenancy, same⟩
  cases route with
  | nothing zero => exact accounts
  | pages positive pages lending =>
      rw [still pages lending]
      cases lending with
      | tooLarge least large => exact accounts
      | exhausted least small => exact accounts
      | lent least small handed => exact tenancy.lend same handed positive least
  | @object buddy store' answer positive small course =>
      obtain ⟨records', answered⟩ := course.answered tenancy.stocked tenancy.seated
      have steady := answered.steady
      have geometry := steady.geometry_eq
      have tenancy' : ∀ {objects' : List Seat},
          store'.Seated tiers.buddy.geometry.size records' objects' →
            (⟨buddy, tiers.slab⟩ : Tiers).StockedSeatedLent origin store' records' objects'
              blocks :=
        fun seated => ⟨answered.stocked, by rw [geometry]; exact seated, tenancy.lent.steady steady,
          steady.unownedBare tenancy.unownedBare, tenancy.onward.trans steady.toOnward⟩
      cases answered.supplied with
      | refused failure seated => exact ⟨store', records', objects, blocks, tenancy' seated, same⟩
      | served object slab index seated =>
          have sub := inside small object
          exact ⟨store', records', ⟨slab, index, ⟨move object, size⟩⟩ :: objects, blocks,
            tenancy' (seated ⟨move object, size⟩ positive sub.1 sub.2), same.cons _⟩

/-- A request that takes a way that its bytes fit in is granted. -/
theorem StockedSeatedLent.grants
    (tenancy : tiers.StockedSeatedLent origin store records objects blocks)
    (same : live.Perm (objects.map Seat.extent ++ blocks)) {attempt : Attempt Tiers Nat}
    {move : Nat → Nat} (routes : Routes attempt tiers store size objectSize move)
    (still : tiers.needsPages objectSize = true → ∀ {after answer},
      tiers.ByPages size after answer → answer.map move = answer)
    (inside : tiers.needsPages objectSize = false → ∀ object,
      Extent.Sub ⟨move object, size⟩ ⟨object, objectSize⟩) :
    Grants attempt tiers origin live size id :=
  routes.imp id fun ⟨answer, after, _, answers, route⟩ =>
    ⟨answer.map move, after, answers, tenancy.granted same route still inside⟩

theorem AccountsFor.grant (accountsFor : tiers.AccountsFor origin live) (size : Nat) :
    Grants (allocate size) tiers origin live size id := by
  obtain ⟨store, records, objects, blocks, tenancy, same⟩ := accountsFor
  exact tenancy.grants same (routes_allocate tenancy.stocked tenancy.seated size)
    (fun _ _ _ _ => congrFun Except.map_id _) fun _ object => ⟨Nat.le_refl _, Nat.le_refl _⟩

theorem AccountsFor.grantAligned (accountsFor : tiers.AccountsFor origin live)
    (size alignment : Nat) :
    Grants (allocateAligned size alignment) tiers origin live size id := by
  by_cases valid : Word.isPowerOfTwo alignment = true ∧ alignment ≤ tiers.geometry.size
  · obtain ⟨store, records, objects, blocks, tenancy, same⟩ := accountsFor
    have page_eq := tenancy.stocked.page_eq
    refine tenancy.grants same
      (routes_allocateAligned tenancy.stocked tenancy.seated size valid.1 valid.2)
      (fun _ _ _ lending => lending.map_roundUp valid.1 valid.2) fun small object => ?_
    rw [addSaturating_of_small page_eq small]
    exact sub_of_roundUp (Word.pos_of_isPowerOfTwo valid.1)
  · exact .inr ⟨_, tiers, answers_allocateAligned_invalid valid, accountsFor⟩

end Tiers

end PhysicalMemory
