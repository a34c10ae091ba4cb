import PhysicalMemory.Proofs.Manager.Routing
import PhysicalMemory.Proofs.Slab.Onward

/-!
# What a call does to the caches

A permitted call leaves the caches as they are, or it is one course of a request for an
object, or it gives one object back.  Along each of these all slabs go one way, and so
they do along every run of permitted calls.
-/

namespace PhysicalMemory

namespace Stock

def Spent (stock : Stock) : Prop :=
  stock.slabs .partly = [] ∧ stock.slabs .empty = []

end Stock

namespace Store

/-- The caches that were there had nothing to hand out where they have a slab more. -/
def GrowsSpent (store store' : Store) : Prop :=
  ∀ cache ∈ store.caches, ∀ slab ∈ (store'.stock cache).all, slab ∉ (store.stock cache).all →
    (store.stock cache).Spent

variable {store : Store} {cache : Nat} {stock : Stock}

theorem GrowsSpent.refl (store : Store) : store.GrowsSpent store :=
  fun _ _ _ listed absent => absurd listed absent

theorem GrowsSpent.restock
    (spent : ∀ slab ∈ stock.all, slab ∉ (store.stock cache).all → (store.stock cache).Spent) :
    store.GrowsSpent (store.restock cache stock) := by
  intro other _ slab listed absent
  rw [stock_restock] at listed
  split at listed
  · next same =>
      subst same
      exact spent slab listed absent
  · exact absurd listed absent

end Store

namespace BuddyAllocator

variable {buddy after middle : BuddyAllocator} {allocator : SlabAllocator} {store store' : Store}
  {cache size place slab index : Nat} {stock : Stock} {answer : Except AllocFailure Nat}

theorem Served.growsSpent
    (served : buddy.Served after allocator store cache slab index stock) :
    store.GrowsSpent (store.restock cache (stock.take slab)) := by
  refine .restock fun fresh listed absent => ?_
  rw [(Stock.all_take_perm stock slab).mem_iff] at listed
  cases served.readied with
  | promoted => exact absurd ((Stock.all_promote_perm _).mem_iff.1 listed) absent
  | grown none unknown => exact none

theorem Dispensed.growsSpent
    (dispensed : buddy.Dispensed allocator store cache after store' answer) :
    store.GrowsSpent store' := by
  cases dispensed with
  | refused barren => exact .refl store
  | served served => exact served.growsSpent

theorem Entered.growsSpent
    (entered : buddy.Entered middle allocator store size place slab index stock) :
    store.GrowsSpent ((store.restock store.head (stock.take slab)).found place size) := by
  intro cache member
  rw [entered.stock_of_mem member]
  exact entered.served.growsSpent cache member

theorem Founding.growsSpent (founding : buddy.Founding allocator store size after store' answer) :
    store.GrowsSpent store' := by
  cases founding with
  | refused barren => exact .refl store
  | unstocked entered absent => exact entered.growsSpent
  | stocked entered grown =>
      intro cache member
      rw [Store.stock_restock, if_neg (ne_of_mem_of_not_mem member entered.absent)]
      exact entered.growsSpent cache member

/-- Along every course a cache that had a slab to hand objects out of gets no new one. -/
theorem Course.growsSpent (course : buddy.Course allocator store size after store' answer) :
    store.GrowsSpent store' := by
  cases course with
  | known member size_eq dispensed => exact dispensed.growsSpent
  | unfounded new founding => exact founding.growsSpent
  | @founded middle _ made _ place _ new founding dispensed =>
      -- the object is one of the new cache's, and the others keep what they have
      intro cache member
      have other : store'.stock cache = made.stock cache := by
        cases dispensed with
        | refused barren => rfl
        | served served =>
            rw [Store.stock_restock, if_neg (ne_of_mem_of_not_mem member founding.fresh)]
      rw [other]
      exact founding.growsSpent cache member

theorem Dispensed.caches_eq
    (dispensed : buddy.Dispensed allocator store cache after store' answer) :
    store'.caches = store.caches := by
  cases dispensed <;> rfl

/-- A cache that is new has no slab, or one that is empty. -/
theorem Founding.made_slabs (founding : buddy.Founding allocator store size after store' answer)
    (member : cache ∈ store'.caches) (absent : cache ∉ store.caches) :
    (store'.stock cache).all.length ≤ 1 ∧
      (answer = .ok cache → (store'.stock cache).slabs .empty ≠ []) := by
  cases founding with
  | refused barren => exact absurd member absent
  | unstocked entered none =>
      obtain rfl := (Store.mem_caches_found.1 member).resolve_left absent
      rw [Store.stock_found_self]
      exact ⟨Nat.zero_le 1, fun refused => nomatch refused⟩
  | @stocked middle last place slab index frame home stock entered grown =>
      have there : cache ∈ (store.found place size).caches := member
      obtain rfl := (Store.mem_caches_found.1 there).resolve_left absent
      rw [Store.stock_restock_self]
      refine ⟨Nat.le_of_eq Stock.all_add_perm.length_eq, fun _ => ?_⟩
      rw [Stock.slabs_add, if_pos rfl]
      exact List.cons_ne_nil _ _

theorem Course.made_slabs (course : buddy.Course allocator store size after store' answer)
    (member : cache ∈ store'.caches) (absent : cache ∉ store.caches) :
    (store'.stock cache).all.length ≤ 1 := by
  cases course with
  | known there size_eq dispensed =>
      rw [dispensed.caches_eq] at member
      exact absurd member absent
  | unfounded new founding => exact (founding.made_slabs member absent).1
  | @founded middle _ made _ place _ new founding dispensed =>
      rw [dispensed.caches_eq] at member
      have slabs := founding.made_slabs member absent
      cases dispensed with
      | refused barren => exact slabs.1
      | @served slab index stock _ served =>
          rw [Store.stock_restock]
          split
          · next same =>
              subst same
              rw [(Stock.all_take_perm stock slab).length_eq]
              cases served.readied with
              | promoted =>
                  rw [(Stock.all_promote_perm _).length_eq]
                  exact slabs.1
              | grown none fresh => exact absurd none.2 (slabs.2 rfl)
          · exact slabs.1

end BuddyAllocator

namespace Tiers

variable {tiers after : Tiers} {store store' : Store} {size objectSize : Nat}
  {answer : Except AllocFailure Nat}

/-- What a call may do to both tiers and to what the caches have. -/
inductive Turn (tiers : Tiers) (store : Store) : Tiers → Store → Prop where
  | kept {buddy : BuddyAllocator} (stocked : buddy.Stocked tiers.slab store) :
      Turn tiers store ⟨buddy, tiers.slab⟩ store
  | supplied {size : Nat} {buddy : BuddyAllocator} {store' : Store}
      {answer : Except AllocFailure Nat}
      (course : tiers.buddy.Course tiers.slab store size buddy store' answer)
      (stocked : buddy.Stocked tiers.slab store') : Turn tiers store ⟨buddy, tiers.slab⟩ store'
  | given {buddy : BuddyAllocator} {cache slab index : Nat}
      (stocked : buddy.Stocked tiers.slab
        (store.restock cache ((store.stock cache).give slab index))) :
      Turn tiers store ⟨buddy, tiers.slab⟩
        (store.restock cache ((store.stock cache).give slab index))

namespace Turn

variable (turn : tiers.Turn store after store')

include turn

theorem slab_eq : after.slab = tiers.slab := by
  cases turn <;> rfl

theorem stocked : after.buddy.Stocked tiers.slab store' := by
  cases turn <;> assumption

theorem onward (stocked : tiers.buddy.Stocked tiers.slab store) : store.Onward store' := by
  cases turn with
  | kept => exact .refl store
  | supplied course => exact course.onward stocked
  | given => exact .restock (.give _ _ _)

theorem growsSpent : store.GrowsSpent store' := by
  cases turn with
  | kept => exact .refl store
  | supplied course => exact course.growsSpent
  | given => exact .restock fun _ listed absent => absurd listed absent

theorem made_slabs {cache : Nat} (member : cache ∈ store'.caches) (absent : cache ∉ store.caches) :
    (store'.stock cache).all.length ≤ 1 := by
  cases turn with
  | kept => exact absurd member absent
  | supplied course => exact course.made_slabs member absent
  | given => exact absurd member absent

end Turn

theorem Route.turn (route : tiers.Route store size objectSize after store' answer)
    (stocked : tiers.buddy.Stocked tiers.slab store) {records objects : List Seat}
    (seated : store.Seated tiers.buddy.geometry.size records objects) :
    tiers.Turn store after store' := by
  cases route with
  | nothing zero => exact .kept stocked
  | pages positive pages lending =>
      cases lending with
      | tooLarge least large => exact .kept stocked
      | exhausted least small => exact .kept stocked
      | lent least small handed => exact .kept (stocked.hand handed)
  | object positive small course =>
      obtain ⟨records', answered⟩ := course.answered stocked seated
      exact .supplied course answered.stocked

end Tiers

namespace Session

variable {α : Type} {session : Session} {origin : BuddyAllocator} {store : Store}
  {records objects : List Seat} {blocks : List Extent}

/-- A request that takes one of the ways is a turn, and one that halts changes nothing. -/
theorem turn_of_routes
    (tenancy : session.tiers.StockedSeatedLent origin store records objects blocks)
    {attempt : Attempt Tiers Nat} {size objectSize : Nat} {move : Nat → Nat}
    (routes : Tiers.Routes attempt session.tiers store size objectSize move)
    (live : Except AllocFailure Nat → List Extent) :
    ∃ store', session.tiers.Turn store
      (session.follow (Manager.tryTiers attempt).outcome live).tiers store' := by
  change ∃ store', session.tiers.Turn store
    (session.follow (Manager.inTiers attempt.outcome) live).tiers store'
  rcases routes with ⟨-, halt, halts⟩ | ⟨answer, after, store', answers, route⟩
  · rw [follow_of_halt halts.1 halts.2]
    exact ⟨store, .kept tenancy.stocked⟩
  · rw [follow_of_answers answers]
    exact ⟨store', route.turn tenancy.stocked tenancy.seated⟩

theorem turn_allocatePages (stocked : session.tiers.buddy.Stocked session.tiers.slab store)
    (order : Nat) :
    session.tiers.Turn store (session.perform (.allocatePages order)).tiers store := by
  have followed : ∀ {answer buddy}, Action.Answers (BuddyAllocator.allocate order).outcome
      session.tiers.buddy answer buddy →
        (session.perform (.allocatePages order)).tiers = ⟨buddy, session.tiers.slab⟩ :=
    fun answers => congrArg tiers (follow_of_answers (Tiers.answers_tryBuddy answers) _)
  rcases Nat.lt_or_ge order orderCount with small | large
  · rcases stocked.sound.allocate small with ⟨refused, -⟩ | ⟨id, cell, buddy, handed, answers⟩
    · rw [followed refused]
      exact .kept stocked
    · rw [followed answers]
      exact .kept (stocked.hand handed)
  · rw [followed (BuddyAllocator.allocate_large large)]
    exact .kept stocked

/-- Pages that are taken back were no slab's, and pages that are refused change nothing. -/
theorem turn_releasePages (stocked : session.tiers.buddy.Stocked session.tiers.slab store)
    (page : Page) (order : Nat) :
    session.tiers.Turn store (session.perform (.releasePages page order)).tiers store := by
  cases confirmed : session.tiers.buddy.confirm page.start order with
  | error halt =>
      rw [releasePages_of_refused confirmed]
      exact .kept stocked
  | ok live =>
      obtain ⟨found, owner, rfl⟩ := stocked.sound.confirm_eq_ok confirmed
      obtain ⟨buddy, recovered, answers⟩ := stocked.sound.free found owner
      rw [perform_releasePages,
        follow_of_answers (Tiers.answers_inBuddy_iff.2 ⟨buddy, answers, rfl⟩)]
      exact .kept (stocked.recover recovered)

/-- The address of a seat gives the object that the seat is in back, and all others stay seated. -/
theorem AccountsForLive.release_seat (accounts : session.AccountsForLive origin)
    (stocked : session.tiers.buddy.Stocked session.tiers.slab store)
    (seated : store.Seated session.tiers.buddy.geometry.size records objects) {seat : Seat}
    (there : seat ∈ objects) {cache : Nat} (member : cache ∈ store.caches)
    (inside : seat.Inside (store.stock cache) session.tiers.buddy.geometry.size) :
    ∃ ram, Action.Answers (Tiers.release seat.extent.start) session.tiers ()
        ⟨{ session.tiers.buddy with ram := ram }, session.tiers.slab⟩ ∧
      let store' := store.restock cache ((store.stock cache).give seat.slab seat.index)
      ({ session.tiers.buddy with ram := ram } : BuddyAllocator).Stocked session.tiers.slab store' ∧
        store'.Seated session.tiers.buddy.geometry.size records (objects.erase seat) := by
  have found := stocked.page_of_seat member inside
  obtain ⟨ram, other, -, answers, stocked', seated', same⟩ :=
    stocked.giveObject seated there found
  obtain rfl : cache = other := Option.some.inj (congrArg Page.cache same)
  have freed : Action.Answers (Tiers.freeObject seat.extent.start (.serving seat.slab cache))
      session.tiers () ⟨{ session.tiers.buddy with ram := ram }, session.tiers.slab⟩ :=
    Action.answers_get_bind_iff.2 (Tiers.answers_inBuddy_iff.2
      ⟨_, BuddyAllocator.answers_inRam_iff.2 ⟨ram, answers, rfl⟩, rfl⟩)
  exact ⟨ram, accounts.release_of_slab found rfl rfl freed, stocked', seated'⟩

/-- An address that is given back ends a block, an object or nothing. -/
theorem turn_release (accounts : session.AccountsForLive origin)
    (tenancy : session.tiers.StockedSeatedLent origin store records objects blocks)
    (same : session.live.Perm (objects.map Seat.extent ++ blocks)) {address : Nat}
    (permitted : session.Permits (.release address)) :
    ∃ store', session.tiers.Turn store (session.perform (.release address)).tiers store' := by
  have stocked := tenancy.stocked
  cases owned : session.ownerOf address with
  | unowned =>
      have nobody := @release_of_unowned _ address accounts.regular fun page found =>
        (ownerOf_of_some found).symm.trans owned
      rw [perform_release, follow_of_answers nobody]
      exact ⟨store, .kept stocked⟩
  | buddy =>
      obtain ⟨page, found, owner⟩ := pageOf?_of_owned owned (by decide)
      have nonzero := accounts.ne_zero_of_owned found (by rw [owner]; decide)
      have same_page : session.tiers.buddy.geometry.frameOf page.start =
          session.tiers.geometry.frameOf address := stocked.sound.regular.frameOf_start found
      have first : session.tiers.buddy.pages.page?
          (session.tiers.buddy.geometry.frameOf page.start) = some page := by
        rw [same_page]
        exact found
      obtain ⟨buddy, recovered, answers⟩ := stocked.sound.free first owner
      have released := release_of_page accounts.regular nonzero found
        (by rw [owner]; exact Tiers.answers_inBuddy_iff.2 ⟨buddy, answers, rfl⟩)
      rw [perform_release, follow_of_answers released]
      exact ⟨store, .kept (stocked.recover recovered)⟩
  | slab =>
      rcases permitted owned with ⟨extent, member, rfl⟩ | ignored
      · obtain ⟨page, found, owner⟩ := pageOf?_of_owned owned (by decide)
        rcases tenancy.cases_live same member with ⟨seat, there, rfl⟩ | ⟨other, lends⟩
        · obtain ⟨cache, member, inside⟩ := tenancy.inside_of_seat there
          obtain ⟨ram, answers, stocked', -⟩ :=
            accounts.release_seat stocked tenancy.seated there member inside
          rw [perform_release, follow_of_answers answers]
          exact ⟨_, .given stocked'⟩
        · -- the page of a block is no slab's
          rw [Option.some.inj (found.symm.trans lends.found), lends.owner_eq] at owner
          cases owner
      · have kept : (session.perform (.release address)).tiers = session.tiers :=
          congrArg Manager.tiers ignored
        rw [kept]
        exact ⟨store, .kept stocked⟩

/-- Every permitted call is a turn. -/
theorem turn_perform (accounts : session.AccountsForLive origin)
    (tenancy : session.tiers.StockedSeatedLent origin store records objects blocks)
    (same : session.live.Perm (objects.map Seat.extent ++ blocks)) {call : Call}
    (permitted : session.Permits call) :
    ∃ store', session.tiers.Turn store (session.perform call).tiers store' := by
  have stocked := tenancy.stocked
  cases call with
  | allocatePages order => exact ⟨store, turn_allocatePages stocked order⟩
  | allocate size =>
      exact turn_of_routes tenancy (Tiers.routes_allocate stocked tenancy.seated size) _
  | allocateAligned size alignment =>
      by_cases valid : Word.isPowerOfTwo alignment = true ∧
          alignment ≤ session.tiers.geometry.size
      · exact turn_of_routes tenancy
          (Tiers.routes_allocateAligned stocked tenancy.seated size valid.1 valid.2) _
      · have refused := @Tiers.answers_allocateAligned_invalid session.tiers size _ valid
        have kept : (session.perform (.allocateAligned size alignment)).tiers = session.tiers :=
          congrArg tiers (follow_of_answers refused _)
        rw [kept]
        exact ⟨store, .kept stocked⟩
  | releasePages page order => exact ⟨store, turn_releasePages stocked page order⟩
  | release address => exact turn_release accounts tenancy same permitted
  | write ram => exact ⟨store, .kept (stocked_write tenancy same permitted)⟩

theorem AccountsForLive.onward_perform (accounts : session.AccountsForLive origin) {call : Call}
    (permitted : session.Permits call) :
    (session.perform call).tiers.slab = session.tiers.slab ∧
      session.tiers.slab.Onward session.tiers.ram (session.perform call).tiers.ram := by
  obtain ⟨store, records, objects, blocks, tenancy, same⟩ := id accounts
  obtain ⟨store', turn⟩ := turn_perform accounts tenancy same permitted
  exact ⟨turn.slab_eq, tenancy.stocked.onward turn.stocked (turn.onward tenancy.stocked)⟩

theorem AccountsForLive.onward_run (accounts : session.AccountsForLive origin) {calls : List Call}
    (allowed : session.Allows calls) :
    (session.run calls).tiers.slab = session.tiers.slab ∧
      session.tiers.slab.Onward session.tiers.ram (session.run calls).tiers.ram := by
  induction calls generalizing session with
  | nil => exact ⟨rfl, .refl _ _⟩
  | cons call rest ih =>
      obtain ⟨slab_eq, first⟩ := accounts.onward_perform allowed.1
      obtain ⟨last_eq, second⟩ := ih (accounts.perform allowed.1) allowed.2
      rw [slab_eq] at last_eq second
      exact ⟨last_eq, first.trans second⟩

end Session

end PhysicalMemory
