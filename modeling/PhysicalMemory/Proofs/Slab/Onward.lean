import PhysicalMemory.Proofs.Slab.Supply

/-!
# Slabs go one way

A slab is empty first, then partly full and at last full, and it never goes back.
Once full it hands nothing out, so its chain only grows at the front.  A cache
gets a slab more only when all that it has are full.  Caches stay in the ring, with
the size of their objects, and new ones come right behind the first.
-/

namespace PhysicalMemory

def Fill.rank : Fill → Nat
  | .empty => 0
  | .partly => 1
  | .full => 2

namespace Stock

/-- The later stock has all slabs of the earlier one, none of which has gone back. -/
structure Onward (stock stock' : Stock) : Prop where
  size_eq : stock'.size = stock.size
  listed : ∀ fill, ∀ slab ∈ stock.slabs fill,
    ∃ later, slab ∈ stock'.slabs later ∧ fill.rank ≤ later.rank
  full : ∀ slab ∈ stock.slabs .full, stock.free slab <:+ stock'.free slab
  grown : ∀ slab ∈ stock'.all, slab ∉ stock.all → ∀ old ∈ stock.all, old ∈ stock'.slabs .full

variable {stock stock' last : Stock} {pageSize slab : Nat} {fill target : Fill}
  {free rest : List Nat}

namespace Onward

theorem refl (stock : Stock) : stock.Onward stock where
  size_eq := rfl
  listed := fun fill _ member => ⟨fill, member, Nat.le_refl _⟩
  full := fun _ _ => List.suffix_rfl
  grown := fun _ member absent => absurd member absent

/-- A slab that is full stays so. -/
theorem stays_full (onward : stock.Onward stock') (member : slab ∈ stock.slabs .full) :
    slab ∈ stock'.slabs .full := by
  obtain ⟨later, listed, rank⟩ := onward.listed .full slab member
  cases later with
  | full => exact listed
  | partly => cases rank with | step rank => cases rank
  | empty => cases rank

theorem all (onward : stock.Onward stock') (member : slab ∈ stock.all) : slab ∈ stock'.all := by
  obtain ⟨fill, listed⟩ := mem_all_iff.1 member
  obtain ⟨later, listed, -⟩ := onward.listed fill slab listed
  exact mem_all listed

theorem trans (first : stock.Onward stock') (second : stock'.Onward last) : stock.Onward last where
  size_eq := second.size_eq.trans first.size_eq
  listed := by
    intro fill slab member
    obtain ⟨later, listed, rank⟩ := first.listed fill slab member
    obtain ⟨latest, listed, rank'⟩ := second.listed later slab listed
    exact ⟨latest, listed, Nat.le_trans rank rank'⟩
  full := fun slab member =>
    (first.full slab member).trans (second.full slab (first.stays_full member))
  grown := by
    intro slab member absent old there
    by_cases early : slab ∈ stock'.all
    · exact second.stays_full (first.grown slab early absent old there)
    · exact second.grown slab member early old (first.all there)

theorem move (first : stock.slabs fill = slab :: rest) (up : fill.rank < target.rank) :
    stock.Onward ((stock.put fill rest).add target slab (stock.free slab)) where
  size_eq := rfl
  listed := by
    intro list other member
    have apart : fill ≠ target := by
      rintro rfl
      exact Nat.lt_irrefl _ up
    by_cases here : list = fill
    · subst here
      rw [first] at member
      rcases List.mem_cons.1 member with rfl | member
      · exact ⟨target, by rw [slabs_add, if_pos rfl]; exact List.mem_cons_self, Nat.le_of_lt up⟩
      · exact ⟨list, by rwa [slabs_add, if_neg apart, slabs_put, if_pos rfl], Nat.le_refl _⟩
    · refine ⟨list, ?_, Nat.le_refl _⟩
      rw [slabs_add]
      split
      · next same =>
          subst same
          rw [slabs_put, if_neg here]
          exact List.mem_cons_of_mem _ member
      · rwa [slabs_put, if_neg here]
  full := by
    intro other _
    rw [add, free_chain, free_put]
    split
    · next same => rw [same]
    · exact List.suffix_rfl
  grown := fun other member absent => absurd ((all_move_perm first).mem_iff.1 member) absent

theorem chain (more : slab ∈ stock.slabs .full → stock.free slab <:+ free) :
    stock.Onward (stock.chain slab free) where
  size_eq := rfl
  listed := fun fill _ member => ⟨fill, member, Nat.le_refl _⟩
  full := by
    intro other member
    rw [free_chain]
    split
    · next same => exact same ▸ more (same ▸ member)
    · exact List.suffix_rfl
  grown := fun _ member absent => absurd member absent

theorem add (none : stock.slabs .partly = [] ∧ stock.slabs .empty = [])
    (fresh : slab ∉ stock.all) : stock.Onward (stock.add fill slab free) where
  size_eq := rfl
  listed := by
    intro list other member
    refine ⟨list, ?_, Nat.le_refl _⟩
    rw [slabs_add]
    split
    · next same => exact List.mem_cons_of_mem _ (same ▸ member)
    · exact member
  full := by
    intro other member
    rw [Stock.add, free_chain, if_neg]
    · exact List.suffix_rfl
    · rintro rfl
      exact fresh (mem_all member)
  grown := by
    intro _ _ _ old there
    rw [all_eq, none.1, none.2, List.append_nil, List.append_nil] at there
    rw [slabs_add]
    split
    · next same => exact List.mem_cons_of_mem _ (same ▸ there)
    · exact there

theorem promote (stock : Stock) : stock.Onward stock.promote := by
  cases first : stock.slabs .empty with
  | nil =>
      rw [promote_nil first]
      exact .refl stock
  | cons slab rest =>
      rw [promote_cons first]
      exact .move first (by decide)

theorem take (nodup : stock.all.Nodup) (first : stock.slabs .partly = slab :: rest) :
    stock.Onward (stock.take slab) := by
  have emptied : stock.Onward (stock.chain slab (stock.free slab).tail) := by
    refine .chain fun full => ?_
    -- a slab is on one list only
    rw [all_eq, List.nodup_append] at nodup
    refine absurd rfl (nodup.2.2 slab full slab (List.mem_append_left _ ?_))
    rw [first]
    exact List.mem_cons_self
  by_cases last : (stock.free slab).tail = []
  · rw [take_last last]
    rw [last] at emptied
    have partly : (stock.chain slab []).slabs .partly = slab :: rest := first
    rw [retire_cons partly]
    exact emptied.trans (.move partly (by decide))
  · rw [take_more last]
    exact emptied

theorem give (stock : Stock) (slab index : Nat) : stock.Onward (stock.give slab index) :=
  .chain fun _ => List.suffix_cons index _

end Onward

theorem Readied.onward (readied : stock.Readied pageSize stock') : stock.Onward stock' := by
  cases readied with
  | promoted => exact .promote stock
  | grown none fresh => exact .add none fresh

theorem Readied.nodup (readied : stock.Readied pageSize stock') (nodup : stock.all.Nodup) :
    stock'.all.Nodup := by
  cases readied with
  | promoted => exact (all_promote_perm stock).nodup_iff.2 nodup
  | grown none fresh => exact all_add_perm.nodup_iff.2 (List.nodup_cons.2 ⟨fresh, nodup⟩)

end Stock

namespace Store

structure Onward (store store' : Store) : Prop where
  head_eq : store'.head = store.head
  others : store.others <:+ store'.others
  stocks : ∀ cache ∈ store.caches, (store.stock cache).Onward (store'.stock cache)

variable {store store' last : Store} {cache size : Nat} {stock : Stock}

namespace Onward

theorem refl (store : Store) : store.Onward store :=
  ⟨rfl, List.suffix_rfl, fun cache _ => .refl (store.stock cache)⟩

theorem stays (onward : store.Onward store') (member : cache ∈ store.caches) :
    cache ∈ store'.caches := by
  rcases List.mem_cons.1 member with rfl | member
  · rw [caches, onward.head_eq]
    exact List.mem_cons_self
  · exact List.mem_cons_of_mem _ (onward.others.mem member)

theorem trans (first : store.Onward store') (second : store'.Onward last) : store.Onward last where
  head_eq := second.head_eq.trans first.head_eq
  others := first.others.trans second.others
  stocks := fun cache member =>
    (first.stocks cache member).trans (second.stocks cache (first.stays member))

theorem restock (onward : (store.stock cache).Onward stock) :
    store.Onward (store.restock cache stock) where
  head_eq := rfl
  others := List.suffix_rfl
  stocks := by
    intro other _
    rw [stock_restock]
    split
    · next same => exact same ▸ onward
    · exact .refl _

theorem found (absent : cache ∉ store.caches) : store.Onward (store.found cache size) where
  head_eq := rfl
  others := List.suffix_cons cache store.others
  stocks := by
    intro other member
    rw [stock_found_of_mem absent member]
    exact .refl _

end Onward

end Store

namespace BuddyAllocator

variable {buddy after middle : BuddyAllocator} {allocator : SlabAllocator} {store store' : Store}
  {cache size place slab index : Nat} {stock : Stock} {answer : Except AllocFailure Nat}

theorem Served.onward (served : buddy.Served after allocator store cache slab index stock)
    (nodup : (store.stock cache).all.Nodup) :
    store.Onward (store.restock cache (stock.take slab)) := by
  obtain ⟨rest, first⟩ := served.first
  exact .restock (served.readied.onward.trans (.take (served.readied.nodup nodup) first))

theorem Dispensed.onward (dispensed : buddy.Dispensed allocator store cache after store' answer)
    (stocked : buddy.Stocked allocator store) (member : cache ∈ store.caches) :
    store.Onward store' := by
  cases dispensed with
  | refused barren => exact .refl store
  | served served => exact served.onward (stocked.oneReady cache member).nodup

theorem Entered.onward (entered : buddy.Entered middle allocator store size place slab index stock)
    (stocked : buddy.Stocked allocator store) :
    store.Onward ((store.restock store.head (stock.take slab)).found place size) :=
  (entered.served.onward (stocked.oneReady store.head List.mem_cons_self).nodup).trans
    (.found entered.absent)

theorem Founding.onward (founding : buddy.Founding allocator store size after store' answer)
    (stocked : buddy.Stocked allocator store) : store.Onward store' := by
  cases founding with
  | refused barren => exact .refl store
  | unstocked entered absent => exact entered.onward stocked
  | @stocked _ last place slab _ _ home stock entered grown =>
      refine (entered.onward stocked).trans (.restock ?_)
      rw [Store.stock_found_self]
      exact .add ⟨rfl, rfl⟩ Stock.not_mem_bare

/-- Along every course of a request all slabs go one way. -/
theorem Course.onward (course : buddy.Course allocator store size after store' answer)
    (stocked : buddy.Stocked allocator store) : store.Onward store' := by
  cases course with
  | known member size_eq dispensed => exact dispensed.onward stocked member
  | unfounded new founding => exact founding.onward stocked
  | founded new founding dispensed =>
      exact (founding.onward stocked).trans
        (dispensed.onward (founding.stocked_after stocked) founding.made.1)

end BuddyAllocator

namespace SlabAllocator

/--
The later memory has the caches of the earlier one in the ring, new ones in front of the
old but behind the first.  Their slabs have gone from empty to partly full to full if they
have moved at all, those that were full have handed nothing out, and where a cache has a
new slab all its old ones are full.
-/
structure Onward (allocator : SlabAllocator) (ram ram' : Ram) : Prop where
  newest : (allocator.ring ram).tail <:+ (allocator.ring ram').tail
  size_eq : ∀ cache ∈ allocator.ring ram, Cache.objectSize ram' cache = Cache.objectSize ram cache
  listed : ∀ cache ∈ allocator.ring ram, ∀ fill, ∀ slab ∈ Cache.slabs ram cache fill,
    ∃ later, slab ∈ Cache.slabs ram' cache later ∧ fill.rank ≤ later.rank
  full : ∀ cache ∈ allocator.ring ram, ∀ slab ∈ Cache.slabs ram cache .full,
    let capacity := allocator.capacityFor (Cache.objectSize ram cache)
    slab ∈ Cache.slabs ram' cache .full ∧ Slab.chain ram slab capacity <:+
      Slab.chain ram' slab capacity
  grown : ∀ cache ∈ allocator.ring ram, ∀ fill, ∀ slab ∈ Cache.slabs ram' cache fill,
    (∀ fill, slab ∉ Cache.slabs ram cache fill) →
      ∀ fill, ∀ old ∈ Cache.slabs ram cache fill, old ∈ Cache.slabs ram' cache .full

variable {allocator : SlabAllocator} {ram ram' last : Ram} {cache : Nat}

theorem ring_eq_cons (allocator : SlabAllocator) (ram : Ram) :
    allocator.ring ram = allocator.head :: (allocator.ring ram).tail :=
  rfl

namespace Onward

theorem stays (onward : allocator.Onward ram ram') (member : cache ∈ allocator.ring ram) :
    cache ∈ allocator.ring ram' := by
  rw [ring_eq_cons] at member ⊢
  rcases List.mem_cons.1 member with rfl | member
  · exact List.mem_cons_self
  · exact List.mem_cons_of_mem _ (onward.newest.mem member)

theorem refl (allocator : SlabAllocator) (ram : Ram) : allocator.Onward ram ram where
  newest := List.suffix_rfl
  size_eq := fun _ _ => rfl
  listed := fun _ _ fill _ member => ⟨fill, member, Nat.le_refl _⟩
  full := fun _ _ _ member => ⟨member, List.suffix_rfl⟩
  grown := fun _ _ fill _ member absent => absurd member (absent fill)

theorem trans (first : allocator.Onward ram ram') (second : allocator.Onward ram' last) :
    allocator.Onward ram last where
  newest := first.newest.trans second.newest
  size_eq := fun cache there =>
    (second.size_eq cache (first.stays there)).trans (first.size_eq cache there)
  listed := by
    intro cache there fill slab member
    obtain ⟨later, listed, rank⟩ := first.listed cache there fill slab member
    obtain ⟨latest, listed, rank'⟩ := second.listed cache (first.stays there) later slab listed
    exact ⟨latest, listed, Nat.le_trans rank rank'⟩
  full := by
    intro cache there slab member
    obtain ⟨listed, grows⟩ := first.full cache there slab member
    have later := second.full cache (first.stays there) slab listed
    rw [first.size_eq cache there] at later
    exact ⟨later.1, grows.trans later.2⟩
  grown := by
    intro cache there fill slab member absent list old listed
    by_cases early : ∃ fill, slab ∈ Cache.slabs ram' cache fill
    · obtain ⟨fill, early⟩ := early
      have full := first.grown cache there fill slab early absent list old listed
      exact (second.full cache (first.stays there) old full).1
    · obtain ⟨later, listed, -⟩ := first.listed cache there list old listed
      exact second.grown cache (first.stays there) fill slab member
        (fun fill there => early ⟨fill, there⟩) later old listed

end Onward

end SlabAllocator

namespace BuddyAllocator.Stocked

variable {buddy after : BuddyAllocator} {allocator : SlabAllocator} {store store' : Store}
  {cache slab : Nat}

theorem onward (stocked : buddy.Stocked allocator store) (stocked' : after.Stocked allocator store')
    (onward : store.Onward store') : allocator.Onward buddy.ram after.ram := by
  have size : ∀ cache ∈ store.caches, Cache.objectSize after.ram cache =
      Cache.objectSize buddy.ram cache := fun cache there => by
    rw [(stocked'.kept cache (onward.stays there)).size_eq, (stocked.kept cache there).size_eq]
    exact (onward.stocks cache there).size_eq
  have lists : ∀ cache ∈ store.caches, ∀ fill,
      Cache.slabs after.ram cache fill = (store'.stock cache).slabs fill :=
    fun cache there => stocked'.slabs_eq (onward.stays there)
  refine ⟨?_, ?_, ?_, ?_, ?_⟩
  · rw [stocked.ring_eq, stocked'.ring_eq]
    exact onward.others
  · rw [stocked.ring_eq]
    exact size
  · rw [stocked.ring_eq]
    intro cache there fill
    rw [stocked.slabs_eq there]
    simp only [lists cache there]
    exact (onward.stocks cache there).listed fill
  · rw [stocked.ring_eq]
    intro cache there slab
    rw [stocked.slabs_eq there, lists cache there]
    intro member
    have later := (onward.stocks cache there).stays_full member
    refine ⟨later, ?_⟩
    have chain := stocked'.chain_eq (onward.stays there) (Stock.mem_all later)
    rw [size cache there] at chain
    rw [stocked.chain_eq there (Stock.mem_all member), chain]
    exact (onward.stocks cache there).full slab member
  · rw [stocked.ring_eq]
    intro cache there fill slab
    simp only [stocked.slabs_eq there, lists cache there]
    intro member absent list old listed
    refine (onward.stocks cache there).grown slab (Stock.mem_all member) (fun early => ?_) old
      (Stock.mem_all listed)
    obtain ⟨fill, early⟩ := Stock.mem_all_iff.1 early
    exact absent fill early

end BuddyAllocator.Stocked

end PhysicalMemory
