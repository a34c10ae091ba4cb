import PhysicalMemory.Proofs.Slab.Count
import PhysicalMemory.Proofs.Slab.Supply

/-!
# Objects in the order of the chain

The chain of a slab is a stack: an object that was given back is the first one that the
slab hands out again.  So taking it undoes giving it back, and giving it back undoes
taking it, unless it was the last one, with which the slab goes to the full ones for good.
The one slab that is partly full serves all requests of its cache, and what there is in memory
of a cache is told by its stock.
-/

namespace PhysicalMemory

namespace Slab

theorem ListsFree.cursor_eq {ram : Ram} {slab capacity : Nat} {free : List Nat}
    (keeps : ListsFree ram slab capacity free) : cursor ram slab = free.headD endMark := by
  have leads := keeps.leads
  cases free with
  | nil => exact leads
  | cons first rest => exact leads.1

end Slab

namespace Stock

variable {stock : Stock} {pageSize slab index : Nat} {free free' others : List Nat}

theorem chain_chain : (stock.chain slab free).chain slab free' = stock.chain slab free' := by
  simp only [chain, Function.update_idem]

theorem chain_self (stock : Stock) (slab : Nat) : stock.chain slab (stock.free slab) = stock := by
  simp only [chain, Function.update_eq_self]

theorem take_give (some : stock.free slab ≠ []) : (stock.give slab index).take slab = stock := by
  have chained : (stock.give slab index).free slab = index :: stock.free slab := by
    rw [give, free_chain, if_pos rfl]
  rw [take_more (by rwa [chained]), chained, List.tail_cons, give, chain_chain, chain_self]

/-- What was handed out can be given back, if it was not the last that the slab had. -/
theorem give_take (first : stock.free slab = index :: others) (more : others ≠ []) :
    (stock.take slab).give slab index = stock := by
  have tail : (stock.free slab).tail = others := by rw [first, List.tail_cons]
  rw [take_more (by rwa [tail]), tail, give, chain_chain, free_chain, if_pos rfl, ← first,
    chain_self]

theorem OneReady.alone (oneReady : stock.OneReady pageSize) (partly : slab ∈ stock.slabs .partly) :
    stock.slabs .partly = [slab] ∧ stock.slabs .empty = [] := by
  have single := oneReady.single
  have positive := List.length_pos_of_mem partly
  obtain ⟨other, only⟩ := List.length_eq_one_iff.1 (by omega : (stock.slabs .partly).length = 1)
  rw [only, List.mem_singleton] at partly
  exact ⟨by rw [only, partly], List.length_eq_zero_iff.1 (by omega)⟩

end Stock

namespace BuddyAllocator

structure Continued (buddy after : BuddyAllocator) (allocator : SlabAllocator) (store : Store)
    (cache slab index : Nat) : Prop where
  zones_eq : after.zones = buddy.zones
  pages_eq : after.pages = buddy.pages
  served : buddy.Served after allocator store cache slab index (store.stock cache)

variable {buddy after : BuddyAllocator} {allocator : SlabAllocator} {store store' : Store}
  {cache slab index size : Nat} {others : List Nat} {answer : Except AllocFailure Nat}

/-- Asking a cache with a partly full slab gives the slab's first free object. -/
theorem Dispensed.continued
    (dispensed : buddy.Dispensed allocator store cache after store' answer)
    (oneReady : (store.stock cache).OneReady buddy.geometry.size)
    (partly : slab ∈ (store.stock cache).slabs .partly)
    (free : (store.stock cache).free slab = index :: others) :
    answer = .ok ((store.stock cache).slot buddy.geometry.size slab index) ∧
      buddy.Continued after allocator store cache slab index := by
  obtain ⟨first, empty⟩ := oneReady.alone partly
  cases dispensed with
  | refused barren => exact absurd barren.1.1 (List.ne_nil_of_mem partly)
  | @served slab' index' stock after served =>
      have opened := served.opened
      cases opened with
      | new none fresh grown agrees => exact absurd none.1 (List.ne_nil_of_mem partly)
      | @old ram agrees =>
          rw [Stock.promote_nil empty] at served
          obtain ⟨rest, first'⟩ := served.first
          obtain ⟨others', free'⟩ := served.free
          obtain rfl : slab' = slab := (List.cons.inj (first'.symm.trans first)).1
          obtain rfl : index' = index := (List.cons.inj (free'.symm.trans free)).1
          exact ⟨rfl, rfl, rfl, served⟩

/-- So does asking for the size of the cache's objects. -/
theorem Course.continued (course : buddy.Course allocator store size after store' answer)
    (stocked : buddy.Stocked allocator store) (member : cache ∈ store.caches)
    (size_eq : (store.stock cache).size = size) (partly : slab ∈ (store.stock cache).slabs .partly)
    (free : (store.stock cache).free slab = index :: others) :
    answer = .ok ((store.stock cache).slot buddy.geometry.size slab index) ∧
      buddy.Continued after allocator store cache slab index := by
  cases course with
  | @known other _ _ _ member' size_eq' dispensed =>
      obtain rfl : other = cache :=
        List.inj_on_of_nodup_map stocked.sizes member' member (size_eq'.trans size_eq.symm)
      exact dispensed.continued (stocked.oneReady other member) partly free
  | unfounded new founding => exact absurd size_eq (new cache member)
  | founded new founding dispensed => exact absurd size_eq (new cache member)

/-- All of the object that was handed out may be used by one more. -/
theorem Continued.seated {records objects : List Seat}
    (continued : buddy.Continued after allocator store cache slab index)
    (stocked : buddy.Stocked allocator store) (member : cache ∈ store.caches)
    (seated : store.Seated buddy.geometry.size records objects) :
    let store' := store.restock cache ((store.stock cache).take slab)
    let seat : Seat := ⟨slab, index, (store.stock cache).extent buddy.geometry.size slab index⟩
    store'.Seated buddy.geometry.size records (seat :: objects) ∧
      seat.Inside (store'.stock cache) buddy.geometry.size := by
  have served := continued.served
  have sized := stocked.sized cache member
  refine ⟨seated.cons (served.tenanted member seated.tenanted sized (Nat.le_refl _)
    (Nat.le_refl _)) rfl, ?_⟩
  rw [Store.stock_restock_self]
  have slot : ((store.stock cache).take slab).slot buddy.geometry.size slab index = _ :=
    Stock.slot_congr served.size_eq
  refine ⟨(served.held_iff slab index).2 (.inr ⟨rfl, rfl⟩), sized, Nat.le_of_eq slot, ?_⟩
  rw [slot, served.size_eq]
  exact Nat.le_refl _

end BuddyAllocator

/--
Two memories say the same of the caches: which there are, what slabs each of them has, in what
order, and which objects of these slabs are free, in what order.
-/
structure SlabAllocator.Alike (allocator : SlabAllocator) (ram ram' : Ram) : Prop where
  ring_eq : allocator.ring ram' = allocator.ring ram
  caches : ∀ cache ∈ allocator.ring ram,
    Cache.objectSize ram' cache = Cache.objectSize ram cache ∧
    Cache.handedOut ram' cache = Cache.handedOut ram cache ∧
    ∀ fill, Cache.slabs ram' cache fill = Cache.slabs ram cache fill
  slabs : ∀ cache ∈ allocator.ring ram, ∀ fill, ∀ slab ∈ Cache.slabs ram cache fill,
    let capacity := allocator.capacityFor (Cache.objectSize ram cache)
    Slab.cursor ram' slab = Slab.cursor ram slab ∧
    Slab.handedOut ram' slab = Slab.handedOut ram slab ∧
    Slab.chain ram' slab capacity = Slab.chain ram slab capacity

theorem BuddyAllocator.Stocked.alike {buddy after : BuddyAllocator} {allocator : SlabAllocator}
    {store : Store} (stocked : buddy.Stocked allocator store)
    (stocked' : after.Stocked allocator store) : allocator.Alike buddy.ram after.ram where
  ring_eq := stocked'.ring_eq.trans stocked.ring_eq.symm
  caches := by
    intro cache listed
    have member : cache ∈ store.caches := stocked.ring_eq ▸ listed
    have geometry := stocked'.page_eq.symm.trans stocked.page_eq
    refine ⟨?_, ?_, fun fill => ?_⟩
    · exact (stocked'.kept cache member).size_eq.trans (stocked.kept cache member).size_eq.symm
    · rw [stocked'.handedOut_eq member, stocked.handedOut_eq member, geometry]
    · exact (stocked'.slabs_eq member fill).trans (stocked.slabs_eq member fill).symm
  slabs := by
    intro cache listed fill slab there
    have member : cache ∈ store.caches := stocked.ring_eq ▸ listed
    have kept := stocked.kept cache member
    have kept' := stocked'.kept cache member
    rw [stocked.slabs_eq member] at there
    have keeps := kept.keeps slab (Stock.mem_all there)
    have keeps' := kept'.keeps slab (Stock.mem_all there)
    rw [← stocked'.page_eq, stocked.page_eq] at keeps'
    dsimp only
    rw [stocked.capacityFor_eq member]
    refine ⟨?_, ?_, ?_⟩
    · exact keeps'.cursor_eq.trans keeps.cursor_eq.symm
    · exact keeps'.handedOut_eq.trans keeps.handedOut_eq.symm
    · exact keeps'.chain_eq.trans keeps.chain_eq.symm

end PhysicalMemory
