import PhysicalMemory.Proofs.Slab.Seats

/-!
# Counting what is handed out

Each slab counts the objects that it has handed out, which are those that its chain
leaves out.  A cache has handed out what its slabs have, list by list.  The objects of
the first cache are those that hold the record of another cache and those in use.
-/

namespace PhysicalMemory

theorem Slab.ListsFree.handedOut_eq {ram : Ram} {slab capacity : Nat} {free : List Nat}
    (keeps : Slab.ListsFree ram slab capacity free) :
    Slab.handedOut ram slab = ((List.range (room capacity)).filter (· ∉ free)).length := by
  have listed : ((List.range (room capacity)).filter (· ∈ free)).Perm free := by
    refine (List.perm_ext_iff_of_nodup (List.nodup_range.filter _) keeps.nodup).2 fun index => ?_
    rw [List.mem_filter, List.mem_range, decide_eq_true_iff]
    exact and_iff_right_of_imp (keeps.below index)
  have total := (List.filter_append_perm (fun index => decide (index ∈ free))
    (List.range (room capacity))).length_eq
  simp only [List.length_append, listed.length_eq, List.length_range, ← decide_not] at total
  have counted := keeps.counted
  omega

namespace Stock

variable {stock : Stock} {ram : Ram} {pageSize cache slab index : Nat}

def out (stock : Stock) (pageSize : Nat) : List (Nat × Nat) :=
  stock.all.flatMap fun slab =>
    ((List.range (Slab.room (stock.capacity pageSize))).filter (· ∉ stock.free slab)).map
      (Prod.mk slab)

theorem mem_out_iff : (slab, index) ∈ stock.out pageSize ↔ stock.Held pageSize slab index := by
  simp only [out, List.mem_flatMap, List.mem_map, List.mem_filter, List.mem_range,
    decide_eq_true_eq, Held, Prod.mk.injEq]
  constructor
  · rintro ⟨other, listed, place, ⟨below, absent⟩, rfl, rfl⟩
    exact ⟨listed, below, absent⟩
  · rintro ⟨listed, below, absent⟩
    exact ⟨slab, listed, index, ⟨below, absent⟩, rfl, rfl⟩

theorem nodup_out (nodup : stock.all.Nodup) : (stock.out pageSize).Nodup := by
  rw [out, List.nodup_flatMap]
  refine ⟨fun slab _ => ?_, ?_⟩
  · exact (List.nodup_range.filter _).map fun _ _ same => (Prod.mk.inj same).2
  · refine (List.nodup_iff_pairwise_ne.1 nodup).imp fun {slab other} distinct pair here there => ?_
    obtain ⟨place, -, rfl⟩ := List.mem_map.1 here
    obtain ⟨place', -, same⟩ := List.mem_map.1 there
    exact distinct (Prod.mk.inj same).1.symm

theorem RecordedIn.length_out (kept : stock.RecordedIn ram pageSize cache) :
    (stock.out pageSize).length = (stock.all.map (Slab.handedOut ram)).sum := by
  rw [out, List.length_flatMap]
  refine congrArg List.sum (List.map_congr_left fun slab listed => ?_)
  rw [List.length_map, (kept.keeps slab listed).handedOut_eq, capacity]

end Stock

namespace BuddyAllocator.Stocked

variable {buddy : BuddyAllocator} {allocator : SlabAllocator} {store : Store} {cache : Nat}
  {seat : Seat} {records objects : List Seat}

theorem handedOut_eq (stocked : buddy.Stocked allocator store) (member : cache ∈ store.caches) :
    Cache.handedOut buddy.ram cache =
      ((store.stock cache).out buddy.geometry.size).length := by
  have slabs : Fill.all.flatMap (Cache.slabs buddy.ram cache) = (store.stock cache).all :=
    congrArg (Fill.all.flatMap ·) (funext (stocked.slabs_eq member))
  rw [(stocked.kept cache member).length_out, Cache.handedOut, slabs, List.sum_eq_foldl,
    List.foldl_map]

theorem inside_of_record (stocked : buddy.Stocked allocator store)
    (seated : store.Seated buddy.geometry.size records objects) (there : seat ∈ records) :
    seat.Inside (store.stock store.head) buddy.geometry.size := by
  obtain ⟨cache, member, inside⟩ :=
    seated.tenanted.seated seat (List.mem_append_left objects there)
  have extent : seat.extent ∈ store.others.map Cache.extent := by
    rw [← seated.extents]
    exact List.mem_map_of_mem there
  obtain ⟨record, listed, same⟩ := List.mem_map.1 extent
  obtain ⟨home, inside', above, below⟩ := stocked.inHeadSlab record listed
  have bounds := stocked.seat_bounds member inside
  rw [← same] at bounds
  -- the record lies in one page only
  have slab_eq : home = seat.slab := by
    by_contra distinct
    have apart := stocked.slabs_apart List.mem_cons_self member inside' inside.held.1 distinct
    simp only [Cache.extent, CacheRecord.size] at bounds below
    omega
  rw [slab_eq] at inside'
  obtain rfl := stocked.cache_unique member List.mem_cons_self inside.held.1 inside'
  exact inside

/-- The first cache has handed out an object for each record and those that are in use. -/
theorem handedOut_head (stocked : buddy.Stocked allocator store)
    (seated : store.Seated buddy.geometry.size records objects) :
    Cache.handedOut buddy.ram store.head = store.others.length +
      objects.countP fun seat => seat.slab ∈ (store.stock store.head).all := by
  have tenanted := seated.tenanted
  have oneReady := stocked.oneReady store.head List.mem_cons_self
  have all : ((store.stock store.head).out buddy.geometry.size).Perm
      (((records ++ objects).filter fun seat =>
        seat.slab ∈ (store.stock store.head).all).map Seat.object) := by
    refine (List.perm_ext_iff_of_nodup (Stock.nodup_out oneReady.nodup)
      (tenanted.nodup.sublist (List.filter_sublist.map _))).2 ?_
    rintro ⟨slab, index⟩
    simp only [Stock.mem_out_iff, List.mem_map, List.mem_filter, decide_eq_true_iff]
    constructor
    · intro held
      obtain ⟨seat, there, same⟩ :=
        List.mem_map.1 (tenanted.occupied store.head List.mem_cons_self slab index held)
      refine ⟨seat, ⟨there, ?_⟩, same⟩
      rw [show seat.slab = slab from congrArg Prod.fst same]
      exact held.1
    · rintro ⟨seat, ⟨there, listed⟩, same⟩
      obtain ⟨rfl, rfl⟩ := Prod.mk.inj same
      obtain ⟨cache, member, inside⟩ := tenanted.seated seat there
      obtain rfl := stocked.cache_unique member List.mem_cons_self inside.held.1 listed
      exact inside.held
  have every : records.countP (fun seat => decide (seat.slab ∈ (store.stock store.head).all)) =
      records.length :=
    List.countP_eq_length.2 fun seat there =>
      decide_eq_true (stocked.inside_of_record seated there).held.1
  have length := congrArg List.length seated.extents
  rw [List.length_map, List.length_map] at length
  rw [stocked.handedOut_eq List.mem_cons_self, all.length_eq, List.length_map,
    ← List.countP_eq_length_filter, List.countP_append, every, length]

end BuddyAllocator.Stocked

end PhysicalMemory
