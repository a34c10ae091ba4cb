import PhysicalMemory.Proofs.Slab.Serve

/-!
# Objects in use

Whoever uses an object has a seat: a number of bytes in an object that some slab
has handed out.  Every object that was handed out has its seat.  No two seats are
in the same object, so no two share a byte, and no seat shares one with the
records, with the metadata of a slab or with a free page.  The records of the
caches behind the first have seats themselves, next to those of the objects that
were allocated.
-/

namespace PhysicalMemory

structure Extent where
  start : Nat
  size : Nat
  deriving DecidableEq

namespace Extent

def Apart (first second : Extent) : Prop :=
  first.start + first.size ≤ second.start ∨ second.start + second.size ≤ first.start

theorem Apart.symm {first second : Extent} (apart : first.Apart second) : second.Apart first :=
  Or.symm apart

theorem Apart.start_ne {first second : Extent} (apart : first.Apart second)
    (positive : 0 < first.size) (positive' : 0 < second.size) : first.start ≠ second.start := by
  simp only [Apart] at apart
  omega

end Extent

def Cache.extent (cache : Nat) : Extent :=
  ⟨cache, CacheRecord.size⟩

def Stock.extent (stock : Stock) (pageSize slab index : Nat) : Extent :=
  ⟨stock.slot pageSize slab index, stock.size⟩

structure Seat where
  slab : Nat
  index : Nat
  extent : Extent
  deriving DecidableEq

namespace Seat

def object (seat : Seat) : Nat × Nat :=
  (seat.slab, seat.index)

/-- The seat is in an object that a slab of the stock has handed out. -/
structure Inside (seat : Seat) (stock : Stock) (pageSize : Nat) : Prop where
  held : stock.Held pageSize seat.slab seat.index
  positive : 0 < seat.extent.size
  low : stock.slot pageSize seat.slab seat.index ≤ seat.extent.start
  high : seat.extent.start + seat.extent.size ≤
    stock.slot pageSize seat.slab seat.index + stock.size

variable {seat : Seat} {stock stock' : Stock} {pageSize : Nat}

theorem Inside.congr (inside : seat.Inside stock pageSize) (size : stock'.size = stock.size)
    (held : stock'.Held pageSize seat.slab seat.index) : seat.Inside stock' pageSize := by
  refine ⟨held, inside.positive, ?_, ?_⟩
  · rw [Stock.slot_congr size]
    exact inside.low
  · rw [Stock.slot_congr size, size]
    exact inside.high

end Seat

namespace Store

structure Tenanted (store : Store) (pageSize : Nat) (seats : List Seat) : Prop where
  seated : ∀ seat ∈ seats, ∃ cache ∈ store.caches, seat.Inside (store.stock cache) pageSize
  nodup : (seats.map Seat.object).Nodup
  occupied : ∀ cache ∈ store.caches, ∀ slab index,
    (store.stock cache).Held pageSize slab index → (slab, index) ∈ seats.map Seat.object

/-- Every cache is still there and has out just what it had, and a new cache has nothing out. -/
structure Retains (store store' : Store) (pageSize : Nat) : Prop where
  stays : ∀ cache ∈ store.caches, cache ∈ store'.caches
  size_eq : ∀ cache ∈ store.caches, (store'.stock cache).size = (store.stock cache).size
  held_iff : ∀ cache ∈ store.caches, ∀ slab index,
    (store'.stock cache).Held pageSize slab index ↔ (store.stock cache).Held pageSize slab index
  bare : ∀ cache ∈ store'.caches, cache ∉ store.caches → ∀ slab index,
    ¬ (store'.stock cache).Held pageSize slab index

/-- The caches behind the first have seats for their records, and the others are for objects. -/
structure Seated (store : Store) (pageSize : Nat) (records objects : List Seat) : Prop where
  tenanted : store.Tenanted pageSize (records ++ objects)
  extents : records.map Seat.extent = store.others.map Cache.extent

variable {store store' : Store} {pageSize cache size : Nat} {stock : Stock}
  {seat : Seat} {seats seats' records objects : List Seat}

theorem retains_add {fill : Fill} {slab : Nat} (fresh : slab ∉ (store.stock cache).all) :
    store.Retains (store.restock cache ((store.stock cache).add fill slab
      (List.range (Slab.room ((store.stock cache).capacity pageSize))))) pageSize where
  stays := fun _ member => member
  size_eq := fun other _ => size_restock Stock.size_add other
  held_iff := by
    intro other member slab index
    rw [stock_restock]
    split
    · next same =>
        subst same
        exact Stock.held_add_fresh fresh
    · rfl
  bare := fun _ member absent => absurd member absent

theorem retains_found (absent : cache ∉ store.caches) :
    store.Retains (store.found cache size) pageSize where
  stays := fun _ member => mem_caches_found.2 (.inl member)
  size_eq := fun _ member => by rw [stock_found_of_mem absent member]
  held_iff := fun _ member _ _ => by rw [stock_found_of_mem absent member]
  bare := by
    intro other member new slab index held
    obtain rfl := (mem_caches_found.1 member).resolve_left new
    rw [stock_found_self] at held
    exact Stock.not_mem_bare held.1

namespace Tenanted

theorem mono (tenanted : store.Tenanted pageSize seats) (retains : store.Retains store' pageSize) :
    store'.Tenanted pageSize seats where
  seated := by
    intro seat member
    obtain ⟨cache, there, inside⟩ := tenanted.seated seat member
    exact ⟨cache, retains.stays cache there, inside.congr (retains.size_eq cache there)
      ((retains.held_iff cache there _ _).2 inside.held)⟩
  nodup := tenanted.nodup
  occupied := by
    intro cache there slab index held
    by_cases old : cache ∈ store.caches
    · exact tenanted.occupied cache old slab index ((retains.held_iff cache old _ _).1 held)
    · exact absurd held (retains.bare cache there old slab index)

theorem perm (tenanted : store.Tenanted pageSize seats) (same : seats'.Perm seats) :
    store.Tenanted pageSize seats' where
  seated := fun seat member => tenanted.seated seat (same.mem_iff.1 member)
  nodup := (same.map Seat.object).nodup_iff.2 tenanted.nodup
  occupied := fun cache there slab index held =>
    (same.map Seat.object).mem_iff.2 (tenanted.occupied cache there slab index held)

end Tenanted

namespace Seated

theorem mono (seated : store.Seated pageSize records objects)
    (retains : store.Retains store' pageSize) (others : store'.others = store.others) :
    store'.Seated pageSize records objects :=
  ⟨seated.tenanted.mono retains, by rw [others]; exact seated.extents⟩

/-- An object that was handed out gets a seat beside the others. -/
theorem cons (seated : store.Seated pageSize records objects)
    (tenanted : store'.Tenanted pageSize (seat :: (records ++ objects)))
    (others : store'.others = store.others) :
    store'.Seated pageSize records (seat :: objects) :=
  ⟨tenanted.perm List.perm_middle, by rw [others]; exact seated.extents⟩

/-- The record of a new cache gets a seat in front of the other records. -/
theorem found (seated : store.Seated pageSize records objects)
    (tenanted : store'.Tenanted pageSize (seat :: (records ++ objects)))
    (others : store'.others = seat.extent.start :: store.others)
    (size : seat.extent.size = CacheRecord.size) :
    store'.Seated pageSize (seat :: records) objects := by
  refine ⟨tenanted, ?_⟩
  rw [others, List.map_cons, List.map_cons, seated.extents, Cache.extent, ← size]

end Seated

end Store

namespace BuddyAllocator

namespace Stocked

variable {buddy after : BuddyAllocator} {allocator : SlabAllocator} {store : Store}
  {cache other slab index : Nat} {stock : Stock} {seat seat' : Seat}
  {seats records objects : List Seat}

/-- A seat lies behind the metadata of its slab and in its page. -/
theorem seat_bounds (stocked : buddy.Stocked allocator store) (member : cache ∈ store.caches)
    (inside : seat.Inside (store.stock cache) buddy.geometry.size) :
    seat.slab + Slab.metadataSize ((store.stock cache).capacity buddy.geometry.size) ≤
        seat.extent.start ∧
      seat.extent.start + seat.extent.size ≤ seat.slab + buddy.geometry.size := by
  have below : seat.index < (store.stock cache).capacity buddy.geometry.size :=
    Nat.lt_of_lt_of_le inside.held.2.1 (Slab.room_le _)
  obtain ⟨low, high⟩ := (stocked.placed member).slot_bounds seat.slab below
  exact ⟨Nat.le_trans low inside.low, Nat.le_trans inside.high high⟩

/-- Seats in different objects have no byte in common. -/
theorem seats_apart (stocked : buddy.Stocked allocator store) (member : cache ∈ store.caches)
    (member' : other ∈ store.caches)
    (inside : seat.Inside (store.stock cache) buddy.geometry.size)
    (inside' : seat'.Inside (store.stock other) buddy.geometry.size)
    (distinct : seat.object ≠ seat'.object) : seat.extent.Apart seat'.extent := by
  have bounds := stocked.seat_bounds member inside
  have bounds' := stocked.seat_bounds member' inside'
  by_cases same : seat.slab = seat'.slab
  · have there := inside'.held.1
    rw [← same] at there
    obtain rfl := stocked.cache_unique member member' inside.held.1 there
    have differs : seat.index ≠ seat'.index := fun equal =>
      distinct (Prod.ext same equal)
    have apart := @Stock.slot_apart (store.stock cache) buddy.geometry.size seat.slab _ _ differs
    have low := inside'.low
    have high := inside'.high
    rw [← same] at low high
    rcases apart with lower | higher
    · exact .inl (Nat.le_trans inside.high (Nat.le_trans lower low))
    · exact .inr (Nat.le_trans high (Nat.le_trans higher inside.low))
  · have apart := stocked.slabs_apart member member' inside.held.1 inside'.held.1 same
    simp only [Extent.Apart]
    omega

theorem pairwise_apart (stocked : buddy.Stocked allocator store)
    (tenanted : store.Tenanted buddy.geometry.size seats) :
    (seats.map Seat.extent).Pairwise Extent.Apart := by
  rw [List.pairwise_map]
  refine (List.pairwise_map.1 (List.nodup_iff_pairwise_ne.1 tenanted.nodup)).imp_of_mem
    fun {seat seat'} there there' distinct => ?_
  obtain ⟨cache, member, inside⟩ := tenanted.seated seat there
  obtain ⟨other, member', inside'⟩ := tenanted.seated seat' there'
  exact stocked.seats_apart member member' inside inside' distinct

/-- No seat has a byte in common with the metadata of a slab. -/
theorem seat_beside (stocked : buddy.Stocked allocator store) (member : cache ∈ store.caches)
    (inside : seat.Inside (store.stock cache) buddy.geometry.size) (member' : other ∈ store.caches)
    (listed : slab ∈ (store.stock other).all) :
    seat.extent.Apart
      ⟨slab, Slab.metadataSize ((store.stock other).capacity buddy.geometry.size)⟩ := by
  have bounds := stocked.seat_bounds member inside
  have small := stocked.metadata_le member'
  by_cases same : seat.slab = slab
  · subst same
    obtain rfl := stocked.cache_unique member member' inside.held.1 listed
    exact .inr bounds.1
  · have apart := stocked.slabs_apart member member' inside.held.1 listed same
    simp only [Extent.Apart]
    omega

theorem seat_in_heap (stocked : buddy.Stocked allocator store) (member : cache ∈ store.caches)
    (inside : seat.Inside (store.stock cache) buddy.geometry.size) :
    (buddy.zones.get .heap).start ≤ seat.extent.start ∧ seat.extent.start + seat.extent.size ≤
      (buddy.zones.get .heap).start + (buddy.zones.get .heap).size := by
  have bounds := stocked.seat_bounds member inside
  have page := stocked.slab_bounds member inside.held.1
  omega

theorem seat_above_head (stocked : buddy.Stocked allocator store) (member : cache ∈ store.caches)
    (inside : seat.Inside (store.stock cache) buddy.geometry.size) :
    (Cache.extent store.head).Apart seat.extent := by
  have bounds := stocked.seat_in_heap member inside
  have low := stocked.head_low
  exact .inl (Nat.le_trans low bounds.1)

theorem seats_beside_records (stocked : buddy.Stocked allocator store)
    (seated : store.Seated buddy.geometry.size records objects) (there : seat ∈ objects)
    (member : cache ∈ store.caches) : (Cache.extent cache).Apart seat.extent := by
  rcases List.mem_cons.1 member with rfl | member
  · obtain ⟨other, member', inside⟩ :=
      seated.tenanted.seated seat (List.mem_append_right _ there)
    exact stocked.seat_above_head member' inside
  · have apart := stocked.pairwise_apart seated.tenanted
    rw [List.map_append, List.pairwise_append] at apart
    refine apart.2.2 _ ?_ _ (List.mem_map_of_mem there)
    rw [seated.extents]
    exact List.mem_map_of_mem member

end Stocked

namespace Served

variable {buddy after : BuddyAllocator} {allocator : SlabAllocator} {store : Store}
  {cache slab index : Nat} {stock : Stock} {seats : List Seat} {extent : Extent}

variable (served : buddy.Served after allocator store cache slab index stock)

include served

theorem size_eq : (stock.take slab).size = (store.stock cache).size :=
  (Stock.size_take stock slab).trans served.readied.size_eq

theorem held_iff (other place : Nat) :
    (stock.take slab).Held buddy.geometry.size other place ↔
      (store.stock cache).Held buddy.geometry.size other place ∨
        (other = slab ∧ place = index) := by
  obtain ⟨rest, first⟩ := served.first
  obtain ⟨others, free⟩ := served.free
  have keeps := served.keeps
  rw [free] at keeps
  rw [Stock.held_take (Stock.mem_all (by rw [first]; exact List.mem_cons_self)) free keeps.1
    keeps.2, served.readied.held_iff]

theorem not_held : ¬ (store.stock cache).Held buddy.geometry.size slab index := by
  intro held
  obtain ⟨others, free⟩ := served.free
  have taken := ((served.readied.held_iff slab index).2 held).2.2
  rw [free] at taken
  exact taken List.mem_cons_self

theorem within (other : Nat) {slab' index' : Nat}
    (held : (store.stock other).Held buddy.geometry.size slab' index') :
    ((store.restock cache (stock.take slab)).stock other).Held buddy.geometry.size slab'
      index' := by
  rw [Store.stock_restock]
  split
  · next same =>
      subst same
      exact (served.held_iff slab' index').2 (.inl held)
  · exact held

/-- The object that was handed out may be used by one more. -/
theorem tenanted (member : cache ∈ store.caches)
    (tenanted : store.Tenanted buddy.geometry.size seats) (positive : 0 < extent.size)
    (low : (store.stock cache).slot buddy.geometry.size slab index ≤ extent.start)
    (high : extent.start + extent.size ≤
      (store.stock cache).slot buddy.geometry.size slab index + (store.stock cache).size) :
    (store.restock cache (stock.take slab)).Tenanted buddy.geometry.size
      (⟨slab, index, extent⟩ :: seats) := by
  have here : (store.restock cache (stock.take slab)).stock cache = stock.take slab := by
    rw [Store.stock_restock_self]
  have held : (stock.take slab).Held buddy.geometry.size slab index :=
    (served.held_iff slab index).2 (.inr ⟨rfl, rfl⟩)
  refine ⟨fun seat there => ?_, List.nodup_cons.2 ⟨fun there => ?_, tenanted.nodup⟩,
    fun other member' slab' index' held' => ?_⟩
  · rcases List.mem_cons.1 there with rfl | there
    · refine ⟨cache, member, ?_⟩
      rw [here]
      have slot := @Stock.slot_congr _ _ buddy.geometry.size slab index served.size_eq
      exact ⟨held, positive, by rw [slot]; exact low,
        by rw [slot, served.size_eq]; exact high⟩
    · obtain ⟨other, member', inside⟩ := tenanted.seated seat there
      exact ⟨other, member', inside.congr (Store.size_restock served.size_eq other)
        (served.within other inside.held)⟩
  · obtain ⟨seat, old, object_eq⟩ := List.mem_map.1 there
    obtain ⟨rfl, rfl⟩ := Prod.mk.inj object_eq
    -- the seat would be in an object of the same slab, hence of the same cache
    obtain ⟨other, member', inside⟩ := tenanted.seated seat old
    have own : seat.slab ∈ ((store.restock cache (stock.take seat.slab)).stock cache).all := by
      rw [here]
      exact held.1
    obtain rfl := served.stocked.cache_unique member' member
      (served.within other inside.held).1 own
    exact served.not_held inside.held
  · rw [List.map_cons, List.mem_cons]
    rw [Store.stock_restock] at held'
    split at held'
    · rcases (served.held_iff slab' index').1 held' with old | ⟨rfl, rfl⟩
      · exact .inr (tenanted.occupied cache member slab' index' old)
      · exact .inl rfl
    · exact .inr (tenanted.occupied other member' slab' index' held')

end Served

end BuddyAllocator

end PhysicalMemory
