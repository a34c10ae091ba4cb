import PhysicalMemory.Manager.Pages
import PhysicalMemory.Proofs.Buddy.Conservation
import PhysicalMemory.Proofs.Manager.Lending

/-!
# What is live

The live allocations of both tiers are the seats in objects and the blocks that
are lent.  Together with the records of the caches they are all that anybody
uses, and no byte of a live allocation belongs to a second one, to a record, to
the metadata of a slab or to a free block.  What the page tier had at some origin
for good it has still.
-/

namespace PhysicalMemory

def Zone.extent (zone : Zone) : Extent :=
  ⟨zone.start, zone.size⟩

def Slab.metadata (slab capacity : Nat) : Extent :=
  ⟨slab, metadataSize capacity⟩

def Slab.slot (ram : Ram) (slab size index : Nat) : Extent :=
  ⟨objects ram slab + index * size, size⟩

theorem Stock.RecordedIn.slot_eq {stock : Stock} {ram : Ram} {pageSize cache slab : Nat}
    (kept : stock.RecordedIn ram pageSize cache) (listed : slab ∈ stock.all) (index : Nat) :
    Slab.slot ram slab stock.size index = stock.extent pageSize slab index := by
  rw [Slab.slot, (kept.keeps slab listed).objects_eq]
  rfl

namespace Tiers

/-- Both tiers are stocked, objects have seats and blocks are lent, and the origin goes on. -/
structure StockedSeatedLent (tiers : Tiers) (origin : BuddyAllocator) (store : Store)
    (records objects : List Seat) (blocks : List Extent) : Prop where
  stocked : tiers.buddy.Stocked tiers.slab store
  seated : store.Seated tiers.buddy.geometry.size records objects
  lent : tiers.buddy.Lent blocks
  unownedBare : tiers.buddy.pages.UnownedBare
  onward : origin.Onward tiers.buddy

/-- The live allocations are just the seats in objects and the blocks that are lent. -/
def AccountsFor (tiers : Tiers) (origin : BuddyAllocator) (live : List Extent) : Prop :=
  ∃ store records objects blocks, tiers.StockedSeatedLent origin store records objects blocks ∧
    live.Perm (objects.map Seat.extent ++ blocks)

variable {tiers : Tiers} {origin : BuddyAllocator} {extent : Extent} {store : Store}
  {records objects : List Seat} {blocks live : List Extent} {cache : Nat}

namespace StockedSeatedLent

variable (tenancy : tiers.StockedSeatedLent origin store records objects blocks)

include tenancy

/-- Memory links the records of the caches in the order of the store. -/
theorem ring_eq : tiers.slab.ring tiers.ram = store.caches :=
  tenancy.stocked.ring_eq

theorem slabs_eq (there : cache ∈ store.caches) (fill : Fill) :
    Cache.slabs tiers.ram cache fill = (store.stock cache).slabs fill :=
  tenancy.stocked.slabs_eq there fill

theorem objectSize_eq (there : cache ∈ store.caches) :
    Cache.objectSize tiers.ram cache = (store.stock cache).size :=
  (tenancy.stocked.kept cache there).size_eq

theorem capacityFor_eq (there : cache ∈ store.caches) :
    tiers.slab.capacityFor (Cache.objectSize tiers.ram cache) =
      (store.stock cache).capacity tiers.buddy.geometry.size :=
  tenancy.stocked.capacityFor_eq there

theorem slot_eq (there : cache ∈ store.caches) {slab : Nat}
    (listed : slab ∈ (store.stock cache).all) (index : Nat) :
    Slab.slot tiers.ram slab (Cache.objectSize tiers.ram cache) index =
      (store.stock cache).extent tiers.buddy.geometry.size slab index := by
  rw [tenancy.objectSize_eq there]
  exact (tenancy.stocked.kept cache there).slot_eq listed index

/-- The chain of the slab lists those that are free. -/
theorem chain_eq (there : cache ∈ store.caches) {slab : Nat}
    (listed : slab ∈ (store.stock cache).all) :
    Slab.chain tiers.ram slab (tiers.slab.capacityFor (Cache.objectSize tiers.ram cache)) =
      (store.stock cache).free slab :=
  tenancy.stocked.chain_eq there listed

theorem cases_live (same : live.Perm (objects.map Seat.extent ++ blocks)) (member : extent ∈ live) :
    (∃ seat ∈ objects, seat.extent = extent) ∨ ∃ page, tiers.buddy.Lends extent page := by
  rcases List.mem_append.1 (same.mem_iff.1 member) with listed | listed
  · exact .inl (List.mem_map.1 listed)
  · exact .inr (tenancy.lent.lends extent listed)

theorem inside_of_seat {seat : Seat} (there : seat ∈ objects) : ∃ cache ∈ store.caches,
    seat.Inside (store.stock cache) tiers.buddy.geometry.size :=
  tenancy.seated.tenanted.seated seat (List.mem_append_right records there)

theorem page_of_seat {seat : Seat} (there : seat ∈ objects) : ∃ cache ∈ store.caches,
    seat.slab ∈ (store.stock cache).all ∧
      seat.extent.Sub ⟨seat.slab, tiers.buddy.geometry.size⟩ := by
  obtain ⟨cache, member, inside⟩ := tenancy.inside_of_seat there
  have bounds := tenancy.stocked.seat_bounds member inside
  exact ⟨cache, member, inside.held.1, Nat.le_trans (Nat.le_add_right _ _) bounds.1, bounds.2⟩

theorem positive (same : live.Perm (objects.map Seat.extent ++ blocks)) (member : extent ∈ live) :
    0 < extent.size := by
  rcases tenancy.cases_live same member with ⟨seat, there, rfl⟩ | ⟨page, lends⟩
  · obtain ⟨cache, member, inside⟩ := tenancy.inside_of_seat there
    exact inside.positive
  · exact lends.positive

theorem pairwise_apart (same : live.Perm (objects.map Seat.extent ++ blocks)) :
    live.Pairwise Extent.Apart := by
  rw [same.pairwise_iff fun apart => apart.symm, List.pairwise_append]
  refine ⟨?_, ?_, ?_⟩
  · have seats := tenancy.stocked.pairwise_apart tenancy.seated.tenanted
    rw [List.map_append] at seats
    exact (List.pairwise_append.1 seats).2.1
  · refine (List.pairwise_map.1 (List.nodup_iff_pairwise_ne.1 tenancy.lent.nodup)).imp_of_mem
      fun {block other} listed listed' distinct => ?_
    obtain ⟨page, lends⟩ := tenancy.lent.lends block listed
    obtain ⟨page', lends'⟩ := tenancy.lent.lends other listed'
    exact lends.apart tenancy.stocked.sound lends' distinct
  · intro extent listed block listed'
    obtain ⟨seat, there, rfl⟩ := List.mem_map.1 listed
    obtain ⟨cache, member, home, sub⟩ := tenancy.page_of_seat there
    obtain ⟨page, lends⟩ := tenancy.lent.lends block listed'
    exact ((tenancy.stocked.lends_apart_page lends member home).symm.sub sub).symm

theorem in_heap (same : live.Perm (objects.map Seat.extent ++ blocks)) (member : extent ∈ live) :
    extent.Sub (tiers.buddy.zones.get .heap).extent := by
  rcases tenancy.cases_live same member with ⟨seat, there, rfl⟩ | ⟨page, lends⟩
  · obtain ⟨cache, member, inside⟩ := tenancy.inside_of_seat there
    exact tenancy.stocked.seat_in_heap member inside
  · exact tenancy.stocked.lends_in_heap lends

/-- No live allocation has a byte in common with the header and the links of a slab. -/
theorem apart_metadata (same : live.Perm (objects.map Seat.extent ++ blocks))
    (member : extent ∈ live) (there : cache ∈ store.caches) {slab : Nat}
    (listed : slab ∈ (store.stock cache).all) :
    (Slab.metadata slab ((store.stock cache).capacity tiers.buddy.geometry.size)).Apart extent := by
  rcases tenancy.cases_live same member with ⟨seat, seated, rfl⟩ | ⟨page, lends⟩
  · obtain ⟨other, member, inside⟩ := tenancy.inside_of_seat seated
    exact (tenancy.stocked.seat_beside member inside there listed).symm
  · have small := tenancy.stocked.metadata_le there
    have apart := (tenancy.stocked.lends_apart_page lends there listed).symm
    refine Extent.Apart.symm (apart.sub ⟨Nat.le_refl slab, ?_⟩)
    exact Nat.add_le_add_left (Nat.le_trans (Nat.le_add_right _ _) small) slab

theorem apart_record (same : live.Perm (objects.map Seat.extent ++ blocks))
    (member : extent ∈ live) (there : cache ∈ store.caches) :
    (Cache.extent cache).Apart extent := by
  rcases tenancy.cases_live same member with ⟨seat, seated, rfl⟩ | ⟨page, lends⟩
  · exact tenancy.stocked.seats_beside_records tenancy.seated seated there
  · rcases List.mem_cons.1 there with rfl | there
    · have bounds := tenancy.stocked.lends_in_heap lends
      exact .inl (Nat.le_trans tenancy.stocked.head_low bounds.1)
    · obtain ⟨home, inside, above, below⟩ := tenancy.stocked.inHeadSlab cache there
      have apart := (tenancy.stocked.lends_apart_page lends List.mem_cons_self inside).symm
      exact Extent.Apart.symm (apart.sub ⟨Nat.le_trans (Nat.le_add_right _ _) above, below⟩)

theorem apart_free (same : live.Perm (objects.map Seat.extent ++ blocks)) (member : extent ∈ live)
    {id : ZoneId} {block : Block} (listed : block ∈ tiers.buddy.freeBlocks id) :
    (block.extent tiers.buddy.geometry).Apart extent := by
  cases id with
  | noHeap =>
      rw [tenancy.stocked.sound.freeBlocks_of_idle tenancy.stocked.reserved] at listed
      cases listed
  | heap =>
      rcases tenancy.cases_live same member with ⟨seat, seated, rfl⟩ | ⟨page, lends⟩
      · obtain ⟨cache, member, home, sub⟩ := tenancy.page_of_seat seated
        exact (tenancy.stocked.page_apart_free member home listed).sub sub
      · exact lends.apart_free tenancy.stocked.sound tenancy.stocked.heap listed

end StockedSeatedLent

end Tiers

end PhysicalMemory
