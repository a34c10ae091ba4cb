import PhysicalMemory.Proofs.Manager.Requests

/-!
# Giving back

A block that is given back ends whatever is live in its first page, and the
object of a live allocation ends just that allocation.  Everything else that is
live stays live, and giving back what nobody holds changes nothing.
-/

namespace PhysicalMemory

namespace Store

/-- An object that is free again has lost its seat, and the others are seated still. -/
theorem Tenanted.give {store : Store} {pageSize cache : Nat} {seat : Seat} {seats : List Seat}
    (tenanted : store.Tenanted pageSize (seat :: seats))
    (alone : ∀ other ∈ store.caches, other ≠ cache → seat.slab ∉ (store.stock other).all) :
    (store.restock cache ((store.stock cache).give seat.slab seat.index)).Tenanted
      pageSize seats where
  seated := by
    intro other there
    obtain ⟨owner, member, inside⟩ := tenanted.seated other (List.mem_cons_of_mem seat there)
    refine ⟨owner, member, ?_⟩
    rw [stock_restock]
    split
    · next same =>
        subst same
        refine inside.congr rfl (Stock.held_give.2 ⟨inside.held, fun equal => ?_⟩)
        apply (List.nodup_cons.1 tenanted.nodup).1
        exact List.mem_map.2 ⟨other, there, Prod.ext equal.1 equal.2⟩
    · exact inside
  nodup := (List.nodup_cons.1 tenanted.nodup).2
  occupied := by
    intro other member slab index held
    -- whoever sits there is another than the one who left
    suffices old : (store.stock other).Held pageSize slab index ∧ (slab, index) ≠ seat.object from
      (List.mem_cons.1 (tenanted.occupied other member slab index old.1)).resolve_left old.2
    rw [stock_restock] at held
    split at held
    · next same =>
        subst same
        obtain ⟨held, elsewhere⟩ := Stock.held_give.1 held
        exact ⟨held, fun equal => elsewhere (Prod.mk.inj equal)⟩
    · next distinct =>
        refine ⟨held, fun equal => alone other member distinct ?_⟩
        rw [← (Prod.mk.inj equal).1]
        exact held.1

end Store

namespace BuddyAllocator

namespace Stocked

variable {buddy : BuddyAllocator} {allocator : SlabAllocator} {store : Store}
  {seat : Seat} {records objects : List Seat}

/-- A seat is in a page whose descriptor names the slab and the cache. -/
theorem page_of_seat (stocked : buddy.Stocked allocator store) {cache : Nat}
    (member : cache ∈ store.caches)
    (inside : seat.Inside (store.stock cache) buddy.geometry.size) :
    buddy.pages.page? (buddy.geometry.frameOf seat.extent.start) =
      some (.serving seat.slab cache) := by
  have bounds := stocked.seat_bounds member inside
  have positive := inside.positive
  rw [stocked.frame_of_slab member inside.held.1 (by omega) (by omega)]
  exact stocked.owned cache member seat.slab inside.held.1

/-- Giving the address of a seat back frees the object that the seat is in. -/
theorem giveObject (stocked : buddy.Stocked allocator store)
    (seated : store.Seated buddy.geometry.size records objects) (there : seat ∈ objects)
    {page : Page}
    (found : buddy.pages.page? (buddy.geometry.frameOf seat.extent.start) = some page) :
    ∃ ram, ∃ cache ∈ store.caches,
      let store' := store.restock cache ((store.stock cache).give seat.slab seat.index)
      Action.Answers (allocator.free seat.extent.start page) buddy.ram () ram ∧
        ({ buddy with ram := ram } : BuddyAllocator).Stocked allocator store' ∧
          store'.Seated buddy.geometry.size records (objects.erase seat) ∧
            page = .serving seat.slab cache := by
  obtain ⟨cache, member, inside⟩ :=
    seated.tenanted.seated seat (List.mem_append_right records there)
  rw [stocked.page_of_seat member inside] at found
  obtain rfl := Option.some.inj found
  obtain ⟨listed, below, taken⟩ := inside.held
  have placed := stocked.placed member
  have high : seat.extent.start <
      (store.stock cache).slot buddy.geometry.size seat.slab seat.index +
        (store.stock cache).size := by
    have := inside.positive
    have := inside.high
    omega
  have start : (Page.serving seat.slab cache).start = seat.slab := rfl
  have owner : (Page.serving seat.slab cache).cache = some cache := rfl
  obtain ⟨ram, answers, kept, agrees⟩ := (stocked.kept cache member).giveObject placed listed below
    taken inside.low high stocked.page_eq start owner
  refine ⟨ram, cache, member, answers,
    stocked.restock_ram member rfl kept ((stocked.oneReady cache member).give below taken)
      (fun _ => Iff.rfl) agrees, ⟨?_, seated.extents⟩, rfl⟩
  refine Store.Tenanted.give (seated.tenanted.perm ?_) fun other member' distinct listed' => ?_
  · exact List.perm_middle.symm.trans ((List.perm_cons_erase there).symm.append_left records)
  · exact distinct (stocked.cache_unique member' member listed' listed)

end Stocked

end BuddyAllocator

namespace Tiers

variable {tiers : Tiers} {origin : BuddyAllocator} {live : List Extent} {page : Page}
  {address : Nat}

def beside (geometry : Geometry) (frame : Nat) (live : List Extent) : List Extent :=
  live.filter fun extent => geometry.frameOf extent.start ≠ frame

/-- A block that is taken back ends what was live in its first page. -/
theorem AccountsFor.recover (accountsFor : tiers.AccountsFor origin live)
    (found : tiers.buddy.pages.page? (tiers.geometry.frameOf address) = some page)
    (owner : page.owner = .buddy) :
    ∃ after, Action.Answers (inBuddy (BuddyAllocator.free address page.order)) tiers () after ∧
      after.AccountsFor origin (beside tiers.geometry (tiers.geometry.frameOf address) live) := by
  obtain ⟨store, records, objects, blocks, tenancy, same⟩ := accountsFor
  have sound := tenancy.stocked.sound
  obtain ⟨buddy, recovered, answers⟩ := sound.free found owner
  refine ⟨_, answers_inBuddy_iff.2 ⟨buddy, answers, rfl⟩, store, records, objects,
    beside tiers.geometry (tiers.geometry.frameOf address) blocks,
    ⟨tenancy.stocked.recover recovered, ?_, tenancy.lent.recover sound recovered,
      recovered.unownedBare sound tenancy.unownedBare,
      tenancy.onward.trans (recovered.onward sound)⟩, ?_⟩
  · rw [recovered.geometry_eq]
    exact tenancy.seated
  · -- no seat is in the page, whose owner is no slab
    have seats : beside tiers.geometry (tiers.geometry.frameOf address)
        (objects.map Seat.extent) = objects.map Seat.extent := by
      refine List.filter_eq_self.2 fun extent listed => decide_eq_true fun frame => ?_
      obtain ⟨seat, there, rfl⟩ := List.mem_map.1 listed
      obtain ⟨cache, member, inside⟩ := tenancy.inside_of_seat there
      have serving := tenancy.stocked.page_of_seat member inside
      rw [show tiers.buddy.geometry.frameOf seat.extent.start = _ from frame, found] at serving
      rw [Option.some.inj serving] at owner
      cases owner
    have filtered := same.filter fun extent =>
      tiers.geometry.frameOf extent.start ≠ tiers.geometry.frameOf address
    rw [List.filter_append] at filtered
    exact filtered.trans (.of_eq (congrArg (· ++ _) seats))

/-- An object that is given back ends the allocation in it. -/
theorem AccountsFor.giveObject (accountsFor : tiers.AccountsFor origin live) {extent : Extent}
    (member : extent ∈ live)
    (found : tiers.buddy.pages.page? (tiers.geometry.frameOf extent.start) = some page)
    (owner : page.owner = .slab) :
    page.cache.isSome ∧ ∃ after, Action.Answers (freeObject extent.start page) tiers () after ∧
      after.AccountsFor origin (live.filter fun other => other.start ≠ extent.start) := by
  obtain ⟨store, records, objects, blocks, tenancy, same⟩ := accountsFor
  rcases tenancy.cases_live same member with ⟨seat, there, rfl⟩ | ⟨page', lends⟩
  · obtain ⟨ram, cache, -, answers, stocked, seated, rfl⟩ :=
      tenancy.stocked.giveObject tenancy.seated there found
    have steady := BuddyAllocator.Steady.of_ram tiers.buddy ram
    refine ⟨rfl, ⟨{ tiers.buddy with ram := ram }, tiers.slab⟩, ?_, _, records,
      objects.erase seat, blocks, ⟨stocked, seated, tenancy.lent.steady steady, tenancy.unownedBare,
        tenancy.onward.trans steady.toOnward⟩, ?_⟩
    · refine Action.answers_get_bind_iff.2 (answers_inBuddy_iff.2 ⟨_, ?_, rfl⟩)
      exact BuddyAllocator.answers_inRam_iff.2 ⟨ram, answers, rfl⟩
    · have split : live.Perm (seat.extent :: ((objects.erase seat).map Seat.extent ++ blocks)) :=
        same.trans (((List.perm_cons_erase there).map Seat.extent).append_right blocks)
      have apart := (split.pairwise_iff fun apart => apart.symm).1 (tenancy.pairwise_apart same)
      -- whoever else is live starts elsewhere
      have others : ∀ other ∈ (objects.erase seat).map Seat.extent ++ blocks,
          other.start ≠ seat.extent.start := by
        intro other listed
        have positive := tenancy.positive same (split.mem_iff.2 (List.mem_cons_of_mem _ listed))
        exact (((List.pairwise_cons.1 apart).1 other listed).start_ne
          (tenancy.positive same member) positive).symm
      have filtered := split.filter fun other => other.start ≠ seat.extent.start
      rw [List.filter_cons_of_neg (by simp), List.filter_eq_self.2 fun other listed =>
        decide_eq_true (others other listed)] at filtered
      exact filtered
  · have taken := lends.found
    rw [show tiers.buddy.pages.page? (tiers.buddy.geometry.frameOf extent.start) = _ from found]
      at taken
    rw [Option.some.inj taken, lends.owner_eq] at owner
    cases owner

end Tiers

end PhysicalMemory
