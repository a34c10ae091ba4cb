import PhysicalMemory.Proofs.Slab.Count
import PhysicalMemory.Proofs.Slab.Remnant

/-!
# Slabs filled in order

A cache that hands objects out and gets none back fills one page after the other, each from
the first object to the last, and it gets a page just when those it has are full.  The first
request of its size enters the cache without taking a page besides, as long as the first cache
has a slab to hand an object out of.  So the requests of one size are served until every free
page is full, and from then on they are refused.
-/

namespace PhysicalMemory

namespace Stock

/--
So many objects have been handed out of the pages, in order.  Full slabs are on their list,
newest first, and behind them one slab at most is ready, with the later objects in order.
-/
structure Fills (stock : Stock) (room : Nat) (pages : List Nat) (count : Nat) : Prop where
  within : count ≤ pages.length * room
  full : stock.slabs .full = (pages.take (count / room)).reverse
  ready : stock.slabs .partly ++ stock.slabs .empty = pages.drop (count / room)
  rest : ∀ slab ∈ pages.drop (count / room),
    stock.free slab = List.range' (count % room) (room - count % room)

variable {stock : Stock} {pageSize room count slab : Nat} {pages rest : List Nat}

/-- A slab that hands its last object out goes to the full ones, and any other stays. -/
theorem slabs_take (first : stock.slabs .partly = slab :: rest) (fill : Fill) :
    (stock.take slab).slabs fill =
      if (stock.free slab).tail = [] then
        match fill with
        | .full => slab :: stock.slabs .full
        | .partly => rest
        | .empty => stock.slabs .empty
      else stock.slabs fill := by
  split
  · next last =>
      have emptied : (stock.chain slab []).slabs .partly = slab :: rest := first
      rw [take_last last, retire_cons emptied, slabs_add]
      cases fill <;> simp
  · next more => rw [take_more more, slabs_chain]

theorem empty_take (single : (stock.slabs .partly).length + (stock.slabs .empty).length ≤ 1)
    (first : stock.slabs .partly = slab :: rest) : (stock.take slab).slabs .empty = [] := by
  rw [first, List.length_cons] at single
  simp only [slabs_take first, ite_self]
  exact List.length_eq_zero_iff.1 (by omega)

namespace Fills

variable (fills : stock.Fills room pages count)

include fills

theorem perm_all : pages.Perm stock.all := by
  have split := List.take_append_drop (count / room) pages
  rw [all_eq, fills.full, fills.ready]
  refine (List.Perm.of_eq split.symm).trans ?_
  exact (List.reverse_perm _).symm.append_right _

theorem exact (none : stock.slabs .partly = [] ∧ stock.slabs .empty = []) :
    count = pages.length * room := by
  have ready := fills.ready
  rw [none.1, none.2, List.append_nil, eq_comm, List.drop_eq_nil_iff] at ready
  exact Nat.le_antisymm fills.within
    (Nat.le_trans (Nat.mul_le_mul_right room ready) (Nat.div_mul_le_self count room))

theorem promote (single : (stock.slabs .partly).length + (stock.slabs .empty).length ≤ 1) :
    stock.promote.Fills room pages count := by
  cases first : stock.slabs .empty with
  | nil => rwa [promote_nil first]
  | cons slab rest =>
      rw [first, List.length_cons] at single
      have partly : stock.slabs .partly = [] := List.length_eq_zero_iff.1 (by omega)
      obtain rfl : rest = [] := List.length_eq_zero_iff.1 (by omega)
      have ready := fills.ready
      rw [partly, first] at ready
      refine ⟨fills.within, ?_, ?_, by rw [free_promote]; exact fills.rest⟩
      · rw [promote_cons first, slabs_add]
        simpa using fills.full
      · rw [promote_cons first, slabs_add, slabs_add]
        simpa [partly] using ready

theorem add (none : stock.slabs .partly = [] ∧ stock.slabs .empty = []) (positive : 0 < room) :
    (stock.add .partly slab (List.range room)).Fills room (pages ++ [slab]) count := by
  obtain rfl := fills.exact none
  have full := fills.full
  rw [Nat.mul_div_cancel _ positive, List.take_length] at full
  have quotient := Nat.mul_div_cancel pages.length positive
  refine ⟨?_, ?_, ?_, ?_⟩
  · exact Nat.mul_le_mul_right room (by simp)
  · rw [slabs_add, if_neg (by decide), quotient, List.take_left, full]
  · rw [slabs_add, slabs_add, if_pos rfl, if_neg (by decide), quotient, List.drop_left, none.1,
      none.2]
    rfl
  · rw [quotient, List.drop_left, Nat.mul_mod_left, Nat.sub_zero, ← List.range_eq_range']
    intro other listed
    obtain rfl := List.mem_singleton.1 listed
    rw [Stock.add, free_chain, if_pos rfl]

theorem getElem?_next (first : stock.slabs .partly = slab :: rest) :
    pages[count / room]? = some slab := by
  rw [← List.head?_drop, ← fills.ready, first]
  rfl

/-- The slab that is ready is the last page, and its first object is the next in order. -/
theorem next (single : (stock.slabs .partly).length + (stock.slabs .empty).length ≤ 1)
    (first : stock.slabs .partly = slab :: rest) :
    pages = pages.take (count / room) ++ [slab] ∧
      (pages.take (count / room)).length = count / room ∧ rest = [] ∧ stock.slabs .empty = [] ∧
        stock.free slab = List.range' (count % room) (room - count % room) := by
  rw [first, List.length_cons] at single
  obtain rfl : rest = [] := List.length_eq_zero_iff.1 (by omega)
  have empty : stock.slabs .empty = [] := List.length_eq_zero_iff.1 (by omega)
  have ready := fills.ready
  rw [first, empty, List.append_nil] at ready
  have split := List.take_append_drop (count / room) pages
  rw [← ready] at split
  refine ⟨split.symm, List.length_take_of_le ?_, rfl, empty,
    fills.rest slab (by rw [← ready]; exact List.mem_cons_self)⟩
  refine Nat.le_of_lt (Nat.lt_of_not_le fun short => ?_)
  rw [List.drop_of_length_le short] at ready
  cases ready

theorem tail_eq (single : (stock.slabs .partly).length + (stock.slabs .empty).length ≤ 1)
    (first : stock.slabs .partly = slab :: rest) :
    (stock.free slab).tail = List.range' (count % room + 1) (room - (count % room + 1)) := by
  obtain ⟨-, -, -, -, free⟩ := fills.next single first
  rw [free, List.tail_range', Nat.sub_sub]

theorem take_last (single : (stock.slabs .partly).length + (stock.slabs .empty).length ≤ 1)
    (first : stock.slabs .partly = slab :: rest) (last : count % room + 1 = room) :
    (stock.take slab).Fills room pages (count + 1) ∧ (stock.take slab).slabs .partly = [] := by
  have sum := Nat.div_add_mod count room
  have step := Nat.mul_add_one room (count / room)
  obtain ⟨quotient, -⟩ := (Nat.div_mod_unique (by omega)).2
    (⟨by omega, by omega⟩ : 0 + room * (count / room + 1) = count + 1 ∧ 0 < room)
  have emptied : (stock.free slab).tail = [] := by
    rw [fills.tail_eq single first, last, Nat.sub_self]
    rfl
  obtain ⟨split, length, rfl, empty, -⟩ := fills.next single first
  have full := fills.full
  generalize pages.take (count / room) = before at split length full
  subst split
  have slabs := slabs_take first
  simp only [if_pos emptied] at slabs
  refine ⟨⟨?_, ?_, ?_, ?_⟩, slabs .partly⟩
  · rw [List.length_append, length, List.length_singleton, Nat.mul_comm]
    omega
  · rw [slabs .full, full, quotient, ← length, List.take_length_add_append]
    simp
  · rw [slabs .partly, slabs .empty, empty, quotient, ← length, List.drop_length_add_append]
    simp
  · rw [quotient, ← length, List.drop_length_add_append]
    simp

theorem take_more (single : (stock.slabs .partly).length + (stock.slabs .empty).length ≤ 1)
    (first : stock.slabs .partly = slab :: rest) (more : count % room + 1 < room) :
    (stock.take slab).Fills room pages (count + 1) ∧ (count + 1) % room ≠ 0 := by
  have sum := Nat.div_add_mod count room
  have step := Nat.mul_add_one room (count / room)
  obtain ⟨quotient, remainder⟩ := (Nat.div_mod_unique (by omega)).2
    (⟨by omega, more⟩ :
      count % room + 1 + room * (count / room) = count + 1 ∧ count % room + 1 < room)
  have tail := fills.tail_eq single first
  have others : (stock.free slab).tail ≠ [] := by
    rw [tail, Ne, List.range'_eq_nil_iff]
    omega
  obtain ⟨split, length, rfl, empty, -⟩ := fills.next single first
  have within : count + 1 ≤ pages.length * room := by
    rw [split, List.length_append, length, List.length_singleton, Nat.mul_comm]
    omega
  have slabs := slabs_take first
  simp only [if_neg others] at slabs
  refine ⟨⟨within, ?_, ?_, ?_⟩, by omega⟩
  · rw [slabs .full, quotient]
    exact fills.full
  · rw [slabs .partly, slabs .empty, quotient]
    exact fills.ready
  · -- the page is the only one that is not full
    have ready := fills.ready
    rw [first, empty, List.append_nil] at ready
    rw [quotient, remainder, ← ready]
    intro other listed
    obtain rfl := List.mem_singleton.1 listed
    rw [free_take, if_pos rfl, tail]

/-- The next object is handed out, and with the last one its page is full. -/
theorem take (single : (stock.slabs .partly).length + (stock.slabs .empty).length ≤ 1)
    (first : stock.slabs .partly = slab :: rest) (positive : 0 < room) :
    (stock.take slab).Fills room pages (count + 1) ∧
      ((count + 1) % room = 0 → (stock.take slab).slabs .partly = []) := by
  rcases Nat.lt_or_eq_of_le (Nat.succ_le_of_lt (Nat.mod_lt count positive)) with more | last
  · obtain ⟨taken, begun⟩ := fills.take_more single first more
    exact ⟨taken, fun whole => absurd whole begun⟩
  · obtain ⟨taken, none⟩ := fills.take_last single first last
    exact ⟨taken, fun _ => none⟩

end Fills

theorem fills_bare (size room : Nat) : (bare size).Fills room [] 0 := by
  refine ⟨Nat.zero_le _, ?_, ?_, ?_⟩
  · rw [Nat.zero_div]
    rfl
  · rw [Nat.zero_div]
    rfl
  · simp

theorem fills_add_bare (size room slab : Nat) :
    ((bare size).add .empty slab (List.range room)).Fills room [slab] 0 := by
  refine ⟨Nat.zero_le _, ?_, ?_, ?_⟩
  · rw [slabs_add, Nat.zero_div]
    rfl
  · rw [slabs_add, slabs_add, Nat.zero_div]
    rfl
  · rw [Nat.zero_div, Nat.zero_mod, Nat.sub_zero, ← List.range_eq_range']
    intro other listed
    obtain rfl := List.mem_singleton.1 listed
    rw [add, free_chain, if_pos rfl]

theorem Readied.single {stock' : Stock} (readied : stock.Readied pageSize stock')
    (single : (stock.slabs .partly).length + (stock.slabs .empty).length ≤ 1) :
    (stock'.slabs .partly).length + (stock'.slabs .empty).length ≤ 1 := by
  cases readied with
  | promoted =>
      cases first : stock.slabs .empty with
      | nil => rwa [promote_nil first]
      | cons slab rest =>
          rw [promote_cons first, slabs_add, slabs_add]
          rw [first, List.length_cons] at single
          simp only [slabs_put, reduceCtorEq, if_true, if_false, List.length_cons]
          omega
  | grown none fresh =>
      rw [slabs_add, slabs_add, none.1, none.2]
      exact Nat.le_refl 1

end Stock

namespace BuddyAllocator

/--
So many objects of a size have been handed out by the cache at a place, in the order of its
pages.  It has just been given these, of as many as there were besides the free ones.
-/
structure Filling (buddy : BuddyAllocator) (store : Store) (cache size total : Nat)
    (pages : List Nat) (count : Nat) : Prop where
  member : cache ∈ store.caches
  size_eq : (store.stock cache).size = size
  fills : (store.stock cache).Fills (Slab.room (Slab.capacity buddy.geometry.size size)) pages count
  counted : ((store.stock cache).out buddy.geometry.size).length = count
  begun : 0 < count → (store.stock cache).slabs .empty = [] ∧
    (count % Slab.room (Slab.capacity buddy.geometry.size size) = 0 →
      (store.stock cache).slabs .partly = [])
  supply : buddy.freeFrames.length + pages.length = total

/-- What there is when the next object of a size is asked for, after so many. -/
inductive Awaits (buddy : BuddyAllocator) (store : Store) (size total : Nat) :
    List Nat → Nat → Prop where
  | first (new : ∀ cache ∈ store.caches, (store.stock cache).size ≠ size)
      (ready : ¬ ((store.stock store.head).slabs .partly = [] ∧
        (store.stock store.head).slabs .empty = []))
      (supply : buddy.freeFrames.length = total) : Awaits buddy store size total [] 0
  | next {cache count : Nat} {pages : List Nat}
      (filling : buddy.Filling store cache size total pages count) :
      Awaits buddy store size total pages count

/-- What comes of asking: the next object in order, or a refusal once all pages are full. -/
inductive Fed (buddy : BuddyAllocator) (size total : Nat) (pages : List Nat) (count : Nat) :
    BuddyAllocator → Store → Except AllocFailure Nat → Prop where
  | refused {cache : Nat} {after : BuddyAllocator} {store' : Store}
      (filling : after.Filling store' cache size total pages count)
      (full : count = total * Slab.room (Slab.capacity buddy.geometry.size size))
      (absent : ∀ frame, ¬ after.Free .heap frame) :
      Fed buddy size total pages count after store' (.error (.outOfMemory 0))
  | served {cache slab : Nat} {pages' : List Nat} {after : BuddyAllocator} {store' : Store}
      (grows : pages <+: pages')
      (here : pages'[count / Slab.room (Slab.capacity buddy.geometry.size size)]? = some slab)
      (filling : after.Filling store' cache size total pages' (count + 1)) :
      Fed buddy size total pages count after store' (.ok (slab +
        Slab.metadataSize (Slab.capacity buddy.geometry.size size) +
          count % Slab.room (Slab.capacity buddy.geometry.size size) * size))

variable {buddy after middle : BuddyAllocator} {allocator : SlabAllocator}
  {store store' : Store} {cache size total count place slab index room : Nat}
  {pages gone : List Nat} {stock stock' : Stock} {answer : Except AllocFailure Nat}

/-- Where the same frames are free, there are as many. -/
theorem Stocked.length_freeFrames_eq (stocked : buddy.Stocked allocator store)
    (stocked' : after.Stocked allocator store')
    (same : ∀ frame, after.Free .heap frame ↔ buddy.Free .heap frame) :
    after.freeFrames.length = buddy.freeFrames.length := by
  refine ((List.perm_ext_iff_of_nodup stocked'.sound.nodup_freeFrames
    stocked.sound.nodup_freeFrames).2 fun frame => ?_).length_eq
  rw [stocked'.mem_freeFrames_iff, stocked.mem_freeFrames_iff, same]

theorem Grown.length_freeFrames {frame : Nat} {ram : Ram}
    (grown : buddy.Grown after cache size frame slab) (stocked : buddy.Stocked allocator store)
    (stocked' : ({ after with ram := ram } : BuddyAllocator).Stocked allocator store') :
    ({ after with ram := ram } : BuddyAllocator).freeFrames.length + 1 =
      buddy.freeFrames.length := by
  have fresh : frame ∉ ({ after with ram := ram } : BuddyAllocator).freeFrames := fun listed =>
    grown.not_free stocked.sound (stocked'.mem_freeFrames_iff.1 listed)
  have same : (frame :: ({ after with ram := ram } : BuddyAllocator).freeFrames).Perm
      buddy.freeFrames := by
    refine (List.perm_ext_iff_of_nodup (List.nodup_cons.2 ⟨fresh, stocked'.sound.nodup_freeFrames⟩)
      stocked.sound.nodup_freeFrames).2 fun other => ?_
    rw [List.mem_cons, stocked'.mem_freeFrames_iff, stocked.mem_freeFrames_iff,
      grown.free_iff stocked.sound]
    rfl
  exact same.length_eq

/-- A slab is made ready without a page, or it takes one page more, which comes last. -/
theorem Opened.fills (opened : buddy.Opened cache stock slab stock' after)
    (stocked : buddy.Stocked allocator store) (stocked' : after.Stocked allocator store')
    (single : (stock.slabs .partly).length + (stock.slabs .empty).length ≤ 1)
    (positive : 0 < Slab.room (stock.capacity buddy.geometry.size))
    (fills : stock.Fills (Slab.room (stock.capacity buddy.geometry.size)) pages count) :
    ∃ pages', pages <+: pages' ∧
      stock'.Fills (Slab.room (stock.capacity buddy.geometry.size)) pages' count ∧
      after.freeFrames.length + pages'.length = buddy.freeFrames.length + pages.length := by
  cases opened with
  | old agrees =>
      refine ⟨pages, List.prefix_refl _, fills.promote single, ?_⟩
      rw [stocked.length_freeFrames_eq stocked' fun _ => Iff.rfl]
  | @new frame turned ram none fresh grown agrees =>
      refine ⟨pages ++ [slab], List.prefix_append _ _, fills.add none positive, ?_⟩
      rw [← grown.length_freeFrames stocked stocked', List.length_append, List.length_singleton,
        Nat.add_left_comm, Nat.add_comm]

theorem Served.length_out (served : buddy.Served after allocator store cache slab index stock)
    (stocked : buddy.Stocked allocator store) (member : cache ∈ store.caches) :
    ((stock.take slab).out buddy.geometry.size).length =
      ((store.stock cache).out buddy.geometry.size).length + 1 := by
  have oneReady := served.stocked.oneReady cache member
  rw [Store.stock_restock_self] at oneReady
  have fresh : (slab, index) ∉ (store.stock cache).out buddy.geometry.size := fun out =>
    served.not_held (Stock.mem_out_iff.1 out)
  refine ((List.perm_ext_iff_of_nodup (Stock.nodup_out oneReady.nodup) (List.nodup_cons.2
    ⟨fresh, Stock.nodup_out (stocked.oneReady cache member).nodup⟩)).2 fun object => ?_).length_eq
  obtain ⟨other, place⟩ := object
  rw [Stock.mem_out_iff, served.held_iff, List.mem_cons, Stock.mem_out_iff, Prod.mk.injEq, or_comm]

/-- The object that is handed out is the next in order. -/
theorem Filling.served (filling : buddy.Filling store cache size total pages count)
    (stocked : buddy.Stocked allocator store)
    (served : buddy.Served after allocator store cache slab index stock) :
    ∃ pages', pages <+: pages' ∧
      pages'[count / Slab.room (Slab.capacity buddy.geometry.size size)]? = some slab ∧
        index = count % Slab.room (Slab.capacity buddy.geometry.size size) ∧
          after.Filling (store.restock cache (stock.take slab)) cache size total pages'
            (count + 1) := by
  obtain rfl := filling.size_eq
  have member := filling.member
  have positive := Slab.room_pos (stocked.positive cache member)
  have single := (stocked.oneReady cache member).single
  obtain ⟨rest, first⟩ := served.first
  obtain ⟨others, free⟩ := served.free
  obtain ⟨pages', grows, fills, supply⟩ := served.opened.fills stocked served.stocked single
    positive filling.fills
  have single' := served.readied.single single
  obtain ⟨-, -, -, -, order⟩ := fills.next single' first
  obtain ⟨fills', partly⟩ := fills.take single' first positive
  have here : (store.restock cache (stock.take slab)).stock cache = stock.take slab :=
    Store.stock_restock_self store cache _
  have geometry := served.steady.geometry_eq
  refine ⟨pages', grows, ?_, ?_, member, ?_, ?_, ?_, ?_, supply.trans filling.supply⟩
  · exact fills.getElem?_next first
  · rw [order, List.range'_eq_cons_iff] at free
    exact free.1.symm
  · rw [here, served.size_eq]
  · rw [here, geometry]
    exact fills'
  · rw [here, geometry, served.length_out stocked member, filling.counted]
  · rw [here, geometry]
    exact fun _ => ⟨Stock.empty_take single' first, partly⟩

/-- The objects of a page stand behind its metadata. -/
theorem Filling.objects_eq (filling : buddy.Filling store cache size total pages count)
    (stocked : buddy.Stocked allocator store) (listed : slab ∈ pages) :
    Slab.objects buddy.ram slab =
      slab + Slab.metadataSize (Slab.capacity buddy.geometry.size size) := by
  obtain rfl := filling.size_eq
  exact ((stocked.kept cache filling.member).keeps slab
    (filling.fills.perm_all.mem_iff.1 listed)).objects_eq

/-- Asking a cache that has been asked for objects only gives the next one, or none is left. -/
theorem Dispensed.fed (dispensed : buddy.Dispensed allocator store cache after store' answer)
    (stocked : buddy.Stocked allocator store)
    (filling : buddy.Filling store cache size total pages count) :
    buddy.Fed size total pages count after store' answer := by
  cases dispensed with
  | refused barren =>
      have none : buddy.freeFrames = [] := List.eq_nil_iff_forall_not_mem.2 fun frame listed =>
        barren.2 frame (stocked.mem_freeFrames_iff.1 listed)
      have supply := filling.supply
      rw [none, List.length_nil, Nat.zero_add] at supply
      refine .refused filling ?_ barren.2
      rw [← supply]
      exact filling.fills.exact barren.1
  | @served slab index stock after served =>
      obtain ⟨pages', grows, here, rfl, filling'⟩ := filling.served stocked served
      obtain rfl := filling.size_eq
      exact .served grows here filling'

section

variable (entered : buddy.Entered middle allocator store size place slab index stock)
  (stocked : buddy.Stocked allocator store)
  (ready : ¬ ((store.stock store.head).slabs .partly = [] ∧
    (store.stock store.head).slabs .empty = []))

include entered stocked ready

/-- Where the first cache has a slab that is ready, the record of a new one takes no page. -/
theorem Entered.length_freeFrames :
    (middle.enter store.head place size).freeFrames.length = buddy.freeFrames.length := by
  have opened := entered.served.opened
  cases opened with
  | old agrees => exact stocked.length_freeFrames_eq entered.stocked fun _ => Iff.rfl
  | new none fresh grown agrees => exact absurd none ready

theorem Entered.filling :
    (middle.enter store.head place size).Filling
      ((store.restock store.head (stock.take slab)).found place size) place size
        buddy.freeFrames.length [] 0 := by
  have here := Store.stock_found_self (store.restock store.head (stock.take slab)) place size
  refine ⟨Store.mem_caches_found.2 (.inr rfl), by rw [here]; rfl, ?_, ?_,
    fun some => absurd some (Nat.lt_irrefl 0), entered.length_freeFrames stocked ready⟩
  · rw [here]
    exact Stock.fills_bare size _
  · rw [here, Stock.out, Stock.all_eq]
    rfl

end

/-- A new cache with one slab, for which a page was taken, has handed out nothing. -/
theorem Founding.filling (founding : buddy.Founding allocator store size after store' (.ok place))
    (stocked : buddy.Stocked allocator store)
    (ready : ¬ ((store.stock store.head).slabs .partly = [] ∧
      (store.stock store.head).slabs .empty = [])) :
    ∃ home, after.Filling store' place size buddy.freeFrames.length [home] 0 := by
  have stocked' := founding.stocked_after stocked
  have geometry := founding.steady.geometry_eq
  obtain ⟨member, size_eq⟩ := founding.made
  cases founding with
  | @stocked middle last _ slab index frame home stock entered grown =>
      refine ⟨home, member, size_eq, ?_, ?_, fun some => absurd some (Nat.lt_irrefl 0), ?_⟩
      · rw [Store.stock_restock_self, geometry]
        exact Stock.fills_add_bare size _ home
      · rw [Store.stock_restock_self, List.length_eq_zero_iff, List.eq_nil_iff_forall_not_mem]
        rintro ⟨other, index⟩ out
        rw [Stock.mem_out_iff, geometry, Stock.held_add_fresh Stock.not_mem_bare] at out
        exact Stock.not_mem_bare out.1
      · rw [← entered.length_freeFrames stocked ready]
        exact grown.length_freeFrames entered.stocked stocked'

/-- Everybody who had a seat keeps it, and all of an object may be used. -/
theorem Course.exists_seated {records objects : List Seat}
    (course : buddy.Course allocator store size after store' answer)
    (stocked : buddy.Stocked allocator store)
    (seated : store.Seated buddy.geometry.size records objects) (sized : 0 < size) :
    ∃ records' objects', store'.Seated buddy.geometry.size records' objects' := by
  obtain ⟨records', answered⟩ := course.answered stocked seated
  cases answered.supplied with
  | refused _ seated' => exact ⟨records', objects, seated'⟩
  | served object slab index seated' =>
      exact ⟨records', _, seated' ⟨object, size⟩ sized (Nat.le_refl _) (Nat.le_refl _)⟩

/-- A request of a size gives the next object of it in order, or none is left. -/
theorem Course.fed (course : buddy.Course allocator store size after store' answer)
    (stocked : buddy.Stocked allocator store)
    (positive : 0 < Slab.capacity buddy.geometry.size size)
    (awaits : buddy.Awaits store size total pages count) :
    buddy.Fed size total pages count after store' answer := by
  cases awaits with
  | @next cache count pages filling =>
      have known : ¬ ∀ cache ∈ store.caches, (store.stock cache).size ≠ size := fun new =>
        new cache filling.member filling.size_eq
      cases course with
      | @known other _ _ _ member size_eq dispensed =>
          obtain rfl : other = cache := List.inj_on_of_nodup_map stocked.sizes member
            filling.member (size_eq.trans filling.size_eq.symm)
          exact dispensed.fed stocked filling
      | unfounded new founding => exact absurd new known
      | founded new founding dispensed => exact absurd new known
  | first new ready supply =>
      subst supply
      cases course with
      | known member size_eq dispensed => exact absurd size_eq (new _ member)
      | unfounded _ founding =>
          cases founding with
          | refused barren => exact absurd barren.1 ready
          | unstocked entered absent =>
              have none : buddy.freeFrames.length = 0 := by
                rw [← entered.length_freeFrames stocked ready, List.length_eq_zero_iff]
                exact List.eq_nil_iff_forall_not_mem.2 fun frame listed =>
                  absent frame (entered.stocked.mem_freeFrames_iff.1 listed)
              refine .refused (entered.filling stocked ready) ?_ absent
              rw [none, Nat.zero_mul]
      | founded _ founding dispensed =>
          obtain ⟨home, filling⟩ := founding.filling stocked ready
          have fed := dispensed.fed (founding.stocked_after stocked) filling
          have geometry := founding.steady.geometry_eq
          cases fed with
          | refused _ full absent =>
              -- the page of the first slab was there to be taken
              have supply : _ + 1 = _ := filling.supply
              rw [geometry, eq_comm, ← supply] at full
              exact absurd full
                (Nat.ne_of_gt (Nat.mul_pos (Nat.succ_pos _) (Slab.room_pos positive)))
          | served grows here filling' =>
              rw [geometry] at here ⊢
              exact .served List.nil_prefix here filling'

/-- No more is handed out than fits in all the pages there are. -/
theorem Awaits.within (awaits : buddy.Awaits store size total pages count) :
    count ≤ total * Slab.room (Slab.capacity buddy.geometry.size size) := by
  cases awaits with
  | first => exact Nat.zero_le _
  | next filling =>
      refine Nat.le_trans filling.fills.within (Nat.mul_le_mul_right _ ?_)
      rw [← filling.supply]
      exact Nat.le_add_left _ _

theorem Awaits.nodup (awaits : buddy.Awaits store size total pages count)
    (stocked : buddy.Stocked allocator store) : pages.Nodup := by
  cases awaits with
  | first => exact List.nodup_nil
  | next filling =>
      exact filling.fills.perm_all.nodup_iff.2 (stocked.oneReady _ filling.member).nodup

/-- When all that fits is handed out, all pages were taken. -/
theorem Awaits.freeFrames_eq_nil
    (awaits : buddy.Awaits store size total pages
      (total * Slab.room (Slab.capacity buddy.geometry.size size)))
    (positive : 0 < Slab.capacity buddy.geometry.size size) :
    buddy.freeFrames = [] ∧ pages.length = total := by
  have room := Slab.room_pos positive
  generalize full : total * Slab.room (Slab.capacity buddy.geometry.size size) = count at awaits
  cases awaits with
  | first new ready supply =>
      have none := (Nat.mul_eq_zero.1 full).resolve_right (Nat.ne_of_gt room)
      exact ⟨List.length_eq_zero_iff.1 (supply.trans none), none.symm⟩
  | next filling =>
      have within := filling.fills.within
      rw [← full] at within
      have enough := Nat.le_of_mul_le_mul_right within room
      have supply := filling.supply
      exact ⟨List.length_eq_zero_iff.1 (by omega), by omega⟩

end BuddyAllocator

end PhysicalMemory
