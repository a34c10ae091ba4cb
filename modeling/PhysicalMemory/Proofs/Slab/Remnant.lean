import PhysicalMemory.Proofs.Buddy.Availability
import PhysicalMemory.Proofs.Slab.Supply

/-!
# What a refused request leaves

A request for an object is refused only where no page is left.  It may leave one thing
behind: the record of a new cache, in an object of the first cache, and where that object
needed a new slab the last page is that slab.  The new cache has no slab, so the same
request is refused again, and from then on nothing changes.
-/

namespace PhysicalMemory

namespace Stock

def Beside (slab : Nat) (stock stock' : Stock) : Prop :=
  ∀ fill, (stock'.slabs fill).filter (· ≠ slab) = (stock.slabs fill).filter (· ≠ slab)

variable {stock stock' : Stock} {pageSize slab : Nat} {free rest : List Nat} {fill target : Fill}

namespace Beside

theorem trans {last : Stock} (first : Beside slab stock stock') (second : Beside slab stock' last) :
    Beside slab stock last :=
  fun fill => (second fill).trans (first fill)

theorem put (first : stock.slabs fill = slab :: rest) :
    Beside slab stock (stock.put fill rest) := by
  intro other
  rw [slabs_put]
  split
  · next same => simp [same, first]
  · rfl

theorem add : Beside slab stock (stock.add target slab free) := by
  intro other
  rw [slabs_add]
  split
  · next same => simp [same]
  · rfl

theorem take (first : stock.slabs .partly = slab :: rest) :
    Beside slab stock (stock.take slab) := by
  by_cases last : (stock.free slab).tail = []
  · rw [take_last last]
    have emptied : (stock.chain slab []).slabs .partly = slab :: rest := first
    rw [retire_cons emptied]
    exact (put emptied).trans add
  · rw [take_more last]
    exact fun _ => rfl

end Beside

theorem Readied.beside (readied : stock.Readied pageSize stock')
    (first : stock'.slabs .partly = slab :: rest) : Beside slab stock stock' := by
  cases readied with
  | promoted =>
      cases empty : stock.slabs .empty with
      | nil =>
          rw [promote_nil empty]
          exact fun _ => rfl
      | cons other others =>
          rw [promote_cons empty] at first ⊢
          rw [slabs_add, if_pos rfl] at first
          obtain rfl := (List.cons.inj first).1
          exact (Beside.put empty).trans .add
  | grown none fresh =>
      rw [slabs_add, if_pos rfl] at first
      obtain rfl := (List.cons.inj first).1
      exact .add

end Stock

namespace BuddyAllocator

/-- No page is left where a request for an object was refused, and nothing or a record is. -/
inductive Refused (buddy : BuddyAllocator) (allocator : SlabAllocator) (store : Store)
    (size : Nat) : BuddyAllocator → Store → Prop where
  | nothing (absent : ∀ frame, ¬ buddy.Free .heap frame) :
      Refused buddy allocator store size buddy store
  | record {middle : BuddyAllocator} {place slab index : Nat} {stock : Stock}
      (entered : buddy.Entered middle allocator store size place slab index stock)
      (absent : ∀ frame, ¬ (middle.enter store.head place size).Free .heap frame) :
      Refused buddy allocator store size (middle.enter store.head place size)
        ((store.restock store.head (stock.take slab)).found place size)

/--
Where the first cache got the object for a record from: from a slab that it had, with no change to
any page, or from a new slab, which was the last free page.  All that was written is in the records
of both caches and in the slab's metadata, or else in the new page.
-/
inductive Housing (buddy after : BuddyAllocator) (head place slab index : Nat) : Prop where
  | old (listed : ∃ fill, slab ∈ Cache.slabs buddy.ram head fill)
      (chain : let capacity := Slab.capacity buddy.geometry.size CacheRecord.objectSize
        Slab.chain buddy.ram slab capacity = index :: Slab.chain after.ram slab capacity)
      (zones_eq : after.zones = buddy.zones) (pages_eq : after.pages = buddy.pages)
      (agrees : buddy.ram.AgreesOff after.ram fun byte =>
        Cache.Record head byte ∨ Cache.Record place byte ∨
          Slab.Metadata slab (Slab.capacity buddy.geometry.size CacheRecord.objectSize) byte)
  | new (none : Cache.slabs buddy.ram head .partly = [] ∧ Cache.slabs buddy.ram head .empty = [])
      (last : buddy.freeFrames = [buddy.geometry.frameOf slab])
      (pages_eq : after.pages =
        buddy.pages.set (buddy.geometry.frameOf slab) (.serving slab head))
      (elsewhere : ∀ id ≠ .heap, after.zones.get id = buddy.zones.get id)
      (alike : Zone.Alike (buddy.zones.get .heap) (after.zones.get .heap))
      (chain : let capacity := Slab.capacity buddy.geometry.size CacheRecord.objectSize
        List.range (Slab.room capacity) = index :: Slab.chain after.ram slab capacity)
      (agrees : buddy.ram.AgreesOff after.ram fun byte =>
        Cache.Record head byte ∨ buddy.geometry.frameOf byte = buddy.geometry.frameOf slab)

variable {buddy after middle last : BuddyAllocator} {allocator : SlabAllocator}
  {store store' store'' : Store} {size place slab index : Nat} {stock : Stock}
  {answer : Except AllocFailure Nat} {failure : AllocFailure}

theorem Stocked.mem_freeFrames_iff (stocked : buddy.Stocked allocator store) {frame : Nat} :
    frame ∈ buddy.freeFrames ↔ buddy.Free .heap frame := by
  rw [stocked.sound.mem_freeFrames_iff]
  constructor
  · rintro ⟨id, allocatable, free⟩
    obtain rfl := stocked.eq_heap allocatable
    exact free
  · exact fun free => ⟨.heap, stocked.heap, free⟩

theorem Stocked.freeBytes_eq_zero (stocked : buddy.Stocked allocator store)
    (absent : ∀ frame, ¬ buddy.Free .heap frame) : buddy.freeBytes = .ok 0 := by
  have none : buddy.freeFrames = [] := List.eq_nil_iff_forall_not_mem.2 fun frame listed =>
    absent frame (stocked.mem_freeFrames_iff.1 listed)
  rw [stocked.sound.freeBytes_eq_freeFrames, none, List.length_nil, Nat.zero_mul]

theorem Grown.free_iff {cache objectSize frame : Nat}
    (grown : buddy.Grown after cache objectSize frame slab) (sound : buddy.Sound) (other : Nat) :
    buddy.Free .heap other ↔ other = frame ∨ after.Free .heap other := by
  rw [Free, Free, (grown.alike .heap).has_iff, grown.taken_iff sound]
  constructor
  · intro free
    by_cases same : other = frame
    · exact .inl same
    · exact .inr ⟨free.1, fun taken => taken.elim free.2 same⟩
  · rintro (rfl | ⟨has, untaken⟩)
    · exact grown.free
    · exact ⟨has, fun taken => untaken (.inl taken)⟩

theorem Grown.not_free {cache objectSize frame : Nat}
    (grown : buddy.Grown after cache objectSize frame slab) (sound : buddy.Sound) :
    ¬ after.Free .heap frame :=
  fun free => free.2 ((grown.taken_iff sound frame).2 (.inr rfl))

/-- Where no page is free once one was turned into a slab, that one was the last. -/
theorem Grown.alone {cache objectSize frame : Nat}
    (grown : buddy.Grown after cache objectSize frame slab) (sound : buddy.Sound)
    (absent : ∀ other, ¬ after.Free .heap other) (other : Nat) :
    buddy.Free .heap other ↔ other = frame := by
  rw [grown.free_iff sound]
  exact or_iff_left (absent other)

/-- Every refusal is for want of a page, and a record is all that it may leave. -/
theorem Course.refusal
    (course : buddy.Course allocator store size after store' (.error failure)) :
    buddy.Refused allocator store size after store' := by
  cases course with
  | known member size_eq dispensed =>
      cases dispensed with
      | refused barren => exact .nothing barren.2
  | unfounded new founding =>
      cases founding with
      | refused barren => exact .nothing barren.2
      | unstocked entered absent => exact .record entered absent
  | founded new founding dispensed =>
      -- a cache with an empty slab refuses nobody
      cases founding with
      | stocked entered grown =>
          cases dispensed with
          | refused barren =>
              have empty := barren.1.2
              rw [Store.stock_restock_self, Stock.slabs_add, if_pos rfl] at empty
              cases empty

theorem Refused.absent (refused : buddy.Refused allocator store size after store') (frame : Nat) :
    ¬ after.Free .heap frame := by
  cases refused with
  | nothing absent => exact absent frame
  | record entered absent => exact absent frame

namespace Entered

variable (entered : buddy.Entered middle allocator store size place slab index stock)

include entered

/-- The new cache has no slab, so without a page the same request is refused and changes nothing. -/
theorem again (absent : ∀ frame, ¬ (middle.enter store.head place size).Free .heap frame)
    (course : (middle.enter store.head place size).Course allocator
      ((store.restock store.head (stock.take slab)).found place size) size last store'' answer) :
    answer = .error (.outOfMemory 0) ∧ last = middle.enter store.head place size := by
  have here := Store.stock_found_self (store.restock store.head (stock.take slab)) place size
  have there : place ∈ ((store.restock store.head (stock.take slab)).found place size).caches :=
    Store.mem_caches_found.2 (.inr rfl)
  have known : ¬ ∀ cache ∈ ((store.restock store.head (stock.take slab)).found place size).caches,
      (((store.restock store.head (stock.take slab)).found place size).stock cache).size ≠ size :=
    fun new => new place there (congrArg Stock.size here)
  cases course with
  | unfounded new founding => exact absurd new known
  | founded new founding dispensed => exact absurd new known
  | @known cache _ _ _ member size_eq dispensed =>
      obtain rfl : cache = place := by
        refine (Store.mem_caches_found.1 member).resolve_left fun old => ?_
        rw [entered.stock_of_mem old, Store.size_restock entered.served.size_eq] at size_eq
        exact entered.new cache old size_eq
      cases dispensed with
      | refused barren => exact ⟨rfl, rfl⟩
      | served served =>
          refine absurd ?_ served.not_barren
          rw [here]
          exact ⟨⟨rfl, rfl⟩, absent⟩

theorem held : (stock.take slab).Held buddy.geometry.size slab index :=
  (entered.served.held_iff slab index).2 (.inr ⟨rfl, rfl⟩)

theorem capacity_eq (stocked : buddy.Stocked allocator store) :
    (stock.take slab).capacity buddy.geometry.size =
      Slab.capacity buddy.geometry.size CacheRecord.objectSize := by
  rw [Stock.capacity, entered.served.size_eq, stocked.head_size]

/-- What the first cache's slab keeps then are the objects behind the one for the record. -/
theorem chain_eq (stocked : buddy.Stocked allocator store) :
    Slab.chain (middle.enter store.head place size).ram slab
        (Slab.capacity buddy.geometry.size CacheRecord.objectSize) = (stock.free slab).tail := by
  have kept := entered.stocked.kept store.head List.mem_cons_self
  rw [entered.stock_head] at kept
  have keeps := kept.keeps slab entered.held.1
  rw [entered.steady.geometry_eq, entered.capacity_eq stocked, Stock.free_take,
    if_pos rfl] at keeps
  exact keeps.chain_eq

theorem frameOf_eq (stocked : buddy.Stocked allocator store) {byte : Nat}
    (inside : Slab.Metadata slab (Slab.capacity buddy.geometry.size CacheRecord.objectSize) byte ∨
      Cache.Record place byte) : buddy.geometry.frameOf byte = buddy.geometry.frameOf slab := by
  have geometry := entered.steady.geometry_eq
  have head : store.head ∈
      ((store.restock store.head (stock.take slab)).found place size).caches := List.mem_cons_self
  have listed := entered.held.1
  have placed := entered.stocked.placed head
  rw [← entered.stock_head] at listed
  rw [entered.stock_head, geometry] at placed
  have bounds := placed.slot_bounds slab (Nat.lt_of_lt_of_le entered.held.2.1 (Slab.room_le _))
  rw [Stock.slot_congr entered.served.size_eq, entered.served.size_eq,
    entered.capacity_eq stocked] at bounds
  have low := entered.low
  have high := entered.high
  have within : slab ≤ byte ∧ byte < slab + buddy.geometry.size := by
    simp only [Slab.Metadata, Cache.Record] at inside
    omega
  rw [← geometry] at within
  rw [← geometry]
  exact entered.stocked.frame_of_slab head listed within.1 within.2

/-- The first cache had the object for the record, or it got the last page for it. -/
theorem housing (stocked : buddy.Stocked allocator store)
    (absent : ∀ frame, ¬ (middle.enter store.head place size).Free .heap frame) :
    buddy.Housing (middle.enter store.head place size) store.head place slab index := by
  have chained := entered.chain_eq stocked
  obtain ⟨rest, first⟩ := entered.served.first
  obtain ⟨others, free⟩ := entered.served.free
  have wrote := Cache.agreesOff_enter middle.ram store.head place size
  have opened := entered.served.opened
  have head : store.head ∈ store.caches := List.mem_cons_self
  rw [free, List.tail_cons] at chained
  cases opened with
  | @old ram agrees =>
      have listed : slab ∈ (store.stock store.head).all :=
        (Stock.all_promote_perm _).mem_iff.1
          (Stock.mem_all (by rw [first]; exact List.mem_cons_self))
      obtain ⟨fill, there⟩ := Stock.mem_all_iff.1 listed
      have keeps := (stocked.kept store.head head).keeps slab listed
      rw [Stock.free_promote] at free
      rw [Stock.capacity, stocked.head_size, free] at keeps
      refine .old ⟨fill, by rwa [stocked.slabs_eq head]⟩ ?_ rfl rfl ?_
      · intro capacity
        rw [chained]
        exact keeps.chain_eq
      · refine (agrees.mono fun byte inside => ?_).trans (wrote.mono fun byte inside => ?_)
        · rw [Stock.Plot, Stock.capacity, stocked.head_size] at inside
          exact inside.elim (fun fields => .inl fields.record) fun metadata => .inr (.inr metadata)
        · exact inside.elim (fun record => .inr (.inl record)) fun first => .inl first.record
  | @new frame turned ram none fresh grown agrees =>
      have frame_eq := grown.frameOf_eq
      rw [Stock.add, Stock.free_chain, if_pos rfl, Stock.capacity, stocked.head_size] at free
      have alone := grown.alone stocked.sound absent
      have last : buddy.freeFrames = [frame] := by
        refine List.perm_singleton.1 ((List.perm_ext_iff_of_nodup stocked.sound.nodup_freeFrames
          (List.nodup_singleton frame)).2 fun other => ?_)
        rw [stocked.mem_freeFrames_iff, alone, List.mem_singleton]
      refine .new ?_ (by rw [frame_eq, last]) (by rw [frame_eq]; exact grown.pages_eq)
        grown.elsewhere (grown.alike .heap) ?_ ?_
      · rwa [stocked.slabs_eq head, stocked.slabs_eq head]
      · intro capacity
        rw [chained]
        exact free
      · refine ((grown.agrees.mono fun byte vacant => ?_).trans
          (agrees.mono fun byte inside => ?_)).trans (wrote.mono fun byte inside => ?_)
        · exact .inr (((alone _).1 vacant).trans frame_eq.symm)
        · rw [Stock.Plot, Stock.capacity, stocked.head_size] at inside
          exact inside.imp Cache.Fields.record 
            fun metadata => entered.frameOf_eq stocked (.inl metadata)
        · exact inside.elim (fun record => .inr (entered.frameOf_eq stocked (.inr record)))
            fun first => .inl first.record

end Entered

end BuddyAllocator

end PhysicalMemory
