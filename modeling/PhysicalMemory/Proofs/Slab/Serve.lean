import PhysicalMemory.Proofs.Buddy.Onward
import PhysicalMemory.Proofs.Slab.Change

/-!
# Serving objects

Where a cache has a slab that is ready, or the heap has a free page, an object of
that cache is handed out: the first free one of the slab that is ready.  Where
neither is there the request is refused and nothing changes.
-/

namespace PhysicalMemory

namespace Stock

def Held (stock : Stock) (pageSize slab index : Nat) : Prop :=
  slab ∈ stock.all ∧ index < Slab.room (stock.capacity pageSize) ∧ index ∉ stock.free slab

/-- The stock once a slab is ready to hand objects out: an old one, or else a new one. -/
inductive Readied (stock : Stock) (pageSize : Nat) : Stock → Prop where
  | promoted : Readied stock pageSize stock.promote
  | grown {slab : Nat} (none : stock.slabs .partly = [] ∧ stock.slabs .empty = [])
      (fresh : slab ∉ stock.all) :
      Readied stock pageSize
        (stock.add .partly slab (List.range (Slab.room (stock.capacity pageSize))))

variable {stock stock' : Stock} {pageSize slab index other place : Nat} {others : List Nat}

theorem held_promote :
    stock.promote.Held pageSize other place ↔ stock.Held pageSize other place := by
  rw [Held, Held, capacity_congr (size_promote stock), free_promote,
    (all_promote_perm stock).mem_iff]

theorem held_add_fresh {fill : Fill} (fresh : slab ∉ stock.all) :
    (stock.add fill slab (List.range (Slab.room (stock.capacity pageSize)))).Held
      pageSize other place ↔ stock.Held pageSize other place := by
  rw [Held, Held, mem_all_add_iff, capacity_congr (size_add), add, free_chain, free_put]
  constructor
  · rintro ⟨rfl | listed, below, taken⟩
    · rw [if_pos rfl, List.mem_range] at taken
      exact absurd below taken
    · rw [if_neg (by rintro rfl; exact fresh listed)] at taken
      exact ⟨listed, below, taken⟩
  · rintro ⟨listed, below, taken⟩
    refine ⟨.inr listed, below, ?_⟩
    rwa [if_neg (by rintro rfl; exact fresh listed)]

theorem held_take (member : slab ∈ stock.all) (free : stock.free slab = index :: others)
    (nodup : (index :: others).Nodup) (below : index < Slab.room (stock.capacity pageSize)) :
    (stock.take slab).Held pageSize other place ↔
      stock.Held pageSize other place ∨ (other = slab ∧ place = index) := by
  have absent := (List.nodup_cons.1 nodup).1
  rw [Held, Held, capacity_congr (size_take stock slab), (all_take_perm stock slab).mem_iff,
    free_take]
  by_cases same : other = slab
  · subst same
    rw [if_pos rfl, free, List.tail_cons, List.mem_cons, not_or]
    constructor
    · rintro ⟨listed, bound, taken⟩
      by_cases first : place = index
      · exact .inr ⟨rfl, first⟩
      · exact .inl ⟨listed, bound, first, taken⟩
    · rintro (⟨listed, bound, -, taken⟩ | ⟨-, rfl⟩)
      · exact ⟨listed, bound, taken⟩
      · exact ⟨member, below, absent⟩
  · rw [if_neg same]
    simp [same]

theorem held_give :
    (stock.give slab index).Held pageSize other place ↔
      stock.Held pageSize other place ∧ ¬ (other = slab ∧ place = index) := by
  rw [Held, Held, give, all_chain, capacity_congr size_chain, free_chain]
  by_cases same : other = slab
  · subst same
    simp only [if_true, List.mem_cons, true_and]
    tauto
  · rw [if_neg same]
    simp [same]

namespace Readied

variable (readied : stock.Readied pageSize stock')

include readied

theorem size_eq : stock'.size = stock.size := by
  cases readied with
  | promoted => exact size_promote stock
  | grown => rfl

theorem held_iff (other place : Nat) :
    stock'.Held pageSize other place ↔ stock.Held pageSize other place := by
  cases readied with
  | promoted => exact held_promote
  | grown none fresh => exact held_add_fresh fresh

end Readied

end Stock

namespace Store

theorem restock_self (store : Store) (cache : Nat) :
    store.restock cache (store.stock cache) = store := by
  rw [restock, Function.update_eq_self]

theorem restock_restock (store : Store) (cache : Nat) (stock stock' : Stock) :
    (store.restock cache stock).restock cache stock' = store.restock cache stock' := by
  simp only [restock, Function.update_idem]

end Store

namespace BuddyAllocator

structure Steady (buddy after : BuddyAllocator) : Prop extends Onward buddy after where
  lent : ∀ frame page, page.owner = .buddy →
    (after.pages.page? frame = some page ↔ buddy.pages.page? frame = some page)
  unowned : ∀ frame page, page.owner = .unowned → after.pages.page? frame = some page →
    buddy.pages.page? frame = some page

variable {buddy after : BuddyAllocator} {allocator : SlabAllocator} {store : Store}
  {cache slab frame objectSize : Nat}

namespace Steady

theorem of_ram (buddy : BuddyAllocator) (ram : Ram) :
    buddy.Steady ⟨ram, buddy.zones, buddy.pages⟩ :=
  ⟨.of_ram buddy ram, fun _ _ _ => Iff.rfl, fun _ _ _ found => found⟩

theorem refl (buddy : BuddyAllocator) : buddy.Steady buddy :=
  of_ram buddy buddy.ram

theorem trans {last : BuddyAllocator} (first : buddy.Steady after) (second : after.Steady last) :
    buddy.Steady last where
  toOnward := first.toOnward.trans second.toOnward
  lent := fun frame page owner => (second.lent frame page owner).trans (first.lent frame page owner)
  unowned := fun frame page owner found =>
    first.unowned frame page owner (second.unowned frame page owner found)

theorem unownedBare (steady : buddy.Steady after) (unownedBare : buddy.pages.UnownedBare) :
    after.pages.UnownedBare :=
  fun frame page found unowned =>
    unownedBare frame page (steady.unowned frame page unowned found) unowned

end Steady

theorem Grown.steady (grown : buddy.Grown after cache objectSize frame slab)
    (sound : buddy.Sound) (heap : (buddy.zones.get .heap).allocatable = true) :
    buddy.Steady after where
  alike := grown.alike
  geometry_eq := grown.geometry_eq
  size_eq := by rw [grown.pages_eq, DescriptorTable.size_set]
  table_eq := by
    rw [grown.pages_eq]
    rfl
  placed := by
    obtain ⟨old, found⟩ := grown.found
    obtain ⟨page, found', tag⟩ := sound.tagged .heap heap _ grown.free.1
    obtain rfl := Option.some.inj (found.symm.trans found')
    have start : old.start = slab := (sound.regular.placed _ _ found).trans grown.slab_eq.symm
    rw [grown.pages_eq]
    exact sound.regular.place_set found (by rw [Page.place, Page.place, start, tag]; rfl)
  slabs := fun other page owner found =>
    grown.page?_of_owned sound found (by rw [owner]; decide)
  unowned := by
    intro other page owner found
    rw [grown.page?_eq sound] at found
    split at found
    · obtain rfl := Option.some.inj found
      cases owner
    · exact found
  lent := by
    intro other page owner
    rw [grown.page?_eq sound]
    split
    · next same =>
        subst same
        constructor
        · intro found
          obtain rfl := Option.some.inj found
          cases owner
        · intro found
          rw [grown.unowned found] at owner
          cases owner
    · rfl

/-- A cache has no slab that is ready, and the heap has no page to make one of. -/
def Barren (buddy : BuddyAllocator) (stock : Stock) : Prop :=
  (stock.slabs .partly = [] ∧ stock.slabs .empty = []) ∧ ∀ frame, ¬ buddy.Free .heap frame

/--
The first partly full slab of a cache is ready, an old one without a change to any page,
or a new one if there was none.  All else that was written is in the plot of that slab.
-/
inductive Opened (buddy : BuddyAllocator) (cache : Nat) (stock : Stock) (slab : Nat) :
    Stock → BuddyAllocator → Prop where
  | old {ram : Ram}
      (agrees : buddy.ram.AgreesOff ram (stock.Plot buddy.geometry.size cache slab)) :
      Opened buddy cache stock slab stock.promote { buddy with ram := ram }
  | new {frame : Nat} {middle : BuddyAllocator} {ram : Ram}
      (none : stock.slabs .partly = [] ∧ stock.slabs .empty = []) (fresh : slab ∉ stock.all)
      (grown : buddy.Grown middle cache stock.size frame slab)
      (agrees : middle.ram.AgreesOff ram (stock.Plot buddy.geometry.size cache slab)) :
      Opened buddy cache stock slab
        (stock.add .partly slab (List.range (Slab.room (stock.capacity buddy.geometry.size))))
        { middle with ram := ram }

namespace Opened

variable {stock stock' : Stock} (opened : buddy.Opened cache stock slab stock' after)

include opened

theorem readied : stock.Readied buddy.geometry.size stock' := by
  cases opened with
  | old agrees => exact .promoted
  | new none fresh grown agrees => exact .grown none fresh

theorem write {ram : Ram}
    (agrees : after.ram.AgreesOff ram (stock.Plot buddy.geometry.size cache slab)) :
    buddy.Opened cache stock slab stock' { after with ram := ram } := by
  cases opened with
  | old before => exact .old (before.trans agrees)
  | @new frame middle _ none fresh grown before =>
      exact @Opened.new buddy cache stock slab frame middle ram none fresh grown
        (before.trans agrees)

end Opened

namespace Stocked

theorem partlyFullSlab_of_some
    (first : Cache.firstSlab buddy.ram cache .partly = some slab) :
    Action.Answers (partlyFullSlab cache).outcome buddy (.ok slab) buddy := by
  unfold BuddyAllocator.partlyFullSlab
  refine Attempt.answers_bind_of_ok (Attempt.answers_outcome_get_iff.2 ⟨rfl, rfl⟩) ?_
  rw [first]
  exact Action.answers_pure_iff.2 ⟨rfl, rfl⟩

private theorem partlyFullSlab_of_popped {ram : Ram}
    (none : Cache.firstSlab buddy.ram cache .partly = none)
    (popped : Action.Answers (Cache.popSlab cache .empty) buddy.ram (some slab) ram) :
    Action.Answers (partlyFullSlab cache).outcome buddy (.ok slab)
      { buddy with ram := Cache.pushSlab ram cache .partly slab } := by
  unfold BuddyAllocator.partlyFullSlab
  refine Attempt.answers_bind_of_ok (Attempt.answers_outcome_get_iff.2 ⟨rfl, rfl⟩) ?_
  rw [none]
  refine Attempt.answers_bind_of_ok (answers_onRam popped) ?_
  refine Attempt.answers_bind_of_ok (Action.answers_pure_iff.2 ⟨rfl, rfl⟩) ?_
  refine Attempt.answers_bind_of_ok (answers_onRam_modify _) ?_
  exact Action.answers_pure_iff.2 ⟨rfl, rfl⟩

private theorem partlyFullSlab_of_created
    (none : Cache.firstSlab buddy.ram cache .partly = none)
    (unpopped : Action.Answers (Cache.popSlab cache .empty) buddy.ram .none buddy.ram)
    (created : Action.Answers (createSlab cache (Cache.objectSize buddy.ram cache)).outcome buddy
      (.ok slab) after) :
    Action.Answers (partlyFullSlab cache).outcome buddy (.ok slab)
      { after with ram := Cache.pushSlab after.ram cache .partly slab } := by
  unfold BuddyAllocator.partlyFullSlab
  refine Attempt.answers_bind_of_ok (Attempt.answers_outcome_get_iff.2 ⟨rfl, rfl⟩) ?_
  rw [none]
  refine Attempt.answers_bind_of_ok (answers_onRam unpopped) ?_
  refine Attempt.answers_bind_of_ok (Attempt.answers_outcome_get_iff.2 ⟨rfl, rfl⟩) ?_
  refine Attempt.answers_bind_of_ok created ?_
  refine Attempt.answers_bind_of_ok (answers_onRam_modify _) ?_
  exact Action.answers_pure_iff.2 ⟨rfl, rfl⟩

private theorem partlyFullSlab_of_refused {failure : AllocFailure}
    (none : Cache.firstSlab buddy.ram cache .partly = none)
    (unpopped : Action.Answers (Cache.popSlab cache .empty) buddy.ram .none buddy.ram)
    (refused : Action.Answers (createSlab cache (Cache.objectSize buddy.ram cache)).outcome buddy
      (.error failure) buddy) :
    Action.Answers (partlyFullSlab cache).outcome buddy (.error failure) buddy := by
  unfold BuddyAllocator.partlyFullSlab
  refine Attempt.answers_bind_of_ok (Attempt.answers_outcome_get_iff.2 ⟨rfl, rfl⟩) ?_
  rw [none]
  refine Attempt.answers_bind_of_ok (answers_onRam unpopped) ?_
  refine Attempt.answers_bind_of_ok (Attempt.answers_outcome_get_iff.2 ⟨rfl, rfl⟩) ?_
  exact Attempt.answers_bind_of_error refused

section

variable (stocked : buddy.Stocked allocator store) (member : cache ∈ store.caches)

include stocked member

/-- Where no slab is partly full an empty one is made so. -/
theorem partlyFullSlab_of_empty {rest : List Nat} (none : (store.stock cache).slabs .partly = [])
    (first : (store.stock cache).slabs .empty = slab :: rest) :
    ∃ after, Action.Answers (BuddyAllocator.partlyFullSlab cache).outcome buddy (.ok slab) after ∧
      after.Stocked allocator (store.restock cache (store.stock cache).promote) ∧
      buddy.Steady after ∧
      buddy.Opened cache (store.stock cache) slab (store.stock cache).promote after ∧
        (store.stock cache).promote.slabs .partly = [slab] := by
  have kept := stocked.kept cache member
  have placed := stocked.placed member
  have oneReady := stocked.oneReady cache member
  have partly := kept.threads .partly
  rw [none] at partly
  obtain ⟨promoted, agrees⟩ := kept.promote placed oneReady.nodup first
  have listed : slab ∈ (store.stock cache).all :=
    Stock.mem_all (by rw [first]; exact List.mem_cons_self)
  refine ⟨_, partlyFullSlab_of_popped partly (kept.popSlab_cons placed first),
    stocked.restock_ram member (Stock.size_promote _) promoted
      (oneReady.promote (stocked.positive cache member))
      (fun slab => (Stock.all_promote_perm _).mem_iff)
      (agrees.mono fun _ => Stock.Plot.estate listed),
    .of_ram buddy _, .old agrees, ?_⟩
  rw [Stock.promote_cons first, Stock.slabs_add, if_pos rfl, Stock.slabs_put, if_neg (by decide),
    none]

/-- Where no slab is ready a page is made one, unless the heap has none that is free. -/
theorem partlyFullSlab_of_full (none : (store.stock cache).slabs .partly = [])
    (unready : (store.stock cache).slabs .empty = []) :
    (Action.Answers (BuddyAllocator.partlyFullSlab cache).outcome buddy (.error (.outOfMemory 0))
        buddy ∧ buddy.Barren (store.stock cache)) ∨
      ∃ slab stock after,
        Action.Answers (BuddyAllocator.partlyFullSlab cache).outcome buddy (.ok slab) after ∧
        after.Stocked allocator (store.restock cache stock) ∧ buddy.Steady after ∧
        buddy.Opened cache (store.stock cache) slab stock after ∧
          stock.slabs .partly = [slab] := by
  have kept := stocked.kept cache member
  have partly := kept.threads .partly
  rw [none] at partly
  have unpopped := kept.popSlab_nil unready
  have positive : 0 < Slab.capacity buddy.geometry.size (Cache.objectSize buddy.ram cache) := by
    rw [kept.size_eq]
    exact stocked.positive cache member
  rcases @Sound.createSlab buddy cache _ stocked.sound stocked.heap stocked.reserved positive with
    ⟨refused, absent⟩ | ⟨frame, slab, after, grown, created⟩
  · exact .inl ⟨partlyFullSlab_of_refused partly unpopped refused, ⟨none, unready⟩, absent⟩
  · right
    rw [kept.size_eq] at grown
    have fresh := stocked.grown_fresh grown member
    refine ⟨slab, _, _, partlyFullSlab_of_created partly unpopped created,
      stocked.restock_grown grown member (Cache.agreesOff_pushSlab after.ram cache _ slab)
        ((stocked.oneReady cache member).add_partly fresh ⟨none, unready⟩ ?_)
        ((stocked.grown_kept grown member).push (stocked.grown_placed grown member) fresh
          grown.keeps),
      (grown.steady stocked.sound stocked.heap).trans (.of_ram after _),
      .new ⟨none, unready⟩ fresh grown
        ((Cache.agreesOff_pushSlab after.ram cache _ slab).mono fun _ => Stock.plot_of_nextWord),
      ?_⟩
    · exact List.ne_nil_of_mem
        (List.mem_range.2 (Slab.room_pos (stocked.positive cache member)))
    · rw [Stock.slabs_add, if_pos rfl, none]

/-- A cache has a slab that is ready, or makes one ready, or the heap has no page for it. -/
theorem partlyFullSlab :
    (Action.Answers (partlyFullSlab cache).outcome buddy (.error (.outOfMemory 0)) buddy ∧
      buddy.Barren (store.stock cache)) ∨
    ∃ slab rest stock after,
      Action.Answers (BuddyAllocator.partlyFullSlab cache).outcome buddy (.ok slab) after ∧
      after.Stocked allocator (store.restock cache stock) ∧ buddy.Steady after ∧
      buddy.Opened cache (store.stock cache) slab stock after ∧
        stock.slabs .partly = slab :: rest := by
  cases first : (store.stock cache).slabs .partly with
  | cons slab rest =>
      right
      have single := (stocked.oneReady cache member).single
      have partly := (stocked.kept cache member).threads .partly
      rw [first] at partly
      rw [first, List.length_cons] at single
      have empty : (store.stock cache).slabs .empty = [] := List.length_eq_zero_iff.1 (by omega)
      have same : (store.stock cache).promote = store.stock cache := Stock.promote_nil empty
      refine ⟨slab, rest, (store.stock cache).promote, buddy, partlyFullSlab_of_some partly.1, ?_,
        .refl buddy, @Opened.old buddy cache _ slab buddy.ram (.refl _ _), by rw [same, first]⟩
      rw [same, Store.restock_self]
      exact stocked
  | nil =>
      cases last : (store.stock cache).slabs .empty with
      | cons slab rest =>
          obtain ⟨after, found⟩ := stocked.partlyFullSlab_of_empty member first last
          exact .inr ⟨slab, [], _, after, found⟩
      | nil =>
          rcases stocked.partlyFullSlab_of_full member first last with
            refused | ⟨slab, stock, after, found⟩
          · exact .inl refused
          · exact .inr ⟨slab, [], stock, after, found⟩

end

end Stocked

/-- A cache has handed out the first free object of the slab that was made ready. -/
structure Served (buddy after : BuddyAllocator) (allocator : SlabAllocator) (store : Store)
    (cache slab index : Nat) (stock : Stock) : Prop where
  stocked : after.Stocked allocator (store.restock cache (stock.take slab))
  steady : buddy.Steady after
  opened : buddy.Opened cache (store.stock cache) slab stock after
  first : ∃ rest, stock.slabs .partly = slab :: rest
  free : ∃ others, stock.free slab = index :: others
  keeps : (stock.free slab).Nodup ∧
    index < Slab.room (stock.capacity buddy.geometry.size)

theorem Served.readied {index : Nat} {stock : Stock}
    (served : buddy.Served after allocator store cache slab index stock) :
    (store.stock cache).Readied buddy.geometry.size stock :=
  served.opened.readied

theorem Served.not_barren {index : Nat} {stock : Stock}
    (served : buddy.Served after allocator store cache slab index stock) :
    ¬ buddy.Barren (store.stock cache) := by
  rintro ⟨⟨partly, empty⟩, absent⟩
  obtain ⟨rest, first⟩ := served.first
  cases served.opened with
  | old agrees =>
      rw [Stock.promote_nil empty, partly] at first
      cases first
  | new none fresh grown agrees => exact absent _ grown.free

/-- What comes of asking a cache for an object: the first that is ready, or a refusal. -/
inductive Dispensed (buddy : BuddyAllocator) (allocator : SlabAllocator) (store : Store)
    (cache : Nat) : BuddyAllocator → Store → Except AllocFailure Nat → Prop where
  | refused (barren : buddy.Barren (store.stock cache)) :
      Dispensed buddy allocator store cache buddy store (.error (.outOfMemory 0))
  | served {slab index : Nat} {stock : Stock} {after : BuddyAllocator}
      (served : buddy.Served after allocator store cache slab index stock) :
      Dispensed buddy allocator store cache after (store.restock cache (stock.take slab))
        (.ok ((store.stock cache).slot buddy.geometry.size slab index))

namespace Dispensed

variable {store' : Store} {answer : Except AllocFailure Nat}
  (dispensed : buddy.Dispensed allocator store cache after store' answer)

include dispensed

theorem stocked (stocked : buddy.Stocked allocator store) : after.Stocked allocator store' := by
  cases dispensed with
  | refused barren => exact stocked
  | served served => exact served.stocked

theorem steady : buddy.Steady after := by
  cases dispensed with
  | refused barren => exact .refl buddy
  | served served => exact served.steady

end Dispensed

/-- An object is handed out, or the request is refused and nothing changes. -/
theorem Stocked.allocateFrom (stocked : buddy.Stocked allocator store)
    (member : cache ∈ store.caches) :
    ∃ answer after store',
      Action.Answers (BuddyAllocator.allocateFrom cache).outcome buddy answer after ∧
        buddy.Dispensed allocator store cache after store' answer := by
  rcases stocked.partlyFullSlab member with ⟨refused, barren⟩ |
    ⟨slab, rest, stock, middle, opens, ready, steady, opened, first⟩
  · exact ⟨_, _, _, Attempt.answers_bind_of_error refused, .refused barren⟩
  · have here : (store.restock cache stock).stock cache = stock := by
      rw [Store.stock_restock_self]
    have kept := ready.kept cache member
    have oneReady := ready.oneReady cache member
    have placed := ready.placed member
    rw [here, steady.geometry_eq] at kept oneReady placed
    have open_slab := oneReady.partial_free slab (by rw [first]; exact List.mem_cons_self)
    obtain ⟨index, others, free⟩ := List.exists_cons_of_ne_nil open_slab
    have listed : slab ∈ stock.all := Stock.mem_all (by rw [first]; exact List.mem_cons_self)
    obtain ⟨ram, taken, kept', agrees⟩ := kept.takeObject placed oneReady.nodup first free
    have keeps := kept.keeps slab listed
    have size := opened.readied.size_eq
    have changed : ({ middle with ram := ram } : BuddyAllocator).Stocked allocator
        ((store.restock cache stock).restock cache (stock.take slab)) :=
      ready.restock_ram member (by rw [here, Stock.size_take])
        (by rw [steady.geometry_eq]; exact kept')
        (by rw [steady.geometry_eq]; exact oneReady.take first)
        (fun other => by rw [here]; exact (Stock.all_take_perm stock slab).mem_iff)
        (by rw [here, steady.geometry_eq]; exact agrees.mono fun _ => Stock.Plot.estate listed)
    rw [Store.restock_restock] at changed
    have served : buddy.Served { middle with ram := ram } allocator store cache slab index stock :=
      ⟨changed, steady.trans (.of_ram middle ram),
        opened.write (agrees.mono fun _ => Stock.Plot.congr size), ⟨rest, first⟩, ⟨others, free⟩,
        keeps.nodup, keeps.below index (by rw [free]; exact List.mem_cons_self)⟩
    refine ⟨_, _, _, ?_, .served served⟩
    rw [← Stock.slot_congr size]
    exact Attempt.answers_bind_of_ok opens (answers_onRam taken)

end BuddyAllocator

end PhysicalMemory
