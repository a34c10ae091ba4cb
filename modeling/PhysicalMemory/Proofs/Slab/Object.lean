import PhysicalMemory.Slab.Free
import PhysicalMemory.Proofs.Slab.Cache

/-!
# Objects taken and given back

The first partly full slab hands its first free object out and, when that was
its last, goes to the full slabs.  Every address belongs to one part of a slab:
in an object it leads back to the object's number, and the object goes in front
of the chain of its slab, which stays on its list; elsewhere it is turned away.
Taking and giving back write only the record of the cache, behind the name of the
next one, and the metadata of its slabs.
-/

namespace PhysicalMemory

namespace Cache

theorem agreesOff_retire {ram : Ram} {cache slab : Nat}
    (first : firstSlab ram cache .partly = some slab) :
    ram.AgreesOff (retire ram cache) fun byte =>
      Fields cache byte ∨ Slab.NextWord slab byte := by
  rw [retire, popSlab?, first]
  exact ((agreesOff_setFirstSlab ram cache _ _).mono fun _ inside => .inl inside).trans
    (agreesOff_pushSlab _ cache _ slab)

end Cache

namespace Slab

variable {ram : Ram} {slab size capacity base address index other : Nat} {part : Part}

def objectPlace (slab capacity size index : Nat) : Nat :=
  slab + metadataSize capacity + index * size

theorem objectPlace_le (below : index < other) :
    objectPlace slab capacity size index + size ≤ objectPlace slab capacity size other := by
  have step := Nat.mul_le_mul_right size (Nat.succ_le_of_lt below)
  rw [Nat.succ_mul] at step
  simp only [objectPlace]
  omega

/-- The address belongs to the part of a slab whose objects begin at the base. -/
def Lies (base size capacity address : Nat) : Part → Prop
  | .metadata => address < base
  | .object index =>
      index < capacity ∧ base + index * size ≤ address ∧ address < base + index * size + size
  | .rest => base + capacity * size ≤ address

/-- Every address belongs to a part. -/
theorem exists_lies (positive : 0 < size) (base capacity address : Nat) :
    ∃ part, Lies base size capacity address part := by
  by_cases low : address < base
  · exact ⟨.metadata, low⟩
  by_cases high : base + capacity * size ≤ address
  · exact ⟨.rest, high⟩
  · have below : (address - base) / size < capacity :=
      (Nat.div_lt_iff_lt_mul positive).2 (by omega)
    have division := Nat.div_add_mod' (address - base) size
    have offset := Nat.mod_lt (address - base) positive
    exact ⟨.object ((address - base) / size), below, by omega, by omega⟩

/-- The part that is found for an address is the one that it belongs to. -/
theorem partAt_of_lies (positive : 0 < size)
    (lies : Lies (objects ram slab) size capacity address part) :
    partAt ram slab size capacity address = .ok part := by
  cases part with
  | metadata => exact if_pos lies
  | object index =>
      obtain ⟨below, low, high⟩ := lies
      have quotient : (address - objects ram slab) / size = index := by
        rw [Nat.div_eq_iff positive]
        constructor <;> omega
      rw [partAt, if_neg (by omega), Word.div, if_neg (Nat.ne_of_gt positive), quotient]
      exact if_pos below
  | rest =>
      have above : objects ram slab + capacity * size ≤ address := lies
      have quotient : ¬ (address - objects ram slab) / size < capacity := by
        rw [Nat.not_lt, Nat.le_div_iff_mul_le positive]
        omega
      rw [partAt, if_neg (by omega), Word.div, if_neg (Nat.ne_of_gt positive)]
      exact if_neg quotient

def popFree (ram : Ram) (slab : Nat) : Ram :=
  setHandedOut (setCursor ram slab (link ram slab (cursor ram slab))) slab
    (handedOut ram slab + 1)

theorem agreesOff_popFree (ram : Ram) (slab capacity : Nat) :
    ram.AgreesOff (popFree ram slab) (Metadata slab capacity) :=
  (agreesOff_setCursor ram slab _ _).trans (agreesOff_setHandedOut _ slab _ _)

@[simp] theorem objects_popFree (ram : Ram) (slab : Nat) :
    objects (popFree ram slab) slab = objects ram slab := by
  rw [popFree, objects_setHandedOut, objects_setCursor]

/-- The rest of the chain is left, and the slab can count the object that was taken off. -/
theorem ListsFree.popFree {rest : List Nat} (keeps : ListsFree ram slab capacity (index :: rest)) :
    handedOut ram slab + 1 < linkLimit ∧ ListsFree (popFree ram slab) slab capacity rest := by
  obtain rfl : cursor ram slab = index := keeps.leads.1
  exact keeps.take

end Slab

def Cache.dispense (ram : Ram) (cache slab : Nat) : Ram :=
  if Slab.cursor (Slab.popFree ram slab) slab = Slab.endMark
    then retire (Slab.popFree ram slab) cache else Slab.popFree ram slab

/-- A slab that can count one object more hands out its first free one, if that has a place. -/
theorem Cache.answers_takeObject {ram : Ram} {cache slab object : Nat}
    (counted : Slab.handedOut ram slab + 1 < Slab.linkLimit)
    (placed : Slab.objectAt (Slab.popFree ram slab) slab
      (objectSize (Slab.popFree ram slab) cache) (Slab.cursor ram slab) = .ok object)
    (nonzero : object ≠ 0) :
    Action.Answers (takeObject cache slab) ram object (dispense ram cache slab) := by
  have count : Word.addWithin 32 (Slab.handedOut (Slab.setCursor ram slab
      (Slab.link ram slab (Slab.cursor ram slab))) slab) 1 =
        .ok (Slab.handedOut ram slab + 1) := by
    rw [Slab.handedOut_setCursor]
    exact Word.addWithin_eq_ok_iff.2 ⟨counted, rfl⟩
  simp only [takeObject, Action.answers_get_bind_iff, Action.answers_modify_bind_iff,
    Action.liftM_eq_check, Action.answers_check_bind_iff]
  refine ⟨_, count, object, placed, ?_⟩
  change Action.Answers (do
    if Slab.cursor (Slab.popFree ram slab) slab = Slab.endMark
      then modify fun ram => retire ram cache
    if object = 0 then Action.violate .nullObject
    return object) (Slab.popFree ram slab) object _
  rw [if_neg nonzero, dispense]
  split
  · simp only [Action.answers_modify_bind_iff]
    exact Action.answers_pure_iff.2 ⟨rfl, rfl⟩
  · exact Action.answers_pure_iff.2 ⟨rfl, rfl⟩

def Slab.freed (ram : Ram) (slab address : Nat) : Part → Outcome Ram Unit
  | .metadata => ⟨.ok (), ram, [.freeInSlabMetadata address]⟩
  | .object index => ⟨.ok (), pushFree ram slab (index % linkLimit), []⟩
  | .rest => ⟨.ok (), ram, [.freePastLastObject address]⟩

/-- Freeing an address goes by the part of the slab that is found for it. -/
theorem SlabAllocator.run_free {allocator : SlabAllocator} {ram : Ram} {page : Page}
    {cache address : Nat} {part : Slab.Part} (owner : page.cache = some cache)
    (nonzero : page.start ≠ 0)
    (found : Slab.partAt ram page.start (Cache.objectSize ram cache)
      (allocator.capacityFor (Cache.objectSize ram cache)) address = .ok part) :
    (allocator.free address page).run ram = Slab.freed ram page.start address part := by
  rw [SlabAllocator.free, owner]
  dsimp only
  rw [Action.run_get_bind, if_neg nonzero]
  simp only [Action.liftM_eq_check, found, Action.check_ok, pure_bind]
  cases part <;> rfl

namespace Stock

variable {stock : Stock} {ram ram' : Ram} {pageSize cache slab index address : Nat}
  {fill : Fill} {free rest others : List Nat}

theorem Plot.estate (member : slab ∈ stock.all) {byte : Nat}
    (inside : stock.Plot pageSize cache slab byte) : stock.Estate pageSize cache byte :=
  inside.imp_right fun metadata => ⟨slab, member, metadata⟩

theorem Plot.congr {stock' : Stock} (size : stock'.size = stock.size) {byte : Nat}
    (inside : stock'.Plot pageSize cache slab byte) : stock.Plot pageSize cache slab byte := by
  rwa [Plot, capacity_congr size] at inside

theorem plot_of_nextWord {byte : Nat}
    (inside : Cache.Fields cache byte ∨ Slab.NextWord slab byte) :
    stock.Plot pageSize cache slab byte :=
  inside.imp_right Slab.nextWord_metadata

theorem estate_of_metadata (member : slab ∈ stock.all) {byte : Nat}
    (inside : Slab.Metadata slab (stock.capacity pageSize) byte) :
    stock.Estate pageSize cache byte :=
  .inr ⟨slab, member, inside⟩

theorem slot_apart {other : Nat} (distinct : index ≠ other) :
    stock.slot pageSize slab index + stock.size ≤ stock.slot pageSize slab other ∨
      stock.slot pageSize slab other + stock.size ≤ stock.slot pageSize slab index :=
  (Nat.lt_or_gt_of_ne distinct).imp Slab.objectPlace_le Slab.objectPlace_le

/-- An object of a slab lies behind the metadata and in the page. -/
theorem Placed.slot_bounds (placed : stock.Placed pageSize cache) (slab : Nat)
    (below : index < stock.capacity pageSize) :
    slab + Slab.metadataSize (stock.capacity pageSize) ≤ stock.slot pageSize slab index ∧
      stock.slot pageSize slab index + stock.size ≤ slab + pageSize := by
  have fits := placed.metadata_le
  have inside : stock.slot pageSize slab index + stock.size ≤
      stock.slot pageSize slab (stock.capacity pageSize) := Slab.objectPlace_le below
  simp only [slot] at *
  omega

namespace RecordedIn

/-- Another list of free objects in one slab changes nothing about the other slabs. -/
theorem rechain (kept : stock.RecordedIn ram pageSize cache) (placed : stock.Placed pageSize cache)
    (member : slab ∈ stock.all)
    (agrees : ram.AgreesOff ram' (Slab.Metadata slab (stock.capacity pageSize)))
    (next : Chain.link ram' Slab.nextField slab = Chain.link ram Slab.nextField slab)
    (keeps : Slab.ListsFree ram' slab (stock.capacity pageSize) free) :
    (stock.chain slab free).RecordedIn ram' pageSize cache := by
  have first : ∀ fill, Cache.firstSlab ram' cache fill = Cache.firstSlab ram cache fill :=
    fun fill => Chain.link_eq_of_agreesOff agrees fun byte low high =>
      placed.beside slab member byte (Cache.fields_of_listWord low high).record
  refine ⟨?_, ?_, ?_⟩
  · refine Eq.trans (agrees.read_eq fun byte low high => ?_) kept.size_eq
    apply placed.beside slab member byte
    simp only [Cache.Record, Cache.objectSizeField, CacheRecord.size] at *
    omega
  · intro fill
    rw [first]
    refine (kept.threads fill).congr fun other listed => ?_
    by_cases same : other = slab
    · rw [same, next]
    · exact Chain.link_eq_of_agreesOff agrees fun byte low high =>
        placed.metadata_apart (mem_all listed) member same (Slab.nextWord_metadata ⟨low, high⟩)
  · intro other listed
    rw [free_chain]
    split
    · next same =>
        subst same
        exact keeps
    · next distinct =>
        exact (kept.keeps other listed).congr agrees fun byte metadata _ =>
          placed.metadata_apart listed member distinct metadata

theorem retire (kept : stock.RecordedIn ram pageSize cache) (placed : stock.Placed pageSize cache)
    (oneReady : stock.all.Nodup) (first : stock.slabs .partly = slab :: rest) :
    stock.retire.RecordedIn (Cache.retire ram cache) pageSize cache := by
  obtain ⟨popped, kept', keeps⟩ := kept.pop placed first
  rw [Cache.retire, popped, retire_cons first]
  refine kept'.push (placed.congr rfl fun other => (all_move_perm first).mem_iff.1) ?_ keeps
  exact (List.nodup_cons.1 ((all_put_perm first).nodup_iff.1 oneReady)).1

theorem popSlab_nil (kept : stock.RecordedIn ram pageSize cache) (none : stock.slabs fill = []) :
    Action.Answers (Cache.popSlab cache fill) ram .none ram := by
  have threads := kept.threads fill
  rw [none] at threads
  have unpopped : Cache.popSlab? ram cache fill = .none := by rw [Cache.popSlab?, threads]; rfl
  rw [Cache.popSlab, Action.answers_get_bind_iff, unpopped]
  exact Action.answers_pure_iff.2 ⟨rfl, rfl⟩

theorem popSlab_cons (kept : stock.RecordedIn ram pageSize cache)
    (placed : stock.Placed pageSize cache)
    (first : stock.slabs fill = slab :: rest) :
    Action.Answers (Cache.popSlab cache fill) ram (some slab)
      (Cache.setFirstSlab ram cache fill (Chain.link ram Slab.nextField slab)) := by
  rw [Cache.popSlab, Action.answers_get_bind_iff, (kept.pop placed first).1]
  exact Action.answers_bind_iff.2
    ⟨PUnit.unit, _, Action.answers_set_iff.2 rfl, Action.answers_pure_iff.2 ⟨rfl, rfl⟩⟩

/-- The first empty slab becomes partly full. -/
theorem promote (kept : stock.RecordedIn ram pageSize cache) (placed : stock.Placed pageSize cache)
    (oneReady : stock.all.Nodup) (first : stock.slabs .empty = slab :: rest) :
    stock.promote.RecordedIn (Cache.pushSlab (Cache.setFirstSlab ram cache .empty
        (Chain.link ram Slab.nextField slab)) cache .partly slab) pageSize cache ∧
      ram.AgreesOff (Cache.pushSlab (Cache.setFirstSlab ram cache .empty
        (Chain.link ram Slab.nextField slab)) cache .partly slab)
          (stock.Plot pageSize cache slab) := by
  obtain ⟨-, kept', keeps⟩ := kept.pop placed first
  refine ⟨?_, ?_⟩
  · rw [promote_cons first]
    refine kept'.push (placed.congr rfl fun other => (all_move_perm first).mem_iff.1) ?_ keeps
    exact (List.nodup_cons.1 ((all_put_perm first).nodup_iff.1 oneReady)).1
  · exact ((Cache.agreesOff_setFirstSlab ram cache _ _).mono fun _ => .inl).trans
      ((Cache.agreesOff_pushSlab _ cache _ slab).mono fun _ => plot_of_nextWord)

/-- The first partly full slab hands out its first free object. -/
theorem takeObject (kept : stock.RecordedIn ram pageSize cache)
    (placed : stock.Placed pageSize cache)
    (oneReady : stock.all.Nodup) (first : stock.slabs .partly = slab :: rest)
    (free : stock.free slab = index :: others) :
    ∃ ram', Action.Answers (Cache.takeObject cache slab) ram
        (stock.slot pageSize slab index) ram' ∧
      (stock.take slab).RecordedIn ram' pageSize cache ∧
        ram.AgreesOff ram' (stock.Plot pageSize cache slab) := by
  have member : slab ∈ stock.all := mem_all (by rw [first]; exact List.mem_cons_self)
  have keeps := kept.keeps slab member
  have inside : index < stock.capacity pageSize := Nat.lt_of_lt_of_le
    (keeps.below index (by rw [free]; exact List.mem_cons_self)) (Slab.room_le _)
  rw [free] at keeps
  obtain rfl : Slab.cursor ram slab = index := keeps.leads.1
  obtain ⟨bound, keeps'⟩ := keeps.popFree
  have agrees := Slab.agreesOff_popFree ram slab (stock.capacity pageSize)
  have next : Chain.link (Slab.popFree ram slab) Slab.nextField slab =
      Chain.link ram Slab.nextField slab := by
    simp only [Chain.link, Slab.popFree, Slab.setHandedOut, Slab.setCursor, Slab.nextField,
      Slab.handedOutField]
    rw [Ram.word_setHalf_of_disjoint (.inr (by omega)),
      Ram.word_setHalf_of_disjoint (.inr (by omega))]
  have kept' := kept.rechain placed member agrees next keeps'
  have plot : ram.AgreesOff (Slab.popFree ram slab) (stock.Plot pageSize cache slab) :=
    agrees.mono fun _ => .inr
  -- the place of the object is a word
  have bounds := placed.slot_bounds slab inside
  have high := placed.bounded slab member
  have size := kept'.size_eq
  rw [size_chain] at size
  have object : Slab.objectAt (Slab.popFree ram slab) slab
      (Cache.objectSize (Slab.popFree ram slab) cache) (Slab.cursor ram slab) =
        .ok (stock.slot pageSize slab (Slab.cursor ram slab)) := by
    have place : stock.slot pageSize slab (Slab.cursor ram slab) = slab +
        Slab.metadataSize (stock.capacity pageSize) + Slab.cursor ram slab * stock.size := rfl
    rw [Slab.objectAt, size, keeps'.objects_eq, Word.mul_of_lt (by omega)]
    exact Word.add_of_lt (by omega)
  have nonzero : stock.slot pageSize slab (Slab.cursor ram slab) ≠ 0 := by
    have := placed.nonzero slab member
    omega
  refine ⟨_, Cache.answers_takeObject bound object nonzero, ?_⟩
  by_cases last : others = []
  · subst last
    rw [Cache.dispense, if_pos (keeps'.cursor_eq_endMark_iff.2 rfl), take_last (by rw [free]; rfl)]
    refine ⟨kept'.retire (placed.congr rfl fun _ => id) oneReady first, ?_⟩
    have head : Cache.firstSlab (Slab.popFree ram slab) cache .partly = some slab := by
      have threads := kept'.threads .partly
      rw [slabs_chain, first] at threads
      exact threads.1
    exact plot.trans ((Cache.agreesOff_retire head).mono fun _ => plot_of_nextWord)
  · rw [Cache.dispense, if_neg (fun ended => last (keeps'.cursor_eq_endMark_iff.1 ended)),
      take_more (by rw [free]; exact last), free]
    exact ⟨kept', plot⟩

/-- An address in an object of a slab puts the object in front of the slab's chain. -/
theorem freeObject (kept : stock.RecordedIn ram pageSize cache)
    (placed : stock.Placed pageSize cache)
    (member : slab ∈ stock.all) (inside : index < stock.capacity pageSize)
    (low : stock.slot pageSize slab index ≤ address)
    (high : address < stock.slot pageSize slab index + stock.size)
    {allocator : SlabAllocator} (pages : allocator.pageSize = pageSize) {page : Page}
    (start : page.start = slab) (owner : page.cache = some cache) :
    Action.Answers (allocator.free address page) ram ()
      (Slab.pushFree ram slab (index % Slab.linkLimit)) := by
  subst start
  have lies : Slab.Lies (Slab.objects ram page.start) stock.size (stock.capacity pageSize) address
      (.object index) := by
    rw [(kept.keeps page.start member).objects_eq]
    exact ⟨inside, low, high⟩
  have found : Slab.partAt ram page.start (Cache.objectSize ram cache)
      (allocator.capacityFor (Cache.objectSize ram cache)) address = .ok (.object index) := by
    rw [kept.size_eq, SlabAllocator.capacityFor, pages]
    exact Slab.partAt_of_lies (by omega) lies
  have freed := SlabAllocator.run_free owner (placed.nonzero page.start member) found
  exact ⟨by rw [freed]; rfl, by rw [freed]; rfl⟩

/-- An address in an object that was handed out makes the object free. -/
theorem giveObject (kept : stock.RecordedIn ram pageSize cache)
    (placed : stock.Placed pageSize cache)
    (member : slab ∈ stock.all) (below : index < Slab.room (stock.capacity pageSize))
    (taken : index ∉ stock.free slab) (low : stock.slot pageSize slab index ≤ address)
    (high : address < stock.slot pageSize slab index + stock.size)
    {allocator : SlabAllocator} (pages : allocator.pageSize = pageSize) {page : Page}
    (start : page.start = slab) (owner : page.cache = some cache) :
    ∃ ram', Action.Answers (allocator.free address page) ram () ram' ∧
      (stock.give slab index).RecordedIn ram' pageSize cache ∧
        ram.AgreesOff ram' (stock.Estate pageSize cache) := by
  obtain ⟨keeps', agrees⟩ := (kept.keeps slab member).give below taken
  have next : Chain.link (Slab.pushFree ram slab index) Slab.nextField slab =
      Chain.link ram Slab.nextField slab := by
    simp only [Chain.link, Slab.pushFree, Slab.setHandedOut, Slab.setCursor, Slab.setLink,
      Slab.nextField, Slab.handedOutField, Slab.linkPlace, Slab.headerSize]
    rw [Ram.word_setHalf_of_disjoint (.inr (by omega)),
      Ram.word_setHalf_of_disjoint (.inr (by omega)),
      Ram.word_setHalf_of_disjoint (.inl (by omega))]
  refine ⟨Slab.pushFree ram slab index, ?_, ?_, ?_⟩
  · have freed := kept.freeObject placed member (Nat.lt_of_lt_of_le below (Slab.room_le _)) low high
      pages start owner
    rwa [Nat.mod_eq_of_lt (Nat.lt_trans below (Slab.room_lt _))] at freed
  · exact kept.rechain placed member agrees next keeps'
  · exact agrees.mono fun byte => estate_of_metadata member

/-- An address in the page of a slab but in no object of it changes nothing. -/
theorem missObject (kept : stock.RecordedIn ram pageSize cache)
    (placed : stock.Placed pageSize cache)
    (member : slab ∈ stock.all) (positive : 0 < stock.size)
    (misses : ∀ index < stock.capacity pageSize, ¬ (stock.slot pageSize slab index ≤ address ∧
      address < stock.slot pageSize slab index + stock.size))
    {allocator : SlabAllocator} (pages : allocator.pageSize = pageSize) {page : Page}
    (start : page.start = slab) (owner : page.cache = some cache) :
    Action.Answers (allocator.free address page) ram () ram := by
  subst start
  obtain ⟨part, lies⟩ := Slab.exists_lies positive (Slab.objects ram page.start)
    (stock.capacity pageSize) address
  have found : Slab.partAt ram page.start (Cache.objectSize ram cache)
      (allocator.capacityFor (Cache.objectSize ram cache)) address = .ok part := by
    rw [kept.size_eq, SlabAllocator.capacityFor, pages]
    exact Slab.partAt_of_lies positive lies
  have freed := SlabAllocator.run_free owner (placed.nonzero page.start member) found
  cases part with
  | metadata | rest => exact ⟨by rw [freed]; rfl, by rw [freed]; rfl⟩
  | object index =>
      rw [(kept.keeps page.start member).objects_eq] at lies
      exact absurd lies.2 (misses index lies.1)

end RecordedIn

end Stock

end PhysicalMemory
