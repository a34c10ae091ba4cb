import PhysicalMemory.Slab.Allocate
import PhysicalMemory.Proofs.Answers
import PhysicalMemory.Proofs.Slab.Stock

/-!
# The record of a cache and its slabs

Memory keeps a stock when the record of the cache names the size and the first
slab of each list, the slabs name each other, and each slab keeps its free
objects.  Apart from its place in the ring, all of this stands in the record and
in the metadata of the slabs.  Moving slabs between the lists and handing objects
out change memory as they change the stock.
-/

namespace PhysicalMemory

namespace Cache

def Record (cache byte : Nat) : Prop :=
  cache ≤ byte ∧ byte < cache + CacheRecord.size

def Fields (cache byte : Nat) : Prop :=
  cache + 8 ≤ byte ∧ byte < cache + CacheRecord.size

def NextWord (cache byte : Nat) : Prop :=
  cache ≤ byte ∧ byte < cache + 8

theorem Fields.record {cache byte : Nat} (inside : Fields cache byte) : Record cache byte :=
  ⟨Nat.le_trans (Nat.le_add_right _ _) inside.1, inside.2⟩

theorem NextWord.record {cache byte : Nat} (inside : NextWord cache byte) : Record cache byte :=
  ⟨inside.1, Nat.lt_of_lt_of_le inside.2 (Nat.add_le_add_left (by decide) cache)⟩

theorem NextWord.not_fields {cache byte : Nat} (inside : NextWord cache byte) :
    ¬ Fields cache byte := fun fields =>
  absurd inside.2 (Nat.not_lt.2 fields.1)

theorem fields_of_listWord {cache byte : Nat} {fill : Fill}
    (low : cache + listField fill ≤ byte) (high : byte < cache + listField fill + 8) :
    Fields cache byte := by
  cases fill <;> simp only [Fields, listField, CacheRecord.size] at * <;> omega

theorem agreesOff_setFirstSlab (ram : Ram) (cache : Nat) (fill : Fill) (head : Option Nat) :
    ram.AgreesOff (setFirstSlab ram cache fill head) (Fields cache) :=
  (Chain.agreesOff_setLink ram (listField fill) cache head).mono fun _ inside =>
    fields_of_listWord inside.1 inside.2

theorem agreesOff_pushSlab (ram : Ram) (cache : Nat) (fill : Fill) (slab : Nat) :
    ram.AgreesOff (pushSlab ram cache fill slab) fun byte =>
      Fields cache byte ∨ Slab.NextWord slab byte :=
  ((Chain.agreesOff_setLink ram Slab.nextField slab _).mono fun _ inside => .inr inside).trans
    ((agreesOff_setFirstSlab _ cache fill _).mono fun _ inside => .inl inside)

end Cache

namespace Slab

variable {pageSize objectSize : Nat}

/-- Where a slab has room for an object at all, page and object are of sensible size. -/
theorem of_capacity_pos (positive : 0 < capacity pageSize objectSize)
    (page : pageSize < Word.limit) : headerSize < pageSize ∧ objectSize + linkSize ≤ Word.last := by
  unfold capacity at positive
  split at positive
  · cases positive
  · next large =>
      refine ⟨Nat.lt_of_not_le large, ?_⟩
      have fits := (Nat.div_pos_iff.1 positive).2
      have last : Word.last = Word.limit - 1 := rfl
      simp only [Word.addSaturating, headerSize] at *
      omega

theorem metadataSize_le (positive : 0 < capacity pageSize objectSize)
    (page : pageSize < Word.limit) :
    metadataSize (capacity pageSize objectSize) +
      capacity pageSize objectSize * objectSize ≤ pageSize :=
  metadataSize_add_le (of_capacity_pos positive page).1 (of_capacity_pos positive page).2

theorem nextWord_metadata {slab capacity byte : Nat} (inside : NextWord slab byte) :
    Metadata slab capacity byte := by
  have := headerSize_le_metadataSize capacity
  simp only [NextWord, Metadata, nextField, headerSize] at *
  omega

end Slab

namespace Stock

/--
The byte is in the record of a cache with the stock, behind the name of the next
cache, or in the metadata of a slab of it.
-/
def Estate (stock : Stock) (pageSize cache byte : Nat) : Prop :=
  Cache.Fields cache byte ∨
    ∃ slab ∈ stock.all, Slab.Metadata slab (stock.capacity pageSize) byte

/-- The byte is in the part of the estate that one slab needs. -/
def Plot (stock : Stock) (pageSize cache slab byte : Nat) : Prop :=
  Cache.Fields cache byte ∨ Slab.Metadata slab (stock.capacity pageSize) byte

def slot (stock : Stock) (pageSize slab index : Nat) : Nat :=
  slab + Slab.metadataSize (stock.capacity pageSize) + index * stock.size

/-- The cache at a place has the stock. -/
structure RecordedIn (stock : Stock) (ram : Ram) (pageSize cache : Nat) : Prop where
  size_eq : Cache.objectSize ram cache = stock.size
  threads : ∀ fill,
    Chain.Threads ram Slab.nextField (Cache.firstSlab ram cache fill) (stock.slabs fill)
  keeps : ∀ slab ∈ stock.all,
    Slab.ListsFree ram slab (stock.capacity pageSize) (stock.free slab)

/-- The slabs of the stock are pages, and their metadata lies beside the record of the cache. -/
structure Placed (stock : Stock) (pageSize cache : Nat) : Prop where
  positive : 0 < stock.capacity pageSize
  page_lt : pageSize < Word.limit
  aligned : ∀ slab ∈ stock.all, slab % pageSize = 0
  nonzero : ∀ slab ∈ stock.all, slab ≠ 0
  bounded : ∀ slab ∈ stock.all, slab + pageSize < Word.limit
  beside : ∀ slab ∈ stock.all, ∀ byte, Cache.Record cache byte →
    ¬ Slab.Metadata slab (stock.capacity pageSize) byte

variable {stock stock' : Stock} {ram ram' : Ram} {pageSize cache slab other index : Nat}
  {fill : Fill} {free rest : List Nat} {head : Option Nat}

theorem slot_congr (size : stock'.size = stock.size) :
    stock'.slot pageSize slab index = stock.slot pageSize slab index := by
  rw [slot, slot, capacity_congr size, size]

namespace Placed

theorem congr (placed : stock.Placed pageSize cache) (size : stock'.size = stock.size)
    (sub : ∀ slab ∈ stock'.all, slab ∈ stock.all) : stock'.Placed pageSize cache where
  positive := by rw [capacity_congr size]; exact placed.positive
  page_lt := placed.page_lt
  aligned := fun slab member => placed.aligned slab (sub slab member)
  nonzero := fun slab member => placed.nonzero slab (sub slab member)
  bounded := fun slab member => placed.bounded slab (sub slab member)
  beside := fun slab member => by
    rw [capacity_congr size]
    exact placed.beside slab (sub slab member)

theorem metadata_le (placed : stock.Placed pageSize cache) :
    Slab.metadataSize (stock.capacity pageSize) + stock.capacity pageSize * stock.size ≤
      pageSize :=
  Slab.metadataSize_le placed.positive placed.page_lt

theorem pages_apart (placed : stock.Placed pageSize cache) (member : slab ∈ stock.all)
    (member' : other ∈ stock.all) (distinct : slab ≠ other) :
    slab + pageSize ≤ other ∨ other + pageSize ≤ slab := by
  have first := Nat.dvd_of_mod_eq_zero (placed.aligned slab member)
  have second := Nat.dvd_of_mod_eq_zero (placed.aligned other member')
  rcases Nat.lt_or_gt_of_ne distinct with lower | higher
  · exact .inl (Nat.add_le_of_le_sub' lower.le
      (Nat.le_of_dvd (by omega) (Nat.dvd_sub second first)))
  · exact .inr (Nat.add_le_of_le_sub' higher.le
      (Nat.le_of_dvd (by omega) (Nat.dvd_sub first second)))

theorem metadata_apart (placed : stock.Placed pageSize cache) (member : slab ∈ stock.all)
    (member' : other ∈ stock.all) (distinct : slab ≠ other) {byte : Nat}
    (inside : Slab.Metadata slab (stock.capacity pageSize) byte) :
    ¬ Slab.Metadata other (stock.capacity pageSize) byte := by
  have apart := placed.pages_apart member member' distinct
  have fits := placed.metadata_le
  simp only [Slab.Metadata] at *
  omega

theorem apart (placed : stock.Placed pageSize cache) (member : slab ∈ stock.all)
    (member' : other ∈ stock.all) (distinct : slab ≠ other) : Chain.Apart slab other := by
  have apart := placed.pages_apart member member' distinct
  have large := (Slab.of_capacity_pos placed.positive placed.page_lt).1
  simp only [Chain.Apart, Slab.headerSize] at *
  omega

theorem word (placed : stock.Placed pageSize cache) (member : slab ∈ stock.all) :
    slab < Word.limit ∧ slab ≠ 0 :=
  ⟨Nat.lt_of_le_of_lt (Nat.le_add_right _ _) (placed.bounded slab member),
    placed.nonzero slab member⟩

end Placed

namespace RecordedIn

theorem slabs_eq (kept : stock.RecordedIn ram pageSize cache) (placed : stock.Placed pageSize cache)
    (oneReady : stock.OneReady pageSize) (fill : Fill) :
    Cache.slabs ram cache fill = stock.slabs fill := by
  refine (kept.threads fill).toList_eq ?_
  have nodup : (stock.slabs fill).Nodup :=
    (List.nodup_flatMap.1 oneReady.nodup).1 fill (by cases fill <;> simp [Fill.all])
  refine (List.nodup_iff_pairwise_ne.1 nodup).imp_of_mem fun member member' distinct => ?_
  exact placed.apart (mem_all member) (mem_all member') distinct

/-- A stock is kept where neither the record nor the slabs' metadata is written. -/
theorem congr (kept : stock.RecordedIn ram pageSize cache) {excepted : Nat → Prop}
    (agrees : ram.AgreesOff ram' excepted)
    (outside : ∀ byte, stock.Estate pageSize cache byte → ¬ excepted byte) :
    stock.RecordedIn ram' pageSize cache := by
  have first : ∀ fill, Cache.firstSlab ram' cache fill = Cache.firstSlab ram cache fill :=
    fun fill => Chain.link_eq_of_agreesOff agrees fun byte low high =>
      outside byte (.inl (Cache.fields_of_listWord low high))
  refine ⟨?_, ?_, ?_⟩
  · refine Eq.trans (agrees.read_eq fun byte low high => outside byte (.inl ?_)) kept.size_eq
    simp only [Cache.Fields, Cache.objectSizeField, CacheRecord.size] at *
    omega
  · intro fill
    rw [first]
    refine (kept.threads fill).congr fun slab member => ?_
    exact Chain.link_eq_of_agreesOff agrees fun byte low high => outside byte
      (.inr ⟨slab, mem_all member, Slab.nextWord_metadata ⟨low, high⟩⟩)
  · intro slab member
    exact (kept.keeps slab member).congr agrees fun byte inside _ =>
      outside byte (.inr ⟨slab, member, inside⟩)

theorem chain (kept : stock.RecordedIn ram pageSize cache) (fresh : slab ∉ stock.all) :
    (stock.chain slab free).RecordedIn ram pageSize cache := by
  refine ⟨kept.size_eq, kept.threads, fun other member => ?_⟩
  rw [free_chain, if_neg (by rintro rfl; exact fresh member)]
  exact kept.keeps other member

/-- A list of the cache starts anew with slabs that are linked to each other. -/
theorem relead (kept : stock.RecordedIn ram pageSize cache) {slabs : List Nat}
    (placed : (stock.put fill slabs).Placed pageSize cache)
    (threads : Chain.Threads ram Slab.nextField head slabs)
    (keeps : ∀ slab ∈ slabs, Slab.ListsFree ram slab (stock.capacity pageSize) (stock.free slab)) :
    (stock.put fill slabs).RecordedIn (Cache.setFirstSlab ram cache fill head) pageSize cache := by
  have agrees := Cache.agreesOff_setFirstSlab ram cache fill head
  have word : ∀ address ∈ head, address < Word.limit ∧ address ≠ 0 := by
    intro address named
    have member : address ∈ slabs :=
      List.mem_of_mem_head? (threads.head?_eq.trans (Option.mem_def.1 named))
    exact placed.word (mem_all (by rw [slabs_put, if_pos rfl]; exact member))
  have links : ∀ slab ∈ (stock.put fill slabs).all,
      Chain.link (Cache.setFirstSlab ram cache fill head) Slab.nextField slab =
        Chain.link ram Slab.nextField slab := fun slab member =>
    Chain.link_eq_of_agreesOff agrees fun byte low high fields =>
      placed.beside slab member byte fields.record (Slab.nextWord_metadata ⟨low, high⟩)
  refine ⟨(Cache.objectSize_setFirstSlab ram cache fill head).trans kept.size_eq, ?_, ?_⟩
  · intro other
    have linked : Chain.Threads ram Slab.nextField
        (Cache.firstSlab (Cache.setFirstSlab ram cache fill head) cache other)
          ((stock.put fill slabs).slabs other) := by
      rw [slabs_put]
      split
      · next same =>
          subst same
          rwa [Cache.firstSlab_setFirstSlab word]
      · next distinct =>
          rw [Cache.firstSlab_setFirstSlab_of_ne (Ne.symm distinct)]
          exact kept.threads other
    exact linked.congr fun slab member => links slab (mem_all member)
  · intro slab member
    have kept' : Slab.ListsFree ram slab (stock.capacity pageSize) (stock.free slab) := by
      obtain ⟨other, listed⟩ := mem_all_iff.1 member
      rw [slabs_put] at listed
      split at listed
      · exact keeps slab listed
      · exact kept.keeps slab (mem_all listed)
    exact kept'.congr agrees fun byte inside _ fields =>
      placed.beside slab member byte fields.record inside

/-- Taking the first slab off a list leaves the rest. -/
theorem pop (kept : stock.RecordedIn ram pageSize cache) (placed : stock.Placed pageSize cache)
    (first : stock.slabs fill = slab :: rest) :
    Cache.popSlab? ram cache fill = some (slab, Cache.setFirstSlab ram cache fill
        (Chain.link ram Slab.nextField slab)) ∧
      (stock.put fill rest).RecordedIn (Cache.setFirstSlab ram cache fill
        (Chain.link ram Slab.nextField slab)) pageSize cache ∧
      Slab.ListsFree (Cache.setFirstSlab ram cache fill (Chain.link ram Slab.nextField slab)) slab
        (stock.capacity pageSize) (stock.free slab) := by
  have threads := kept.threads fill
  rw [first] at threads
  have member : slab ∈ stock.all := mem_all (by rw [first]; exact List.mem_cons_self)
  refine ⟨by rw [Cache.popSlab?, threads.1]; rfl, ?_, ?_⟩
  · refine kept.relead (placed.congr rfl fun other inside => ?_) threads.2 fun other inside => ?_
    · exact (all_put_perm first).mem_iff.2 (List.mem_cons_of_mem slab inside)
    · exact kept.keeps other (mem_all (by rw [first]; exact List.mem_cons_of_mem slab inside))
  · exact (kept.keeps slab member).congr (Cache.agreesOff_setFirstSlab ram cache fill _)
      fun byte inside _ fields => placed.beside slab member byte fields.record inside

theorem push (kept : stock.RecordedIn ram pageSize cache)
    (placed : (stock.add fill slab free).Placed pageSize cache) (fresh : slab ∉ stock.all)
    (keeps : Slab.ListsFree ram slab (stock.capacity pageSize) free) :
    (stock.add fill slab free).RecordedIn (Cache.pushSlab ram cache fill slab) pageSize cache := by
  have here : slab ∈ (stock.add fill slab free).all := mem_all_add_iff.2 (.inl rfl)
  have member : ∀ {other}, other ∈ stock.all → other ∈ (stock.add fill slab free).all :=
    fun inside => mem_all_add_iff.2 (.inr inside)
  have agrees : ram.AgreesOff
      (Chain.setLink ram Slab.nextField slab (Cache.firstSlab ram cache fill))
      (Slab.NextWord slab) := Chain.agreesOff_setLink ram Slab.nextField slab _
  have away : ∀ other ∈ stock.all, ∀ byte, Slab.Metadata other (stock.capacity pageSize) byte →
      ¬ Slab.NextWord slab byte := fun other inside byte metadata next =>
    placed.metadata_apart (member inside) here (by rintro rfl; exact fresh inside) metadata
      (Slab.nextWord_metadata next)
  have chained : (stock.chain slab free).RecordedIn ram pageSize cache := kept.chain fresh
  have kept' := chained.congr agrees fun byte estate next => by
    rcases estate with fields | ⟨other, inside, metadata⟩
    · exact placed.beside slab here byte fields.record (Slab.nextWord_metadata next)
    · exact away other inside byte metadata next
  have word : ∀ address ∈ Cache.firstSlab ram cache fill, address < Word.limit ∧ address ≠ 0 :=
    fun address named => placed.word (member (mem_all (List.mem_of_mem_head?
      ((kept.threads fill).head?_eq.trans (Option.mem_def.1 named)))))
  have threads : Chain.Threads (Chain.setLink ram Slab.nextField slab
      (Cache.firstSlab ram cache fill)) Slab.nextField (some slab) (slab :: stock.slabs fill) := by
    refine ⟨rfl, ?_⟩
    rw [Chain.link_setLink word]
    exact (kept.threads fill).setLink (fun other inside => placed.apart (member (mem_all inside))
      here (by rintro rfl; exact fresh (mem_all inside))) _
  refine kept'.relead placed threads fun other inside => ?_
  rw [free_chain]
  split
  · next same =>
      subst same
      exact keeps.congr agrees fun byte _ elsewhere => elsewhere
  · next distinct =>
      have listed := (List.mem_cons.1 inside).resolve_left distinct
      exact (kept.keeps other (mem_all listed)).congr agrees fun byte metadata _ =>
        away other (mem_all listed) byte metadata

end RecordedIn

end Stock

end PhysicalMemory
