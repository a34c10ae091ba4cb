import PhysicalMemory.Proofs.Slab.Cache

/-!
# The ring of caches

From the bootstrap cache the records name each other in turn and the last names
the first again.  No two records meet and none is at address zero, so going
around the ring ends within its bound and meets every cache once.  A new record
stands between the first and the one behind it.
-/

namespace PhysicalMemory

namespace Cache

variable {ram ram' : Ram} {cache next objectSize : Nat}

theorem next_lt (ram : Ram) (cache : Nat) : Cache.next ram cache < Word.limit :=
  Ram.read_lt ram cache 8

/-- A cache names the same cache behind it where the first word of its record is left alone. -/
theorem next_congr {excepted : Nat → Prop} (agrees : ram.AgreesOff ram' excepted)
    (outside : ∀ byte, NextWord cache byte → ¬ excepted byte) :
    Cache.next ram' cache = Cache.next ram cache :=
  agrees.read_eq fun byte low high => outside byte ⟨low, high⟩

private theorem writeRecord_eq (ram : Ram) (cache next objectSize : Nat) :
    writeRecord ram cache next objectSize =
      (setFirstSlab (setFirstSlab (setFirstSlab (setNext ram cache next) cache .full none)
        cache .partly none) cache .empty none).setWord (cache + objectSizeField) objectSize :=
  rfl

theorem agreesOff_setNext (ram : Ram) (cache next : Nat) :
    ram.AgreesOff (setNext ram cache next) (NextWord cache) :=
  Ram.agreesOff_write ram cache next 8

theorem agreesOff_writeRecord (ram : Ram) (cache next objectSize : Nat) :
    ram.AgreesOff (writeRecord ram cache next objectSize) (Record cache) := by
  have lists : ∀ (ram : Ram) fill,
      ram.AgreesOff (setFirstSlab ram cache fill none) (Record cache) :=
    fun ram fill => (agreesOff_setFirstSlab ram cache fill none).mono fun _ => Fields.record
  rw [writeRecord_eq]
  refine (((((agreesOff_setNext ram cache next).mono fun _ => NextWord.record).trans
    (lists _ .full)).trans (lists _ .partly)).trans (lists _ .empty)).trans
      ((Ram.agreesOff_write _ _ objectSize 8).mono fun byte inside => ?_)
  simp only [Record, CacheRecord.size, objectSizeField] at *
  omega

theorem next_writeRecord (h : next < Word.limit) :
    Cache.next (writeRecord ram cache next objectSize) cache = next := by
  rw [writeRecord_eq]
  refine (Ram.word_setWord_of_disjoint (.inl (by simp only [objectSizeField]; omega))).trans ?_
  change Cache.next (setFirstSlab _ cache .empty none) cache = next
  rw [next_setFirstSlab, next_setFirstSlab, next_setFirstSlab]
  exact Ram.word_setWord h

theorem firstSlab_writeRecord (fill : Fill) :
    firstSlab (writeRecord ram cache next objectSize) cache fill = none := by
  have kept : ∀ ram : Ram, firstSlab (ram.setWord (cache + objectSizeField) objectSize) cache fill =
      firstSlab ram cache fill := by
    intro ram
    have words : cache + listField fill + 8 ≤ cache + objectSizeField := by
      cases fill <;> simp only [listField, objectSizeField] <;> omega
    simp only [firstSlab, Chain.link, Ram.word_setWord_of_disjoint (.inl words)]
  have none : ∀ address ∈ (none : Option Nat), address < Word.limit ∧ address ≠ 0 := by simp
  rw [writeRecord_eq, kept]
  cases fill with
  | full =>
      rw [firstSlab_setFirstSlab_of_ne (by decide), firstSlab_setFirstSlab_of_ne (by decide),
        firstSlab_setFirstSlab none]
  | partly => rw [firstSlab_setFirstSlab_of_ne (by decide), firstSlab_setFirstSlab none]
  | empty => rw [firstSlab_setFirstSlab none]

def enter (ram : Ram) (head cache objectSize : Nat) : Ram :=
  setNext (writeRecord ram cache (Cache.next ram head) objectSize) head cache

theorem agreesOff_enter (ram : Ram) (head cache objectSize : Nat) :
    ram.AgreesOff (enter ram head cache objectSize) fun byte =>
      Record cache byte ∨ NextWord head byte :=
  ((agreesOff_writeRecord ram cache _ objectSize).mono fun _ => .inl).trans
    ((agreesOff_setNext _ head cache).mono fun _ => .inr)

theorem next_enter_head {head : Nat} (h : cache < Word.limit) :
    Cache.next (enter ram head cache objectSize) head = cache :=
  Ram.word_setWord h

theorem next_enter {head : Nat} (apart : cache + 8 ≤ head ∨ head + 8 ≤ cache) :
    Cache.next (enter ram head cache objectSize) cache = Cache.next ram head :=
  (Ram.word_setWord_of_disjoint apart).trans (next_writeRecord (next_lt ram head))

end Cache

theorem Stock.kept_writeRecord {ram : Ram} {pageSize cache next size : Nat}
    (word : size < Word.limit) :
    (Stock.bare size).RecordedIn (Cache.writeRecord ram cache next size) pageSize cache where
  size_eq := Cache.objectSize_writeRecord word
  threads := fun fill => Cache.firstSlab_writeRecord fill
  keeps := fun _ member => absurd member Stock.not_mem_bare

namespace SlabAllocator

def Closes (ram : Ram) (head : Nat) : Nat → List Nat → Prop
  | cache, [] => Cache.next ram cache = head
  | cache, other :: rest =>
      Cache.next ram cache = other ∧ other ≠ head ∧ Closes ram head other rest

variable {allocator : SlabAllocator} {ram ram' : Ram} {head cache : Nat} {rest : List Nat}

theorem Closes.congr (closes : Closes ram head cache rest)
    (same : ∀ other ∈ cache :: rest, Cache.next ram' other = Cache.next ram other) :
    Closes ram' head cache rest := by
  induction rest generalizing cache with
  | nil => exact (same cache List.mem_cons_self).trans closes
  | cons other rest ih =>
      exact ⟨(same cache List.mem_cons_self).trans closes.1, closes.2.1,
        ih closes.2.2 fun third member => same third (List.mem_cons_of_mem cache member)⟩

theorem Closes.ringFrom_eq (closes : Closes ram allocator.head cache rest) {fuel : Nat}
    (enough : rest.length < fuel) : allocator.ringFrom ram fuel cache = cache :: rest := by
  induction rest generalizing cache fuel with
  | nil =>
      cases fuel with
      | zero => cases enough
      | succ fuel => simp only [ringFrom, show Cache.next ram cache = allocator.head from closes,
          if_true]
  | cons other rest ih =>
      cases fuel with
      | zero => cases enough
      | succ fuel =>
          simp only [ringFrom, closes.1, if_neg closes.2.1]
          rw [ih closes.2.2 (Nat.lt_of_succ_lt_succ enough)]

/-- Following the records from a cache meets the others in order and then the first. -/
theorem Closes.iterate_next (closes : Closes ram head cache rest) {count : Nat}
    (le : count ≤ rest.length + 1) :
    (Cache.next ram)^[count] cache = ((cache :: rest)[count]?).getD head := by
  induction count generalizing cache rest with
  | zero => rfl
  | succ count ih =>
      rw [Function.iterate_succ_apply, List.getElem?_cons_succ]
      cases rest with
      | nil =>
          obtain rfl : count = 0 := Nat.le_zero.1 (Nat.le_of_succ_le_succ le)
          exact closes
      | cons other rest =>
          rw [closes.1]
          exact ih closes.2.2 (Nat.le_of_succ_le_succ le)

private theorem Closes.next_ne_zero (closes : Closes ram head cache rest) (first : head ≠ 0)
    (others : ∀ other ∈ rest, other ≠ 0) :
    ∀ other ∈ cache :: rest, ram.word (other + 0) ≠ 0 := by
  induction rest generalizing cache with
  | nil =>
      intro other member
      rw [List.mem_singleton.1 member]
      intro zero
      exact first (Eq.trans closes.symm zero)
  | cons next rest ih =>
      intro other member
      rcases List.mem_cons.1 member with rfl | member
      · intro zero
        exact others next List.mem_cons_self (Eq.trans closes.1.symm zero)
      · exact ih closes.2.2 (fun other inside => others other (List.mem_cons_of_mem next inside))
          other member

theorem Closes.ring_eq (closes : Closes ram allocator.head allocator.head rest)
    (apart : (allocator.head :: rest).Pairwise Chain.Apart)
    (nonzero : ∀ other ∈ allocator.head :: rest, other ≠ 0) :
    allocator.ring ram = allocator.head :: rest := by
  have stored := closes.next_ne_zero (nonzero _ List.mem_cons_self) fun other member =>
    nonzero other (List.mem_cons_of_mem _ member)
  have bound := Ram.length_le_written_of_words 0 apart stored
  rw [List.length_cons] at bound
  exact closes.ringFrom_eq (by omega)

/-- A record that names what the first named, and is named by it, is the second of the ring. -/
theorem Closes.insert (closes : Closes ram head head rest) (distinct : cache ≠ head)
    (named : Cache.next ram' head = cache) (onward : Cache.next ram' cache = Cache.next ram head)
    (same : ∀ other ∈ rest, Cache.next ram' other = Cache.next ram other) :
    Closes ram' head head (cache :: rest) := by
  refine ⟨named, distinct, ?_⟩
  cases rest with
  | nil => exact onward.trans closes
  | cons next rest => exact ⟨onward.trans closes.1, closes.2.1, closes.2.2.congr same⟩

end SlabAllocator

end PhysicalMemory
