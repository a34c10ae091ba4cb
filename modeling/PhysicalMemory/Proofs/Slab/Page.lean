import PhysicalMemory.Slab.Basic
import PhysicalMemory.Proofs.Memory.Chain

/-!
# The pages of slabs

The header and the links of a slab keep a list of free objects: the links lead
from the cursor along the list to the end mark, and what is not listed has been
handed out.  A link can name only so many objects, so a slab in a huge page has
objects that are never handed out.  Taking the first free object, putting one
back and laying out a new slab change the list as expected, and they write only
the header and the links.
-/

namespace PhysicalMemory

namespace Slab

/-- Objects that a slab can hand out: no more than a link can name. -/
def room (capacity : Nat) : Nat :=
  min capacity endMark

/-- The links lead from an object through those of a list, in order, to the end mark. -/
def Leads (ram : Ram) (slab : Nat) : Nat → List Nat → Prop
  | index, [] => index = endMark
  | index, first :: rest => index = first ∧ Leads ram slab (link ram slab first) rest

def Metadata (slab capacity byte : Nat) : Prop :=
  slab ≤ byte ∧ byte < slab + metadataSize capacity

def NextWord (slab byte : Nat) : Prop :=
  slab + nextField ≤ byte ∧ byte < slab + nextField + 8

/-- The header and the links of the slab at a place say that just the listed objects are free. -/
structure ListsFree (ram : Ram) (slab capacity : Nat) (free : List Nat) : Prop where
  leads : Leads ram slab (cursor ram slab) free
  nodup : free.Nodup
  below : ∀ index ∈ free, index < room capacity
  counted : handedOut ram slab + free.length = room capacity
  objects_eq : objects ram slab = slab + metadataSize capacity

def layOut (ram : Ram) (slab capacity : Nat) : Ram :=
  writeHeader (chainInOrder ram slab capacity) slab (slab + metadataSize capacity)

variable {ram ram' : Ram} {slab capacity index : Nat} {free rest : List Nat}

theorem room_pos (positive : 0 < capacity) : 0 < room capacity :=
  Nat.lt_min.2 ⟨positive, by decide⟩

theorem room_le (capacity : Nat) : room capacity ≤ capacity :=
  Nat.min_le_left _ _

theorem room_lt (capacity : Nat) : room capacity < linkLimit :=
  Nat.lt_of_le_of_lt (Nat.min_le_right _ _) (by decide)

theorem not_endMark (below : index < room capacity) : index ≠ endMark :=
  Nat.ne_of_lt (Nat.lt_of_lt_of_le below (Nat.min_le_right _ _))

/-- In a page that is not huge a link can name every object. -/
theorem room_capacity {pageSize objectSize : Nat} (small : pageSize ≤ 1 <<< 34) :
    room (Slab.capacity pageSize objectSize) = Slab.capacity pageSize objectSize := by
  apply Nat.min_eq_left
  rw [Slab.capacity]
  split
  · exact Nat.zero_le _
  · have limit : 1 <<< 34 = (endMark + 1) * linkSize := by decide
    have link : linkSize ≤ Word.addSaturating objectSize linkSize :=
      Nat.le_min.2 ⟨Nat.le_add_left _ _, by decide⟩
    have most : (endMark + 1) * linkSize = endMark * linkSize + 4 := Nat.succ_mul _ _
    have fewest : (pageSize - headerSize) / linkSize ≤ endMark :=
      Nat.div_le_of_le_mul (by simp only [headerSize]; rw [Nat.mul_comm]; omega)
    exact Nat.le_trans (Nat.div_le_div_left link (by decide)) fewest

theorem link_lt (ram : Ram) (slab index : Nat) : link ram slab index < linkLimit :=
  Ram.read_lt ram _ 4

theorem cursor_lt (ram : Ram) (slab : Nat) : cursor ram slab < linkLimit :=
  Ram.read_lt ram _ 4

section

variable {count : Nat}

@[simp] theorem cursor_setCursor (h : index < linkLimit) :
    cursor (setCursor ram slab index) slab = index :=
  Ram.half_setHalf h

@[simp] theorem handedOut_setCursor :
    handedOut (setCursor ram slab index) slab = handedOut ram slab :=
  Ram.half_setHalf_of_disjoint (.inr (Nat.le_refl _))

@[simp] theorem objects_setCursor :
    objects (setCursor ram slab index) slab = objects ram slab :=
  Ram.word_setHalf_of_disjoint (.inr (by simp only [objectsField]; omega))

@[simp] theorem link_setCursor (other : Nat) :
    link (setCursor ram slab index) slab other = link ram slab other :=
  Ram.half_setHalf_of_disjoint (.inr (by simp only [linkPlace, headerSize]; omega))

@[simp] theorem handedOut_setHandedOut (h : count < linkLimit) :
    handedOut (setHandedOut ram slab count) slab = count :=
  Ram.half_setHalf h

@[simp] theorem cursor_setHandedOut :
    cursor (setHandedOut ram slab count) slab = cursor ram slab :=
  Ram.half_setHalf_of_disjoint (.inl (Nat.le_refl _))

@[simp] theorem objects_setHandedOut :
    objects (setHandedOut ram slab count) slab = objects ram slab :=
  Ram.word_setHalf_of_disjoint (.inr (by simp only [objectsField, handedOutField]; omega))

@[simp] theorem link_setHandedOut (other : Nat) :
    link (setHandedOut ram slab count) slab other = link ram slab other :=
  Ram.half_setHalf_of_disjoint
    (.inr (by simp only [linkPlace, headerSize, handedOutField]; omega))

end

theorem headerSize_le_metadataSize (capacity : Nat) : headerSize ≤ metadataSize capacity :=
  Nat.le_add_right _ _

theorem linkPlace_le (h : index < capacity) :
    linkPlace slab index + linkSize ≤ slab + metadataSize capacity := by
  have := Nat.mul_le_mul_right linkSize (Nat.succ_le_of_lt h)
  rw [Nat.succ_mul] at this
  simp only [linkPlace, metadataSize]
  omega

theorem agreesOff_setCursor (ram : Ram) (slab index capacity : Nat) :
    ram.AgreesOff (setCursor ram slab index) (Metadata slab capacity) := by
  refine (Ram.agreesOff_write ram slab index 4).mono fun byte inside => ?_
  have := headerSize_le_metadataSize capacity
  simp only [Metadata, headerSize] at *
  omega

theorem agreesOff_setHandedOut (ram : Ram) (slab count capacity : Nat) :
    ram.AgreesOff (setHandedOut ram slab count) (Metadata slab capacity) := by
  refine (Ram.agreesOff_write ram (slab + handedOutField) count 4).mono fun byte inside => ?_
  have := headerSize_le_metadataSize capacity
  simp only [Metadata, headerSize, handedOutField] at *
  omega

theorem agreesOff_setLink (ram : Ram) (slab next : Nat) (h : index < capacity) :
    ram.AgreesOff (setLink ram slab index next) (Metadata slab capacity) := by
  refine (Ram.agreesOff_write ram (linkPlace slab index) next 4).mono fun byte inside => ?_
  have high : linkPlace slab index + linkSize ≤ slab + metadataSize capacity := linkPlace_le h
  have low : slab ≤ linkPlace slab index := by simp only [linkPlace]; omega
  simp only [Metadata, linkSize] at *
  omega

theorem agreesOff_chainInOrder (ram : Ram) (slab capacity : Nat) :
    ram.AgreesOff (chainInOrder ram slab capacity) (Metadata slab capacity) := by
  have upTo : ∀ count, count ≤ capacity → ram.AgreesOff (Nat.fold count
      (fun index _ ram => setLink ram slab index (linkInOrder capacity index)) ram)
        (Metadata slab capacity) := by
    intro count
    induction count with
    | zero => exact fun _ => .refl _ _
    | succ count ih =>
        intro within
        rw [Nat.fold_succ]
        exact (ih (by omega)).trans (agreesOff_setLink _ slab _ within)
  exact upTo capacity (Nat.le_refl _)

theorem Leads.congr (leads : Leads ram slab index free)
    (same : ∀ other ∈ free, link ram' slab other = link ram slab other) :
    Leads ram' slab index free := by
  induction free generalizing index with
  | nil => exact leads
  | cons first rest ih =>
      refine ⟨leads.1, ?_⟩
      rw [same first List.mem_cons_self]
      exact ih leads.2 fun other member => same other (List.mem_cons_of_mem first member)

/-- Following the links gives the list that they lead along, if there is fuel for it. -/
theorem Leads.chainFrom_eq {fuel : Nat} (leads : Leads ram slab index free)
    (named : ∀ other ∈ free, other ≠ endMark) (enough : free.length < fuel) :
    chainFrom ram slab fuel index = free := by
  induction free generalizing index fuel with
  | nil =>
      obtain ⟨fuel, rfl⟩ := Nat.exists_eq_succ_of_ne_zero (Nat.ne_of_gt enough)
      exact if_pos leads
  | cons first rest ih =>
      obtain ⟨fuel, rfl⟩ := Nat.exists_eq_succ_of_ne_zero (Nat.ne_of_gt (Nat.zero_lt_of_lt enough))
      obtain ⟨rfl, leads⟩ := leads
      rw [chainFrom, if_neg (named index List.mem_cons_self)]
      rw [ih leads (fun other member => named other (List.mem_cons_of_mem index member))
        (Nat.lt_of_succ_lt_succ enough)]

/-- An object was put in front of the chain of its slab, and nothing else was changed. -/
structure Pushed (ram ram' : Ram) (slab capacity index : Nat) : Prop where
  cursor_eq : cursor ram' slab = index
  link_eq : link ram' slab index = cursor ram slab
  others : ∀ other ≠ index, link ram' slab other = link ram slab other
  handedOut_eq : handedOut ram' slab = handedOut ram slab - 1
  objects_eq : objects ram' slab = objects ram slab
  agrees : ram.AgreesOff ram' (Metadata slab capacity)

theorem pushed_pushFree (ram : Ram) (slab : Nat) (inside : index < capacity)
    (named : index < linkLimit) : Pushed ram (pushFree ram slab index) slab capacity index where
  cursor_eq := by rw [pushFree, cursor_setHandedOut, cursor_setCursor named]
  link_eq := by
    rw [pushFree, link_setHandedOut, link_setCursor, link_setLink (cursor_lt ram slab)]
  others other distinct := by
    rw [pushFree, link_setHandedOut, link_setCursor, link_setLink_of_ne distinct.symm]
  handedOut_eq := by
    have bound : handedOut ram slab < linkLimit := Ram.read_lt ram _ 4
    rw [pushFree, handedOut_setCursor, handedOut_setLink, handedOut_setHandedOut (by omega)]
  objects_eq := by rw [pushFree, objects_setHandedOut, objects_setCursor, objects_setLink]
  agrees := ((agreesOff_setLink ram slab _ inside).trans (agreesOff_setCursor _ slab index _)).trans
    (agreesOff_setHandedOut _ slab _ _)

namespace ListsFree

/-- The chain of a slab is the list of its free objects. -/
theorem chain_eq (keeps : ListsFree ram slab capacity free) : chain ram slab capacity = free := by
  refine keeps.leads.chainFrom_eq (fun other member => not_endMark (keeps.below other member)) ?_
  have counted := keeps.counted
  have := room_le capacity
  omega

/-- A slab keeps its list where its metadata is left alone, but for the next slab's name. -/
theorem congr (keeps : ListsFree ram slab capacity free) {excepted : Nat → Prop}
    (agrees : ram.AgreesOff ram' excepted)
    (outside : ∀ byte, Metadata slab capacity byte → ¬ NextWord slab byte → ¬ excepted byte) :
    ListsFree ram' slab capacity free := by
  have header := headerSize_le_metadataSize capacity
  simp only [Metadata, NextWord, headerSize, nextField] at outside header
  have cursor_eq : cursor ram' slab = cursor ram slab :=
    agrees.read_eq fun byte low high => outside byte (by omega) (by omega)
  have handedOut_eq : handedOut ram' slab = handedOut ram slab :=
    agrees.read_eq fun byte low high => by
      simp only [handedOutField] at low high
      exact outside byte (by omega) (by omega)
  have objects_eq : objects ram' slab = objects ram slab :=
    agrees.read_eq fun byte low high => by
      simp only [objectsField] at low high
      exact outside byte (by omega) (by omega)
  have link_eq : ∀ index < capacity, link ram' slab index = link ram slab index := by
    intro index inside
    have place : linkPlace slab index + linkSize ≤ slab + metadataSize capacity :=
      linkPlace_le inside
    refine agrees.read_eq fun byte low high => ?_
    simp only [linkPlace, headerSize, linkSize] at low high place
    exact outside byte (by omega) (by omega)
  refine ⟨?_, keeps.nodup, keeps.below, ?_, ?_⟩
  · rw [cursor_eq]
    exact keeps.leads.congr fun other member =>
      link_eq other (Nat.lt_of_lt_of_le (keeps.below other member) (room_le capacity))
  · rw [handedOut_eq]
    exact keeps.counted
  · rw [objects_eq]
    exact keeps.objects_eq

theorem cursor_eq_endMark_iff (keeps : ListsFree ram slab capacity free) :
    cursor ram slab = endMark ↔ free = [] := by
  have leads := keeps.leads
  cases free with
  | nil => exact ⟨fun _ => rfl, fun _ => leads⟩
  | cons first rest =>
      rw [leads.1]
      exact ⟨fun same => absurd same (not_endMark (keeps.below first List.mem_cons_self)),
        fun none => nomatch none⟩

/-- Taking the first free object off leaves the rest, and one object more is handed out. -/
theorem take (keeps : ListsFree ram slab capacity (index :: rest)) :
    handedOut ram slab + 1 < linkLimit ∧
      ListsFree (setHandedOut (setCursor ram slab (link ram slab index)) slab
        (handedOut ram slab + 1)) slab capacity rest := by
  obtain ⟨-, leads⟩ := keeps.leads
  have counted := keeps.counted
  rw [List.length_cons] at counted
  have bound : handedOut ram slab + 1 < linkLimit :=
    Nat.lt_of_le_of_lt (by omega) (room_lt capacity)
  refine ⟨bound, ⟨?_, (List.nodup_cons.1 keeps.nodup).2,
    fun other member => keeps.below other (List.mem_cons_of_mem index member), ?_, ?_⟩⟩
  · rw [cursor_setHandedOut, cursor_setCursor (link_lt ram slab index)]
    exact leads.congr fun other _ => by simp
  · rw [handedOut_setHandedOut bound]
    omega
  · simpa using keeps.objects_eq

/-- An object that is not free can be put in front of the free ones. -/
theorem give (keeps : ListsFree ram slab capacity free) (below : index < room capacity)
    (taken : index ∉ free) :
    ListsFree (pushFree ram slab index) slab capacity (index :: free) ∧
      ram.AgreesOff (pushFree ram slab index) (Metadata slab capacity) := by
  have pushed := pushed_pushFree ram slab (Nat.lt_of_lt_of_le below (room_le capacity))
    (Nat.lt_trans below (room_lt capacity))
  have counted := keeps.counted
  -- the free objects and this one are all below the room, so one at least is handed out
  have crowd : (index :: free).length ≤ room capacity := by
    have sub : index :: free ⊆ List.range (room capacity) := by
      intro other member
      rw [List.mem_range]
      rcases List.mem_cons.1 member with rfl | member
      · exact below
      · exact keeps.below other member
    have bound := (List.subperm_of_subset (List.nodup_cons.2 ⟨taken, keeps.nodup⟩) sub).length_le
    rwa [List.length_range] at bound
  rw [List.length_cons] at crowd
  refine ⟨⟨⟨pushed.cursor_eq, ?_⟩, List.nodup_cons.2 ⟨taken, keeps.nodup⟩, ?_, ?_,
    pushed.objects_eq.trans keeps.objects_eq⟩, pushed.agrees⟩
  · rw [pushed.link_eq]
    refine keeps.leads.congr fun other member => pushed.others other ?_
    rintro rfl
    exact taken member
  · intro other member
    rcases List.mem_cons.1 member with rfl | member
    · exact below
    · exact keeps.below other member
  · rw [pushed.handedOut_eq, List.length_cons]
    omega

end ListsFree

/-- In order the links lead from any object through all later ones that a link can name. -/
private theorem leads_range' {length : Nat}
    (linked : ∀ other < capacity, link ram slab other = linkInOrder capacity other)
    (reach : index + length = room capacity) (positive : 0 < length) :
    Leads ram slab index (List.range' index length) := by
  induction length generalizing index with
  | zero => cases positive
  | succ length ih =>
      have inside : index < capacity := Nat.lt_of_lt_of_le (by omega) (room_le capacity)
      refine ⟨rfl, ?_⟩
      rw [linked index inside, linkInOrder]
      have upper : room capacity ≤ endMark := Nat.min_le_right _ _
      cases length with
      | zero =>
          change _ = endMark
          -- the last object that is chained: either the last of all or the last with a name
          split
          · next more =>
              have last : index + 1 = endMark := by
                simp only [room] at reach
                omega
              rw [last]
              rfl
          · rfl
      | succ length =>
          have more : index + 1 < capacity := Nat.lt_of_lt_of_le (by omega) (room_le capacity)
          have named : index + 1 < linkLimit := Nat.lt_of_le_of_lt (by omega) (room_lt capacity)
          rw [if_pos more, Nat.mod_eq_of_lt named]
          exact ih (by omega) (by omega)

/-- A slab that is laid out keeps all its objects free and is on no list. -/
theorem listsFree_layOut (positive : 0 < capacity)
    (word : slab + metadataSize capacity < Word.limit) :
    ListsFree (layOut ram slab capacity) slab capacity (List.range (room capacity)) ∧
      Chain.link (layOut ram slab capacity) nextField slab = none ∧
        ram.AgreesOff (layOut ram slab capacity) (Metadata slab capacity) := by
  unfold layOut
  have header := headerSize_le_metadataSize capacity
  simp only [headerSize] at header
  have base : (0 : Nat) < linkLimit := by decide
  generalize chained : chainInOrder ram slab capacity = ram₀
  have linked : ∀ other < capacity, link ram₀ slab other = linkInOrder capacity other := by
    intro other inside
    rw [← chained]
    exact link_chainInOrder inside
  have agrees₀ : ram.AgreesOff ram₀ (Metadata slab capacity) := by
    rw [← chained]
    exact agreesOff_chainInOrder ram slab capacity
  have nextWord : ∀ ram : Ram, ∀ next : Option Nat,
      ram.AgreesOff (Chain.setLink ram nextField slab next) (NextWord slab) :=
    fun ram next => Chain.agreesOff_setLink ram nextField slab next
  refine ⟨?_, Chain.link_setLink (by simp), ?_⟩
  · rw [writeHeader]
    apply ListsFree.congr _ (nextWord _ none) fun byte _ elsewhere => elsewhere
    have fields : ∀ other, link ((setHandedOut (setCursor ram₀ slab 0) slab 0).setWord
        (slab + objectsField) (slab + metadataSize capacity)) slab other =
      link ram₀ slab other := by
      intro other
      refine (Ram.half_setWord_of_disjoint (.inr ?_)).trans
        ((link_setHandedOut other).trans (link_setCursor other))
      simp only [linkPlace, headerSize, objectsField]
      omega
    have cursor_eq : cursor ((setHandedOut (setCursor ram₀ slab 0) slab 0).setWord
        (slab + objectsField) (slab + metadataSize capacity)) slab = 0 := by
      refine (Ram.half_setWord_of_disjoint (.inl ?_)).trans
        (cursor_setHandedOut.trans (cursor_setCursor base))
      simp only [objectsField]
      omega
    have handedOut_eq : handedOut ((setHandedOut (setCursor ram₀ slab 0) slab 0).setWord
        (slab + objectsField) (slab + metadataSize capacity)) slab = 0 :=
      (Ram.half_setWord_of_disjoint (.inl (Nat.le_refl _))).trans (handedOut_setHandedOut base)
    refine ⟨?_, List.nodup_range, fun other member => List.mem_range.1 member, ?_,
      Ram.word_setWord word⟩
    · rw [cursor_eq, List.range_eq_range']
      exact leads_range' (fun other inside => (fields other).trans (linked other inside))
        (Nat.zero_add _) (room_pos positive)
    · rw [handedOut_eq, List.length_range, Nat.zero_add]
  · have word_agrees : ∀ ram : Ram, ram.AgreesOff
        (ram.setWord (slab + objectsField) (slab + metadataSize capacity))
          (Metadata slab capacity) := fun ram =>
      (Ram.agreesOff_write ram _ _ 8).mono fun byte inside => by
        simp only [Metadata, objectsField] at *
        omega
    refine (((agrees₀.trans (agreesOff_setCursor _ slab 0 _)).trans
      (agreesOff_setHandedOut _ slab 0 _)).trans (word_agrees _)).trans
        ((nextWord _ none).mono fun byte inside => ?_)
    simp only [Metadata, NextWord, nextField] at *
    omega

end Slab

end PhysicalMemory
