import PhysicalMemory.Chain
import PhysicalMemory.Slab.Shape

/-!
# Slabs in memory

The page of a slab starts with its header: the first free object, the number
of objects handed out, the place of the objects and the next slab of the list
that the slab is on.  The links follow, and say which free object follows
which.  An address in the page lies before the objects, in one of them or
behind them.
-/

namespace PhysicalMemory

namespace Slab

/-- What there is in a slab: header and links, objects, and what is left of the page. -/
inductive Part where
  | metadata
  | object (index : Nat)
  | rest
  deriving DecidableEq

def handedOutField : Nat :=
  4

def objectsField : Nat :=
  8

def nextField : Nat :=
  16

def cursor (ram : Ram) (slab : Nat) : Nat :=
  ram.half slab

def handedOut (ram : Ram) (slab : Nat) : Nat :=
  ram.half (slab + handedOutField)

def objects (ram : Ram) (slab : Nat) : Nat :=
  ram.word (slab + objectsField)

def linkPlace (slab index : Nat) : Nat :=
  slab + headerSize + index * linkSize

def link (ram : Ram) (slab index : Nat) : Nat :=
  ram.half (linkPlace slab index)

def setCursor (ram : Ram) (slab index : Nat) : Ram :=
  ram.setHalf slab index

def setHandedOut (ram : Ram) (slab count : Nat) : Ram :=
  ram.setHalf (slab + handedOutField) count

def setLink (ram : Ram) (slab index next : Nat) : Ram :=
  ram.setHalf (linkPlace slab index) next

/-- The link of an object in a slab whose objects are all free and chained in order. -/
def linkInOrder (capacity index : Nat) : Nat :=
  if index + 1 < capacity then (index + 1) % linkLimit else endMark

def chainInOrder (ram : Ram) (slab capacity : Nat) : Ram :=
  Nat.fold capacity (fun index _ ram => setLink ram slab index (linkInOrder capacity index)) ram

def writeHeader (ram : Ram) (slab objects : Nat) : Ram :=
  let ram := setHandedOut (setCursor ram slab 0) slab 0
  Chain.setLink (ram.setWord (slab + objectsField) objects) nextField slab none

/-- The free objects from one on, at most `fuel` of them. -/
def chainFrom (ram : Ram) (slab : Nat) : Nat → Nat → List Nat
  | 0, _ => []
  | fuel + 1, index =>
      if index = endMark then [] else index :: chainFrom ram slab fuel (link ram slab index)

def chain (ram : Ram) (slab capacity : Nat) : List Nat :=
  chainFrom ram slab (capacity + 1) (cursor ram slab)

def objectAt (ram : Ram) (slab objectSize index : Nat) : Checked Nat := do
  let offset ← Word.mul index objectSize
  Word.add (objects ram slab) offset

/-- The part of a slab that an address belongs to. -/
def partAt (ram : Ram) (slab objectSize capacity address : Nat) : Checked Part :=
  if address < objects ram slab then .ok .metadata
  else do
    let index ← Word.div (address - objects ram slab) objectSize
    if index < capacity then return .object index else return .rest

def pushFree (ram : Ram) (slab index : Nat) : Ram :=
  let ram := setCursor (setLink ram slab index (cursor ram slab)) slab index
  setHandedOut ram slab (handedOut ram slab - 1)

theorem link_setLink {ram : Ram} {slab index next : Nat} (h : next < linkLimit) :
    link (setLink ram slab index next) slab index = next :=
  Ram.half_setHalf h

theorem link_setLink_of_ne {ram : Ram} {slab index other next : Nat} (apart : index ≠ other) :
    link (setLink ram slab index next) slab other = link ram slab other := by
  apply Ram.half_setHalf_of_disjoint
  simp only [linkPlace, linkSize]
  omega

@[simp] theorem cursor_setLink (ram : Ram) (slab index next : Nat) :
    cursor (setLink ram slab index next) slab = cursor ram slab := by
  apply Ram.half_setHalf_of_disjoint
  simp only [linkPlace, headerSize]
  omega

@[simp] theorem handedOut_setLink (ram : Ram) (slab index next : Nat) :
    handedOut (setLink ram slab index next) slab = handedOut ram slab := by
  apply Ram.half_setHalf_of_disjoint
  simp only [linkPlace, headerSize, handedOutField]
  omega

@[simp] theorem objects_setLink (ram : Ram) (slab index next : Nat) :
    objects (setLink ram slab index next) slab = objects ram slab := by
  apply Ram.word_setHalf_of_disjoint
  simp only [linkPlace, headerSize, objectsField]
  omega

theorem link_chainInOrder {ram : Ram} {slab capacity index : Nat} (h : index < capacity) :
    link (chainInOrder ram slab capacity) slab index = linkInOrder capacity index := by
  have bound : linkInOrder capacity index < linkLimit := by
    unfold linkInOrder
    split
    · exact Nat.mod_lt _ (by decide)
    · decide
  have upTo : ∀ count, index < count →
      link (Nat.fold count
        (fun index _ ram => setLink ram slab index (linkInOrder capacity index)) ram) slab index =
          linkInOrder capacity index := by
    intro count
    induction count with
    | zero => intro below; exact absurd below (Nat.not_lt_zero index)
    | succ count ih =>
        intro below
        rw [Nat.fold_succ]
        by_cases last : count = index
        · subst last
          exact link_setLink bound
        · rw [link_setLink_of_ne last]
          exact ih (by omega)
  exact upTo capacity h

theorem head?_chain {ram : Ram} {slab capacity : Nat} (h : cursor ram slab ≠ endMark) :
    (chain ram slab capacity).head? = some (cursor ram slab) := by
  simp [chain, chainFrom, h]

end Slab

end PhysicalMemory
