import PhysicalMemory.Chain

/-!
# Free lists

A free list threads the free blocks of one order through the blocks themselves:
the first eight bytes of a block hold the address of the next one, or zero at
the end.  The list proper is only its head and a count.
-/

namespace PhysicalMemory

/-- A chain of free blocks, known by its first block and its length. -/
structure FreeList where
  head : Option Nat := none
  length : Nat := 0
  deriving DecidableEq

namespace FreeList

instance : Inhabited FreeList :=
  ⟨{}⟩

def link (ram : Ram) (block : Nat) : Option Nat :=
  Chain.link ram 0 block

def setLink (ram : Ram) (block : Nat) (next : Option Nat) : Ram :=
  Chain.setLink ram 0 block next

def toList (list : FreeList) (ram : Ram) : List Nat :=
  Chain.toList ram 0 list.head

def push (list : FreeList) (ram : Ram) (block : Nat) : FreeList × Ram :=
  (⟨Address.pointer? block, list.length + 1⟩, setLink ram block list.head)

def pop? (list : FreeList) (ram : Ram) : Option (Nat × FreeList) :=
  match list.head with
  | none => none
  | some block => some (block, ⟨link ram block, list.length - 1⟩)

/-- Lead the link that reaches `target` past it, somewhere behind `block`. -/
def unlinkBehind (ram : Ram) (target : Nat) : Nat → Nat → Option Ram
  | 0, _ => none
  | fuel + 1, block =>
      match link ram block with
      | none => none
      | some next =>
          if next = target then some (setLink ram block (link ram target))
          else unlinkBehind ram target fuel next

def remove? (list : FreeList) (ram : Ram) (target : Nat) : Option (FreeList × Ram) :=
  match list.head with
  | none => none
  | some first =>
      if first = target then some (⟨link ram target, list.length - 1⟩, ram)
      else
        (unlinkBehind ram target (ram.written + 1) first).map
          fun ram => (⟨some first, list.length - 1⟩, ram)

theorem link_setLink {ram : Ram} {block : Nat} {next : Option Nat}
    (h : ∀ address ∈ next, address < Word.limit ∧ address ≠ 0) :
    link (setLink ram block next) block = next :=
  Chain.link_setLink h

theorem link_setLink_of_apart {ram : Ram} {block other : Nat} {next : Option Nat}
    (apart : other + 8 ≤ block ∨ block + 8 ≤ other) :
    link (setLink ram block next) other = link ram other :=
  Chain.link_setLink_of_apart apart

theorem pop?_eq_none_iff {list : FreeList} {ram : Ram} :
    list.pop? ram = none ↔ list.toList ram = [] := by
  cases h : list.head <;> simp [pop?, toList, Chain.toList, Chain.walk, h]

theorem head?_toList (list : FreeList) (ram : Ram) :
    (list.toList ram).head? = list.head :=
  Chain.head?_toList ram 0 list.head

end FreeList

end PhysicalMemory
