import PhysicalMemory.Address.Basic
import PhysicalMemory.Ram

/-!
# Chains in memory

A chain is threaded through the places it visits: a word at a fixed offset in
each place holds the address of the next one, or zero at the end.  A walk that
meets no place twice leaves only places whose link was written, so the number
of written bytes bounds its length.
-/

namespace PhysicalMemory

namespace Chain

def link (ram : Ram) (offset place : Nat) : Option Nat :=
  Address.pointer? (ram.word (place + offset))

def setLink (ram : Ram) (offset place : Nat) (next : Option Nat) : Ram :=
  ram.setWord (place + offset) (next.getD 0)

/-- The places of a chain, at most `fuel` of them. -/
def walk (ram : Ram) (offset : Nat) : Nat → Option Nat → List Nat
  | 0, _ => []
  | _ + 1, none => []
  | fuel + 1, some place => place :: walk ram offset fuel (link ram offset place)

def toList (ram : Ram) (offset : Nat) (head : Option Nat) : List Nat :=
  walk ram offset (ram.written + 1) head

@[simp] theorem toList_none (ram : Ram) (offset : Nat) : toList ram offset none = [] :=
  rfl

@[simp] theorem head?_toList (ram : Ram) (offset : Nat) (head : Option Nat) :
    (toList ram offset head).head? = head := by
  cases head <;> rfl

theorem link_setLink {ram : Ram} {offset place : Nat} {next : Option Nat}
    (h : ∀ address ∈ next, address < Word.limit ∧ address ≠ 0) :
    link (setLink ram offset place next) offset place = next := by
  cases next with
  | none =>
      rw [link, setLink, Ram.word_setWord (by decide)]
      rfl
  | some address =>
      have bound := h address rfl
      simp [link, setLink, Ram.word_setWord bound.1, Address.pointer?_of_ne_zero bound.2]

theorem link_setLink_of_apart {ram : Ram} {offset place other : Nat} {next : Option Nat}
    (apart : other + 8 ≤ place ∨ place + 8 ≤ other) :
    link (setLink ram offset place next) offset other = link ram offset other := by
  have words : other + offset + 8 ≤ place + offset ∨ place + offset + 8 ≤ other + offset := by
    omega
  simp [link, setLink, Ram.word_setWord_of_disjoint words]

end Chain

end PhysicalMemory
