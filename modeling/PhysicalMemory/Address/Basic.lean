import PhysicalMemory.Text.Numeral

/-!
# Addresses and page frames

An address is the number of a byte of physical memory, and a frame is the
number of a page.  Both are plain natural numbers; the width of a machine word
is imposed by the checked operations on them, never by their type.  Address
zero is no place for an object, so a pointer is an address or nothing.
-/

namespace PhysicalMemory

namespace Address

def text (address : Nat) : String :=
  Numeral.Format.render
    { marked := true, upper := true, width := 18, padding := .zeros } address

def inspect (address : Nat) : String :=
  "PA(" ++ Address.text address ++ ")"

/-- The pointer to an address, which address zero does not have. -/
def pointer? (address : Nat) : Option Nat :=
  if address = 0 then none else some address

@[simp] theorem pointer?_zero : pointer? 0 = none :=
  rfl

theorem pointer?_of_ne_zero {address : Nat} (h : address ≠ 0) :
    pointer? address = some address := by
  simp [pointer?, h]

end Address

namespace Frame

def text (frame : Nat) : String :=
  hex frame

def inspect (frame : Nat) : String :=
  "PFN(" ++ Frame.text frame ++ ")"

end Frame

end PhysicalMemory
