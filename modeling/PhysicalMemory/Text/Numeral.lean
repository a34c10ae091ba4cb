/-!
# Hexadecimal numerals

Addresses, frames and machine words are shown in base sixteen.  A format says
how the digits are framed: with a sign, with the mark `0x`, and padded to a
least width either by zeros after the mark or by a fill character around the
whole numeral.  Padding never cuts a numeral that is already wide enough.
-/

namespace PhysicalMemory

namespace Numeral

def digits (upper : Bool) (n : Nat) : List Char :=
  let lower := Nat.toDigits 16 n
  if upper then lower.map Char.toUpper else lower

inductive Side where
  | left
  | center
  | right
  deriving DecidableEq

inductive Padding where
  | zeros
  | fill (character : Char) (side : Side)
  deriving DecidableEq

/-- How a numeral in base sixteen is framed. -/
structure Format where
  signed : Bool := false
  marked : Bool := false
  upper : Bool := false
  width : Nat := 0
  padding : Padding := .fill ' ' .right
  deriving DecidableEq

namespace Format

def lead (format : Format) : List Char :=
  (if format.signed then ['+'] else []) ++ (if format.marked then ['0', 'x'] else [])

def characters (format : Format) (n : Nat) : List Char :=
  let lead := format.lead
  let body := digits format.upper n
  let missing := format.width - (lead.length + body.length)
  match format.padding with
  | .zeros => lead ++ List.replicate missing '0' ++ body
  | .fill character .left => lead ++ body ++ List.replicate missing character
  | .fill character .right => List.replicate missing character ++ lead ++ body
  | .fill character .center =>
      List.replicate (missing / 2) character ++ lead ++ body ++
        List.replicate (missing - missing / 2) character

def render (format : Format) (n : Nat) : String :=
  String.ofList (format.characters n)

theorem length_characters (format : Format) (n : Nat) :
    (format.characters n).length =
      max format.width (format.lead.length + (digits format.upper n).length) := by
  unfold characters
  split <;> simp only [List.length_append, List.length_replicate] <;> omega

end Format

end Numeral

/-- Plain lowercase base sixteen with its mark, as words and frames are shown. -/
def hex (n : Nat) : String :=
  Numeral.Format.render { marked := true } n

end PhysicalMemory
