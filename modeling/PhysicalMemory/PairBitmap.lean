import PhysicalMemory.Word

/-!
# Pair bitmaps

One bitmap per order keeps one bit for every pair of buddies of that order.  A
pair is numbered by its distance from a base frame, so the two blocks of a pair
share a bit.  The bit is only ever flipped; it says whether exactly one of the
two blocks is free as long as every change of either block flips it once.
-/

namespace PhysicalMemory

/-- The pair bits of one order, from a base frame on, packed into words from a place on. -/
structure PairBitmap where
  order : Nat
  base : Nat
  words : Array (BitVec 64)
  place : Nat
  deriving DecidableEq

namespace PairBitmap

def empty (order : Nat) : PairBitmap :=
  ⟨order, 0, #[], 0⟩

def clear (order base length : Nat) (place : Nat := 0) : PairBitmap :=
  ⟨order, base, Array.replicate length 0, place⟩

def wordsCovering (pages order : Nat) : Nat :=
  Word.ceilDiv (Word.ceilDiv pages (1 <<< (order + 1))) 64

/-- Words for so many pages, for the orders whose pairs a word can count. -/
def wordsFor (pages order : Nat) : Checked Nat := do
  let exponent ← Word.addWithin 8 order 1
  let _ ← Word.shiftLeft 1 exponent
  return wordsCovering pages order

/-- The number of the pair that a frame belongs to. -/
def pairOf (bitmap : PairBitmap) (frame : Nat) : Checked Nat := do
  let offset ← Word.sub frame bitmap.base
  let exponent ← Word.addWithin 8 bitmap.order 1
  Word.shiftRight offset exponent

/-- The bit of a pair; pairs past the last word have a clear one. -/
def bit (bitmap : PairBitmap) (pair : Nat) : Bool :=
  (bitmap.words.getD (pair / 64) 0).getLsbD (pair % 64)

def covers (bitmap : PairBitmap) (pair : Nat) : Bool :=
  pair / 64 < bitmap.words.size

def flip (bitmap : PairBitmap) (pair : Nat) : PairBitmap :=
  { bitmap with
    words := bitmap.words.modify (pair / 64) (· ^^^ BitVec.twoPow 64 (pair % 64)) }

def locate (bitmap : PairBitmap) (frame : Nat) : Checked Nat := do
  let pair ← bitmap.pairOf frame
  if bitmap.covers pair then return pair
  else .error (.outOfBounds bitmap.words.size (pair / 64))

def test (bitmap : PairBitmap) (frame : Nat) : Checked Bool := do
  let pair ← bitmap.locate frame
  return bitmap.bit pair

def toggle (bitmap : PairBitmap) (frame : Nat) : Checked (Bool × PairBitmap) := do
  let pair ← bitmap.locate frame
  return (bitmap.bit pair, bitmap.flip pair)

theorem wordsFor_of_lt (pages : Nat) {order : Nat} (h : order < 63) :
    wordsFor pages order = .ok (wordsCovering pages order) := by
  have exponent : Word.addWithin 8 order 1 = .ok (order + 1) :=
    Word.addWithin_eq_ok_iff.2 ⟨by omega, rfl⟩
  have inWord : 1 <<< (order + 1) < Word.limit := Word.one_shiftLeft_lt (by omega)
  simp [wordsFor, exponent, Word.shiftLeft_of_lt (by omega) inWord, bind, Except.bind, pure,
    Except.pure]

@[simp] theorem words_size_flip (bitmap : PairBitmap) (pair : Nat) :
    (bitmap.flip pair).words.size = bitmap.words.size := by
  simp [flip]

@[simp] theorem pairOf_flip (bitmap : PairBitmap) (pair frame : Nat) :
    (bitmap.flip pair).pairOf frame = bitmap.pairOf frame :=
  rfl

@[simp] theorem covers_flip (bitmap : PairBitmap) (pair other : Nat) :
    (bitmap.flip pair).covers other = bitmap.covers other := by
  simp [covers]

@[simp] theorem bit_clear (order base length place pair : Nat) :
    (clear order base length place).bit pair = false := by
  simp [bit, clear, Array.getD_eq_getD_getElem?, Array.getElem?_replicate]
  split <;> simp

theorem bit_flip {bitmap : PairBitmap} {pair : Nat} (h : bitmap.covers pair) (other : Nat) :
    (bitmap.flip pair).bit other = (bitmap.bit other ^^ decide (other = pair)) := by
  have stored : pair / 64 < bitmap.words.size := by simpa [covers] using h
  by_cases sameWord : pair / 64 = other / 64
  · have samePair : pair % 64 = other % 64 ↔ other = pair := by omega
    have inWord : pair % 64 < 64 := Nat.mod_lt _ (by decide)
    simp [bit, flip, ← sameWord, Array.getD_eq_getD_getElem?, Array.getElem_modify, stored,
      samePair, inWord]
  · have distinct : other ≠ pair := fun same => sameWord (by rw [same])
    simp [bit, flip, Array.getD_eq_getD_getElem?, Array.getElem?_modify, sameWord, distinct]

end PairBitmap

end PhysicalMemory
