import PhysicalMemory.Word

/-!
# The shape of a slab

A slab fills one page: a header, then one link for every object, then the
objects themselves, all of one size.  The number of objects is the largest for
which these three parts fit.  The links thread the free objects into a chain
that ends at a mark which is no object's number.
-/

namespace PhysicalMemory

namespace Slab

def headerSize : Nat :=
  24

def linkSize : Nat :=
  4

/-- One past the largest number that a link can hold. -/
def linkLimit : Nat :=
  0x100000000

def endMark : Nat :=
  linkLimit - 1

/-- Objects of a size that one slab holds. -/
def capacity (pageSize objectSize : Nat) : Nat :=
  if pageSize ≤ headerSize then 0
  else (pageSize - headerSize) / Word.addSaturating objectSize linkSize

def metadataSize (capacity : Nat) : Nat :=
  headerSize + capacity * linkSize

/-- Header, links and objects together fit in the page. -/
theorem metadataSize_add_le {pageSize objectSize : Nat} (hpage : headerSize < pageSize)
    (hsize : objectSize + linkSize ≤ Word.last) :
    metadataSize (capacity pageSize objectSize) +
      capacity pageSize objectSize * objectSize ≤ pageSize := by
  have whole : Word.addSaturating objectSize linkSize = objectSize + linkSize := by
    simp [Word.addSaturating, Nat.min_eq_left hsize]
  have fits := Nat.div_mul_le_self (pageSize - headerSize) (objectSize + linkSize)
  rw [Nat.mul_add] at fits
  simp only [metadataSize, capacity, whole, if_neg (Nat.not_le.2 hpage)]
  omega

theorem lt_metadataSize_add {pageSize objectSize : Nat} (hpage : headerSize < pageSize)
    (hsize : objectSize + linkSize ≤ Word.last) :
    pageSize < metadataSize (capacity pageSize objectSize + 1) +
      (capacity pageSize objectSize + 1) * objectSize := by
  have whole : Word.addSaturating objectSize linkSize = objectSize + linkSize := by
    simp [Word.addSaturating, Nat.min_eq_left hsize]
  have positive : 0 < objectSize + linkSize := by
    simp [linkSize]
  have short : pageSize - headerSize <
      ((pageSize - headerSize) / (objectSize + linkSize) + 1) * (objectSize + linkSize) := by
    rw [Nat.mul_comm]
    exact Nat.lt_mul_div_succ _ positive
  rw [Nat.mul_add] at short
  simp only [metadataSize, capacity, whole, if_neg (Nat.not_le.2 hpage)]
  omega

end Slab

namespace CacheRecord

def size : Nat :=
  40

def alignment : Nat :=
  8

/-- An object of this size holds an aligned record wherever it starts. -/
def objectSize : Nat :=
  size + alignment - 1

end CacheRecord

end PhysicalMemory
