import PhysicalMemory.Word
import Std.Data.ExtTreeMap.Basic
import Std.Data.ExtTreeMap.Lemmas

/-!
# Physical memory contents

Memory holds a byte at every address and is zero where nothing was written.
Words and half words are stored least significant byte first.  The main
statements are that what is written is what is read back, and that a write
leaves every byte alone that lies beside it.
-/

namespace PhysicalMemory

abbrev Ram.chunkSize : Nat :=
  64

abbrev Ram.Chunk : Type :=
  Vector UInt8 Ram.chunkSize

/-- Memory, in chunks; a chunk that is missing is all zero. -/
structure Ram where
  chunks : Std.ExtTreeMap Nat Ram.Chunk := ∅

namespace Ram

instance : Inhabited Ram :=
  ⟨{}⟩

/-- A bound on the number of bytes that differ from zero. -/
def written (ram : Ram) : Nat :=
  ram.chunks.size * chunkSize

/-- The byte of a number that stands so many bytes above its lowest one. -/
def byteOf (value : Nat) : Nat → UInt8
  | 0 => UInt8.ofNat value
  | place + 1 => byteOf (value / 256) place

def store (chunk : Chunk) (place value : Nat) : Nat → Chunk
  | 0 => chunk
  | count + 1 =>
      store (chunk.setIfInBounds place (UInt8.ofNat value)) (place + 1) (value / 256) count

def blank : Chunk :=
  Vector.replicate chunkSize 0

/-- Store in a chunk that may be missing, and stays so if there is nothing but zero to store. -/
def store? (chunk? : Option Chunk) (place value count : Nat) : Option Chunk :=
  match chunk? with
  | some chunk => some (store chunk place value count)
  | none => if value = 0 then none else some (store blank place value count)

def pick (chunk? : Option Chunk) (place : Nat) : UInt8 :=
  match chunk? with
  | some chunk => chunk[place]?.getD 0
  | none => 0

def load (chunk? : Option Chunk) (place : Nat) : Nat → Nat
  | 0 => 0
  | count + 1 => (pick chunk? place).toNat + 256 * load chunk? (place + 1) count

def chunkAt? (ram : Ram) (address : Nat) : Option Chunk :=
  ram.chunks[address / chunkSize]?

/-- Store the low `count` bytes of a number from an address up, short of the chunk's end. -/
def writeWithin (ram : Ram) (address value count : Nat) : Ram where
  chunks := ram.chunks.alter (address / chunkSize) fun chunk? =>
    store? chunk? (address % chunkSize) value count

def byte (ram : Ram) (address : Nat) : UInt8 :=
  pick (ram.chunkAt? address) (address % chunkSize)

def setByte (ram : Ram) (address : Nat) (value : UInt8) : Ram :=
  ram.writeWithin address value.toNat 1

def readBytes (ram : Ram) (address : Nat) : Nat → Nat
  | 0 => 0
  | count + 1 => (ram.byte address).toNat + 256 * ram.readBytes (address + 1) count

def writeBytes (ram : Ram) (address value : Nat) : Nat → Ram
  | 0 => ram
  | count + 1 =>
      (ram.setByte address (UInt8.ofNat value)).writeBytes (address + 1) (value / 256) count

def read (ram : Ram) (address count : Nat) : Nat :=
  if address % chunkSize + count ≤ chunkSize then
    load (ram.chunkAt? address) (address % chunkSize) count
  else ram.readBytes address count

def write (ram : Ram) (address value count : Nat) : Ram :=
  if address % chunkSize + count ≤ chunkSize then ram.writeWithin address value count
  else ram.writeBytes address value count

def word (ram : Ram) (address : Nat) : Nat :=
  ram.read address 8

def setWord (ram : Ram) (address : Nat) (value : Nat) : Ram :=
  ram.write address value 8

def half (ram : Ram) (address : Nat) : Nat :=
  ram.read address 4

def setHalf (ram : Ram) (address : Nat) (value : Nat) : Ram :=
  ram.write address value 4

def clear (ram : Ram) (address : Nat) : Nat → Ram
  | 0 => ram
  | count + 1 => (ram.setByte address 0).clear (address + 1) count

def copy (ram other : Ram) (source target : Nat) : Nat → Ram
  | 0 => ram
  | count + 1 =>
      (ram.setByte target (other.byte source)).copy other (source + 1) (target + 1) count

def setWords (ram : Ram) (address : Nat) : List Nat → Ram
  | [] => ram
  | value :: rest => (ram.setWord address value).setWords (address + 8) rest

@[simp] theorem byteOf_zero (place : Nat) : byteOf 0 place = 0 := by
  induction place with
  | zero => rfl
  | succ place ih => rw [byteOf, Nat.zero_div, ih]

private theorem pick_store (count : Nat) :
    ∀ (chunk : Chunk) (place value other : Nat), place + count ≤ chunkSize →
      pick (some (store chunk place value count)) other =
        if place ≤ other ∧ other < place + count then byteOf value (other - place)
        else pick (some chunk) other := by
  induction count with
  | zero =>
      intro chunk place value other _
      rw [store, if_neg (by omega)]
  | succ count ih =>
      intro chunk place value other room
      rw [store, ih _ _ _ _ (by omega)]
      by_cases rest : place + 1 ≤ other ∧ other < place + 1 + count
      · have above : other - place = (other - (place + 1)) + 1 := by omega
        rw [if_pos rest, if_pos (by omega), above, byteOf]
      · rw [if_neg rest]
        by_cases same : place = other
        · subst same
          rw [if_pos (by omega), Nat.sub_self, byteOf]
          simp [pick, Vector.getElem?_setIfInBounds_self_of_lt (show place < chunkSize by omega)]
        · rw [if_neg (by omega)]
          simp [pick, Vector.getElem?_setIfInBounds_ne same]

private theorem pick_store? (chunk? : Option Chunk) {place count : Nat}
    (room : place + count ≤ chunkSize) (value other : Nat) :
    pick (store? chunk? place value count) other =
      if place ≤ other ∧ other < place + count then byteOf value (other - place)
      else pick chunk? other := by
  cases chunk? with
  | some chunk => exact pick_store count chunk place value other room
  | none =>
      by_cases zero : value = 0
      · simp [store?, zero, pick]
      · have zeros : pick (some blank) other = pick none other := by
          simp only [pick, blank, Vector.getElem?_replicate]
          split <;> rfl
        rw [store?, if_neg zero, pick_store count _ place value other room, zeros]

/-- Storing within a chunk changes exactly the bytes stored. -/
theorem byte_writeWithin (ram : Ram) {address count : Nat}
    (room : address % chunkSize + count ≤ chunkSize) (value other : Nat) :
    (ram.writeWithin address value count).byte other =
      if address ≤ other ∧ other < address + count then byteOf value (other - address)
      else ram.byte other := by
  by_cases sameChunk : address / chunkSize = other / chunkSize
  · have inside : address % chunkSize ≤ other % chunkSize ∧
        other % chunkSize < address % chunkSize + count ↔
          address ≤ other ∧ other < address + count := by
      simp only [chunkSize] at *
      omega
    simp only [byte, chunkAt?, writeWithin, Std.ExtTreeMap.getElem?_alter, sameChunk,
      Nat.compare_eq_eq, if_true, pick_store? _ room, inside]
    by_cases within : address ≤ other ∧ other < address + count
    · have place : other % chunkSize - address % chunkSize = other - address := by
        simp only [chunkSize] at *
        omega
      rw [if_pos within, if_pos within, place]
    · rw [if_neg within, if_neg within]
  · have outside : ¬ (address ≤ other ∧ other < address + count) := by
      simp only [chunkSize] at *
      omega
    rw [if_neg outside]
    simp [byte, chunkAt?, writeWithin, Std.ExtTreeMap.getElem?_alter, sameChunk]

theorem byte_setByte (ram : Ram) (address other : Nat) (value : UInt8) :
    (ram.setByte address value).byte other =
      if address = other then value else ram.byte other := by
  have room : address % chunkSize + 1 ≤ chunkSize := Nat.mod_lt _ (by decide)
  rw [setByte, byte_writeWithin ram room]
  by_cases same : address = other
  · rw [if_pos (by omega), if_pos same, same, Nat.sub_self, byteOf, UInt8.ofNat_toNat]
  · rw [if_neg (by omega), if_neg same]

/-- Storing byte by byte changes exactly the bytes stored. -/
theorem byte_writeBytes (count : Nat) :
    ∀ (ram : Ram) (address value other : Nat),
      (ram.writeBytes address value count).byte other =
        if address ≤ other ∧ other < address + count then byteOf value (other - address)
        else ram.byte other := by
  induction count with
  | zero =>
      intro ram address value other
      rw [writeBytes, if_neg (by omega)]
  | succ count ih =>
      intro ram address value other
      rw [writeBytes, ih, byte_setByte]
      by_cases rest : address + 1 ≤ other ∧ other < address + 1 + count
      · have above : other - address = (other - (address + 1)) + 1 := by omega
        rw [if_pos rest, if_pos (by omega), above, byteOf]
      · rw [if_neg rest]
        by_cases same : address = other
        · rw [if_pos same, if_pos (by omega), same, Nat.sub_self, byteOf]
        · rw [if_neg same, if_neg (by omega)]

/-- A write changes exactly the bytes it writes. -/
theorem byte_write (ram : Ram) (address value count other : Nat) :
    (ram.write address value count).byte other =
      if address ≤ other ∧ other < address + count then byteOf value (other - address)
      else ram.byte other := by
  by_cases room : address % chunkSize + count ≤ chunkSize
  · rw [write, if_pos room, byte_writeWithin ram room]
  · rw [write, if_neg room, byte_writeBytes]

/-- Reading from one chunk is reading byte by byte. -/
theorem read_eq_readBytes (ram : Ram) (address count : Nat) :
    ram.read address count = ram.readBytes address count := by
  by_cases room : address % chunkSize + count ≤ chunkSize
  · have within : ∀ length start, start % chunkSize + length ≤ chunkSize →
        load (ram.chunkAt? start) (start % chunkSize) length = ram.readBytes start length := by
      intro length
      induction length with
      | zero => intro start _; rfl
      | succ length ih =>
          intro start room
          rw [load, readBytes, byte]
          cases length with
          | zero => rfl
          | succ length =>
              have chunk : (start + 1) / chunkSize = start / chunkSize := by
                simp only [chunkSize] at *
                omega
              have place : (start + 1) % chunkSize = start % chunkSize + 1 := by
                simp only [chunkSize] at *
                omega
              have rest := ih (start + 1) (by omega)
              rw [chunkAt?, chunk, place] at rest
              rw [chunkAt?, rest]
    rw [read, if_pos room, within count address room]
  · rw [read, if_neg room]

theorem byte_write_of_outside {ram : Ram} {address value count other : Nat}
    (outside : other < address ∨ address + count ≤ other) :
    (ram.write address value count).byte other = ram.byte other := by
  rw [byte_write, if_neg (by omega)]

theorem read_congr {ram ram' : Ram} {address count : Nat}
    (same : ∀ other, address ≤ other → other < address + count →
      ram.byte other = ram'.byte other) :
    ram.read address count = ram'.read address count := by
  rw [read_eq_readBytes, read_eq_readBytes]
  induction count generalizing address with
  | zero => rfl
  | succ count ih =>
      have first : ram.byte address = ram'.byte address := same address (by omega) (by omega)
      have rest : ram.readBytes (address + 1) count = ram'.readBytes (address + 1) count :=
        ih fun other low high => same other (by omega) (by omega)
      rw [readBytes, readBytes, first, rest]

theorem read_write_of_disjoint {ram : Ram} {address other value count length : Nat}
    (apart : other + length ≤ address ∨ address + count ≤ other) :
    (ram.write address value count).read other length = ram.read other length := by
  apply read_congr
  intro place low high
  exact byte_write_of_outside (by omega)

/-- What was written is read back, up to the bytes there was room for. -/
theorem read_write (ram : Ram) (address value count : Nat) :
    (ram.write address value count).read address count = value % 1 <<< (8 * count) := by
  have stored : ∀ length start value : Nat, ∀ written : Ram,
      (∀ place, place < length → written.byte (start + place) = byteOf value place) →
        written.readBytes start length = value % 1 <<< (8 * length) := by
    intro length
    induction length with
    | zero => intro start value written _; simp [readBytes, Nat.mod_one]
    | succ length ih =>
        intro start value written bytes
        have low : written.byte start = UInt8.ofNat value := bytes 0 (by omega)
        have rest := ih (start + 1) (value / 256) written fun place below => by
          rw [Nat.add_assoc, Nat.add_comm 1 place]
          exact bytes (place + 1) (by omega)
        have split : 1 <<< (8 * (length + 1)) = 256 * 1 <<< (8 * length) := by
          rw [Nat.mul_succ, Nat.one_shiftLeft, Nat.one_shiftLeft, Nat.pow_add, Nat.mul_comm]
        rw [readBytes, low, rest, split, Nat.mod_mul]
        simp
  rw [read_eq_readBytes]
  apply stored
  intro place below
  rw [byte_write, if_pos (by omega), Nat.add_sub_cancel_left]

theorem read_lt (ram : Ram) (address count : Nat) :
    ram.read address count < 1 <<< (8 * count) := by
  rw [read_eq_readBytes]
  induction count generalizing address with
  | zero => simp [readBytes]
  | succ count ih =>
      have rest := ih (address + 1)
      have first := (ram.byte address).toNat_lt
      have split : 1 <<< (8 * (count + 1)) = 256 * 1 <<< (8 * count) := by
        rw [Nat.mul_succ, Nat.one_shiftLeft, Nat.one_shiftLeft, Nat.pow_add, Nat.mul_comm]
      rw [readBytes, split]
      omega

theorem word_setWord {ram : Ram} {address value : Nat} (h : value < Word.limit) :
    (ram.setWord address value).word address = value := by
  rw [word, setWord, read_write]
  exact Nat.mod_eq_of_lt h

theorem word_setWord_of_disjoint {ram : Ram} {address other value : Nat}
    (apart : other + 8 ≤ address ∨ address + 8 ≤ other) :
    (ram.setWord address value).word other = ram.word other :=
  read_write_of_disjoint apart

theorem half_setHalf {ram : Ram} {address value : Nat} (h : value < 0x100000000) :
    (ram.setHalf address value).half address = value := by
  rw [half, setHalf, read_write]
  exact Nat.mod_eq_of_lt h

theorem half_setHalf_of_disjoint {ram : Ram} {address other value : Nat}
    (apart : other + 4 ≤ address ∨ address + 4 ≤ other) :
    (ram.setHalf address value).half other = ram.half other :=
  read_write_of_disjoint apart

theorem word_setHalf_of_disjoint {ram : Ram} {address other value : Nat}
    (apart : other + 8 ≤ address ∨ address + 4 ≤ other) :
    (ram.setHalf address value).word other = ram.word other :=
  read_write_of_disjoint apart

theorem half_setWord_of_disjoint {ram : Ram} {address other value : Nat}
    (apart : other + 4 ≤ address ∨ address + 8 ≤ other) :
    (ram.setWord address value).half other = ram.half other :=
  read_write_of_disjoint apart

theorem byte_clear (count : Nat) :
    ∀ (ram : Ram) (address other : Nat),
      (ram.clear address count).byte other =
        if address ≤ other ∧ other < address + count then 0 else ram.byte other := by
  induction count with
  | zero =>
      intro ram address other
      rw [clear, if_neg (by omega)]
  | succ count ih =>
      intro ram address other
      rw [clear, ih, byte_setByte]
      by_cases rest : address + 1 ≤ other ∧ other < address + 1 + count
      · rw [if_pos rest, if_pos (by omega)]
      · rw [if_neg rest]
        by_cases same : address = other
        · rw [if_pos same, if_pos (by omega)]
        · rw [if_neg same, if_neg (by omega)]

/-- Copying moves exactly the named bytes. -/
theorem byte_copy (other : Ram) (count : Nat) :
    ∀ (ram : Ram) (source target place : Nat),
      (ram.copy other source target count).byte place =
        if target ≤ place ∧ place < target + count then other.byte (source + (place - target))
        else ram.byte place := by
  induction count with
  | zero =>
      intro ram source target place
      rw [copy, if_neg (by omega)]
  | succ count ih =>
      intro ram source target place
      rw [copy, ih]
      by_cases rest : target + 1 ≤ place ∧ place < target + 1 + count
      · have moved : source + 1 + (place - (target + 1)) = source + (place - target) := by omega
        rw [if_pos rest, if_pos (by omega), moved]
      · rw [if_neg rest, byte_setByte]
        by_cases same : target = place
        · rw [if_pos same, if_pos (by omega), same, Nat.sub_self, Nat.add_zero]
        · rw [if_neg same, if_neg (by omega)]

end Ram

end PhysicalMemory
