import PhysicalMemory.Page.Owner
import PhysicalMemory.Zone.Id

/-!
# Packed page flags

A page's order, zone and owner are packed into the three low bytes of a word.
Setting one of them replaces its byte and keeps all other bits, the unused high
ones included.  Reading tolerates every byte: unknown zones mean the heap and
unknown owners mean nobody.
-/

namespace PhysicalMemory

/-- A word whose low bytes are an order, a zone and an owner. -/
structure PageFlags where
  bits : Nat
  deriving DecidableEq

namespace PageFlags

def byte (flags : PageFlags) (position : Nat) : Nat :=
  flags.bits >>> (8 * position) % 256

def setByte (flags : PageFlags) (position value : Nat) : PageFlags :=
  ⟨flags.bits % 1 <<< (8 * position) + value <<< (8 * position) +
    flags.bits >>> (8 * position + 8) <<< (8 * position + 8)⟩

def order (flags : PageFlags) : Nat :=
  flags.byte 0

def zone (flags : PageFlags) : ZoneId :=
  ZoneId.ofByte (flags.byte 1)

def owner (flags : PageFlags) : Owner :=
  Owner.ofByte (flags.byte 2)

def setOrder (flags : PageFlags) (order : Nat) : PageFlags :=
  flags.setByte 0 order

def setZone (flags : PageFlags) (zone : ZoneId) : PageFlags :=
  flags.setByte 1 zone.index

def setOwner (flags : PageFlags) (owner : Owner) : PageFlags :=
  flags.setByte 2 owner.byte

def initial : PageFlags :=
  setOwner ⟨0⟩ .unowned

/-- The flags with the given contents and clear high bits. -/
def pack (order : Nat) (zone : ZoneId) (owner : Owner) : PageFlags :=
  ((initial.setOrder order).setZone zone).setOwner owner

def inspect (flags : PageFlags) : String :=
  "PageFlags \x7b order: " ++ toString flags.order ++ ", zone: " ++ flags.zone.name ++
    ", owner: " ++ flags.owner.name ++ " \x7d"

theorem byte_setByte (flags : PageFlags) (position value : Nat) (h : value < 256) :
    (flags.setByte position value).byte position = value := by
  have low : flags.bits % 2 ^ (8 * position) < 2 ^ (8 * position) :=
    Nat.mod_lt _ (Nat.two_pow_pos _)
  have shape : flags.bits % 2 ^ (8 * position) + value * 2 ^ (8 * position) +
      flags.bits / 2 ^ (8 * position + 8) * 2 ^ (8 * position + 8) =
      flags.bits % 2 ^ (8 * position) +
        (value + flags.bits / 2 ^ (8 * position + 8) * 256) * 2 ^ (8 * position) := by
    rw [Nat.add_mul, Nat.mul_assoc _ 256, Nat.add_assoc, Nat.pow_add _ (8 * position) 8,
      Nat.mul_comm (2 ^ (8 * position)) (2 ^ 8)]
  simp only [byte, setByte, Nat.shiftLeft_eq, Nat.one_mul, Nat.shiftRight_eq_div_pow]
  rw [shape, Nat.add_mul_div_right _ _ (Nat.two_pow_pos _), Nat.div_eq_of_lt low]
  omega

/-- Replacing one of the three bytes in use leaves the other two alone. -/
theorem byte_setByte_of_ne (flags : PageFlags) {position other value : Nat}
    (hvalue : value < 256) (hposition : position < 3) (hother : other < 3)
    (apart : position ≠ other) :
    (flags.setByte position value).byte other = flags.byte other := by
  obtain rfl | rfl | rfl : position = 0 ∨ position = 1 ∨ position = 2 := by omega
  all_goals obtain rfl | rfl | rfl : other = 0 ∨ other = 1 ∨ other = 2 := by omega
  all_goals
    simp only [byte, setByte, Nat.shiftLeft_eq, Nat.shiftRight_eq_div_pow, Nat.reduceMul,
      Nat.reduceAdd, Nat.reducePow]
    omega

private theorem index_lt (zone : ZoneId) : zone.index < 256 := by
  cases zone <;> decide

private theorem ownerByte_lt (owner : Owner) : owner.byte < 256 := by
  cases owner <;> decide

theorem pack_parts {order : Nat} (h : order < 256) (zone : ZoneId) (owner : Owner) :
    (pack order zone owner).order = order ∧ (pack order zone owner).zone = zone ∧
      (pack order zone owner).owner = owner := by
  unfold pack PageFlags.order PageFlags.zone PageFlags.owner setOrder setZone setOwner
  have hz := index_lt zone
  have ho := ownerByte_lt owner
  refine ⟨?_, ?_, ?_⟩
  · rw [byte_setByte_of_ne _ ho (by decide) (by decide) (by decide),
      byte_setByte_of_ne _ hz (by decide) (by decide) (by decide), byte_setByte _ _ _ h]
  · rw [byte_setByte_of_ne _ ho (by decide) (by decide) (by decide), byte_setByte _ _ _ hz,
      ZoneId.ofByte_index]
  · rw [byte_setByte _ _ _ ho, Owner.ofByte_byte]

end PageFlags

end PhysicalMemory
