import Mathlib
import PhysicalMemory.Ram

/-!
# Written bytes

The bound that memory keeps on its written bytes holds: no more places differ
from zero than it says, so no more words that lie apart do.  Two memories that
agree on some places answer alike there.
-/

namespace PhysicalMemory

namespace Ram

/-- The two memories hold the same bytes in every place that is not excepted. -/
def AgreesOff (ram ram' : Ram) (excepted : Nat → Prop) : Prop :=
  ∀ place, ¬ excepted place → ram'.byte place = ram.byte place

namespace AgreesOff

variable {ram ram' ram'' : Ram} {excepted excepted' : Nat → Prop}

theorem refl (ram : Ram) (excepted : Nat → Prop) : ram.AgreesOff ram excepted :=
  fun _ _ => rfl

theorem trans (first : ram.AgreesOff ram' excepted) (second : ram'.AgreesOff ram'' excepted) :
    ram.AgreesOff ram'' excepted :=
  fun place outside => (second place outside).trans (first place outside)

theorem mono (agrees : ram.AgreesOff ram' excepted)
    (wider : ∀ place, excepted place → excepted' place) : ram.AgreesOff ram' excepted' :=
  fun place outside => agrees place fun inside => outside (wider place inside)

theorem read_eq (agrees : ram.AgreesOff ram' excepted) {address count : Nat}
    (outside : ∀ place, address ≤ place → place < address + count → ¬ excepted place) :
    ram'.read address count = ram.read address count :=
  read_congr fun place low high => agrees place (outside place low high)

end AgreesOff

theorem agreesOff_write (ram : Ram) (address value count : Nat) :
    ram.AgreesOff (ram.write address value count)
      fun place => address ≤ place ∧ place < address + count := by
  intro place outside
  rw [byte_write, if_neg outside]

theorem agreesOff_clear (ram : Ram) (address count : Nat) :
    ram.AgreesOff (ram.clear address count)
      fun place => address ≤ place ∧ place < address + count := by
  intro place outside
  rw [byte_clear, if_neg outside]

theorem agreesOff_copy (ram other : Ram) (source target count : Nat) :
    ram.AgreesOff (ram.copy other source target count)
      fun place => target ≤ place ∧ place < target + count := by
  intro place outside
  rw [byte_copy, if_neg outside]

theorem exists_byte_ne_zero_of_read_ne_zero {ram : Ram} {address count : Nat}
    (h : ram.read address count ≠ 0) :
    ∃ place, address ≤ place ∧ place < address + count ∧ ram.byte place ≠ 0 := by
  by_contra none
  push Not at none
  apply h
  rw [read_eq_readBytes]
  clear h
  induction count generalizing address with
  | zero => rfl
  | succ count ih =>
      have first : ram.byte address = 0 := none address (by omega) (by omega)
      have rest : ram.readBytes (address + 1) count = 0 :=
        ih fun place low high => none place (by omega) (by omega)
      rw [readBytes, first, rest]
      rfl

private theorem mem_keys_of_byte_ne_zero {ram : Ram} {place : Nat} (h : ram.byte place ≠ 0) :
    place / chunkSize ∈ ram.chunks.keys := by
  rw [Std.ExtTreeMap.mem_keys]
  by_contra missing
  apply h
  rw [byte, chunkAt?, Std.ExtTreeMap.getElem?_eq_none missing]
  rfl

theorem length_le_written {ram : Ram} {places : List Nat} (distinct : places.Nodup)
    (stored : ∀ place ∈ places, ram.byte place ≠ 0) : places.length ≤ ram.written := by
  have split : Function.Injective fun place : Nat => (place / chunkSize, place % chunkSize) := by
    intro first second same
    simp only [Prod.mk.injEq, chunkSize] at same
    omega
  have inside : (places.toFinset.image fun place => (place / chunkSize, place % chunkSize)) ⊆
      ram.chunks.keys.toFinset ×ˢ Finset.range chunkSize := by
    intro pair member
    obtain ⟨place, listed, rfl⟩ := Finset.mem_image.1 member
    have key := mem_keys_of_byte_ne_zero (stored place (List.mem_toFinset.1 listed))
    exact Finset.mem_product.2
      ⟨List.mem_toFinset.2 key, Finset.mem_range.2 (Nat.mod_lt _ (by decide))⟩
  have counted := Finset.card_le_card inside
  rw [Finset.card_image_of_injective _ split, List.toFinset_card_of_nodup distinct,
    Finset.card_product, Finset.card_range] at counted
  have keys := List.toFinset_card_le ram.chunks.keys
  rw [Std.ExtTreeMap.length_keys] at keys
  exact Nat.le_trans counted (Nat.mul_le_mul_right _ keys)

/-- Not more words that lie apart differ from zero than the bound says. -/
theorem length_le_written_of_words {ram : Ram} {places : List Nat} (offset : Nat)
    (apart : places.Pairwise fun place other => place + 8 ≤ other ∨ other + 8 ≤ place)
    (stored : ∀ place ∈ places, ram.word (place + offset) ≠ 0) :
    places.length ≤ ram.written := by
  have found : ∀ place : {place // place ∈ places}, ∃ byte, place.1 + offset ≤ byte ∧
      byte < place.1 + offset + 8 ∧ ram.byte byte ≠ 0 :=
    fun place => exists_byte_ne_zero_of_read_ne_zero (stored place.1 place.2)
  choose byte low high differs using found
  have distinct : (places.attach.map byte).Nodup := by
    rw [List.nodup_iff_pairwise_ne, List.pairwise_map]
    rw [← List.attach_map_subtype_val places] at apart
    apply (List.pairwise_map.1 apart).imp
    intro place other beside same
    have := low place
    have := high place
    have := low other
    have := high other
    omega
  have bound := length_le_written distinct fun place member => by
    obtain ⟨source, -, rfl⟩ := List.mem_map.1 member
    exact differs source
  simpa using bound

end Ram

end PhysicalMemory
