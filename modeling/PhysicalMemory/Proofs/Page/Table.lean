import Mathlib
import PhysicalMemory.Page.Table

/-!
# Descriptor tables by frame

A table is read as a function from frames to descriptors.  In a table whose
frames are words the circular slots agree with it, and storing a descriptor
changes the function at one frame.  The frames of the blocks that somebody holds
are the taken ones; a block is known by its head, whose descriptor has an owner
and the block's order.
-/

namespace PhysicalMemory

namespace DescriptorTable

def page? (table : DescriptorTable) (frame : Nat) : Option Page :=
  if table.first ≤ frame then table.pages[frame - table.first]? else none

/-- The table's frames are words, and each descriptor has the start of its frame. -/
structure Regular (table : DescriptorTable) : Prop where
  bounded : 0 < table.pages.size → table.first + table.pages.size ≤ Word.limit
  placed : ∀ frame page, table.page? frame = some page →
    page.start = frame * table.geometry.size

/-- The frame is the head of a block of the order that somebody holds. -/
def Holds (table : DescriptorTable) (head order : Nat) : Prop :=
  ∃ page, table.page? head = some page ∧ page.owner ≠ .unowned ∧ page.order = order

/-- The frame belongs to a block that somebody holds. -/
def Taken (table : DescriptorTable) (frame : Nat) : Prop :=
  ∃ head order, table.Holds head order ∧ frame >>> order = head >>> order

variable {table : DescriptorTable} {frame other head order : Nat} {old page : Page}

theorem page?_eq_some_iff :
    table.page? frame = some page ↔
      table.first ≤ frame ∧ table.pages[frame - table.first]? = some page := by
  unfold page?
  split <;> simp_all

theorem lt_of_page? (found : table.page? frame = some page) :
    table.first ≤ frame ∧ frame < table.first + table.pages.size := by
  obtain ⟨low, found⟩ := page?_eq_some_iff.1 found
  obtain ⟨inside, -⟩ := Array.getElem?_eq_some_iff.1 found
  omega

theorem contains_eq (table : DescriptorTable) (address : Nat) :
    table.contains address = (table.page? (table.geometry.frameOf address)).isSome := by
  unfold contains page?
  split
  · next low =>
      by_cases inside : table.geometry.frameOf address - table.first < table.pages.size
      · simp [low, inside]
      · simp [low, inside]
  · next high => simp [high]

theorem size_set (table : DescriptorTable) (frame : Nat) (page : Page) :
    (table.set frame page).pages.size = table.pages.size :=
  Array.size_setIfInBounds

namespace Regular

theorem slot_eq (regular : table.Regular) (found : table.page? frame = some page) :
    table.slot frame = frame - table.first := by
  have range := lt_of_page? found
  have bounded := regular.bounded (by omega)
  exact slot_of_le range.1 (by omega)

theorem ofFrame_eq (regular : table.Regular) (found : table.page? frame = some page) :
    table.ofFrame frame = .ok page := by
  rw [ofFrame, regular.slot_eq found, (page?_eq_some_iff.1 found).2]

theorem frameOf_start (regular : table.Regular) (found : table.page? frame = some page) :
    table.geometry.frameOf page.start = frame := by
  rw [regular.placed frame page found, Geometry.frameOf_mul]

/-- A frame that is a word finds the descriptor it has; around the circle it finds none. -/
theorem ofFrame_eq_ok_iff (regular : table.Regular) (word : frame < Word.limit) :
    table.ofFrame frame = .ok page ↔ table.page? frame = some page := by
  refine ⟨fun answered => ?_, regular.ofFrame_eq⟩
  have read : table.pages[table.slot frame]? = some page := by
    unfold ofFrame at answered
    split at answered
    · next found => rw [found, Except.ok.inj answered]
    · cases answered
  obtain ⟨inside, -⟩ := Array.getElem?_eq_some_iff.1 read
  have bounded := regular.bounded (Nat.zero_lt_of_lt inside)
  by_cases low : table.first ≤ frame
  · rw [slot_of_le low word] at read
    exact page?_eq_some_iff.2 ⟨low, read⟩
  · -- a frame below the first one has a slot past the last
    have first : table.first % Word.limit = table.first := Nat.mod_eq_of_lt (by omega)
    rw [slot, Word.subWrapping, first, Nat.mod_eq_of_lt (by omega)] at inside
    omega

/-- Storing a descriptor in the place of a frame's changes what is found for that frame. -/
theorem page?_set (regular : table.Regular) (found : table.page? frame = some old)
    (page : Page) (other : Nat) :
    (table.set frame page).page? other =
      if other = frame then some page else table.page? other := by
  have range := lt_of_page? found
  simp only [page?, set, regular.slot_eq found]
  split
  · next above =>
      rw [Array.getElem?_setIfInBounds]
      by_cases same : other = frame
      · subst same
        rw [if_pos rfl, if_pos rfl, if_pos (by omega)]
      · rw [if_neg (by omega), if_neg same]
  · next below =>
      rw [if_neg (by omega)]

/-- In the place of one of the same zone a descriptor leaves every frame in its zone. -/
theorem exists_page?_set (regular : table.Regular) (found : table.page? frame = some old)
    {page other : Page} (zone_eq : page.zone = old.zone) {frame' : Nat}
    (found' : table.page? frame' = some other) :
    ∃ there, (table.set frame page).page? frame' = some there ∧ there.zone = other.zone := by
  rw [regular.page?_set found]
  split
  · next same =>
      subst same
      rw [found] at found'
      obtain rfl := Option.some.inj found'
      exact ⟨page, rfl, zone_eq⟩
  · exact ⟨other, found', rfl⟩

theorem set (regular : table.Regular) (found : table.page? frame = some old)
    (start : page.start = old.start) : (table.set frame page).Regular where
  bounded := by
    have bounded := regular.bounded
    simpa [DescriptorTable.set] using bounded
  placed := by
    intro other page' found'
    rw [regular.page?_set found] at found'
    split at found'
    · next same =>
        subst same
        obtain rfl := Option.some.inj found'
        rw [start]
        exact regular.placed other old found
    · exact regular.placed other page' found'

/-- A head whose descriptor is stored anew is a head as the new descriptor says. -/
theorem holds_set_iff (regular : table.Regular) (found : table.page? frame = some old) :
    (table.set frame page).Holds head order ↔
      if head = frame then page.owner ≠ .unowned ∧ page.order = order
      else table.Holds head order := by
  unfold Holds
  rw [regular.page?_set found]
  split
  · simp
  · rfl

theorem taken_set_of_held (regular : table.Regular) (found : table.page? frame = some old)
    (unowned : old.owner = .unowned) (owned : page.owner ≠ .unowned) (other : Nat) :
    (table.set frame page).Taken other ↔
      table.Taken other ∨ other >>> page.order = frame >>> page.order := by
  constructor
  · rintro ⟨head, order, holds, inside⟩
    rw [regular.holds_set_iff found] at holds
    split at holds
    · next same =>
        subst same
        rw [holds.2]
        exact .inr inside
    · exact .inl ⟨head, order, holds, inside⟩
  · rintro (⟨head, order, holds, inside⟩ | inside)
    · refine ⟨head, order, ?_, inside⟩
      rw [regular.holds_set_iff found, if_neg]
      · exact holds
      · rintro rfl
        obtain ⟨page', found', owned', -⟩ := holds
        rw [found] at found'
        obtain rfl := Option.some.inj found'
        exact owned' unowned
    · refine ⟨frame, page.order, ?_, inside⟩
      rw [regular.holds_set_iff found, if_pos rfl]
      exact ⟨owned, rfl⟩

/-- A block that is no longer held gives its frames up, if no other block has them. -/
theorem taken_set_of_released (regular : table.Regular) (found : table.page? frame = some old)
    (unowned : page.owner = .unowned)
    (apart : ∀ other head order, table.Holds head order → other >>> order = head >>> order →
      other >>> old.order = frame >>> old.order → head = frame) (other : Nat) :
    (table.set frame page).Taken other ↔
      table.Taken other ∧ other >>> old.order ≠ frame >>> old.order := by
  constructor
  · rintro ⟨head, order, holds, inside⟩
    rw [regular.holds_set_iff found] at holds
    split at holds
    · exact absurd unowned holds.1
    · next distinct =>
        exact ⟨⟨head, order, holds, inside⟩, fun same =>
          distinct (apart other head order holds inside same)⟩
  · rintro ⟨⟨head, order, holds, inside⟩, outside⟩
    refine ⟨head, order, ?_, inside⟩
    rw [regular.holds_set_iff found, if_neg]
    · exact holds
    · rintro rfl
      obtain ⟨page', found', -, rfl⟩ := holds
      rw [found] at found'
      obtain rfl := Option.some.inj found'
      exact outside inside

theorem holds_set_of_same (regular : table.Regular) (found : table.page? frame = some old)
    (owner : page.owner = .unowned ↔ old.owner = .unowned) (order_eq : page.order = old.order) :
    (table.set frame page).Holds head order ↔ table.Holds head order := by
  rw [regular.holds_set_iff found]
  split
  · next same =>
      subst same
      simp [Holds, found, owner, order_eq]
  · rfl

end Regular

/-- A table that is described has a descriptor for each of its frames. -/
theorem describe_eq_ok {geometry : Geometry} {start length : Nat} {zoneOf : Nat → ZoneId}
    {place : Nat} (aligned : start % geometry.size = 0)
    (described : describe geometry start length zoneOf place = .ok table) :
    table.geometry = geometry ∧ table.Regular ∧ ∀ frame, table.page? frame =
      if geometry.frameOf start ≤ frame ∧ frame < geometry.frameOf start + length then
        some (Page.unowned (zoneOf (frame * geometry.size)) (frame * geometry.size))
      else none := by
  unfold describe at described
  split at described
  · cases described
  · next fits =>
      obtain rfl := Except.ok.inj described
      have positive := geometry.size_pos
      have base : geometry.frameOf start * geometry.size = start :=
        Nat.div_mul_cancel (Nat.dvd_of_mod_eq_zero aligned)
      have read : ∀ frame, page? ⟨geometry, geometry.frameOf start,
          Array.ofFn fun slot : Fin length => Page.unowned
            (zoneOf (start + slot * geometry.size)) (start + slot * geometry.size), place⟩ frame =
          if geometry.frameOf start ≤ frame ∧ frame < geometry.frameOf start + length then
            some (Page.unowned (zoneOf (frame * geometry.size)) (frame * geometry.size))
          else none := by
        intro frame
        unfold page?
        dsimp only
        split
        · next low =>
            have address : start + (frame - geometry.frameOf start) * geometry.size =
                frame * geometry.size := by
              nth_rewrite 1 [← base]
              rw [← Nat.add_mul]
              congr 1
              omega
            by_cases inside : frame < geometry.frameOf start + length
            · rw [if_pos ⟨low, inside⟩]
              rw [Array.getElem?_ofFn, dif_pos (by omega)]
              simp only [address]
            · rw [if_neg fun both => inside both.2]
              rw [Array.getElem?_ofFn, dif_neg (by omega)]
        · next high => rw [if_neg fun both => high both.1]
      refine ⟨rfl, ⟨?_, ?_⟩, read⟩
      · intro nonempty
        simp only [Array.size_ofFn] at nonempty ⊢
        have below : start + length * geometry.size < Word.limit := by
          by_contra wraps
          exact fits ⟨Nat.pos_iff_ne_zero.1 nonempty, Nat.le_of_not_lt wraps⟩
        nth_rewrite 1 [← base] at below
        rw [← Nat.add_mul] at below
        exact Nat.le_of_lt (Nat.lt_of_le_of_lt (Nat.le_mul_of_pos_right _ positive) below)
      · intro frame page found
        rw [read] at found
        split at found
        · obtain rfl := Option.some.inj found
          rfl
        · cases found

theorem size_of_describe {geometry : Geometry} {start length : Nat} {zoneOf : Nat → ZoneId}
    {place : Nat} (described : describe geometry start length zoneOf place = .ok table) :
    table.pages.size = length := by
  unfold describe at described
  split at described
  · cases described
  · obtain rfl := Except.ok.inj described
    exact Array.size_ofFn

theorem place_of_describe {geometry : Geometry} {start length : Nat} {zoneOf : Nat → ZoneId}
    {place : Nat} (described : describe geometry start length zoneOf place = .ok table) :
    table.place = place := by
  unfold describe at described
  split at described
  · cases described
  · obtain rfl := Except.ok.inj described
    rfl

end DescriptorTable

end PhysicalMemory
