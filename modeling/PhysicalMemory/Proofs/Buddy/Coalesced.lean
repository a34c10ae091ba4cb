import PhysicalMemory.Proofs.Buddy.Pool

/-!
# Coalesced pools

A pool is coalesced over a set of free frames when its lists hold exactly the
largest cells of the set and every pair bit says whether one half of the pair
is listed and the other is not.  Listing a cell whose buddy is not all free, or
taking a listed one off, keeps a pool coalesced if the bit of its pair is
flipped along with it.
-/

namespace PhysicalMemory

namespace Pool

open Cell (Within Maximal Outside joined without)

/-- The lists hold the largest free cells, and the pair bits agree with the lists. -/
structure Coalesced (pool : Pool) (cells : Nat → List Nat) (free : Nat → Prop) : Prop where
  ready : pool.zone.Ready
  lists : pool.Lists cells
  within : ∀ frame, free frame → pool.zone.Has frame
  maximal : ∀ order < orderCount, ∀ cell, cell ∈ cells order ↔ Maximal free order cell
  paired : ∀ order < orderCount, ∀ parent,
    (pool.zone.areaOf order).pairs.base >>> (order + 1) ≤ parent →
      pool.zone.pairBit order parent =
        (decide (2 * parent ∈ cells order) ^^ decide (2 * parent + 1 ∈ cells order))

def Flips (pool pool' : Pool) (order cell : Nat) : Prop :=
  ∀ other < orderCount, ∀ parent,
    (pool.zone.areaOf other).pairs.base >>> (other + 1) ≤ parent →
      pool'.zone.pairBit other parent =
        (pool.zone.pairBit other parent ^^ decide (other = order ∧ parent = cell / 2))

structure Flipped (pool pool' : Pool) (order cell : Nat) : Prop where
  flips : pool.Flips pool' order cell
  free_eq : ∀ other, (pool'.zone.areaOf other).free = (pool.zone.areaOf other).free
  ram_eq : pool'.ram = pool.ram
  alike : Zone.Alike pool.zone pool'.zone

def listed (cells : Nat → List Nat) (order cell : Nat) : Nat → List Nat :=
  Function.update cells order (cell :: cells order)

def unlisted (cells : Nat → List Nat) (order cell : Nat) : Nat → List Nat :=
  Function.update cells order ((cells order).erase cell)

theorem mem_listed_iff {cells : Nat → List Nat} {order cell order' cell' : Nat} :
    cell' ∈ listed cells order cell order' ↔
      cell' ∈ cells order' ∨ (order' = order ∧ cell' = cell) := by
  unfold listed
  by_cases same : order' = order
  · subst same
    simp [or_comm]
  · simp [same]

theorem mem_unlisted_iff {cells : Nat → List Nat} {order cell order' cell' : Nat}
    (nodup : (cells order).Nodup) :
    cell' ∈ unlisted cells order cell order' ↔
      cell' ∈ cells order' ∧ ¬ (order' = order ∧ cell' = cell) := by
  unfold unlisted
  by_cases same : order' = order
  · subst same
    simp [nodup.mem_erase_iff, and_comm]
  · simp [same]

namespace Flips

variable {pool middle pool' : Pool} {order cell : Nat}

theorem of_bits (flips : pool.Flips middle order cell)
    (bits : ∀ other parent, pool'.zone.pairBit other parent = middle.zone.pairBit other parent) :
    pool.Flips pool' order cell :=
  fun other h parent base => by rw [bits, flips other h parent base]

theorem after_bits (flips : middle.Flips pool' order cell)
    (bits : ∀ other parent, middle.zone.pairBit other parent = pool.zone.pairBit other parent)
    (alike : Zone.Alike pool.zone middle.zone) : pool.Flips pool' order cell := by
  intro other h parent base
  rw [← (alike.reach other).base_eq] at base
  rw [flips other h parent base, bits]

theorem buddy (flips : pool.Flips pool' order cell) : pool.Flips pool' order (cell ^^^ 1) := by
  rwa [Flips, Cell.xor_one_div_two]

end Flips

namespace Flipped

variable {pool pool' : Pool} {cells : Nat → List Nat} {order cell : Nat}

theorem touches (flipped : pool.Flipped pool' order cell) (frames : Nat → Prop) :
    pool.Touches pool' frames := by
  refine ⟨flipped.alike, ?_⟩
  rw [flipped.ram_eq]
  exact .refl _ _

theorem lists (flipped : pool.Flipped pool' order cell) (lists : pool.Lists cells) :
    pool'.Lists cells where
  spells := fun order h => by
    rw [flipped.free_eq, flipped.ram_eq, flipped.alike.blockAt_eq]
    exact lists.spells order h
  nodup := lists.nodup
  inside := fun order h cell member =>
    (Cell.within_congr flipped.alike.has_iff).2 (lists.inside order h cell member)
  once := by
    rw [flipped.alike.blockAt_eq]
    exact lists.once

end Flipped

/-- Two halves differ in a membership exactly when it changes for one of them. -/
theorem xor_halves {old new : List Nat} {cell parent : Nat}
    (rest : ∀ other, other ≠ cell → (other ∈ new ↔ other ∈ old))
    (changed : cell ∈ new ↔ cell ∉ old) :
    (decide (2 * parent ∈ new) ^^ decide (2 * parent + 1 ∈ new)) =
      ((decide (2 * parent ∈ old) ^^ decide (2 * parent + 1 ∈ old)) ^^
        decide (parent = cell / 2)) := by
  by_cases half : parent = cell / 2
  · rcases Nat.mod_two_eq_zero_or_one cell with even | odd
    · have lower : cell = 2 * parent := by omega
      subst lower
      have upper := rest (2 * parent + 1) (by omega)
      by_cases member : 2 * parent ∈ old <;>
        simp [changed, upper, member, Bool.xor_comm]
    · have upper : cell = 2 * parent + 1 := by omega
      subst upper
      have lower := rest (2 * parent) (by omega)
      have same : parent = (2 * parent + 1) / 2 := half
      by_cases member : 2 * parent + 1 ∈ old <;>
        simp [changed, lower, member, ← same]
  · have lower := rest (2 * parent) (by omega)
    have upper := rest (2 * parent + 1) (by omega)
    simp [lower, upper, half]

namespace Coalesced

variable {pool pool' : Pool} {cells cells' : Nat → List Nat} {free free' : Nat → Prop}
  {order cell : Nat}

theorem congr_free (coalesced : pool.Coalesced cells free)
    (same : ∀ frame, free frame ↔ free' frame) : pool.Coalesced cells free' where
  ready := coalesced.ready
  lists := coalesced.lists
  within := fun frame member => coalesced.within frame ((same frame).2 member)
  maximal := fun order h cell =>
    (coalesced.maximal order h cell).trans (Cell.maximal_congr same)
  paired := coalesced.paired

/-- Writing in frames that are not free leaves a pool coalesced. -/
theorem congr_ram (coalesced : pool.Coalesced cells free) {ram : Ram} {frames : Nat → Prop}
    (agrees : pool.ram.AgreesOff ram fun byte => frames (pool.zone.geometry.frameOf byte))
    (apart : ∀ frame, frames frame → ¬ free frame) :
    Pool.Coalesced ⟨ram, pool.zone⟩ cells free where
  ready := coalesced.ready
  lists := by
    have lists := coalesced.lists
    refine ⟨fun order h => (lists.spells order h).congr ?_, lists.nodup, lists.inside, lists.once⟩
    intro block member
    obtain ⟨cell, listed, rfl⟩ := List.mem_map.1 member
    apply Chain.link_eq_of_agreesOff agrees
    intro byte low high written
    rw [pool.zone.geometry.frameOf_eq_of_link coalesced.ready.linkable low high] at written
    have maximal := (coalesced.maximal order h cell).1 listed
    exact apart _ written (maximal.1 _ (Cell.shiftLeft_shiftRight cell order))
  within := coalesced.within
  maximal := coalesced.maximal
  paired := coalesced.paired

/-- One listing changes together with the bit of its pair. -/
private theorem change (coalesced : pool.Coalesced cells free) (lists : pool'.Lists cells')
    (alike : Zone.Alike pool.zone pool'.zone) (flips : pool.Flips pool' order cell)
    (within : ∀ frame, free' frame → pool.zone.Has frame)
    (maximal : ∀ order < orderCount, ∀ cell, cell ∈ cells' order ↔ Maximal free' order cell)
    (rest : ∀ other other', ¬ (other = order ∧ other' = cell) →
      (other' ∈ cells' other ↔ other' ∈ cells other))
    (changed : cell ∈ cells' order ↔ cell ∉ cells order) :
    pool'.Coalesced cells' free' where
  ready := coalesced.ready.congr alike
  lists := lists
  within := fun frame member => (alike.has_iff frame).2 (within frame member)
  maximal := maximal
  paired := by
    intro other h parent base
    rw [(alike.reach other).base_eq] at base
    rw [flips other h parent base, coalesced.paired other h parent base]
    by_cases same : other = order
    · subst same
      rw [xor_halves (fun other' distinct => rest other other' fun both => distinct both.2) changed]
      simp
    · have lower := rest other (2 * parent) fun both => same both.1
      have upper := rest other (2 * parent + 1) fun both => same both.1
      simp [same, lower, upper]

/-- A cell is listed whose buddy is not all free. -/
theorem list (coalesced : pool.Coalesced cells free) (h : order < orderCount)
    (lists : pool'.Lists (listed cells order cell)) (alike : Zone.Alike pool.zone pool'.zone)
    (flips : pool.Flips pool' order cell) (inside : Within pool.zone.Has order cell)
    (outside : Outside free order cell)
    (alone : order < topOrder → ¬ Within free order (cell ^^^ 1)) :
    pool'.Coalesced (listed cells order cell) (joined free order cell) := by
  have absent : cell ∉ cells order := by
    intro member
    have maximal := (coalesced.maximal order h cell).1 member
    exact outside _ (Cell.shiftLeft_shiftRight cell order)
      (maximal.1 _ (Cell.shiftLeft_shiftRight cell order))
  apply coalesced.change lists alike flips
  · rintro frame (member | same)
    · exact coalesced.within frame member
    · exact inside frame same
  · intro other h' other'
    rw [mem_listed_iff, coalesced.maximal other h' other',
      Cell.maximal_joined_iff outside (Nat.le_of_lt_succ h) alone (Nat.le_of_lt_succ h')]
  · intro other other' distinct
    rw [mem_listed_iff]
    exact or_iff_left distinct
  · simp [mem_listed_iff, absent]

theorem unlist (coalesced : pool.Coalesced cells free) (h : order < orderCount)
    (lists : pool'.Lists (unlisted cells order cell)) (alike : Zone.Alike pool.zone pool'.zone)
    (flips : pool.Flips pool' order cell) (member : cell ∈ cells order) :
    pool'.Coalesced (unlisted cells order cell) (without free order cell) := by
  have nodup := coalesced.lists.nodup order h
  apply coalesced.change lists alike flips
  · exact fun frame left => coalesced.within frame left.1
  · intro other h' other'
    rw [mem_unlisted_iff nodup, coalesced.maximal other h' other',
      Cell.maximal_without_iff ((coalesced.maximal order h cell).1 member)
        (Nat.le_of_lt_succ h) (Nat.le_of_lt_succ h')]
  · intro other other' distinct
    rw [mem_unlisted_iff nodup]
    exact and_iff_left distinct
  · simp [mem_unlisted_iff nodup, member]

theorem fresh (coalesced : pool.Coalesced cells free) (outside : Outside free order cell) :
    ∀ order' < orderCount, ∀ cell' ∈ cells order',
      pool.zone.geometry.blockAt order' cell' ≠ pool.zone.geometry.blockAt order cell := by
  intro order' h' cell' member same
  have frames := congrArg pool.zone.geometry.frameOf same
  rw [Geometry.frameOf_blockAt, Geometry.frameOf_blockAt] at frames
  have maximal := (coalesced.maximal order' h' cell').1 member
  apply outside _ (Cell.shiftLeft_shiftRight cell order)
  rw [← frames]
  exact maximal.1 _ (Cell.shiftLeft_shiftRight cell' order')

/-- Flipping the pair of a block in the zone flips just that pair. -/
theorem toggle_block (ready : pool.zone.Ready) (h : order < orderCount)
    (inside : Within pool.zone.Has order cell) :
    ∃ pool', Action.Answers
        (toggle order (pool.zone.geometry.frameOf (pool.zone.geometry.blockAt order cell))) pool
        (pool.zone.pairBit order (cell / 2)) pool' ∧
      pool.Flipped pool' order cell := by
  have has : pool.zone.Has (cell <<< order) := inside _ (Cell.shiftLeft_shiftRight _ _)
  obtain ⟨pool', answers, free, flips, ram, alike⟩ := toggle_answers ready h has
  have parent : cell <<< order >>> (order + 1) = cell / 2 := by
    rw [Cell.shiftRight_succ, Cell.shiftLeft_shiftRight]
  rw [parent] at answers flips
  rw [Geometry.frameOf_blockAt]
  exact ⟨pool', answers, flips, free, ram, alike⟩

/-- Putting a block on its list and flipping its pair lists its cell. -/
theorem put (coalesced : pool.Coalesced cells free) (h : order < orderCount)
    (inside : Within pool.zone.Has order cell) (outside : Outside free order cell)
    (alone : order < topOrder → ¬ Within free order (cell ^^^ 1)) :
    ∃ middle pool' bit,
      Action.Answers (push order (pool.zone.geometry.blockAt order cell)) pool () middle ∧
      Action.Answers
        (toggle order (pool.zone.geometry.frameOf (pool.zone.geometry.blockAt order cell)))
        middle bit pool' ∧
      pool'.Coalesced (listed cells order cell) (joined free order cell) ∧
      pool.Touches pool' (fun frame => frame >>> order = cell) := by
  obtain ⟨middle, pushed, lists, bits, touches⟩ :=
    coalesced.lists.push coalesced.ready h inside (coalesced.fresh outside)
  have inside' := (Cell.within_congr touches.alike.has_iff).2 inside
  obtain ⟨pool', toggled, flipped⟩ :=
    toggle_block (coalesced.ready.congr touches.alike) h inside'
  rw [touches.alike.geometry_eq] at toggled
  have both := touches.trans (flipped.touches _)
  have flips := flipped.flips.after_bits bits touches.alike
  exact ⟨middle, pool', _, pushed, toggled,
    coalesced.list h (flipped.lists lists) both.alike flips inside outside alone, both⟩

end Coalesced

end Pool

end PhysicalMemory
