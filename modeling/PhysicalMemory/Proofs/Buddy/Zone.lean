import PhysicalMemory.Zone.Pool
import PhysicalMemory.Proofs.Buddy.Place
import PhysicalMemory.Proofs.Answers
import PhysicalMemory.Proofs.Memory.FreeList
import PhysicalMemory.Proofs.Memory.Pairs

/-!
# Zones as sets of pages

A zone has the frames that lie wholly in it.  A zone that is ready to keep
blocks has pages that hold a link, begins above address zero and ends within a
word, and its bitmaps reach all its frames from a base that the largest parent
is aligned to.  None of this changes while blocks come and go.
-/

namespace PhysicalMemory

namespace Zone

/-- The frame is a whole page of the zone. -/
def Has (zone : Zone) (frame : Nat) : Prop :=
  zone.start ≤ frame * zone.geometry.size ∧
    (frame + 1) * zone.geometry.size ≤ zone.start + zone.size

def frames (zone : Zone) : List Nat :=
  List.range' (zone.geometry.frameOf zone.start)
    (zone.geometry.frameOf (zone.start + zone.size) - zone.geometry.frameOf zone.start)

def areaOf (zone : Zone) (order : Nat) : FreeArea :=
  zone.areas[order]?.getD default

def pairBit (zone : Zone) (order parent : Nat) : Bool :=
  (zone.areaOf order).pairs.bit (parent - (zone.areaOf order).pairs.base >>> (order + 1))

theorem has_iff {zone : Zone} (aligned : zone.start % zone.geometry.size = 0) (frame : Nat) :
    zone.Has frame ↔ zone.geometry.frameOf zone.start ≤ frame ∧
      frame < zone.geometry.frameOf (zone.start + zone.size) := by
  have positive := zone.geometry.size_pos
  have start : zone.geometry.frameOf zone.start * zone.geometry.size = zone.start :=
    Nat.div_mul_cancel (Nat.dvd_of_mod_eq_zero aligned)
  rw [Has]
  nth_rewrite 1 [← start]
  rw [Nat.mul_le_mul_right_iff positive, ← Nat.le_div_iff_mul_le positive, Nat.succ_le_iff]
  rfl

theorem mem_frames_iff {zone : Zone} (aligned : zone.start % zone.geometry.size = 0)
    {frame : Nat} : frame ∈ zone.frames ↔ zone.Has frame := by
  rw [frames, List.mem_range'_1, has_iff aligned]
  omega

/-- A zone has a cell when the cell begins and ends between its two ends. -/
theorem within_has_iff {zone : Zone} (aligned : zone.start % zone.geometry.size = 0)
    {order cell : Nat} :
    Cell.Within zone.Has order cell ↔ zone.geometry.frameOf zone.start ≤ cell <<< order ∧
      (cell + 1) <<< order ≤ zone.geometry.frameOf (zone.start + zone.size) := by
  have grows : cell <<< order < (cell + 1) <<< order := by
    rw [Nat.shiftLeft_eq, Nat.shiftLeft_eq]
    exact Nat.mul_lt_mul_of_pos_right (Nat.lt_succ_self cell) (Nat.two_pow_pos order)
  constructor
  · intro within
    have first := (has_iff aligned _).1 (within _ (Cell.shiftLeft_shiftRight cell order))
    have last := (has_iff aligned _).1
      (within ((cell + 1) <<< order - 1) (Cell.shiftRight_eq_iff.2 (by omega)))
    omega
  · rintro ⟨low, high⟩ frame inside
    have bounds := Cell.shiftRight_eq_iff.1 inside
    exact (has_iff aligned frame).2 (by omega)

/-- A zone has a cell when the cell's block lies in it. -/
theorem within_has_iff_block {zone : Zone} (aligned : zone.start % zone.geometry.size = 0)
    {order cell : Nat} :
    Cell.Within zone.Has order cell ↔ zone.start ≤ zone.geometry.blockAt order cell ∧
      zone.geometry.blockAt order (cell + 1) ≤ zone.start + zone.size := by
  have positive := zone.geometry.size_pos
  have start : zone.geometry.frameOf zone.start * zone.geometry.size = zone.start :=
    Nat.div_mul_cancel (Nat.dvd_of_mod_eq_zero aligned)
  have low : zone.geometry.frameOf zone.start ≤ cell <<< order ↔
      zone.start ≤ cell <<< order * zone.geometry.size := by
    refine (Nat.mul_le_mul_right_iff positive).symm.trans ?_
    rw [start]
  rw [within_has_iff aligned, low, Geometry.blockAt_eq_mul, Geometry.blockAt_eq_mul]
  exact and_congr_right fun _ => Nat.le_div_iff_mul_le positive

theorem area_eq_areaOf (zone : Zone) {order : Nat} (h : order < orderCount) :
    zone.area order = .ok (zone.areaOf order) := by
  rw [area_of_lt zone h, areaOf, Vector.getElem?_eq_getElem h]
  rfl

theorem areaOf_setArea (zone : Zone) {order : Nat} (h : order < orderCount) (area : FreeArea)
    (other : Nat) :
    (zone.setArea order area).areaOf other = if other = order then area else zone.areaOf other := by
  rw [areaOf, setArea, areaOf]
  split
  · next same => simp [same, h]
  · next distinct => simp [Vector.getElem?_setIfInBounds_ne (Ne.symm distinct)]

theorem pairBit_setArea (zone : Zone) {order : Nat} (h : order < orderCount) (list : FreeList)
    (other parent : Nat) :
    (zone.setArea order { zone.areaOf order with free := list }).pairBit other parent =
      zone.pairBit other parent := by
  simp only [pairBit, areaOf_setArea zone h]
  split
  · next same => rw [same]
  · rfl

theorem contains_of_lt {zone : Zone} (h : zone.start + zone.size < Word.limit) (address : Nat) :
    zone.contains address =
      .ok (decide (zone.start ≤ address ∧ address < zone.start + zone.size)) := by
  by_cases low : zone.start ≤ address <;>
    simp [contains, low, stop, Word.add_of_lt h, bind, Except.bind, pure, Except.pure]

structure SameReach (pairs pairs' : PairBitmap) : Prop where
  order_eq : pairs'.order = pairs.order
  base_eq : pairs'.base = pairs.base
  covers_eq : pairs'.covers = pairs.covers
  place_eq : pairs'.place = pairs.place

theorem SameReach.refl (pairs : PairBitmap) : SameReach pairs pairs :=
  ⟨rfl, rfl, rfl, rfl⟩

theorem SameReach.size_eq {pairs pairs' : PairBitmap} (same : SameReach pairs pairs') :
    pairs'.words.size = pairs.words.size := by
  have covers : ∀ word, word < pairs'.words.size ↔ word < pairs.words.size := by
    intro word
    have reach := congrFun same.covers_eq (64 * word)
    simpa [PairBitmap.covers] using reach
  exact Nat.le_antisymm (Nat.le_of_not_lt fun less => Nat.lt_irrefl _ ((covers _).1 less))
    (Nat.le_of_not_lt fun less => Nat.lt_irrefl _ ((covers _).2 less))

/-- The zones differ at most in their free blocks and pair bits. -/
structure Alike (zone zone' : Zone) : Prop where
  id_eq : zone'.id = zone.id
  allocatable_eq : zone'.allocatable = zone.allocatable
  start_eq : zone'.start = zone.start
  size_eq : zone'.size = zone.size
  geometry_eq : zone'.geometry = zone.geometry
  reach : ∀ order, SameReach (zone.areaOf order).pairs (zone'.areaOf order).pairs

namespace Alike

variable {zone zone' zone'' : Zone}

theorem refl (zone : Zone) : Alike zone zone :=
  ⟨rfl, rfl, rfl, rfl, rfl, fun _ => .refl _⟩

theorem symm (alike : Alike zone zone') : Alike zone' zone :=
  ⟨alike.id_eq.symm, alike.allocatable_eq.symm, alike.start_eq.symm, alike.size_eq.symm,
    alike.geometry_eq.symm, fun order => ⟨(alike.reach order).order_eq.symm,
      (alike.reach order).base_eq.symm, (alike.reach order).covers_eq.symm,
      (alike.reach order).place_eq.symm⟩⟩

theorem trans (first : Alike zone zone') (second : Alike zone' zone'') : Alike zone zone'' where
  id_eq := second.id_eq.trans first.id_eq
  allocatable_eq := second.allocatable_eq.trans first.allocatable_eq
  start_eq := second.start_eq.trans first.start_eq
  size_eq := second.size_eq.trans first.size_eq
  geometry_eq := second.geometry_eq.trans first.geometry_eq
  reach := fun order =>
    ⟨(second.reach order).order_eq.trans (first.reach order).order_eq,
      (second.reach order).base_eq.trans (first.reach order).base_eq,
      (second.reach order).covers_eq.trans (first.reach order).covers_eq,
      (second.reach order).place_eq.trans (first.reach order).place_eq⟩

theorem has_iff (alike : Alike zone zone') (frame : Nat) : zone'.Has frame ↔ zone.Has frame := by
  rw [Has, Has, alike.start_eq, alike.size_eq, alike.geometry_eq]

theorem frames_eq (alike : Alike zone zone') : zone'.frames = zone.frames := by
  rw [frames, frames, alike.start_eq, alike.size_eq, alike.geometry_eq]

theorem blockAt_eq (alike : Alike zone zone') :
    zone'.geometry.blockAt = zone.geometry.blockAt := by
  rw [alike.geometry_eq]

end Alike

theorem alike_setArea (zone : Zone) {order : Nat} (h : order < orderCount) {area : FreeArea}
    (reach : SameReach (zone.areaOf order).pairs area.pairs) :
    Alike zone (zone.setArea order area) := by
  refine ⟨rfl, rfl, rfl, rfl, rfl, fun other => ?_⟩
  rw [areaOf_setArea zone h]
  split
  · next same =>
      subst same
      exact reach
  · exact .refl _

/-- What a zone has to be for its blocks to be found, linked and paired. -/
structure Ready (zone : Zone) : Prop where
  linkable : 8 ≤ zone.geometry.size
  start_pos : 0 < zone.start
  start_aligned : zone.start % zone.geometry.size = 0
  stop_lt : zone.start + zone.size < Word.limit
  wide : ∀ frame, zone.Has frame → zone.geometry.shift + topOrder < 64
  order_eq : ∀ order < orderCount, (zone.areaOf order).pairs.order = order
  base_aligned : ∀ order < orderCount, (zone.areaOf order).pairs.base % 1 <<< orderCount = 0
  reached : ∀ order < orderCount, ∀ frame, zone.Has frame →
    (zone.areaOf order).pairs.base ≤ frame ∧
      (zone.areaOf order).pairs.covers
        ((frame - (zone.areaOf order).pairs.base) >>> (order + 1)) = true

namespace Ready

variable {zone zone' : Zone} {order cell frame : Nat}

theorem congr (ready : zone.Ready) (alike : Alike zone zone') : zone'.Ready where
  linkable := by rw [alike.geometry_eq]; exact ready.linkable
  start_pos := by rw [alike.start_eq]; exact ready.start_pos
  start_aligned := by rw [alike.start_eq, alike.geometry_eq]; exact ready.start_aligned
  stop_lt := by rw [alike.start_eq, alike.size_eq]; exact ready.stop_lt
  wide := fun frame has => by
    rw [alike.geometry_eq]
    exact ready.wide frame ((alike.has_iff frame).1 has)
  order_eq := fun order h => (alike.reach order).order_eq.trans (ready.order_eq order h)
  base_aligned := fun order h => by
    rw [(alike.reach order).base_eq]
    exact ready.base_aligned order h
  reached := fun order h frame has => by
    rw [(alike.reach order).base_eq, (alike.reach order).covers_eq]
    exact ready.reached order h frame ((alike.has_iff frame).1 has)

theorem first_frame_pos (ready : zone.Ready) (has : zone.Has frame) :
    0 < frame * zone.geometry.size :=
  Nat.lt_of_lt_of_le ready.start_pos has.1

theorem frame_bound (ready : zone.Ready) (has : zone.Has frame) :
    (frame + 1) * zone.geometry.size < Word.limit :=
  Nat.lt_of_le_of_lt has.2 ready.stop_lt

theorem block_word (ready : zone.Ready) (inside : Cell.Within zone.Has order cell) :
    zone.geometry.blockAt order cell % 8 = 0 ∧ zone.geometry.blockAt order cell < Word.limit ∧
      zone.geometry.blockAt order cell ≠ 0 := by
  have first : zone.Has (cell <<< order) := inside _ (Cell.shiftLeft_shiftRight _ _)
  have low := ready.first_frame_pos first
  have high := ready.frame_bound first
  refine ⟨zone.geometry.blockAt_mod_eight ready.linkable order cell, ?_, ?_⟩
  · rw [Geometry.blockAt_eq_mul]
    exact Nat.lt_of_le_of_lt (Nat.mul_le_mul_right _ (Nat.le_succ _)) high
  · rw [Geometry.blockAt_eq_mul]
    omega

theorem pair_eq (ready : zone.Ready) (h : order < orderCount) (frame : Nat) :
    (frame - (zone.areaOf order).pairs.base) >>> (order + 1) =
      frame >>> (order + 1) - (zone.areaOf order).pairs.base >>> (order + 1) := by
  have aligned := Nat.dvd_of_mod_eq_zero (ready.base_aligned order h)
  have divides : 1 <<< (order + 1) ∣ (zone.areaOf order).pairs.base := by
    apply Nat.dvd_trans _ aligned
    rw [Nat.one_shiftLeft, Nat.one_shiftLeft]
    exact Nat.pow_dvd_pow 2 h
  exact PairBitmap.sub_shiftRight (Nat.mod_eq_zero_of_dvd divides) frame

theorem locate_eq (ready : zone.Ready) (h : order < orderCount) (has : zone.Has frame) :
    (zone.areaOf order).pairs.locate frame =
      .ok ((frame - (zone.areaOf order).pairs.base) >>> (order + 1)) := by
  obtain ⟨above, covers⟩ := ready.reached order h frame has
  have same := ready.order_eq order h
  have located := PairBitmap.locate_of_covers (by rw [same]; exact Nat.lt_trans h (by decide))
    above (by rwa [same])
  rwa [same] at located

theorem base_le (ready : zone.Ready) (h : order < orderCount) (has : zone.Has frame) :
    (zone.areaOf order).pairs.base >>> (order + 1) ≤ frame >>> (order + 1) := by
  rw [Nat.shiftRight_eq_div_pow, Nat.shiftRight_eq_div_pow]
  exact Nat.div_le_div_right (ready.reached order h frame has).1

end Ready

end Zone

end PhysicalMemory
