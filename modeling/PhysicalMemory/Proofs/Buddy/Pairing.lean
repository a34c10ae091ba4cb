import PhysicalMemory.Proofs.Buddy.Place
import PhysicalMemory.Proofs.Memory.Pairs

/-!
# Pair bits and buddies name the same pairs

A bitmap tells pairs apart by counting frames from its base, a geometry by one bit of an
address.  From a base that a whole pair begins at the two agree: two blocks of an order
keep the same bit just if they are one block or each other's buddies.  Such a bitmap
answers for every frame of the pages it was sized for, and as it is only ever toggled,
each bit is the parity of the toggles of its pair.
-/

namespace PhysicalMemory

namespace PairBitmap

def toggleAll (bitmap : PairBitmap) : List Nat → Checked PairBitmap
  | [] => .ok bitmap
  | frame :: rest => do
      let (_, next) ← bitmap.toggle frame
      next.toggleAll rest

/-- Whether an odd number of some frames belong to the pair of a frame. -/
def oddly (order : Nat) (toggled : List Nat) (frame : Nat) : Bool :=
  toggled.countP (fun other => other >>> (order + 1) == frame >>> (order + 1)) % 2 == 1

theorem oddly_cons (order first : Nat) (rest : List Nat) (frame : Nat) :
    oddly order (first :: rest) frame =
      (decide (frame >>> (order + 1) = first >>> (order + 1)) ^^ oddly order rest frame) := by
  rw [oddly, oddly, List.countP_cons]
  by_cases same : first >>> (order + 1) = frame >>> (order + 1)
  · rcases Nat.mod_two_eq_zero_or_one (rest.countP fun other =>
      other >>> (order + 1) == frame >>> (order + 1)) with even | odd
    · simp [same, Nat.add_mod, even]
    · simp [same, Nat.add_mod, odd]
  · simp [same, Ne.symm same]

def Spans (base pages frame : Nat) : Prop :=
  base ≤ frame ∧ frame < base + pages

def pairIn (bitmap : PairBitmap) (frame : Nat) : Nat :=
  (frame - bitmap.base) >>> (bitmap.order + 1)

/-- The bits of the pairs of two frames are one bit of one word. -/
def Share (bitmap : PairBitmap) (frame other : Nat) : Prop :=
  ∃ pair pair', bitmap.locate frame = .ok pair ∧ bitmap.locate other = .ok pair' ∧
    pair / 64 = pair' / 64 ∧ pair % 64 = pair' % 64

instance (base pages frame : Nat) : Decidable (Spans base pages frame) :=
  inferInstanceAs (Decidable (_ ∧ _))

/-- A bitmap that begins at a whole pair and has the bits of so many pages from there. -/
structure Reaches (bitmap : PairBitmap) (pages : Nat) : Prop where
  narrow : bitmap.order < 63
  aligned : bitmap.base % 1 <<< (bitmap.order + 1) = 0
  covers : ∀ offset < pages, bitmap.covers (offset >>> (bitmap.order + 1)) = true

theorem reaches_clear {order base : Nat} (narrow : order < 63)
    (aligned : base % 1 <<< (order + 1) = 0) (pages : Nat) :
    (clear order base (wordsCovering pages order)).Reaches pages :=
  ⟨narrow, aligned, fun _ below => covers_clear below⟩

namespace Reaches

variable {bitmap : PairBitmap} {pages frame other : Nat}

theorem flip (reaches : bitmap.Reaches pages) (pair : Nat) : (bitmap.flip pair).Reaches pages where
  narrow := reaches.narrow
  aligned := reaches.aligned
  covers := fun offset below => by
    rw [covers_flip]
    exact reaches.covers offset below

theorem covers_pairIn (reaches : bitmap.Reaches pages) (spans : Spans bitmap.base pages frame) :
    bitmap.covers (bitmap.pairIn frame) = true := by
  obtain ⟨low, high⟩ := spans
  exact reaches.covers (frame - bitmap.base) (by omega)

theorem locate_eq (reaches : bitmap.Reaches pages) (spans : Spans bitmap.base pages frame) :
    bitmap.locate frame = .ok (bitmap.pairIn frame) :=
  locate_of_covers reaches.narrow spans.1 (reaches.covers_pairIn spans)

theorem test_eq (reaches : bitmap.Reaches pages) (spans : Spans bitmap.base pages frame) :
    bitmap.test frame = .ok (bitmap.bit (bitmap.pairIn frame)) := by
  rw [test, reaches.locate_eq spans]
  rfl

theorem toggle_eq (reaches : bitmap.Reaches pages) (spans : Spans bitmap.base pages frame) :
    bitmap.toggle frame =
      .ok (bitmap.bit (bitmap.pairIn frame), bitmap.flip (bitmap.pairIn frame)) := by
  rw [toggle, reaches.locate_eq spans]
  rfl

/-- Frames are counted to one pair just if they lie in one cell of the next order. -/
theorem pairIn_eq_iff (reaches : bitmap.Reaches pages) (spans : Spans bitmap.base pages frame)
    (spans' : Spans bitmap.base pages other) :
    bitmap.pairIn frame = bitmap.pairIn other ↔
      frame >>> (bitmap.order + 1) = other >>> (bitmap.order + 1) := by
  have below : ∀ {value}, bitmap.base ≤ value →
      bitmap.base >>> (bitmap.order + 1) ≤ value >>> (bitmap.order + 1) := by
    intro value low
    rw [Nat.shiftRight_eq_div_pow, Nat.shiftRight_eq_div_pow]
    exact Nat.div_le_div_right low
  have low := below spans.1
  have low' := below spans'.1
  rw [pairIn, pairIn, sub_shiftRight reaches.aligned, sub_shiftRight reaches.aligned]
  omega

/-- Toggling such frames is always answered, and flips each bit as often as its pair comes up. -/
theorem toggleAll (reaches : bitmap.Reaches pages) {toggled : List Nat}
    (spans : ∀ frame ∈ toggled, Spans bitmap.base pages frame) :
    ∃ last, bitmap.toggleAll toggled = .ok last ∧ last.Reaches pages ∧
      last.order = bitmap.order ∧ last.base = bitmap.base ∧
      ∀ frame, Spans bitmap.base pages frame → last.bit (bitmap.pairIn frame) =
        (bitmap.bit (bitmap.pairIn frame) ^^ oddly bitmap.order toggled frame) := by
  induction toggled generalizing bitmap with
  | nil => exact ⟨bitmap, rfl, reaches, rfl, rfl, fun frame _ => by simp [oddly]⟩
  | cons first rest ih =>
      have begins := spans first List.mem_cons_self
      obtain ⟨last, toggles, reaches', order_eq, base_eq, bits⟩ :=
        ih (reaches.flip (bitmap.pairIn first)) fun frame member =>
          spans frame (List.mem_cons_of_mem first member)
      refine ⟨last, ?_, reaches', order_eq, base_eq, fun frame inside => ?_⟩
      · rw [PairBitmap.toggleAll, reaches.toggle_eq begins]
        exact toggles
      · -- Flipping a pair changes neither the order nor the base that frames are counted by.
        have later : last.bit (bitmap.pairIn frame) =
            ((bitmap.flip (bitmap.pairIn first)).bit (bitmap.pairIn frame) ^^
              oddly bitmap.order rest frame) := bits frame inside
        rw [later, bit_flip (reaches.covers_pairIn begins), oddly_cons, Bool.xor_assoc]
        simp only [reaches.pairIn_eq_iff inside begins]

end Reaches

end PairBitmap

namespace Geometry

variable (geometry : Geometry) {order : Nat}

structure Halves (order size block buddy : Nat) : Prop where
  forth : geometry.buddyOf block order = .ok buddy
  back : geometry.buddyOf buddy order = .ok block
  begins : min block buddy % (2 * size) = 0
  fills : max block buddy = min block buddy + size

theorem max_blockAt_buddy (order cell : Nat) :
    max (geometry.blockAt order cell) (geometry.blockAt order (cell ^^^ 1)) =
      min (geometry.blockAt order cell) (geometry.blockAt order (cell ^^^ 1)) +
        1 <<< (geometry.shift + order) := by
  rw [Cell.xor_one_eq]
  split
  · have above := geometry.blockAt_add_one order cell
    have grows := Nat.le.intro above.symm
    rw [Nat.max_eq_right grows, Nat.min_eq_left grows, above]
  · next odd =>
      have above := geometry.blockAt_add_one order (cell - 1)
      rw [show cell - 1 + 1 = cell by omega] at above
      have grows := Nat.le.intro above.symm
      rw [Nat.max_eq_left grows, Nat.min_eq_right grows, above]

theorem halves_blockAt (wide : geometry.shift + (order + 1) < 64) (cell : Nat) :
    geometry.Halves order (1 <<< (geometry.shift + order)) (geometry.blockAt order cell)
      (geometry.blockAt order (cell ^^^ 1)) where
  forth := geometry.buddyOf_blockAt (by omega) cell
  back := by
    rw [geometry.buddyOf_blockAt (by omega), Nat.xor_assoc, Nat.xor_self, Nat.xor_zero]
  begins := by
    rw [← Nat.shiftLeft_succ, Nat.add_assoc, geometry.min_blockAt_buddy]
    exact geometry.blockAt_aligned (order + 1) (cell / 2)
  fills := geometry.max_blockAt_buddy order cell

/-- A parent's size that fits a word is page size and order together below its width. -/
theorem shift_lt_of_size_lt (fits : geometry.size * 1 <<< (order + 1) < Word.limit) :
    geometry.shift + (order + 1) < 64 := by
  have sizes : geometry.size * 1 <<< (order + 1) = 1 <<< (geometry.shift + (order + 1)) := by
    rw [size, Nat.one_shiftLeft, Nat.one_shiftLeft, Nat.one_shiftLeft,
      Nat.pow_add 2 geometry.shift]
  by_contra wide
  have large : 1 <<< 64 ≤ 1 <<< (geometry.shift + (order + 1)) := by
    rw [Nat.one_shiftLeft, Nat.one_shiftLeft]
    exact Nat.pow_le_pow_right (by decide) (Nat.le_of_not_lt wide)
  rw [sizes] at fits
  exact Nat.not_lt.2 large fits

end Geometry

namespace PairBitmap

/-- What a bitmap of an order tells of a frame after some frames were toggled. -/
structure Tells (bitmap : PairBitmap) (order : Nat) (toggled : List Nat) (frame : Nat) : Prop where
  test_eq : bitmap.test frame = .ok (oddly order toggled frame)
  toggle_eq : ∃ next, bitmap.toggle frame = .ok (oddly order toggled frame, next)

/-- Two blocks of an order keep one bit just if they are the same block or buddies. -/
theorem Reaches.share_iff {bitmap : PairBitmap} {pages : Nat} (reaches : bitmap.Reaches pages)
    {geometry : Geometry} (wide : geometry.shift + (bitmap.order + 1) < 64) {first second : Nat}
    (aligned : first % 1 <<< (geometry.shift + bitmap.order) = 0)
    (aligned' : second % 1 <<< (geometry.shift + bitmap.order) = 0)
    (spans : Spans bitmap.base pages (geometry.frameOf first))
    (spans' : Spans bitmap.base pages (geometry.frameOf second)) :
    bitmap.Share (geometry.frameOf first) (geometry.frameOf second) ↔
      first = second ∨ (geometry.buddyOf first bitmap.order = .ok second ∧
        geometry.buddyOf second bitmap.order = .ok first) := by
  obtain ⟨cell, rfl⟩ : ∃ cell, first = geometry.blockAt bitmap.order cell :=
    ⟨_, (geometry.blockAt_of_aligned aligned).symm⟩
  obtain ⟨other, rfl⟩ : ∃ other, second = geometry.blockAt bitmap.order other :=
    ⟨_, (geometry.blockAt_of_aligned aligned').symm⟩
  have parent : ∀ cell, cell <<< bitmap.order >>> (bitmap.order + 1) = cell / 2 := by
    intro cell
    rw [Cell.shiftRight_succ, Cell.shiftLeft_shiftRight]
  have share : bitmap.Share (geometry.frameOf (geometry.blockAt bitmap.order cell))
      (geometry.frameOf (geometry.blockAt bitmap.order other)) ↔ other / 2 = cell / 2 := by
    simp only [Share, reaches.locate_eq spans, reaches.locate_eq spans', Except.ok.injEq,
      exists_and_left, exists_eq_left']
    rw [← Nat.ext_div_mod_iff, eq_comm, reaches.pairIn_eq_iff spans' spans,
      Geometry.frameOf_blockAt,
      Geometry.frameOf_blockAt, parent, parent]
  have halves := geometry.halves_blockAt wide cell
  rw [share, Cell.half_eq_iff]
  constructor
  · rintro (rfl | rfl)
    · exact .inl rfl
    · exact .inr ⟨halves.forth, halves.back⟩
  · rintro (same | ⟨forth, -⟩)
    · exact .inl (geometry.blockAt_injective same).symm
    · exact .inr (geometry.blockAt_injective (Except.ok.inj (forth.symm.trans halves.forth)))

/--
For so many pages from a base that a whole pair of an order begins at, as many words as
they need are enough: each of their frames is answered for, however often frames were
toggled, by the parity of the toggles of its pair.  In every geometry in which a parent's
size fits a word, two blocks keep one bit just if they are the same block or buddies, and
a block and its buddy are the halves of a parent.
-/
theorem pairs_agree {order base : Nat} (narrow : order < 63)
    (aligned : base % 1 <<< (order + 1) = 0) (pages : Nat) :
    ∃ length, wordsFor pages order = .ok length ∧
      (∀ toggled, (∀ frame ∈ toggled, Spans base pages frame) →
        ∃ bitmap, (clear order base length).toggleAll toggled = .ok bitmap ∧
          ∀ frame, Spans base pages frame → bitmap.Tells order toggled frame) ∧
      ∀ geometry : Geometry, geometry.size * 1 <<< (order + 1) < Word.limit →
        ∃ size, geometry.blockSize order = .ok size ∧
          geometry.blockSize (order + 1) = .ok (2 * size) ∧
          (∀ first second, first % size = 0 → second % size = 0 →
            Spans base pages (geometry.frameOf first) →
            Spans base pages (geometry.frameOf second) →
            ((clear order base length).Share (geometry.frameOf first) (geometry.frameOf second) ↔
              first = second ∨ (geometry.buddyOf first order = .ok second ∧
                geometry.buddyOf second order = .ok first))) ∧
          ∀ block, block % size = 0 → ∃ buddy, geometry.Halves order size block buddy := by
  have reaches := reaches_clear narrow aligned pages
  refine ⟨_, wordsFor_of_lt pages narrow, fun toggled spans => ?_, fun geometry fits => ?_⟩
  · obtain ⟨bitmap, toggles, reaches', order_eq, base_eq, bits⟩ := reaches.toggleAll spans
    refine ⟨bitmap, toggles, fun frame inside => ?_⟩
    have told : bitmap.bit (bitmap.pairIn frame) = oddly order toggled frame := by
      have bit := bits frame inside
      rw [bit_clear, Bool.false_xor] at bit
      rw [pairIn, order_eq, base_eq]
      exact bit
    have inside' : Spans bitmap.base pages frame := by rwa [base_eq]
    exact ⟨by rw [reaches'.test_eq inside', told], _, by rw [reaches'.toggle_eq inside', told]⟩
  · have wide := geometry.shift_lt_of_size_lt fits
    refine ⟨_, Geometry.blockSize_of_lt (by omega), ?_, ?_, ?_⟩
    · rw [← Nat.shiftLeft_succ, Nat.add_assoc, Geometry.blockSize_of_lt wide]
    · intro first second aligned aligned' spans spans'
      exact reaches.share_iff wide aligned aligned' spans spans'
    · intro block aligned
      rw [← geometry.blockAt_of_aligned aligned]
      exact ⟨_, geometry.halves_blockAt wide _⟩

/--
Sixty-five pairs of single pages, the last of them in a word of its own: its pages are
each other's buddies, and its bit tells that it was toggled three times.
-/
theorem pairs_agree_sample :
    (0 < 63 ∧ 1024 % 1 <<< (0 + 1) = 0) ∧ wordsFor 130 0 = .ok 2 ∧
    (∃ bitmap, (clear 0 1024 2).toggleAll [1152, 1024, 1153, 1152] = .ok bitmap ∧
      bitmap.test 1153 = .ok true ∧ bitmap.test 1025 = .ok true ∧
      bitmap.test 1026 = .ok false) ∧
    (clear 0 1024 2).Share 1152 1153 ∧ ¬ (clear 0 1024 2).Share 1151 1152 := by
  have inputs : 0 < 63 ∧ 1024 % 1 <<< (0 + 1) = 0 := by decide
  obtain ⟨length, words, toggles, blocks⟩ := pairs_agree inputs.1 inputs.2 130
  have two : wordsFor 130 0 = .ok 2 := by decide
  obtain rfl : 2 = length := Except.ok.inj (two.symm.trans words)
  obtain ⟨bitmap, toggled, tells⟩ := toggles [1152, 1024, 1153, 1152] (by simp [Spans])
  obtain ⟨size, block, -, share, -⟩ := blocks ⟨12, by decide⟩ (by decide)
  obtain rfl : 4096 = size := Except.ok.inj block
  have buddies := share (1152 * 4096) (1153 * 4096) (by decide) (by decide)
    (by decide) (by decide)
  have strangers := share (1151 * 4096) (1152 * 4096) (by decide) (by decide)
    (by decide) (by decide)
  refine ⟨inputs, two, ⟨bitmap, toggled, ?_⟩, buddies.2 (by decide), ?_⟩
  · exact ⟨(tells 1153 (by simp [Spans])).test_eq, (tells 1025 (by simp [Spans])).test_eq,
      (tells 1026 (by simp [Spans])).test_eq⟩
  · exact fun shared => absurd (strangers.1 shared) (by decide)

end PairBitmap

end PhysicalMemory
