import PhysicalMemory.Proofs.Buddy.Zone

/-!
# Pools as lists of cells

The free lists of a pool hold cells of frames, each order its own, and no cell
is listed twice.  Each of the four moves on a pool then answers, changes one
list or one pair bit as it should, and writes in no frame but those of listed
cells and of the cell that is put in.
-/

namespace PhysicalMemory

namespace Pool

open Chain (Apart)

/-- The free list of every order consists of that order's cells, all of them in the zone. -/
structure Lists (pool : Pool) (cells : Nat → List Nat) : Prop where
  spells : ∀ order < orderCount, (pool.zone.areaOf order).free.Spells pool.ram
    ((cells order).map (pool.zone.geometry.blockAt order))
  nodup : ∀ order < orderCount, (cells order).Nodup
  inside : ∀ order < orderCount, ∀ cell ∈ cells order, Cell.Within pool.zone.Has order cell
  once : ∀ order < orderCount, ∀ order' < orderCount, ∀ cell ∈ cells order,
    ∀ cell' ∈ cells order',
      pool.zone.geometry.blockAt order cell = pool.zone.geometry.blockAt order' cell' →
        order = order'

/-- Between the two pools bytes were written in no other frames, and the zone is the same. -/
structure Touches (pool pool' : Pool) (frames : Nat → Prop) : Prop where
  alike : Zone.Alike pool.zone pool'.zone
  agrees : pool.ram.AgreesOff pool'.ram fun byte => frames (pool.zone.geometry.frameOf byte)

namespace Touches

variable {pool pool' pool'' : Pool} {frames frames' : Nat → Prop}

theorem refl (pool : Pool) (frames : Nat → Prop) : pool.Touches pool frames :=
  ⟨.refl _, .refl _ _⟩

theorem trans (first : pool.Touches pool' frames) (second : pool'.Touches pool'' frames) :
    pool.Touches pool'' frames := by
  refine ⟨first.alike.trans second.alike, first.agrees.trans ?_⟩
  have agrees := second.agrees
  rwa [first.alike.geometry_eq] at agrees

theorem mono (touches : pool.Touches pool' frames)
    (wider : ∀ frame, frames frame → frames' frame) : pool.Touches pool' frames' :=
  ⟨touches.alike, touches.agrees.mono fun _ => wider _⟩

end Touches

variable {pool : Pool} {cells : Nat → List Nat} {order cell : Nat}

namespace Lists

theorem words (lists : pool.Lists cells) (ready : pool.zone.Ready) (h : order < orderCount) :
    ∀ block ∈ (cells order).map (pool.zone.geometry.blockAt order),
      block % 8 = 0 ∧ block < Word.limit ∧ block ≠ 0 := by
  intro block member
  obtain ⟨cell, listed, rfl⟩ := List.mem_map.1 member
  exact ready.block_word (lists.inside order h cell listed)

theorem apart (lists : pool.Lists cells) (ready : pool.zone.Ready) (h : order < orderCount) :
    ((cells order).map (pool.zone.geometry.blockAt order)).Pairwise Apart := by
  rw [List.pairwise_map]
  apply (lists.nodup order h).imp_of_mem
  intro cell other listed listed' distinct
  apply Chain.apart_of_aligned (ready.block_word (lists.inside order h cell listed)).1
    (ready.block_word (lists.inside order h other listed')).1
  exact fun same => distinct (pool.zone.geometry.blockAt_injective same)

/-- A block that no list holds lies apart from every listed block. -/
theorem apart_of_fresh (lists : pool.Lists cells) (ready : pool.zone.Ready)
    (h : order < orderCount) {block : Nat} (aligned : block % 8 = 0)
    (fresh : ∀ cell ∈ cells order, pool.zone.geometry.blockAt order cell ≠ block) :
    ∀ other ∈ (cells order).map (pool.zone.geometry.blockAt order), Apart other block := by
  intro other member
  have word := lists.words ready h other member
  obtain ⟨cell, listed, rfl⟩ := List.mem_map.1 member
  exact Chain.apart_of_aligned word.1 aligned (fresh cell listed)

theorem toList_eq (lists : pool.Lists cells) (ready : pool.zone.Ready) (h : order < orderCount) :
    (pool.zone.areaOf order).free.toList pool.ram =
      (cells order).map (pool.zone.geometry.blockAt order) :=
  (lists.spells order h).toList_eq (lists.apart ready h)

/--
One list of a pool is another now: what is on it was there before, or lies in the zone and
begins where no listed block does.
-/
private theorem relist (lists : pool.Lists cells) {listed : List Nat} {zone : Zone} {ram : Ram}
    (geometry : zone.geometry = pool.zone.geometry)
    (has : ∀ frame, zone.Has frame ↔ pool.zone.Has frame)
    (spells : (zone.areaOf order).free.Spells ram
      (listed.map (pool.zone.geometry.blockAt order)))
    (others : ∀ other < orderCount, other ≠ order →
      (zone.areaOf other).free.Spells ram
        ((cells other).map (pool.zone.geometry.blockAt other)))
    (nodup : listed.Nodup)
    (known : ∀ cell ∈ listed, cell ∈ cells order ∨
      (Cell.Within pool.zone.Has order cell ∧ ∀ other < orderCount, ∀ cell' ∈ cells other,
        pool.zone.geometry.blockAt other cell' ≠ pool.zone.geometry.blockAt order cell)) :
    Pool.Lists ⟨ram, zone⟩ (Function.update cells order listed) := by
  refine ⟨?_, ?_, ?_, ?_⟩
  · intro other h
    rw [geometry]
    by_cases same : other = order
    · subst same
      rw [Function.update_self]
      exact spells
    · rw [Function.update_of_ne same]
      exact others other h same
  · intro other h
    by_cases same : other = order
    · subst same
      rw [Function.update_self]
      exact nodup
    · rw [Function.update_of_ne same]
      exact lists.nodup other h
  · intro other h cell member
    refine (Cell.within_congr has).2 ?_
    by_cases same : other = order
    · subst same
      rw [Function.update_self] at member
      exact (known cell member).elim (lists.inside other h cell) And.left
    · rw [Function.update_of_ne same] at member
      exact lists.inside other h cell member
  · intro first h1 second h2 cell1 listed1 cell2 listed2 same
    rw [geometry] at same
    by_cases here : first = order
    · by_cases there : second = order
      · rw [here, there]
      · subst here
        rw [Function.update_self] at listed1
        rw [Function.update_of_ne there] at listed2
        rcases known cell1 listed1 with old | ⟨-, fresh⟩
        · exact lists.once first h1 second h2 cell1 old cell2 listed2 same
        · exact absurd same.symm (fresh second h2 cell2 listed2)
    · rw [Function.update_of_ne here] at listed1
      by_cases there : second = order
      · subst there
        rw [Function.update_self] at listed2
        rcases known cell2 listed2 with old | ⟨-, fresh⟩
        · exact lists.once first h1 second h2 cell1 listed1 cell2 old same
        · exact absurd same (fresh first h1 cell1 listed1)
      · rw [Function.update_of_ne there] at listed2
        exact lists.once first h1 second h2 cell1 listed1 cell2 listed2 same

/-- A cell whose block is no other's goes in front of its list, and only its link is written. -/
theorem push (lists : pool.Lists cells) (ready : pool.zone.Ready) (h : order < orderCount)
    (inside : Cell.Within pool.zone.Has order cell)
    (fresh : ∀ order' < orderCount, ∀ cell' ∈ cells order',
      pool.zone.geometry.blockAt order' cell' ≠ pool.zone.geometry.blockAt order cell) :
    ∃ pool',
      Action.Answers (Pool.push order (pool.zone.geometry.blockAt order cell)) pool () pool' ∧
      pool'.Lists (Function.update cells order (cell :: cells order)) ∧
      (∀ other parent, pool'.zone.pairBit other parent = pool.zone.pairBit other parent) ∧
      pool.Touches pool' (fun frame => frame >>> order = cell) := by
  have word := ready.block_word inside
  have pushed := (lists.spells order h).push word.2.2
    (lists.apart_of_fresh ready h word.1 (fresh order h))
    fun other member => (lists.words ready h other member).2
  let area := pool.zone.areaOf order
  let list := (area.free.push pool.ram (pool.zone.geometry.blockAt order cell)).1
  let ram := (area.free.push pool.ram (pool.zone.geometry.blockAt order cell)).2
  let zone := pool.zone.setArea order { area with free := list }
  have alike : Zone.Alike pool.zone zone := Zone.alike_setArea pool.zone h (.refl _)
  refine ⟨⟨ram, zone⟩, ?_, ?_, pool.zone.pairBit_setArea h list, alike, ?_⟩
  · simp only [Pool.push, Action.answers_bind_iff, Action.answers_get_iff,
      Action.liftM_eq_check, Action.answers_check_iff, Action.answers_set_iff]
    exact ⟨pool, pool, ⟨rfl, rfl⟩, area, pool, ⟨pool.zone.area_eq_areaOf h, rfl⟩, rfl⟩
  · apply lists.relist alike.geometry_eq alike.has_iff
    · simp only [List.map_cons, zone, Zone.areaOf_setArea _ h, if_true]
      exact pushed
    · intro other h' distinct
      simp only [zone, Zone.areaOf_setArea _ h, if_neg distinct]
      apply (lists.spells other h').congr
      intro block member
      exact FreeList.link_setLink_of_apart
        (lists.apart_of_fresh ready h' word.1 (fresh other h') block member)
    · exact List.nodup_cons.2 ⟨fun listed => fresh order h cell listed rfl, lists.nodup order h⟩
    · intro cell' member
      rcases List.mem_cons.1 member with rfl | member
      · exact .inr ⟨inside, fresh⟩
      · exact .inl member
  · apply (FreeList.agreesOff_setLink pool.ram _ _).mono
    rintro byte ⟨low, high⟩
    rw [pool.zone.geometry.frameOf_eq_of_link ready.linkable low high, Cell.shiftLeft_shiftRight]

theorem pop_nil (lists : pool.Lists cells) (h : order < orderCount) (empty : cells order = []) :
    Action.Answers (Pool.pop order) pool none pool := by
  have none := FreeList.Spells.pop?_nil (by simpa [empty] using lists.spells order h)
  simp only [Pool.pop, Action.answers_bind_iff, Action.answers_get_iff,
    Action.liftM_eq_check, Action.answers_check_iff]
  refine ⟨pool, pool, ⟨rfl, rfl⟩, _, pool, ⟨pool.zone.area_eq_areaOf h, rfl⟩, ?_⟩
  simp [none]

/-- The first cell is taken off its list, and nothing is written. -/
theorem pop_cons (lists : pool.Lists cells) (h : order < orderCount) {rest : List Nat}
    (first : cells order = cell :: rest) :
    ∃ pool', Action.Answers (Pool.pop order) pool
        (some (pool.zone.geometry.blockAt order cell)) pool' ∧
      pool'.Lists (Function.update cells order rest) ∧
      (∀ other parent, pool'.zone.pairBit other parent = pool.zone.pairBit other parent) ∧
      pool'.ram = pool.ram ∧ Zone.Alike pool.zone pool'.zone := by
  have spells := lists.spells order h
  rw [first, List.map_cons] at spells
  obtain ⟨shorter, popped, rest_spells⟩ := spells.pop?_cons
  let area := pool.zone.areaOf order
  let zone := pool.zone.setArea order { area with free := shorter }
  have alike : Zone.Alike pool.zone zone := Zone.alike_setArea pool.zone h (.refl _)
  refine ⟨⟨pool.ram, zone⟩, ?_, ?_, pool.zone.pairBit_setArea h shorter, rfl, alike⟩
  · have counted : Word.sub area.free.length 1 = .ok (area.free.length - 1) := by
      apply Word.sub_of_le
      rw [spells.length_eq]
      simp
    simp only [Pool.pop, Action.answers_bind_iff, Action.answers_get_iff,
      Action.liftM_eq_check, Action.answers_check_iff]
    refine ⟨pool, pool, ⟨rfl, rfl⟩, area, pool, ⟨pool.zone.area_eq_areaOf h, rfl⟩, ?_⟩
    simp [popped, area, countDown, counted]
    rfl
  · have nodup := lists.nodup order h
    rw [first] at nodup
    apply lists.relist alike.geometry_eq alike.has_iff
    · simpa only [zone, Zone.areaOf_setArea _ h, if_true] using rest_spells
    · intro other h' distinct
      simpa only [zone, Zone.areaOf_setArea _ h, if_neg distinct] using lists.spells other h'
    · exact (List.nodup_cons.1 nodup).2
    · intro cell' member
      exact .inl (first ▸ List.mem_cons_of_mem cell member)

/-- A listed cell is found and taken off, and only links of its list are written. -/
theorem remove (lists : pool.Lists cells) (ready : pool.zone.Ready) (h : order < orderCount)
    (listed : cell ∈ cells order) :
    ∃ pool', Action.Answers (Pool.remove order (pool.zone.geometry.blockAt order cell)) pool
        true pool' ∧
      pool'.Lists (Function.update cells order ((cells order).erase cell)) ∧
      (∀ other parent, pool'.zone.pairBit other parent = pool.zone.pairBit other parent) ∧
      pool.Touches pool' (fun frame => frame >>> order ∈ cells order) := by
  have spells := lists.spells order h
  obtain ⟨shorter, ram, removed, rest_spells, agrees⟩ := spells.exists_remove?
    (lists.apart ready h) (fun other member => (lists.words ready h other member).2)
    (List.mem_map_of_mem listed)
  rw [← List.map_erase fun _ _ => pool.zone.geometry.blockAt_injective] at rest_spells
  let area := pool.zone.areaOf order
  let zone := pool.zone.setArea order { area with free := shorter }
  have alike : Zone.Alike pool.zone zone := Zone.alike_setArea pool.zone h (.refl _)
  refine ⟨⟨ram, zone⟩, ?_, ?_, pool.zone.pairBit_setArea h shorter, alike, ?_⟩
  · have counted : Word.sub area.free.length 1 = .ok (area.free.length - 1) := by
      apply Word.sub_of_le
      rw [spells.length_eq, List.length_map]
      exact List.length_pos_of_mem listed
    simp only [Pool.remove, Action.answers_bind_iff, Action.answers_get_iff,
      Action.liftM_eq_check, Action.answers_check_iff]
    refine ⟨pool, pool, ⟨rfl, rfl⟩, area, pool, ⟨pool.zone.area_eq_areaOf h, rfl⟩, ?_⟩
    simp [removed, area, countDown, counted]
    rfl
  · apply lists.relist alike.geometry_eq alike.has_iff
    · simpa only [zone, Zone.areaOf_setArea _ h, if_true] using rest_spells
    · intro other h' distinct
      simp only [zone, Zone.areaOf_setArea _ h, if_neg distinct]
      apply (lists.spells other h').congr
      intro block member
      -- every link that was written belongs to a block of the shortened list
      apply Chain.link_eq_of_agreesOff agrees
      rintro byte low high ⟨block', member', low', high'⟩
      have word := lists.words ready h' block member
      have word' := lists.words ready h block' member'
      obtain ⟨cell1, listed1, rfl⟩ := List.mem_map.1 member
      obtain ⟨cell2, listed2, rfl⟩ := List.mem_map.1 member'
      have same : pool.zone.geometry.blockAt other cell1 =
          pool.zone.geometry.blockAt order cell2 := by
        omega
      exact distinct (lists.once other h' order h cell1 listed1 cell2 listed2 same)
    · exact (lists.nodup order h).erase cell
    · exact fun cell' member => .inl (List.mem_of_mem_erase member)
  · apply agrees.mono
    rintro byte ⟨block, member, low, high⟩
    obtain ⟨cell', listed', rfl⟩ := List.mem_map.1 member
    rw [pool.zone.geometry.frameOf_eq_of_link ready.linkable low high, Cell.shiftLeft_shiftRight]
    exact listed'

end Lists

/-- Flipping the pair of a frame tells its bit and changes no other, and moves no block. -/
theorem toggle_answers (ready : pool.zone.Ready) (h : order < orderCount) {frame : Nat}
    (has : pool.zone.Has frame) :
    ∃ pool', Action.Answers (toggle order frame) pool
        (pool.zone.pairBit order (frame >>> (order + 1))) pool' ∧
      (∀ other, (pool'.zone.areaOf other).free = (pool.zone.areaOf other).free) ∧
      (∀ other < orderCount, ∀ parent,
        (pool.zone.areaOf other).pairs.base >>> (other + 1) ≤ parent →
          pool'.zone.pairBit other parent = (pool.zone.pairBit other parent ^^
            decide (other = order ∧ parent = frame >>> (order + 1)))) ∧
      pool'.ram = pool.ram ∧ Zone.Alike pool.zone pool'.zone := by
  let area := pool.zone.areaOf order
  let pair := (frame - area.pairs.base) >>> (order + 1)
  have pair_eq : pair = frame >>> (order + 1) - area.pairs.base >>> (order + 1) :=
    ready.pair_eq h frame
  have low := ready.base_le h has
  obtain ⟨-, covers⟩ := ready.reached order h frame has
  have located : area.pairs.locate frame = .ok pair := ready.locate_eq h has
  let zone := pool.zone.setArea order { area with pairs := area.pairs.flip pair }
  have alike : Zone.Alike pool.zone zone := by
    apply Zone.alike_setArea pool.zone h
    refine ⟨rfl, rfl, ?_, rfl⟩
    funext other
    exact PairBitmap.covers_flip _ _ _
  refine ⟨⟨pool.ram, zone⟩, ?_, ?_, ?_, rfl, alike⟩
  · simp only [toggle, Action.answers_bind_iff, Action.answers_get_iff, Action.liftM_eq_check,
      Action.answers_check_iff]
    refine ⟨pool, pool, ⟨rfl, rfl⟩, area, pool, ⟨pool.zone.area_eq_areaOf h, rfl⟩,
      (area.pairs.bit pair, area.pairs.flip pair), pool, ⟨?_, rfl⟩, ?_⟩
    · simp [PairBitmap.toggle, located, bind, Except.bind, pure, Except.pure]
    · simp [Zone.pairBit, ← pair_eq, area, zone]
  · intro other
    simp only [zone, Zone.areaOf_setArea _ h]
    split
    · next same => rw [same]
    · rfl
  · intro other h' parent base
    simp only [Zone.pairBit, zone, Zone.areaOf_setArea _ h]
    split
    · next same =>
        subst same
        have same_pair : parent - (pool.zone.areaOf other).pairs.base >>> (other + 1) =
            (frame - (pool.zone.areaOf other).pairs.base) >>> (other + 1) ↔
              parent = frame >>> (other + 1) := by
          rw [ready.pair_eq h' frame]
          omega
        refine (PairBitmap.bit_flip covers _).trans ?_
        change (_ ^^ decide (parent - (pool.zone.areaOf other).pairs.base >>> (other + 1) =
          (frame - (pool.zone.areaOf other).pairs.base) >>> (other + 1))) = _
        simp only [same_pair, true_and]
        rfl
    · next distinct => simp [distinct]

end Pool

end PhysicalMemory
