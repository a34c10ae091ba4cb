import PhysicalMemory.Proofs.Buddy.Give
import PhysicalMemory.Proofs.Buddy.Ledger
import PhysicalMemory.Proofs.Buddy.Take

/-!
# Handing blocks out and taking them back

From a sound allocator a request either gets a block of free frames, whose
descriptor then says so, or is refused because no zone has one.  A block is
taken back exactly when its head's descriptor confirms it, and otherwise
nothing changes.  Soundness is kept either way.
-/

namespace PhysicalMemory

namespace BuddyAllocator

open Cell (Within joined without)

variable {buddy after : BuddyAllocator} {order : Nat}

/-- A block of an order was handed out from free frames of a zone. -/
structure Handed (buddy after : BuddyAllocator) (order : Nat) (id : ZoneId) (cell : Nat) :
    Prop where
  allocatable : (buddy.zones.get id).allocatable = true
  within : Within (buddy.Free id) order cell
  sound : after.Sound
  taken : ∃ level, Action.Answers (Pool.take order) (buddy.pool id)
    (some (buddy.geometry.blockAt order cell, level)) (after.pool id)
  found : ∃ old, buddy.pages.page? (cell <<< order) = some old
  pages_eq : after.pages = buddy.pages.set (cell <<< order)
    ⟨id, buddy.geometry.blockAt order cell, .buddy, order, none⟩
  alike : ∀ id, Zone.Alike (buddy.zones.get id) (after.zones.get id)
  elsewhere : ∀ other ≠ id, after.zones.get other = buddy.zones.get other
  agrees : buddy.ram.AgreesOff after.ram fun byte => buddy.Free id (buddy.geometry.frameOf byte)

/-- The block of a head's descriptor was taken back. -/
structure Recovered (buddy after : BuddyAllocator) (head : Nat) (live : Page) : Prop where
  found : buddy.pages.page? head = some live
  owner_eq : live.owner = .buddy
  sound : after.Sound
  given : ∃ answer, Action.Answers (Pool.give live.start live.order) (buddy.pool live.zone) answer
    (after.pool live.zone)
  pages_eq : after.pages = buddy.pages.set head live.release
  alike : ∀ id, Zone.Alike (buddy.zones.get id) (after.zones.get id)
  elsewhere : ∀ other ≠ live.zone, after.zones.get other = buddy.zones.get other
  agrees : buddy.ram.AgreesOff after.ram fun byte =>
    joined (buddy.Free live.zone) live.order (head >>> live.order) (buddy.geometry.frameOf byte)

section

variable {id : ZoneId} {rest : List ZoneId} {taken : Option (Nat × Nat)}

theorem takeFrom_of_idle (idle : ¬ (buddy.zones.get id).allocatable = true)
    (answers : Action.Answers (takeFrom order rest) buddy taken after) :
    Action.Answers (takeFrom order (id :: rest)) buddy taken after := by
  simp only [takeFrom, Action.answers_get_bind_iff, if_neg idle]
  exact answers

theorem takeFrom_of_none (allocatable : (buddy.zones.get id).allocatable = true)
    (none : Action.Answers (Pool.take order) (buddy.pool id) none (buddy.pool id))
    (answers : Action.Answers (takeFrom order rest) buddy taken after) :
    Action.Answers (takeFrom order (id :: rest)) buddy taken after := by
  simp only [takeFrom, Action.answers_get_bind_iff, if_pos allocatable]
  rw [Action.answers_bind_iff]
  exact ⟨_, buddy, answers_inZone_iff.2 ⟨_, none, (withPool_self buddy id).symm⟩, answers⟩

theorem takeFrom_of_some (allocatable : (buddy.zones.get id).allocatable = true)
    {block : Nat × Nat} {pool : Pool}
    (some : Action.Answers (Pool.take order) (buddy.pool id) (some block) pool) :
    Action.Answers (takeFrom order (id :: rest)) buddy (.some block)
      (buddy.withPool id pool buddy.pages) := by
  simp only [takeFrom, Action.answers_get_bind_iff, if_pos allocatable]
  rw [Action.answers_bind_iff]
  exact ⟨_, _, answers_inZone_iff.2 ⟨_, some, rfl⟩, Action.answers_pure_iff.2 ⟨rfl, rfl⟩⟩

end

theorem allocate_large (h : orderCount ≤ order) :
    Action.Answers (allocate order).outcome buddy (.error (.orderTooLarge order topOrder))
      buddy := by
  unfold allocate
  rw [if_pos h]
  simp

private theorem allocate_of_none (h : order < orderCount)
    (answers : Action.Answers (takeFrom order ZoneId.all) buddy none buddy) :
    Action.Answers (allocate order).outcome buddy (.error (.outOfMemory order)) buddy := by
  unfold allocate
  rw [if_neg (Nat.not_le.2 h)]
  simp only [Attempt.answers_outcome_bind_iff, Attempt.answers_outcome_liftM_iff]
  exact .inl ⟨none, buddy, ⟨none, rfl, answers⟩, by simp⟩

private theorem allocate_of_some (h : order < orderCount) {block found : Nat} {old : Page}
    (answers : Action.Answers (takeFrom order ZoneId.all) buddy (some (block, found)) after)
    (known : after.pages.ofFrame (after.geometry.frameOf block) = .ok old) :
    Action.Answers (allocate order).outcome buddy (.ok (old.assignToBuddy order))
      { after with
        pages := after.pages.set (after.geometry.frameOf block) (old.assignToBuddy order) } := by
  unfold allocate
  rw [if_neg (Nat.not_le.2 h)]
  simp only [Attempt.answers_outcome_bind_iff, Attempt.answers_outcome_liftM_iff]
  exact .inl ⟨some (block, found), after, ⟨_, rfl, answers⟩, by simp [known, -bind_pure_comp]⟩

namespace Sound

/-- A zone with a first cell of an order or a larger one gives the lowest part of that cell. -/
theorem take_first (sound : buddy.Sound) {id : ZoneId} {cells : Nat → List Nat}
    {found cell : Nat} {rest : List Nat}
    (coalesced : (buddy.pool id).Coalesced cells (buddy.Free id))
    (first : Pool.First cells order found cell rest) :
    ∃ pool, Action.Answers (Pool.take order) (buddy.pool id)
        (some (buddy.geometry.blockAt order (cell <<< (found - order)), found)) pool ∧
      pool.Coalesced
        (Pool.halved (Pool.unlisted cells found cell) order cell (found - order))
        (without (buddy.Free id) order (cell <<< (found - order))) ∧
      (buddy.pool id).Touches pool (buddy.Free id) ∧
      Within (buddy.Free id) order (cell <<< (found - order)) := by
  obtain ⟨pool, taken, coalesced', touches, whole⟩ := coalesced.take_some first
  have place : (buddy.pool id).zone.geometry.blockAt found cell =
      buddy.geometry.blockAt order (cell <<< (found - order)) := by
    rw [← Geometry.blockAt_add, Nat.add_sub_cancel' first.le]
    exact congrArg (fun geometry => Geometry.blockAt geometry found cell) (sound.geometry_eq id)
  rw [place] at taken
  refine ⟨pool, taken, coalesced', touches, fun frame inside => whole frame ?_⟩
  rw [Cell.shiftRight_of_le first.le, inside, Cell.shiftLeft_shiftRight]

/-- Going through zones in order ends at the first that has a block, or finds none. -/
theorem takeFrom (sound : buddy.Sound) (h : order < orderCount) (ids : List ZoneId) :
    (Action.Answers (takeFrom order ids) buddy none buddy ∧
      ∀ id ∈ ids, (buddy.zones.get id).allocatable = true →
        ∀ cell, ¬ Within (buddy.Free id) order cell) ∨
    ∃ id cell found pool cells, (buddy.zones.get id).allocatable = true ∧
      Within (buddy.Free id) order cell ∧
      Action.Answers (takeFrom order ids) buddy
        (some (buddy.geometry.blockAt order cell, found)) (buddy.withPool id pool buddy.pages) ∧
      Action.Answers (Pool.take order) (buddy.pool id)
        (some (buddy.geometry.blockAt order cell, found)) pool ∧
      pool.Coalesced cells (without (buddy.Free id) order cell) ∧
      (buddy.pool id).Touches pool (buddy.Free id) := by
  induction ids with
  | nil =>
      left
      exact ⟨by simp [BuddyAllocator.takeFrom], fun id member => absurd member List.not_mem_nil⟩
  | cons id rest ih =>
      by_cases allocatable : (buddy.zones.get id).allocatable = true
      · obtain ⟨cells, coalesced⟩ := sound.coalesced id allocatable
        by_cases exhausted : Pool.Exhausted cells order
        · have none := coalesced.take_none exhausted
          rcases ih with ⟨answers, absent⟩ | ⟨other, cell, found, pool, cells', there, within,
            answers, others⟩
          · refine .inl ⟨takeFrom_of_none allocatable none answers, ?_⟩
            intro other member there
            rcases List.mem_cons.1 member with rfl | member
            · exact coalesced.not_within_of_exhausted h exhausted
            · exact absent other member there
          · exact .inr ⟨other, cell, found, pool, cells', there, within,
              takeFrom_of_none allocatable none answers, others⟩
        · obtain ⟨found, cell, others, first⟩ := Pool.exists_first_of_not_exhausted exhausted
          obtain ⟨pool, taken, coalesced', touches, within⟩ := sound.take_first coalesced first
          exact .inr ⟨id, cell <<< (found - order), found, pool, _, allocatable, within,
            takeFrom_of_some allocatable taken, taken, coalesced', touches⟩
      · rcases ih with ⟨answers, absent⟩ | ⟨other, cell, found, pool, cells, there, within,
          answers, others⟩
        · refine .inl ⟨takeFrom_of_idle allocatable answers, ?_⟩
          intro other member there
          rcases List.mem_cons.1 member with rfl | member
          · exact absurd there allocatable
          · exact absent other member there
        · exact .inr ⟨other, cell, found, pool, cells, there, within,
            takeFrom_of_idle allocatable answers, others⟩

/-- What the search found is handed out: the descriptor of its first page says so. -/
theorem hands (sound : buddy.Sound) (h : order < orderCount) {id : ZoneId} {cell found : Nat}
    {pool : Pool} {cells : Nat → List Nat}
    (allocatable : (buddy.zones.get id).allocatable = true)
    (within : Within (buddy.Free id) order cell)
    (answers : Action.Answers (BuddyAllocator.takeFrom order ZoneId.all) buddy
      (some (buddy.geometry.blockAt order cell, found)) (buddy.withPool id pool buddy.pages))
    (taken : Action.Answers (Pool.take order) (buddy.pool id)
      (some (buddy.geometry.blockAt order cell, found)) pool)
    (coalesced : pool.Coalesced cells (without (buddy.Free id) order cell))
    (touches : (buddy.pool id).Touches pool (buddy.Free id)) :
    ∃ after, buddy.Handed after order id cell ∧
      Action.Answers (BuddyAllocator.allocate order).outcome buddy
        (.ok ⟨id, buddy.geometry.blockAt order cell, .buddy, order, none⟩) after := by
  have own : cell <<< order >>> order = cell := Cell.shiftLeft_shiftRight _ _
  obtain ⟨old, page_found, tag⟩ := sound.tagged id allocatable _ (within _ own).1
  have start : old.start = buddy.geometry.blockAt order cell := by
    rw [sound.regular.placed _ _ page_found, Geometry.blockAt_eq_mul]
    rfl
  have page_eq : old.assignToBuddy order =
      ⟨id, buddy.geometry.blockAt order cell, .buddy, order, none⟩ := by
    rw [Page.assignToBuddy, ← start, ← tag]
  have touched := touches.agrees
  rw [show (buddy.pool id).zone.geometry = buddy.geometry from sound.geometry_eq id] at touched
  refine ⟨buddy.withPool id pool (buddy.pages.set (cell <<< order)
    (old.assignToBuddy order)), ⟨allocatable, within, ?_, ⟨found, ?_⟩, ⟨old, page_found⟩, ?_,
    withPool_alike touches.alike, fun other distinct => withPool_zone_of_ne distinct, touched⟩,
    ?_⟩
  · exact sound.hand allocatable within h coalesced touches page_found
      (by simp [Page.assignToBuddy]) rfl rfl rfl
  · rw [withPool_pool_self]
    exact taken
  · rw [← page_eq]
    rfl
  · rw [← page_eq]
    have frame : buddy.geometry.frameOf (buddy.geometry.blockAt order cell) = cell <<< order :=
      Geometry.frameOf_blockAt _ _ _
    have known : buddy.pages.ofFrame (buddy.geometry.frameOf
        (buddy.geometry.blockAt order cell)) = .ok old := by
      rw [frame]
      exact sound.regular.ofFrame_eq page_found
    have handed := allocate_of_some h answers known
    rw [show (buddy.withPool id pool buddy.pages).geometry = buddy.geometry from rfl,
      frame] at handed
    exact handed

/-- A request gets a block of free frames, or is refused where no zone has one. -/
theorem allocate (sound : buddy.Sound) (h : order < orderCount) :
    (Action.Answers (allocate order).outcome buddy (.error (.outOfMemory order)) buddy ∧
      ∀ id, (buddy.zones.get id).allocatable = true →
        ∀ cell, ¬ Within (buddy.Free id) order cell) ∨
    ∃ id cell after, buddy.Handed after order id cell ∧
      Action.Answers (allocate order).outcome buddy
        (.ok ⟨id, buddy.geometry.blockAt order cell, .buddy, order, none⟩) after := by
  rcases sound.takeFrom h ZoneId.all with ⟨answers, absent⟩ | ⟨id, cell, found, pool, cells,
    allocatable, within, answers, taken, coalesced, touches⟩
  · left
    exact ⟨allocate_of_none h answers, fun id => absent id (ZoneId.mem_all id)⟩
  · exact .inr ⟨id, cell, sound.hands h allocatable within answers taken coalesced touches⟩

/-- The block of a head lies in the zone that the head's descriptor names. -/
theorem zone_of_head (sound : buddy.Sound) {head : Nat} {live : Page}
    (found : buddy.pages.page? head = some live) (owned : live.owner ≠ .unowned) :
    (buddy.zones.get live.zone).allocatable = true ∧
      Within (buddy.zones.get live.zone).Has live.order (head >>> live.order) := by
  obtain ⟨id, allocatable, within⟩ := sound.held.inside _ _ ⟨live, found, owned, rfl⟩
  obtain ⟨page, found', rfl⟩ := sound.tagged id allocatable _ (within _ rfl)
  rw [found] at found'
  obtain rfl := Option.some.inj found'
  exact ⟨allocatable, within⟩

/-- The zone of a head that is held contains every address of the head's page. -/
theorem contains_of_head (sound : buddy.Sound) {start : Nat} {live : Page}
    (found : buddy.pages.page? (buddy.geometry.frameOf start) = some live)
    (owned : live.owner ≠ .unowned) :
    (buddy.zones.get live.zone).contains start = .ok true := by
  obtain ⟨allocatable, within⟩ := sound.zone_of_head found owned
  have has := within _ rfl
  have low := has.1
  have high := has.2
  rw [sound.geometry_eq live.zone] at low high
  have below : start < (buddy.geometry.frameOf start + 1) * buddy.pages.geometry.size :=
    Nat.lt_mul_of_div_lt (Nat.lt_succ_self _) buddy.pages.geometry.size_pos
  have above : buddy.geometry.frameOf start * buddy.pages.geometry.size ≤ start :=
    Nat.div_mul_le_self _ _
  rw [Zone.contains_of_lt (sound.ready allocatable).stop_lt, Except.ok.injEq, decide_eq_true_eq]
  exact ⟨Nat.le_trans low above, Nat.lt_of_lt_of_le below high⟩

/-- What a block is confirmed or refused by: the descriptor of its page. -/
theorem confirm_eq (sound : buddy.Sound) (start order : Nat) :
    buddy.confirm start order =
      match buddy.pages.page? (buddy.geometry.frameOf start) with
      | none => .error (.violation (.freeOutsideRam start))
      | some live =>
          if live.owner ≠ .buddy then .error (.violation (.freeNotBuddy start live.owner))
          else if live.order ≠ order then
            .error (.violation (.freeAtWrongOrder start order live.order))
          else .ok live := by
  unfold BuddyAllocator.confirm
  rw [DescriptorTable.contains_eq]
  cases found : buddy.pages.page? (buddy.geometry.frameOf start) with
  | none =>
      have unknown : buddy.pages.page? (buddy.pages.geometry.frameOf start) = none := found
      simp [unknown, bind, Except.bind, throw, throwThe, MonadExceptOf.throw]
  | some live =>
      have known : buddy.pages.page? (buddy.pages.geometry.frameOf start) = some live := found
      have address : buddy.pages.ofAddress start = .ok live := sound.regular.ofFrame_eq known
      by_cases owner : live.owner = .buddy
      · by_cases same : live.order = order
        · have owned : live.owner ≠ .unowned := by simp [owner]
          have allocatable := (sound.zone_of_head found owned).1
          have inside := sound.contains_of_head found owned
          simp [known, address, owner, same, allocatable, inside, bind, Except.bind, pure,
            Except.pure]
        · simp [known, address, owner, same, bind, Except.bind, throw, throwThe,
            MonadExceptOf.throw]
      · simp [known, address, owner, bind, Except.bind, throw, throwThe, MonadExceptOf.throw]

theorem confirm_eq_ok (sound : buddy.Sound) {start order : Nat} {live : Page}
    (confirmed : buddy.confirm start order = .ok live) :
    buddy.pages.page? (buddy.geometry.frameOf start) = some live ∧ live.owner = .buddy ∧
      live.order = order := by
  rw [sound.confirm_eq] at confirmed
  split at confirmed
  · cases confirmed
  · next page found =>
      split at confirmed
      · cases confirmed
      · next owner =>
          split at confirmed
          · cases confirmed
          · next same =>
              obtain rfl := Except.ok.inj confirmed
              exact ⟨found, Decidable.not_not.1 owner, Decidable.not_not.1 same⟩

/-- A block that is confirmed is taken back. -/
theorem free (sound : buddy.Sound) {start : Nat} {live : Page}
    (found : buddy.pages.page? (buddy.geometry.frameOf start) = some live)
    (owner : live.owner = .buddy) :
    ∃ after, buddy.Recovered after (buddy.geometry.frameOf start) live ∧
      Action.Answers (free start live.order) buddy () after := by
  have owned : live.owner ≠ .unowned := by simp [owner]
  have holds : buddy.pages.Holds (buddy.geometry.frameOf start) live.order :=
    ⟨live, found, owned, rfl⟩
  have confirmed : buddy.confirm start live.order = .ok live := by
    rw [sound.confirm_eq, found]
    simp [owner]
  obtain ⟨allocatable, within⟩ := sound.zone_of_head found owned
  obtain ⟨cells, coalesced⟩ := sound.coalesced live.zone allocatable
  have geometry : (buddy.pool live.zone).zone.geometry = buddy.geometry :=
    sound.geometry_eq live.zone
  have place : live.start = buddy.geometry.blockAt live.order
      (buddy.geometry.frameOf start >>> live.order) := by
    rw [sound.regular.placed _ _ found, Geometry.blockAt_eq_mul, sound.held.aligned _ _ holds]
    rfl
  obtain ⟨pool, answer, gave, coalesced', touches⟩ :=
    coalesced.give (sound.held.order_lt _ _ holds) within
      fun frame inside free => free.2 ⟨_, _, holds, inside⟩
  rw [geometry, ← place] at gave
  have touched := touches.agrees
  rw [geometry] at touched
  refine ⟨buddy.withPool live.zone pool (buddy.pages.set (buddy.geometry.frameOf start)
    live.release), ⟨found, owner, ?_, ⟨answer, ?_⟩, rfl, withPool_alike touches.alike,
      fun other distinct => withPool_zone_of_ne distinct, touched⟩, ?_⟩
  · exact sound.recover allocatable found owned within coalesced' touches rfl rfl rfl
  · rw [withPool_pool_self]
    exact gave
  · have known : buddy.pages.ofFrame (buddy.geometry.frameOf start) = .ok live :=
      sound.regular.ofFrame_eq found
    simp only [BuddyAllocator.free, Action.answers_get_bind_iff, Action.liftM_eq_check,
      Action.answers_check_bind_iff]
    refine ⟨live, confirmed, ?_⟩
    rw [Action.answers_bind_iff]
    refine ⟨_, _, answers_inZone_iff.2 ⟨pool, gave, rfl⟩, ?_⟩
    simp only [Action.answers_get_bind_iff]
    rw [Action.answers_bind_iff]
    exact ⟨_, _, answers_updatePage_iff.2 ⟨live, known, rfl, rfl⟩,
      Action.answers_report_iff.2 rfl⟩

end Sound

/-- A block that is not confirmed is refused, and nothing changes. -/
theorem free_of_error {start : Nat} {halt : Halt}
    (refused : buddy.confirm start order = .error halt) :
    ((free start order).run buddy).result = .error halt ∧
      ((free start order).run buddy).state = buddy := by
  unfold BuddyAllocator.free
  rw [Action.result_get_bind, Action.state_get_bind]
  exact Action.run_check_bind_error refused _ buddy

end BuddyAllocator

end PhysicalMemory
