import PhysicalMemory.Buddy.Allocator
import PhysicalMemory.Proofs.Buddy.Coalesced
import PhysicalMemory.Proofs.Page.Table

/-!
# The ledger of the buddy allocator

The descriptors say which blocks are held, and the frames of an allocatable zone
that belong to no held block are free.  An allocator is sound when held blocks
are aligned, lie in their zones and apart from each other, and every allocatable
zone is coalesced over its free frames.  A change in one zone keeps the other
one sound, because it writes in no frame of the other.
-/

namespace PhysicalMemory

namespace BuddyAllocator

open Cell (Within)

/-- The frame is a whole page of the zone, and nobody holds it. -/
def Free (buddy : BuddyAllocator) (id : ZoneId) (frame : Nat) : Prop :=
  (buddy.zones.get id).Has frame ∧ ¬ buddy.pages.Taken frame

/-- The blocks that a table holds are aligned and lie in allocatable zones, apart. -/
structure Held (zones : ZonePair) (table : DescriptorTable) : Prop where
  order_lt : ∀ head order, table.Holds head order → order < orderCount
  aligned : ∀ head order, table.Holds head order → head >>> order <<< order = head
  inside : ∀ head order, table.Holds head order → ∃ id, (zones.get id).allocatable = true ∧
    Within (zones.get id).Has order (head >>> order)
  apart : ∀ frame head order head' order', table.Holds head order → table.Holds head' order' →
    frame >>> order = head >>> order → frame >>> order' = head' >>> order' → head = head'

/-- What the descriptors and the zones say about each other. -/
structure Sound (buddy : BuddyAllocator) : Prop where
  regular : buddy.pages.Regular
  geometry_eq : ∀ id, (buddy.zones.get id).geometry = buddy.pages.geometry
  tagged : ∀ id, (buddy.zones.get id).allocatable = true → ∀ frame,
    (buddy.zones.get id).Has frame → ∃ page, buddy.pages.page? frame = some page ∧ page.zone = id
  held : Held buddy.zones buddy.pages
  order_eq : ∀ id, ∀ order < orderCount,
    ((buddy.zones.get id).areaOf order).pairs.order = order
  idle : ∀ id, (buddy.zones.get id).allocatable = false → ∀ order < orderCount,
    ((buddy.zones.get id).areaOf order).free = {}
  coalesced : ∀ id, (buddy.zones.get id).allocatable = true →
    ∃ cells, (buddy.pool id).Coalesced cells (buddy.Free id)

def withPool (buddy : BuddyAllocator) (id : ZoneId) (pool : Pool) (pages : DescriptorTable) :
    BuddyAllocator :=
  ⟨pool.ram, buddy.zones.set id pool.zone, pages⟩

@[simp] theorem answers_inZone_iff {α : Type} {id : ZoneId} {action : Action Pool α}
    {buddy after : BuddyAllocator} {value : α} :
    Action.Answers (inZone id action) buddy value after ↔
      ∃ pool, Action.Answers action (buddy.pool id) value pool ∧
        after = buddy.withPool id pool buddy.pages := by
  simp only [Action.Answers, run_inZone, withPool]
  constructor
  · rintro ⟨result, rfl⟩
    exact ⟨_, ⟨result, rfl⟩, rfl⟩
  · rintro ⟨pool, ⟨result, rfl⟩, rfl⟩
    exact ⟨result, rfl⟩

@[simp] theorem answers_updatePage_iff {frame : Nat} {change : Page → Page}
    {buddy after : BuddyAllocator} {page : Page} :
    Action.Answers (updatePage frame change) buddy page after ↔
      ∃ old, buddy.pages.ofFrame frame = .ok old ∧ page = change old ∧
        after = { buddy with pages := buddy.pages.set frame (change old) } := by
  simp only [Action.Answers, Action.run, updatePage]
  split
  · next found => simp [found]
  · next old found =>
      simp only [found, Except.ok.injEq]
      constructor
      · rintro ⟨rfl, rfl⟩
        exact ⟨old, rfl, rfl, rfl⟩
      · rintro ⟨_, rfl, rfl, rfl⟩
        exact ⟨rfl, rfl⟩

theorem withPool_self (buddy : BuddyAllocator) (id : ZoneId) :
    buddy.withPool id (buddy.pool id) buddy.pages = buddy := by
  cases buddy with
  | mk ram zones pages => cases id <;> rfl

variable {buddy : BuddyAllocator} {id : ZoneId} {pool : Pool} {pages : DescriptorTable}

theorem withPool_zone (other : ZoneId) :
    (buddy.withPool id pool pages).zones.get other =
      if other = id then pool.zone else buddy.zones.get other := by
  unfold withPool
  split
  · next same => rw [same, ZonePair.get_set]
  · next distinct => exact ZonePair.get_set_of_ne _ _ (Ne.symm distinct)

theorem withPool_zone_of_ne {other : ZoneId} (h : other ≠ id) :
    (buddy.withPool id pool pages).zones.get other = buddy.zones.get other := by
  rw [withPool_zone, if_neg h]

theorem withPool_pool_self : (buddy.withPool id pool pages).pool id = pool := by
  rw [BuddyAllocator.pool, withPool_zone, if_pos rfl]
  rfl

/-- A pool stays coalesced while another one writes in none of its free frames. -/
theorem coalesced_withPool_of_ne {other : ZoneId} (h : other ≠ id) {cells : Nat → List Nat}
    {free frames : Nat → Prop} (coalesced : (buddy.pool other).Coalesced cells free)
    (touches : (buddy.pool id).Touches pool frames)
    (geometry : (buddy.zones.get id).geometry = (buddy.zones.get other).geometry)
    (apart : ∀ frame, frames frame → ¬ free frame) :
    ((buddy.withPool id pool pages).pool other).Coalesced cells free := by
  have pool_eq : (buddy.withPool id pool pages).pool other =
      ⟨pool.ram, buddy.zones.get other⟩ := by
    rw [BuddyAllocator.pool, withPool_zone, if_neg h]
    rfl
  have agrees := touches.agrees
  rw [show (buddy.pool id).zone.geometry = (buddy.pool other).zone.geometry from geometry] at agrees
  rw [pool_eq]
  exact coalesced.congr_ram agrees apart

/-- Zones that come in the place of others differ from them at most in their free blocks. -/
theorem withPool_alike (alike : Zone.Alike (buddy.zones.get id) pool.zone) (other : ZoneId) :
    Zone.Alike (buddy.zones.get other) ((buddy.withPool id pool pages).zones.get other) := by
  rw [withPool_zone]
  split
  · next same =>
      subst same
      exact alike
  · exact .refl _

namespace Held

variable {zones zones' : ZonePair} {table table' : DescriptorTable}

theorem congr (held : Held zones table)
    (alike : ∀ id, Zone.Alike (zones.get id) (zones'.get id)) : Held zones' table where
  order_lt := held.order_lt
  aligned := held.aligned
  inside := by
    intro head order holds
    obtain ⟨id, allocatable, within⟩ := held.inside head order holds
    exact ⟨id, (alike id).allocatable_eq.trans allocatable,
      (Cell.within_congr (alike id).has_iff).2 within⟩
  apart := held.apart

theorem of_sub (held : Held zones table)
    (sub : ∀ head order, table'.Holds head order → table.Holds head order) :
    Held zones table' where
  order_lt := fun head order holds => held.order_lt head order (sub head order holds)
  aligned := fun head order holds => held.aligned head order (sub head order holds)
  inside := fun head order holds => held.inside head order (sub head order holds)
  apart := fun frame head order head' order' holds holds' =>
    held.apart frame head order head' order' (sub head order holds) (sub head' order' holds')

/-- A block of frames that nobody holds may be held. -/
theorem add (held : Held zones table) (regular : table.Regular) {id : ZoneId} {cell : Nat}
    {old page : Page} (found : table.page? (cell <<< page.order) = some old)
    (h : page.order < orderCount) (allocatable : (zones.get id).allocatable = true)
    (within : Within (zones.get id).Has page.order cell)
    (fresh : ∀ frame, frame >>> page.order = cell → ¬ table.Taken frame) :
    Held zones (table.set (cell <<< page.order) page) := by
  have own : cell <<< page.order >>> page.order = cell := Cell.shiftLeft_shiftRight _ _
  have cases : ∀ head order, (table.set (cell <<< page.order) page).Holds head order →
      (head = cell <<< page.order ∧ order = page.order) ∨ table.Holds head order := by
    intro head order holds
    rw [regular.holds_set_iff found] at holds
    split at holds
    · next same => exact .inl ⟨same, holds.2.symm⟩
    · exact .inr holds
  refine ⟨?_, ?_, ?_, ?_⟩
  · intro head order holds
    rcases cases head order holds with ⟨-, rfl⟩ | holds
    · exact h
    · exact held.order_lt head order holds
  · intro head order holds
    rcases cases head order holds with ⟨rfl, rfl⟩ | holds
    · rw [own]
    · exact held.aligned head order holds
  · intro head order holds
    rcases cases head order holds with ⟨rfl, rfl⟩ | holds
    · rw [own]
      exact ⟨id, allocatable, within⟩
    · exact held.inside head order holds
  · intro frame head order head' order' holds holds' inside inside'
    rcases cases head order holds with ⟨rfl, rfl⟩ | holds
    · rcases cases head' order' holds' with ⟨rfl, rfl⟩ | holds'
      · rfl
      · rw [own] at inside
        exact absurd ⟨head', order', holds', inside'⟩ (fresh frame inside)
    · rcases cases head' order' holds' with ⟨rfl, rfl⟩ | holds'
      · rw [own] at inside'
        exact absurd ⟨head, order, holds, inside⟩ (fresh frame inside')
      · exact held.apart frame head order head' order' holds holds' inside inside'

end Held

namespace Sound

/-- No frame is a whole page of two allocatable zones. -/
theorem zone_unique (sound : buddy.Sound) {id id' : ZoneId} {frame : Nat}
    (allocatable : (buddy.zones.get id).allocatable = true)
    (allocatable' : (buddy.zones.get id').allocatable = true)
    (has : (buddy.zones.get id).Has frame) (has' : (buddy.zones.get id').Has frame) : id = id' := by
  obtain ⟨page, found, rfl⟩ := sound.tagged id allocatable frame has
  obtain ⟨page', found', rfl⟩ := sound.tagged id' allocatable' frame has'
  rw [found] at found'
  rw [Option.some.inj found']

theorem ready (sound : buddy.Sound) (allocatable : (buddy.zones.get id).allocatable = true) :
    (buddy.zones.get id).Ready := by
  obtain ⟨cells, coalesced⟩ := sound.coalesced id allocatable
  exact coalesced.ready

/-- A page of an allocatable zone starts behind address zero and ends within a word. -/
theorem page_bounds (sound : buddy.Sound) (allocatable : (buddy.zones.get id).allocatable = true)
    {frame : Nat} (has : (buddy.zones.get id).Has frame) :
    0 < frame * buddy.geometry.size ∧
      frame * buddy.geometry.size + buddy.geometry.size < Word.limit := by
  have ready := sound.ready allocatable
  have geometry : (buddy.zones.get id).geometry = buddy.geometry := sound.geometry_eq id
  rw [← geometry, ← Nat.succ_mul]
  exact ⟨ready.first_frame_pos has, ready.frame_bound has⟩

theorem start_le (sound : buddy.Sound) {byte : Nat}
    (has : (buddy.zones.get id).Has (buddy.geometry.frameOf byte)) :
    (buddy.zones.get id).start ≤ byte := by
  have low := has.1
  rw [sound.geometry_eq] at low
  exact Nat.le_trans low (Nat.div_mul_le_self _ _)

/-- A held block lies in the zone of any of its frames that an allocatable zone has. -/
theorem within_of_has (sound : buddy.Sound) {frame head order : Nat}
    (holds : buddy.pages.Holds head order)
    (allocatable : (buddy.zones.get id).allocatable = true)
    (inside : frame >>> order = head >>> order) (has : (buddy.zones.get id).Has frame) :
    Within (buddy.zones.get id).Has order (head >>> order) := by
  obtain ⟨id', allocatable', within⟩ := sound.held.inside head order holds
  obtain rfl := sound.zone_unique allocatable allocatable' has (within frame inside)
  exact within

/-- Where a zone keeps its blocks differently, the free frames of the other stay as they are. -/
theorem exchange (sound : buddy.Sound) (allocatable : (buddy.zones.get id).allocatable = true)
    (touches : (buddy.pool id).Touches pool (buddy.zones.get id).Has)
    (regular : pages.Regular) (geometry : pages.geometry = buddy.pages.geometry)
    (tags : ∀ frame old, buddy.pages.page? frame = some old →
      ∃ page, pages.page? frame = some page ∧ page.zone = old.zone)
    (held : Held buddy.zones pages)
    (elsewhere : ∀ frame, ¬ (buddy.zones.get id).Has frame →
      (pages.Taken frame ↔ buddy.pages.Taken frame))
    (coalesced : ∃ cells, pool.Coalesced cells fun frame =>
      (buddy.zones.get id).Has frame ∧ ¬ pages.Taken frame) :
    (buddy.withPool id pool pages).Sound := by
  have alike : ∀ other, Zone.Alike (buddy.zones.get other)
      ((buddy.withPool id pool pages).zones.get other) := withPool_alike touches.alike
  refine ⟨regular, ?_, ?_, held.congr alike, ?_, ?_, ?_⟩
  · intro other
    rw [(alike other).geometry_eq, sound.geometry_eq]
    exact geometry.symm
  · intro other there frame has
    rw [(alike other).allocatable_eq] at there
    rw [(alike other).has_iff] at has
    obtain ⟨old, found, tag⟩ := sound.tagged other there frame has
    obtain ⟨page, found', tag'⟩ := tags frame old found
    exact ⟨page, found', tag'.trans tag⟩
  · intro other order h
    rw [((alike other).reach order).order_eq]
    exact sound.order_eq other order h
  · intro other there order h
    rw [(alike other).allocatable_eq] at there
    rw [withPool_zone, if_neg]
    · exact sound.idle other there order h
    · rintro rfl
      rw [allocatable] at there
      cases there
  · intro other there
    by_cases same : other = id
    · subst same
      obtain ⟨cells, coalesced⟩ := coalesced
      refine ⟨cells, ?_⟩
      rw [withPool_pool_self]
      apply coalesced.congr_free
      intro frame
      rw [Free, (alike other).has_iff]
      rfl
    · rw [(alike other).allocatable_eq] at there
      obtain ⟨cells, coalesced⟩ := sound.coalesced other there
      refine ⟨cells, ?_⟩
      have apart : ∀ frame, (buddy.zones.get id).Has frame → ¬ (buddy.zones.get other).Has frame :=
        fun frame has has' => same (sound.zone_unique there allocatable has' has)
      apply Pool.Coalesced.congr_free (coalesced_withPool_of_ne same coalesced touches
        ((sound.geometry_eq id).trans (sound.geometry_eq other).symm)
        fun frame has free => apart frame has free.1)
      intro frame
      rw [Free, Free, (alike other).has_iff]
      refine and_congr_right fun has => not_congr (elsewhere frame fun has' => ?_).symm
      exact apart frame has' has

/-- A block of free frames is handed out: its descriptor says who holds it. -/
theorem hand (sound : buddy.Sound) (allocatable : (buddy.zones.get id).allocatable = true)
    {order cell : Nat} {cells : Nat → List Nat} {old page : Page}
    (within : Within (buddy.Free id) order cell) (h : order < orderCount)
    (coalesced : pool.Coalesced cells (Cell.without (buddy.Free id) order cell))
    (touches : (buddy.pool id).Touches pool (buddy.Free id))
    (found : buddy.pages.page? (cell <<< order) = some old)
    (owned : page.owner ≠ .unowned) (order_eq : page.order = order)
    (zone_eq : page.zone = old.zone) (start_eq : page.start = old.start) :
    (buddy.withPool id pool (buddy.pages.set (cell <<< order) page)).Sound := by
  subst order_eq
  have own : cell <<< page.order >>> page.order = cell := Cell.shiftLeft_shiftRight _ _
  have unowned : old.owner = .unowned := by
    by_contra taken
    exact (within _ own).2 ⟨_, old.order, ⟨old, found, taken, rfl⟩, rfl⟩
  have taken := sound.regular.taken_set_of_held found unowned owned
  rw [own] at taken
  apply sound.exchange allocatable (touches.mono fun frame free => free.1)
    (sound.regular.set found start_eq) rfl
  · exact fun frame other => sound.regular.exists_page?_set found zone_eq
  · exact sound.held.add sound.regular found h allocatable (within.mono fun frame free => free.1)
      fun frame inside => (within frame inside).2
  · intro frame outside
    rw [taken]
    exact or_iff_left fun inside => outside (within frame inside).1
  · refine ⟨cells, coalesced.congr_free fun frame => ?_⟩
    rw [taken, not_or, ← and_assoc]
    rfl

/-- A held block is given back: its descriptor says that nobody holds it. -/
theorem recover (sound : buddy.Sound) (allocatable : (buddy.zones.get id).allocatable = true)
    {head : Nat} {cells : Nat → List Nat} {old page : Page}
    (found : buddy.pages.page? head = some old) (owned : old.owner ≠ .unowned)
    (within : Within (buddy.zones.get id).Has old.order (head >>> old.order))
    (coalesced : pool.Coalesced cells
      (Cell.joined (buddy.Free id) old.order (head >>> old.order)))
    (touches : (buddy.pool id).Touches pool
      (Cell.joined (buddy.Free id) old.order (head >>> old.order)))
    (unowned : page.owner = .unowned) (zone_eq : page.zone = old.zone)
    (start_eq : page.start = old.start) :
    (buddy.withPool id pool (buddy.pages.set head page)).Sound := by
  have holds : buddy.pages.Holds head old.order := ⟨old, found, owned, rfl⟩
  have taken := sound.regular.taken_set_of_released found unowned
    fun frame other order holds' inside inside' =>
      sound.held.apart frame other order head old.order holds' holds inside inside'
  apply sound.exchange allocatable (touches.mono _) (sound.regular.set found start_eq) rfl
  · exact fun frame other => sound.regular.exists_page?_set found zone_eq
  · apply sound.held.of_sub
    intro other order holds'
    rw [sound.regular.holds_set_iff found] at holds'
    split at holds'
    · exact absurd unowned holds'.1
    · exact holds'
  · intro frame outside
    rw [taken]
    exact and_iff_left fun inside => outside (within frame inside)
  · refine ⟨cells, coalesced.congr_free fun frame => ?_⟩
    rw [taken, not_and_not_right]
    constructor
    · rintro (free | inside)
      · exact ⟨free.1, fun taken => absurd taken free.2⟩
      · exact ⟨within frame inside, fun _ => inside⟩
    · rintro ⟨has, inside⟩
      by_cases taken : buddy.pages.Taken frame
      · exact .inr (inside taken)
      · exact .inl ⟨has, taken⟩
  · rintro frame (free | inside)
    · exact free.1
    · exact within frame inside

/-- Writing outside the free frames changes nothing that the ledger is about. -/
theorem congr_ram (sound : buddy.Sound) {ram : Ram} {excepted : Nat → Prop}
    (agrees : buddy.ram.AgreesOff ram excepted)
    (apart : ∀ byte, excepted byte → ∀ id, (buddy.zones.get id).allocatable = true →
      ¬ buddy.Free id (buddy.geometry.frameOf byte)) :
    ({ buddy with ram := ram } : BuddyAllocator).Sound := by
  refine ⟨sound.regular, sound.geometry_eq, sound.tagged, sound.held, sound.order_eq, sound.idle,
    ?_⟩
  intro id allocatable
  obtain ⟨cells, coalesced⟩ := sound.coalesced id allocatable
  obtain ⟨frames, frames_iff⟩ : ∃ frames : Nat → Prop, ∀ frame, frames frame ↔
      ∃ byte, excepted byte ∧ buddy.geometry.frameOf byte = frame := ⟨_, fun _ => Iff.rfl⟩
  have within : (buddy.pool id).ram.AgreesOff ram fun byte =>
      frames ((buddy.pool id).zone.geometry.frameOf byte) := by
    refine agrees.mono fun byte inside => (frames_iff _).2 ⟨byte, inside, ?_⟩
    rw [BuddyAllocator.geometry, ← sound.geometry_eq id]
    rfl
  refine ⟨cells, coalesced.congr_ram within fun frame written => ?_⟩
  obtain ⟨byte, inside, rfl⟩ := (frames_iff frame).1 written
  exact apart byte inside id allocatable

/-- A block that changes hands stays held. -/
theorem reassign (sound : buddy.Sound) {frame : Nat} {old page : Page}
    (found : buddy.pages.page? frame = some old) (owned : old.owner ≠ .unowned)
    (owned' : page.owner ≠ .unowned) (order_eq : page.order = old.order)
    (zone_eq : page.zone = old.zone) (start_eq : page.start = old.start) :
    ({ buddy with pages := buddy.pages.set frame page } : BuddyAllocator).Sound := by
  have holds : ∀ head order, (buddy.pages.set frame page).Holds head order ↔
      buddy.pages.Holds head order := fun head order =>
    sound.regular.holds_set_of_same found
      ⟨fun same => absurd same owned', fun same => absurd same owned⟩ order_eq
  have taken : ∀ frame', (buddy.pages.set frame page).Taken frame' ↔
      buddy.pages.Taken frame' := fun frame' => by
    simp only [DescriptorTable.Taken, holds]
  refine ⟨sound.regular.set found start_eq, sound.geometry_eq, ?_, ?_, sound.order_eq, sound.idle,
    ?_⟩
  · intro id allocatable frame' has
    obtain ⟨page', found', tag⟩ := sound.tagged id allocatable frame' has
    obtain ⟨there, found'', same⟩ := sound.regular.exists_page?_set found zone_eq found'
    exact ⟨there, found'', same.trans tag⟩
  · exact sound.held.of_sub fun head order there => (holds head order).1 there
  · intro id allocatable
    obtain ⟨cells, coalesced⟩ := sound.coalesced id allocatable
    exact ⟨cells, coalesced.congr_free fun frame' => and_congr_right fun _ =>
      not_congr (taken frame').symm⟩

end Sound

end BuddyAllocator

end PhysicalMemory
