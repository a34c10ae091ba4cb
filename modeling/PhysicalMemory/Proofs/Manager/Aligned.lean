import PhysicalMemory.Proofs.Manager.Returns
import PhysicalMemory.Proofs.Manager.Turns

/-!
# Aligned bytes

Bytes at a multiple of an alignment are in one object, with room to move up in, or at the
start of one block.  The page of a slab serves its cache for good, so an address anywhere in
an object gives back just that object, whenever it is given back.  An alignment of one
asks for nothing.
-/

namespace PhysicalMemory

namespace Attempt

variable {σ α : Type}

/-- What follows an attempt and only hands on what it answered is as well left out. -/
theorem run_bind_of_pure {attempt : Attempt σ α} {next : α → Attempt σ α} {state : σ}
    (same : ∀ value, (attempt.outcome.run state).result = .ok (.ok value) →
      next value = pure value) :
    (attempt >>= next).outcome.run state = attempt.outcome.run state := by
  change (attempt.outcome >>= ExceptT.bindCont next).run state = _
  cases ran : attempt.outcome.run state with
  | mk result after log =>
      rw [ran] at same
      rcases result with halt | failure | value
      · exact Action.run_bind_error ran
      · rw [Action.run_bind_ok ran]
        simp [ExceptT.bindCont, pure, Action.answer, Action.run]
      · rw [Action.run_bind_ok ran, ExceptT.bindCont, same value rfl]
        simp [pure, ExceptT.pure, ExceptT.mk, Action.answer, Action.run]

end Attempt

theorem Word.addSaturating_zero {number : Nat} (word : number < limit) :
    addSaturating number 0 = number :=
  Nat.min_eq_left (Nat.le_sub_one_of_lt word)

theorem Address.alignUp_one {address : Nat} (word : address < Word.limit) :
    alignUp address 1 = .ok address :=
  (@alignUp_eq_roundUp address 0 word).trans
    (congrArg Except.ok (Word.roundUp_of_mod_eq_zero (by decide) (Nat.mod_one address)))

namespace Tiers

variable {tiers : Tiers} {store : Store} {records objects : List Seat} {size index : Nat}
  {page : Page} {slot : Extent}

/-- A request at a multiple of one is a plain request. -/
theorem run_allocateAligned_one (stocked : tiers.buddy.Stocked tiers.slab store)
    (seated : store.Seated tiers.buddy.geometry.size records objects)
    (word : size < Word.limit) :
    (allocateAligned size 1).outcome.run tiers = (allocate size).outcome.run tiers := by
  have low : 1 ≤ tiers.geometry.size := tiers.geometry.size_pos
  rcases Nat.eq_zero_or_pos size with rfl | positive
  · exact run_allocateAligned_zero rfl low
  rw [run_allocateAligned rfl low positive, run_allocate positive,
    show 1 - 1 = 0 from rfl, Word.addSaturating_zero word]
  split
  · rfl
  · next small =>
      obtain ⟨answer, buddy, store', answers, course⟩ :=
        byObject stocked seated positive (Bool.eq_false_iff.2 small)
      refine Attempt.run_bind_of_pure fun object answered => ?_
      obtain rfl : answer = .ok object := Except.ok.inj (answers.1.symm.trans answered)
      have bound := course.object_word stocked seated
      rw [Address.alignUp_one (Nat.lt_of_le_of_lt (Nat.le_add_right _ _) bound)]
      rfl

/-- An object is one of a slab that a cache has. -/
theorem IsSlot.listed (isSlot : tiers.IsSlot page index slot)
    (stocked : tiers.buddy.Stocked tiers.slab store) :
    ∃ cache ∈ store.caches, page = .serving page.start cache ∧
      page.start ∈ (store.stock cache).all ∧ (store.stock cache).size = slot.size ∧
        index < Slab.room ((store.stock cache).capacity tiers.buddy.geometry.size) ∧
          (store.stock cache).slot tiers.buddy.geometry.size page.start index = slot.start := by
  obtain ⟨cache, member, listed, serving⟩ := stocked.serving_of_slab isSlot.found isSlot.owner_eq
  obtain ⟨other, -, named, size⟩ := isSlot.cached
  rw [serving] at named
  obtain rfl : cache = other := Option.some.inj named
  have kept := stocked.kept cache member
  have size_eq := kept.size_eq.symm.trans size
  have objects : Slab.objects tiers.ram page.start = _ := (kept.keeps _ listed).objects_eq
  have below := isSlot.below
  have start := congrArg Extent.start isSlot.slot_eq
  rw [← size_eq, SlabAllocator.capacityFor, stocked.page_eq] at below
  rw [← size_eq, Slab.slot, objects] at start
  exact ⟨cache, member, serving, listed, size_eq, below, start⟩

variable {after : Tiers} {store' : Store} {objectSize alignment start : Nat}

/-- An aligned block is where it was, and it starts with a page. -/
theorem Route.roundUp_block (route : tiers.Route store size objectSize after store' (.ok start))
    (sound : tiers.buddy.Sound) (pages : tiers.needsPages objectSize = true)
    (valid : Word.isPowerOfTwo alignment = true) (low : alignment ≤ tiers.geometry.size) :
    Word.roundUp start alignment = start ∧ tiers.geometry.size ∣ start := by
  obtain ⟨order, -, -, aligned⟩ := route.block sound pages
  have whole : tiers.geometry.size ∣ start := by
    refine Dvd.dvd.trans ?_ (Nat.dvd_of_mod_eq_zero aligned)
    rw [Nat.shiftLeft_eq]
    exact Nat.dvd_mul_right _ _
  cases route with
  | object positive small course =>
      rw [pages] at small
      cases small
  | pages positive pages lending =>
      exact ⟨Except.ok.inj (lending.map_roundUp valid low), whole⟩

theorem Route.ne_invalidAlignment {answer : Except AllocFailure Nat} {reported : Nat}
    (route : tiers.Route store size objectSize after store' answer) :
    answer ≠ .error (.invalidAlignment reported) := by
  rintro rfl
  cases route with
  | pages positive pages lending => cases lending
  | object positive small course => cases course.refused

end Tiers

namespace Session

/--
The extent lies in an object.  Giving its address back now puts the object in front of
its slab's chain, as giving back the first byte of the object does, and while the extent is live
the object is not on the chain.
-/
structure InSlot (session : Session) (page : Page) (index : Nat) (slot extent : Extent) :
    Prop where
  isSlot : session.tiers.IsSlot page index slot
  sub : extent.Sub slot
  release : Action.Answers (Manager.release extent.start) session.manager ()
    (session.manager.setRam (Slab.pushFree session.manager.ram page.start index))
  release_first : Action.Answers (Manager.release slot.start) session.manager ()
    (session.manager.setRam (Slab.pushFree session.manager.ram page.start index))
  chain : extent ∈ session.live →
    let capacity := session.tiers.slab.capacityFor slot.size
    index ∉ Slab.chain session.manager.ram page.start capacity ∧
      Slab.chain (Slab.pushFree session.manager.ram page.start index) page.start capacity =
        index :: Slab.chain session.manager.ram page.start capacity

/--
The extent lies in the block of a page, from its start.  Giving its address back now gives
back that block.
-/
structure InBlock (session : Session) (page : Page) (extent : Extent) : Prop where
  lends : session.tiers.buddy.Lends extent page
  release : ∃ buddy,
    session.tiers.buddy.Recovered buddy (session.tiers.geometry.frameOf extent.start) page ∧
    Action.Answers (Manager.release extent.start) session.manager ()
      ⟨session.manager.layout, ⟨buddy, session.tiers.slab⟩⟩

/--
The extent is live.  From now on it lies in one and the same object of a size, or else
in a block for as long as it is live, and that is what its address gives back.
-/
def Returnable (session : Session) (extent : Extent) (objectSize : Nat) : Prop :=
  extent ∈ session.live ∧
  ((∃ page index slot, slot.size = objectSize ∧
    ∀ calls, session.Allows calls → (session.run calls).InSlot page index slot extent) ∨
  ∀ calls, session.Allows calls → extent ∈ (session.run calls).live →
    ∃ page, (session.run calls).InBlock page extent)

/--
What a request for so many bytes at a multiple of an alignment comes to.  It is refused
for its alignment just when that is no power of two or more than a page.  An address
that is answered is a multiple of the alignment, and the bytes lie in an object with room to
move up in or in a block, which is what they give back, whatever is called before.
-/
structure Aligns (session : Session) (size alignment : Nat) : Prop where
  answers : ∃ answer, session.told (Manager.allocateAligned size alignment) = .ok answer
  invalid : ∀ reported, session.told (Manager.allocateAligned size alignment) =
      .ok (.error (.invalidAlignment reported)) ↔
    reported = alignment ∧
      ¬ ((∃ k, alignment = 1 <<< k) ∧ alignment ≤ session.tiers.geometry.size)
  granted : ∀ address,
    session.told (Manager.allocateAligned size alignment) = .ok (.ok address) →
      address % alignment = 0 ∧
        (session.perform (.allocateAligned size alignment)).Returnable ⟨address, size⟩
          (size + (alignment - 1))
  plain : alignment = 1 →
    (Manager.allocateAligned size alignment).outcome.run session.manager =
      (Manager.allocate size).outcome.run session.manager

variable {session : Session} {origin : BuddyAllocator} {page : Page} {index : Nat}
  {slot extent : Extent}

/-- Any address in an object is in the page of the slab and in no other object. -/
theorem AccountsForLive.inObject (accounts : session.AccountsForLive origin)
    (isSlot : session.tiers.IsSlot page index slot) {address : Nat}
    (low : slot.start ≤ address) (high : address < slot.start + slot.size) :
    session.pageOf? address = some page ∧ session.InObject page index address := by
  obtain ⟨store, records, objects, blocks, tenancy, same⟩ := accounts
  have stocked := tenancy.stocked
  obtain ⟨cache, member, serving, listed, size, below, start⟩ := isSlot.listed stocked
  have inside := Nat.lt_of_lt_of_le below (Slab.room_le _)
  have bounds := (stocked.placed member).slot_bounds page.start inside
  constructor
  · have frame : session.tiers.buddy.geometry.frameOf address = _ :=
      stocked.frame_of_slab member listed (by omega) (by omega)
    have owned := stocked.owned cache member page.start listed
    rw [← frame, ← serving] at owned
    exact owned
  · obtain ⟨other, there, named, size'⟩ := isSlot.cached
    refine ⟨isSlot.owner_eq, other, named, ?_⟩
    rw [size', isSlot.slot_eq]
    exact ⟨Nat.lt_of_lt_of_le isSlot.below (Slab.room_le _), low, high⟩

theorem AccountsForLive.isSlot_run (accounts : session.AccountsForLive origin)
    (isSlot : session.tiers.IsSlot page index slot) {calls : List Call}
    (allowed : session.Allows calls) : (session.run calls).tiers.IsSlot page index slot := by
  obtain ⟨slab_eq, onward⟩ := accounts.onward_run allowed
  obtain ⟨store, records, objects, blocks, tenancy, -⟩ := accounts.rooted
  obtain ⟨store', records', objects', blocks', tenancy', -⟩ := accounts.rooted.run allowed
  have geometry : (session.run calls).tiers.geometry = session.tiers.geometry :=
    tenancy'.onward.geometry_eq
  obtain ⟨cache, there, named, size⟩ := isSlot.cached
  have found : (session.run calls).tiers.buddy.pages.page?
      ((session.run calls).tiers.geometry.frameOf slot.start) = some page := by
    rw [geometry]
    exact tenancy'.onward.slabs _ page isSlot.owner_eq isSlot.found
  have size' := (onward.size_eq cache there).trans size
  -- the objects of the slab start where they did, behind what is as large as it was
  obtain ⟨cache', member, serving, listed, size_eq, below, start⟩ :=
    isSlot.listed tenancy.stocked
  obtain ⟨later, member', listed', serving'⟩ :=
    tenancy'.stocked.serving_of_slab found isSlot.owner_eq
  rw [serving'] at named
  obtain rfl : later = cache := Option.some.inj named
  have kept := tenancy'.stocked.kept later member'
  have objects : Slab.objects (session.run calls).tiers.ram page.start = _ :=
    (kept.keeps _ listed').objects_eq
  have stock_size := kept.size_eq.symm.trans size'
  refine ⟨found, isSlot.owner_eq, ⟨later, ?_, ?_, size'⟩, ?_, ?_⟩
  · rw [slab_eq]
    exact onward.stays there
  · rw [serving']
    rfl
  · rw [slab_eq]
    exact isSlot.below
  · rw [Slab.slot, objects, Stock.capacity, stock_size,
      show (session.run calls).tiers.buddy.geometry = _ from geometry]
    rw [Stock.slot, Stock.capacity, size_eq] at start
    exact congrArg (Extent.mk · slot.size) start

/-- The object that a live extent lies in is not on its slab's chain. -/
theorem AccountsForLive.not_chained (accounts : session.AccountsForLive origin)
    (isSlot : session.tiers.IsSlot page index slot) (live : extent ∈ session.live)
    (sub : extent.Sub slot) : index ∉ Slab.chain session.tiers.ram page.start
      (session.tiers.slab.capacityFor slot.size) := by
  obtain ⟨store, records, objects, blocks, tenancy, same⟩ := accounts
  have stocked := tenancy.stocked
  obtain ⟨cache, member, serving, listed, size, below, start⟩ := isSlot.listed stocked
  have place : slot = ⟨(store.stock cache).slot session.tiers.buddy.geometry.size page.start index,
      (store.stock cache).size⟩ := by rw [start, size]
  have held := (tenancy.held_iff same member listed
    (Nat.lt_of_lt_of_le below (Slab.room_le _)) place).2 (.inl ⟨extent, live, sub⟩)
  rw [← size, ← tenancy.objectSize_eq member, tenancy.chain_eq member listed]
  exact held.2.2

theorem AccountsForLive.inSlot (accounts : session.AccountsForLive origin)
    (isSlot : session.tiers.IsSlot page index slot) (sub : extent.Sub slot)
    (positive : 0 < extent.size) : session.InSlot page index slot extent := by
  have low := sub.1
  have high := sub.2
  have numbered : index % Slab.linkLimit = index :=
    Nat.mod_eq_of_lt (Nat.lt_trans isSlot.below (Slab.room_lt _))
  have frees : ∀ address, slot.start ≤ address → address < slot.start + slot.size →
      Action.Answers (Manager.release address) session.manager ()
        (session.manager.setRam (Slab.pushFree session.manager.ram page.start index)) := by
    intro address low high
    obtain ⟨found, inside⟩ := accounts.inObject isSlot low high
    have released := accounts.released address
    obtain ⟨after, answers⟩ := released.answers
    have ends := released.object page index found inside
    rw [numbered] at ends
    exact ⟨answers.1, ends⟩
  refine ⟨isSlot, sub, frees _ low (by omega), frees _ (Nat.le_refl _) (by omega), ?_⟩
  intro live capacity
  have taken : index ∉ Slab.chain session.manager.ram page.start capacity :=
    accounts.not_chained isSlot live sub
  refine ⟨taken, ?_⟩
  obtain ⟨found, inside⟩ := accounts.inObject isSlot low (by omega)
  obtain ⟨cache, there, named, size⟩ := isSlot.cached
  have pushed := accounts.pushed found named inside
  rw [size, numbered] at pushed
  exact (pushed isSlot.below).2 taken

theorem AccountsForLive.inBlock_of_lends (accounts : session.AccountsForLive origin)
    (lends : session.tiers.buddy.Lends extent page) : session.InBlock page extent := by
  have nonzero := accounts.ne_zero_of_owned lends.found (by rw [lends.owner_eq]; decide)
  obtain ⟨store, records, objects, blocks, tenancy, same⟩ := id accounts
  obtain ⟨buddy, recovered, answers⟩ := tenancy.stocked.sound.free lends.found lends.owner_eq
  refine ⟨lends, buddy, recovered, Manager.answers_inTiers ?_⟩
  refine release_of_page accounts.regular nonzero lends.found ?_
  rw [lends.owner_eq]
  refine Tiers.answers_inBuddy_iff.2 ⟨buddy, ?_, rfl⟩
  rwa [lends.start_eq]

theorem AccountsForLive.inBlock (accounts : session.AccountsForLive origin)
    (live : extent ∈ session.live)
    (whole : session.tiers.geometry.size ∣ extent.start) :
    ∃ page, session.InBlock page extent := by
  obtain ⟨store, records, objects, blocks, tenancy, same⟩ := id accounts
  rcases tenancy.cases_live same live with ⟨seat, there, rfl⟩ | ⟨page, lends⟩
  · obtain ⟨cache, member, inside⟩ := tenancy.inside_of_seat there
    exact absurd (Nat.div_mul_cancel whole).symm (tenancy.stocked.seat_start_ne member inside)
  · exact ⟨page, accounts.inBlock_of_lends lends⟩

theorem AccountsForLive.geometry_eq (accounts : session.AccountsForLive origin) :
    session.tiers.geometry = origin.geometry := by
  obtain ⟨store, records, objects, blocks, tenancy, same⟩ := accounts
  exact tenancy.onward.geometry_eq

/-- What comes of an aligned request that is not refused lies in an object or in a block. -/
theorem AccountsForLive.returnable (accounts : session.AccountsForLive origin)
    {size alignment address : Nat}
    (valid : Word.isPowerOfTwo alignment = true) (low : alignment ≤ session.tiers.geometry.size)
    (word : size < Word.limit)
    (told : session.told (Manager.allocateAligned size alignment) = .ok (.ok address)) :
    address % alignment = 0 ∧
      (session.perform (.allocateAligned size alignment)).Returnable ⟨address, size⟩
        (size + (alignment - 1)) := by
  have accounts' : (session.perform (.allocateAligned size alignment)).AccountsForLive origin :=
    accounts.perform trivial
  obtain ⟨store, records, objects, blocks, tenancy, same⟩ := id accounts
  have stocked := tenancy.stocked
  obtain ⟨answer, ends, store', answers, route⟩ :=
    (Tiers.routes_allocateAligned stocked tenancy.seated size valid low).of_word word
  have mapped : answer.map (Word.roundUp · alignment) = .ok address :=
    Except.ok.inj ((told_of_answers answers).symm.trans told)
  obtain ⟨start, rfl, rfl⟩ :
      ∃ start, answer = .ok start ∧ Word.roundUp start alignment = address := by
    cases answer with
    | error failure => cases mapped
    | ok start => exact ⟨start, rfl, Except.ok.inj mapped⟩
  have after_eq : session.perform (.allocateAligned size alignment) =
      ⟨⟨session.manager.layout, ends⟩,
      ⟨Word.roundUp start alignment, size⟩ :: session.live⟩ := follow_of_answers answers _
  refine ⟨Word.roundUp_mod _ _, by rw [after_eq]; exact List.mem_cons_self, ?_⟩
  cases pages : session.tiers.needsPages (Word.addSaturating size (alignment - 1)) with
  | true =>
      right
      obtain ⟨same_start, whole⟩ := route.roundUp_block stocked.sound pages valid low
      intro calls allowed live
      have later := accounts'.run allowed
      refine later.inBlock live ?_
      rw [later.geometry_eq, ← accounts.geometry_eq]
      change _ ∣ Word.roundUp start alignment
      rwa [same_start]
  | false =>
      left
      obtain ⟨page, index, isSlot⟩ := route.slot stocked tenancy.seated pages
      have positive : 0 < size := by cases route <;> assumption
      rw [Tiers.addSaturating_of_small stocked.page_eq pages] at isSlot
      rw [← show (session.perform (.allocateAligned size alignment)).tiers = ends from
        congrArg tiers after_eq] at isSlot
      refine ⟨page, index, ⟨start, size + (alignment - 1)⟩, rfl, fun calls allowed => ?_⟩
      refine (accounts'.run allowed).inSlot (accounts'.isSlot_run isSlot allowed) ?_ positive
      exact Tiers.sub_of_roundUp (Word.pos_of_isPowerOfTwo valid)

theorem AccountsForLive.aligns (accounts : session.AccountsForLive origin) {size : Nat}
    (word : size < Word.limit)
    (alignment : Nat) : session.Aligns size alignment := by
  obtain ⟨store, records, objects, blocks, tenancy, same⟩ := id accounts
  have stocked := tenancy.stocked
  have plain : alignment = 1 →
      (Manager.allocateAligned size alignment).outcome.run session.manager =
        (Manager.allocate size).outcome.run session.manager := by
    rintro rfl
    exact congrArg (fun outcome : Outcome Tiers (Except AllocFailure Nat) =>
      (⟨outcome.result, ⟨session.manager.layout, outcome.state⟩, outcome.log⟩ :
        Outcome Manager (Except AllocFailure Nat)))
      (Tiers.run_allocateAligned_one stocked tenancy.seated word)
  by_cases valid : Word.isPowerOfTwo alignment = true ∧ alignment ≤ session.tiers.geometry.size
  · obtain ⟨answer, ends, store', answers, route⟩ := (Tiers.routes_allocateAligned stocked
      tenancy.seated size valid.1 valid.2).of_word word
    have told : session.told (Manager.allocateAligned size alignment) =
        .ok (answer.map (Word.roundUp · alignment)) := told_of_answers answers
    refine ⟨⟨_, told⟩, fun reported => ?_,
      fun address => accounts.returnable valid.1 valid.2 word, plain⟩
    rw [← Word.isPowerOfTwo_iff]
    refine iff_of_false (fun refused => ?_) fun invalid => invalid.2 valid
    rw [told] at refused
    cases answer with
    | error failure =>
        exact route.ne_invalidAlignment (congrArg _ (Except.error.inj (Except.ok.inj refused)))
    | ok start => cases refused
  · have told : session.told (Manager.allocateAligned size alignment) =
        .ok (.error (.invalidAlignment alignment)) :=
      told_of_answers (Tiers.answers_allocateAligned_invalid valid)
    refine ⟨⟨_, told⟩, fun reported => ?_, ?_, plain⟩
    · rw [told, ← Word.isPowerOfTwo_iff, and_iff_left valid]
      exact ⟨fun refused => by cases refused; rfl, fun same => by rw [same]⟩
    · rw [told]
      exact fun address answered => nomatch answered

/--
Whatever is called on a manager that was booted, a request for aligned bytes is then refused for
its alignment just when it ought to be, and otherwise what it answers is aligned and can
be given back at any time.
-/
theorem run_aligns {layout : MemoryLayout} {ram : Ram} {manager : Manager}
    (booted : Action.Answers (Manager.boot layout ram) () (.ok manager) ()) {calls : List Call}
    (allowed : (start manager).Allows calls) {size : Nat} (word : size < Word.limit)
    (alignment : Nat) : ((start manager).run calls).Aligns size alignment := by
  obtain ⟨plan, raw, seeded, booted⟩ := Manager.boot_eq_ok booted
  exact (booted.accounts.run allowed).aligns word alignment

/-- Twenty bytes at a multiple of thirty-two are moved up in an object of fifty-one. -/
theorem run_aligns_sample :
    Action.Answers (Manager.boot .sixteenPages) () (.ok sampleManager) () ∧
    (start sampleManager).Allows sampleCalls ∧ 20 < Word.limit ∧
    ((start sampleManager).run sampleCalls).told (Manager.allocateAligned 20 32) =
      .ok (.ok 6720) ∧
    ((start sampleManager).run sampleCalls).Aligns 20 32 :=
  ⟨sampleManager_booted, sampleCalls_allowed, by decide, by decide +kernel,
    run_aligns sampleManager_booted sampleCalls_allowed (by decide) 32⟩

end Session

end PhysicalMemory
