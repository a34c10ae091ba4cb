import PhysicalMemory.Proofs.Manager.Registry
import PhysicalMemory.Proofs.Slab.Filling

/-!
# Asking for one size until memory is out

On a manager that was just booted, objects of one size are handed out page by page: each page
from its first object to its last, and a new page only when all before it are full.  So just
as many requests are served as there are objects in all free pages, and every later one is
refused with no byte free.
-/

namespace PhysicalMemory

namespace Session

/--
So many objects of a size have been handed out of the pages, in order.  The first pages are
full, newest first on their list, the next one is in use if it has been begun, and no other
page has been taken.
-/
structure Filled (session : Session) (size capacity : Nat) (pages : List Nat) (count : Nat) :
    Prop where
  within : count ≤ pages.length * capacity
  cache : ∃ cache, session.tiers.slab.find? session.tiers.ram size = some cache ∧
    Cache.slabs session.tiers.ram cache .full = (pages.take (count / capacity)).reverse ∧
    Cache.slabs session.tiers.ram cache .partly =
      (if count % capacity = 0 then [] else pages[count / capacity]?.toList) ∧
    Cache.slabs session.tiers.ram cache .empty = [] ∧
    Cache.handedOut session.tiers.ram cache = count

/-- The request behind so many of its size is served with the next object in order. -/
structure Serves (session : Session) (size capacity : Nat) (pages : List Nat) (count : Nat) :
    Prop where
  told : ∃ page, pages[count / capacity]? = some page ∧
    session.told (Manager.allocate size) = .ok (.ok
      (Slab.objects (session.perform (.allocate size)).tiers.ram page + count % capacity * size))
  filled : (session.perform (.allocate size)).Filled size capacity pages (count + 1)

/-- Requests of a size are served until the pages are full, and from then on no byte is free. -/
structure Exhausts (session : Session) (size capacity : Nat) (pages : List Nat) : Prop where
  served : ∀ count < pages.length * capacity,
    (session.run (List.replicate count (.allocate size))).Serves size capacity pages count
  refused : ∀ count, pages.length * capacity ≤ count →
    let after := session.run (List.replicate count (.allocate size))
    after.told (Manager.allocate size) = .ok (.error (.outOfMemory 0)) ∧
      after.manager.freeBytes = .ok 0

/-- What there is when the next object of a size is asked for, after so many. -/
structure Awaits (session : Session) (size capacity total : Nat) (pages : List Nat)
    (count : Nat) : Prop where
  sized : 0 < size
  positive : 0 < capacity
  capacity_eq : Slab.capacity session.tiers.buddy.geometry.size size = capacity
  room_eq : Slab.room capacity = capacity
  store : ∃ store records objects, session.tiers.buddy.Stocked session.tiers.slab store ∧
    store.Seated session.tiers.buddy.geometry.size records objects ∧
      session.tiers.buddy.Awaits store size total pages count

variable {session : Session} {size capacity total count : Nat} {pages pages' : List Nat}

theorem run_append (session : Session) (calls calls' : List Call) :
    session.run (calls ++ calls') = (session.run calls).run calls' :=
  List.foldl_append

theorem run_replicate_succ (session : Session) (call : Call) (count : Nat) :
    session.run (List.replicate (count + 1) call) =
      (session.run (List.replicate count call)).perform call := by
  rw [List.replicate_succ', run_append]
  rfl

theorem Filled.mono (filled : session.Filled size capacity pages count) (grows : pages <+: pages') :
    session.Filled size capacity pages' count := by
  obtain ⟨more, rfl⟩ := grows
  obtain ⟨within, cache, found, full, partly, empty, counted⟩ := filled
  refine ⟨Nat.le_trans within (Nat.mul_le_mul_right capacity (by simp)), cache, found, ?_, ?_,
    empty, counted⟩
  · rw [full, List.take_append_of_le_length (Nat.div_le_of_le_mul (by rwa [Nat.mul_comm]))]
  · rw [partly]
    split
    · rfl
    · next begun =>
        have short : count < pages.length * capacity :=
          Nat.lt_of_le_of_ne within fun all => begun (by rw [all, Nat.mul_mod_left])
        rw [Nat.mul_comm] at short
        rw [List.getElem?_append_left (Nat.div_lt_of_lt_mul short)]

theorem Serves.mono (serves : session.Serves size capacity pages count) (grows : pages <+: pages') :
    session.Serves size capacity pages' count := by
  obtain ⟨⟨page, here, told⟩, filled⟩ := serves
  obtain ⟨below, same⟩ := List.getElem?_eq_some_iff.1 here
  exact ⟨⟨page, (List.prefix_iff_getElem?.1 grows _ below).trans (congrArg some same), told⟩,
    filled.mono grows⟩

/-- A cache whose pages have been filled in order is in memory just so. -/
theorem filled_of_filling {store : Store} {cache : Nat}
    (stocked : session.tiers.buddy.Stocked session.tiers.slab store)
    (filling : session.tiers.buddy.Filling store cache size total pages count)
    (room_eq : Slab.room (Slab.capacity session.tiers.buddy.geometry.size size) = capacity)
    (some : 0 < count) : session.Filled size capacity pages count := by
  have member := filling.member
  have fills := filling.fills
  obtain ⟨empty, settled⟩ := filling.begun some
  have single := (stocked.oneReady cache member).single
  have lists : ∀ fill, Cache.slabs session.tiers.ram cache fill = (store.stock cache).slabs fill :=
    stocked.slabs_eq member
  rw [room_eq] at fills settled
  refine ⟨fills.within, cache, stocked.find?_eq_some_iff.2 ⟨member, filling.size_eq⟩,
    (lists .full).trans fills.full, ?_, (lists .empty).trans empty,
    (stocked.handedOut_eq member).trans filling.counted⟩
  rw [lists]
  split
  · next whole => exact settled whole
  · -- one slab at most is ready, and it is the first page that is not full
    rw [← List.head?_drop, ← fills.ready, empty, List.append_nil]
    cases first : (store.stock cache).slabs .partly with
    | nil => rfl
    | cons slab rest =>
        rw [first, List.length_cons] at single
        obtain rfl : rest = [] := List.length_eq_zero_iff.1 (by omega)
        rfl

namespace Awaits

theorem within (awaits : session.Awaits size capacity total pages count) :
    count ≤ total * capacity := by
  obtain ⟨-, -, rfl, room_eq, store, -, -, -, -, ready⟩ := awaits
  have within := ready.within
  rwa [room_eq] at within

theorem all_taken (awaits : session.Awaits size capacity total pages (total * capacity)) :
    session.manager.freeBytes = .ok 0 ∧ pages.length = total ∧ pages.Nodup := by
  obtain ⟨-, positive, rfl, room_eq, store, -, -, stocked, -, ready⟩ := awaits
  have full := ready
  rw [← room_eq] at full
  obtain ⟨none, length⟩ := full.freeFrames_eq_nil positive
  have free := stocked.sound.freeBytes_eq_freeFrames
  rw [none, List.length_nil, Nat.zero_mul] at free
  exact ⟨free, length, ready.nodup stocked⟩

/-- A request is served with the next object, or it is refused because all pages are full. -/
theorem step (awaits : session.Awaits size capacity total pages count) :
    (session.told (Manager.allocate size) = .ok (.error (.outOfMemory 0)) ∧
      count = total * capacity ∧
        (session.perform (.allocate size)).Awaits size capacity total pages count) ∨
    ∃ pages', pages <+: pages' ∧ session.Serves size capacity pages' count ∧
      (session.perform (.allocate size)).Awaits size capacity total pages' (count + 1) := by
  obtain ⟨sized, positive, capacity_eq, room_eq, store, records, objects, stocked, seated, ready⟩ :=
    awaits
  have fits : 0 < Slab.capacity session.tiers.buddy.geometry.size size := by
    rwa [capacity_eq]
  obtain ⟨answer, store', told, slab_eq, course⟩ := course_allocate stocked seated sized fits
  obtain ⟨_, answered⟩ := course.answered stocked seated
  obtain ⟨records', objects', seated'⟩ := course.exists_seated stocked seated sized
  have fed := course.fed stocked fits ready
  have stocked' := answered.stocked
  have geometry := answered.steady.geometry_eq
  rw [← slab_eq] at stocked'
  rw [← geometry] at seated' capacity_eq
  have awaits : ∀ {pages count},
      (session.perform (.allocate size)).tiers.buddy.Awaits store' size total pages count →
        (session.perform (.allocate size)).Awaits size capacity total pages count := fun ready =>
    ⟨sized, positive, capacity_eq, room_eq, store', records', objects', stocked', seated', ready⟩
  have room : Slab.room (Slab.capacity session.tiers.buddy.geometry.size size) = capacity := by
    rw [← geometry, capacity_eq, room_eq]
  cases fed with
  | refused filling full absent =>
      rw [room] at full
      exact .inl ⟨told, full, awaits (.next filling)⟩
  | @served cache slab pages' _ _ grows here filling =>
      have objects_eq := filling.objects_eq stocked' (List.mem_of_getElem? here)
      rw [room] at here
      rw [geometry] at objects_eq
      rw [room, ← objects_eq] at told
      rw [← geometry] at room
      exact .inr ⟨pages', grows,
        ⟨⟨slab, here, told⟩, filled_of_filling stocked' filling room (Nat.succ_pos count)⟩,
        awaits (.next filling)⟩

/-- So the pages are filled one after the other, and then no page is left. -/
theorem run (awaits : session.Awaits size capacity total [] 0) (within : count ≤ total * capacity) :
    ∃ pages, (session.run (List.replicate count (.allocate size))).Awaits size capacity total
        pages count ∧
      ∀ earlier < count, (session.run (List.replicate earlier (.allocate size))).Serves size
        capacity pages earlier := by
  induction count with
  | zero => exact ⟨[], awaits, fun _ below => absurd below (Nat.not_lt_zero _)⟩
  | succ count ih =>
      obtain ⟨pages, awaits', served⟩ := ih (Nat.le_of_succ_le within)
      rcases awaits'.step with ⟨-, full, -⟩ | ⟨pages', grows, serves, next⟩
      · omega
      · rw [← run_replicate_succ] at next
        refine ⟨pages', next, fun earlier below => ?_⟩
        rcases Nat.lt_succ_iff_lt_or_eq.1 below with before | rfl
        · exact (served earlier before).mono grows
        · exact serves

/-- From then on every request is refused. -/
theorem run_full (awaits : session.Awaits size capacity total pages (total * capacity))
    (more : Nat) :
    (session.run (List.replicate more (.allocate size))).Awaits size capacity total pages
        (total * capacity) ∧
      (session.run (List.replicate more (.allocate size))).told (Manager.allocate size) =
        .ok (.error (.outOfMemory 0)) := by
  have refused : ∀ {session : Session}, session.Awaits size capacity total pages
      (total * capacity) → session.told (Manager.allocate size) = .ok (.error (.outOfMemory 0)) ∧
        (session.perform (.allocate size)).Awaits size capacity total pages (total * capacity) := by
    intro session awaits
    rcases awaits.step with ⟨told, -, next⟩ | ⟨_, -, -, next⟩
    · exact ⟨told, next⟩
    · exact absurd next.within (Nat.not_succ_le_self _)
  induction more with
  | zero => exact ⟨awaits, (refused awaits).1⟩
  | succ more ih =>
      have next := (refused ih.1).2
      rw [← run_replicate_succ] at next
      exact ⟨next, (refused next).1⟩

theorem exhausts (awaits : session.Awaits size capacity total [] 0) :
    ∃ pages, pages.length = total ∧ pages.Nodup ∧ session.Exhausts size capacity pages := by
  obtain ⟨pages, full, served⟩ := awaits.run (Nat.le_refl (total * capacity))
  obtain ⟨taken, length, nodup⟩ := full.all_taken
  subst length
  refine ⟨pages, rfl, nodup, served, fun count enough => ?_⟩
  obtain ⟨more, rfl⟩ := Nat.exists_eq_add_of_le enough
  obtain ⟨after, told⟩ := full.run_full more
  rw [← run_append, List.replicate_append_replicate] at after told
  exact ⟨told, after.all_taken.1⟩

end Awaits

/--
On a manager that was booted, in pages that are not huge, as many objects of a size that has a
cache to itself are handed out as all free pages hold, in the order of some of the pages, and
then no more.
-/
theorem start_exhausts {layout : MemoryLayout} {ram : Ram} {manager : Manager}
    (booted : Action.Answers (Manager.boot layout ram) () (.ok manager) ())
    (small : layout.pageSize ≤ 1 <<< 32) {size : Nat} (sized : 0 < size)
    (fits : 0 < Slab.capacity layout.pageSize size) (other : size ≠ CacheRecord.objectSize) :
    ∃ free pages, manager.freeBytes = .ok free ∧ pages.length = free / layout.pageSize ∧
      pages.Nodup ∧ (start manager).Exhausts size (Slab.capacity layout.pageSize size) pages := by
  obtain ⟨plan, raw, seeded, booted⟩ := Manager.boot_eq_ok booted
  have page_size := (BootPlan.ofLayout_eq_ok booted.planned).page_size
  obtain ⟨store, stocked, seated, first⟩ := booted.awaits other
  rw [← booted.geometry_eq] at page_size
  rw [page_size] at small fits ⊢
  have free := stocked.sound.freeBytes_eq_freeFrames
  have awaits : (start manager).Awaits size
      (Slab.capacity manager.tiers.buddy.geometry.size size) manager.tiers.buddy.freeFrames.length
        [] 0 :=
    ⟨sized, fits, rfl, Slab.room_capacity (Nat.le_trans small (by decide)), store, [], [],
      stocked, seated, first⟩
  obtain ⟨pages, length, nodup, exhausts⟩ := awaits.exhausts
  refine ⟨_, pages, free, ?_, nodup, exhausts⟩
  rw [length, Nat.mul_div_cancel _ manager.tiers.buddy.geometry.size_pos]

/-- A small machine has thirteen free pages, which hold two objects of two hundred bytes each. -/
theorem start_exhausts_sample :
    Action.Answers (Manager.boot .sixteenPages) () (.ok sampleManager) () ∧
    MemoryLayout.sixteenPages.pageSize ≤ 1 <<< 32 ∧
    0 < Slab.capacity MemoryLayout.sixteenPages.pageSize 200 ∧ 200 ≠ CacheRecord.objectSize ∧
    sampleManager.freeBytes = .ok (13 * 512) ∧
    ∃ pages : List Nat, pages.length = 13 ∧ pages.Nodup ∧
      (start sampleManager).Exhausts 200 2 pages := by
  have small : MemoryLayout.sixteenPages.pageSize ≤ 1 <<< 32 := by decide
  have fits : 0 < Slab.capacity MemoryLayout.sixteenPages.pageSize 200 := by decide
  have other : 200 ≠ CacheRecord.objectSize := by decide
  have bytes : sampleManager.freeBytes = .ok (13 * 512) := by decide +kernel
  obtain ⟨free, pages, total, length, nodup, exhausts⟩ :=
    start_exhausts sampleManager_booted small (by decide) fits other
  obtain rfl := Except.ok.inj (total.symm.trans bytes)
  exact ⟨sampleManager_booted, small, fits, other, bytes, pages, length, nodup, exhausts⟩

end Session

end PhysicalMemory
