import PhysicalMemory.Proofs.Manager.Mirror

/-!
# One manager for all

Whatever is asked of the instance has a plain reading: nobody is served before a boot has
succeeded, and from then on every service is what the one manager does, of which there is
neither a cell nor a lock to be seen.  Services asked for one after the other tell the
same under both readings, and the cell always shows where the plain machine is.
-/

namespace PhysicalMemory

/-- What can be asked of the instance, with the kind of its answer, and writes in memory. -/
inductive Service : Type → Type 1 where
  | boot (layout : MemoryLayout) (ram : Ram := {}) : Service (Except BootFailure Unit)
  | isInitialized : Service Bool
  | within {α : Type} (action : Action Manager α) : Service (Except AllocFailure α)
  | allocatePages (order : Nat) : Service (Except AllocFailure Page)
  | allocate (size : Nat) : Service (Except AllocFailure Nat)
  | allocateAligned (size alignment : Nat) : Service (Except AllocFailure Nat)
  | releasePages (page : Page) (order : Nat) : Service Unit
  | release (address : Nat) : Service Unit
  | alloc (request : Request) : Service Nat
  | dealloc (address : Nat) (request : Request) : Service Unit
  | allocZeroed (request : Request) : Service Nat
  | realloc (address : Nat) (request : Request) (size : Nat) : Service Nat
  | write (ram : Ram) : Service Unit

def Manager.orNull : Except AllocFailure Nat → Nat
  | .ok address => address
  | .error _ => 0

namespace Service

open Manager (orNull)

variable {α : Type}

/-- What the instance does. -/
def onInstance : Service α → Action Instance α
  | .boot layout ram => Instance.boot layout ram
  | .isInitialized => Instance.isInitialized <$> get
  | .within action => (Instance.withManager action).outcome
  | .allocatePages order => (Instance.allocatePages order).outcome
  | .allocate size => (Instance.allocate size).outcome
  | .allocateAligned size alignment => (Instance.allocateAligned size alignment).outcome
  | .releasePages page order => Instance.releasePages page order
  | .release address => Instance.release address
  | .alloc request => Instance.alloc request
  | .dealloc address request => Instance.dealloc address request
  | .allocZeroed request => Instance.allocZeroed request
  | .realloc address request size => Instance.realloc address request size
  | .write ram => Instance.changeRam fun _ => ram

/-- What is done to a manager that was booted. -/
def onManager : Service α → Action Manager α
  | .boot _ _ => return .error .alreadyInitialized
  | .isInitialized => return true
  | .within action => Except.ok <$> action
  | .allocatePages order => (Manager.allocatePages order).outcome
  | .allocate size => (Manager.allocate size).outcome
  | .allocateAligned size alignment => (Manager.allocateAligned size alignment).outcome
  | .releasePages page order => Manager.releasePages page order
  | .release address => Manager.release address
  | .alloc request =>
      orNull <$> (Manager.allocateAligned request.size request.alignment).outcome
  | .dealloc address _ => Manager.release address
  | .allocZeroed request => do
      let address ←
        orNull <$> (Manager.allocateAligned request.size request.alignment).outcome
      if address ≠ 0 then
        modify fun manager => manager.setRam (manager.ram.clear address request.size)
      return address
  | .realloc address request size => do
      let moved ← orNull <$> (Manager.allocateAligned size request.alignment).outcome
      if moved ≠ 0 then
        modify fun manager => manager.setRam
          (manager.ram.copy (manager.readable address) address moved (min request.size size))
        Manager.release address
      return moved
  | .write ram => modify fun manager => manager.setRam ram

def leak (address : Nat) : Action (Option Manager) Unit := do
  if address ≠ 0 then Action.report (.pointerLeaked address)

theorem state_leak (address : Nat) (machine : Option Manager) :
    ((leak address).run machine).state = machine := by
  unfold leak
  split <;> rfl

/-- What is done before there is a manager: nothing but booting makes a difference. -/
def unserved : Service α → Action (Option Manager) α
  | .boot layout ram => do
      let (booted, ()) ← (Manager.boot layout ram).runFrom ()
      match booted with
      | .error failure => return .error failure
      | .ok manager => do
          set (some manager)
          return .ok ()
  | .isInitialized => return false
  | .within _ => return .error .notInitialized
  | .allocatePages _ => return .error .notInitialized
  | .allocate _ => return .error .notInitialized
  | .allocateAligned _ _ => return .error .notInitialized
  | .releasePages page _ => Action.report (.pagesLeaked page.start)
  | .release address => leak address
  | .alloc _ => return 0
  | .dealloc address _ => leak address
  | .allocZeroed _ => return 0
  | .realloc _ _ _ => return 0
  | .write _ => return

/-- The plain reading: there is no manager, or there is the one. -/
def plain (service : Service α) : Action (Option Manager) α
  | none => service.unserved.run none
  | some manager =>
      let outcome := service.onManager.run manager
      ⟨outcome.result, some outcome.state, outcome.log⟩

end Service

structure Asked : Type 1 where
  {Answer : Type}
  service : Service Answer

structure Told : Type 1 where
  {Answer : Type}
  result : Checked Answer
  log : List Event

namespace Asked

variable {σ τ : Type}

def after (serve : ∀ {α : Type}, Service α → Action σ α) (state : σ) : List Asked → σ
  | [] => state
  | asked :: rest => after serve ((serve asked.service).run state).state rest

def told (serve : ∀ {α : Type}, Service α → Action σ α) (state : σ) : List Asked → List Told
  | [] => []
  | asked :: rest =>
      let outcome := (serve asked.service).run state
      ⟨outcome.result, outcome.log⟩ :: told serve outcome.state rest

/-- If every service simulates its model, then so do all of them one after the other. -/
theorem simulates {relation : σ → τ → Prop} {serve : ∀ {α : Type}, Service α → Action σ α}
    {model : ∀ {α : Type}, Service α → Action τ α}
    (each : ∀ {α : Type} (service : Service α),
      (serve service).Simulates relation (model service))
    {state : σ} {other : τ} (related : relation state other) (course : List Asked) :
    told serve state course = told model other course ∧
      relation (after serve state course) (after model other course) := by
  induction course generalizing state other with
  | nil => exact ⟨rfl, related⟩
  | cons asked rest ih =>
      obtain ⟨result, states, log⟩ := each asked.service state other related
      obtain ⟨told, final⟩ := ih states
      refine ⟨?_, final⟩
      rw [Asked.told, Asked.told, result, log, told]

end Asked

namespace Instance

open PhysicalMemory.Action

/-- Where the plain machine is: before a boot has succeeded the cell is untouched. -/
def Shows (cell : Instance) : Option Manager → Prop
  | none => cell = unbooted
  | some manager => cell.Holds manager

variable {α : Type}

theorem simulates_alloc (request : Request) :
    Simulates Holds (alloc request)
      (Manager.orNull <$> (Manager.allocateAligned request.size request.alignment).outcome) := by
  have addresses := (simulates_tryManager
    (Manager.allocateAligned request.size request.alignment)).map Manager.orNull
  have same : alloc request =
      Manager.orNull <$> (allocateAligned request.size request.alignment).outcome := by
    rw [← bind_pure_comp]
    refine congrArg ((allocateAligned request.size request.alignment).outcome >>= ·)
      (funext fun answer => ?_)
    cases answer <;> rfl
  rwa [same]

theorem simulates_releasePages (page : Page) (order : Nat) :
    Simulates Holds (releasePages page order) (Manager.releasePages page order) := by
  rw [← bind_pure (Manager.releasePages page order)]
  exact (simulates_withManager _).bind_map fun answer => .pure answer

theorem simulates_release (address : Nat) :
    Simulates Holds (release address) (Manager.release address) := by
  rw [← bind_pure (Manager.release address)]
  exact (simulates_withManager _).bind_map fun answer => .pure answer

theorem simulates_onManager (service : Service α) :
    Simulates Holds service.onInstance service.onManager := by
  cases service with
  | boot layout ram => exact simulates_boot layout ram
  | isInitialized =>
      rintro cell manager ⟨lock, free, rfl⟩
      exact ⟨rfl, ⟨lock, free, rfl⟩, rfl⟩
  | within action => exact simulates_withManager action
  | allocatePages order => exact simulates_tryManager _
  | allocate size => exact simulates_tryManager _
  | allocateAligned size alignment => exact simulates_tryManager _
  | releasePages page order => exact simulates_releasePages page order
  | release address => exact simulates_release address
  | alloc request => exact simulates_alloc request
  | dealloc address request => exact simulates_release address
  | allocZeroed request =>
      exact (simulates_alloc request).bind fun address =>
        .ite ((simulates_changeRam _).bind fun _ => .pure address) (.pure address)
  | realloc address request size =>
      exact (simulates_alloc _).bind fun moved =>
        .ite ((simulates_changeRam _).bind fun _ =>
          (simulates_release address).bind fun _ => .pure moved) (.pure moved)
  | write ram => exact simulates_changeRam fun _ => ram

theorem alike_boot (layout : MemoryLayout) (ram : Ram) :
    ((boot layout ram).run unbooted).Alike Shows ((Service.boot layout ram).unserved.run none) := by
  have closed : unbooted.isInitialized = false := rfl
  simp only [boot, Service.unserved, run_bind, run_get, closed, run_runFrom, Bool.false_eq_true,
    if_false]
  rcases (Manager.boot layout ram).run () with ⟨halt | failure | manager, ⟨⟩, log⟩
  · exact ⟨rfl, rfl, rfl⟩
  · exact ⟨rfl, rfl, rfl⟩
  · exact ⟨rfl, holds_ofValue manager, rfl⟩

theorem alike_release (address : Nat) :
    ((release address).run unbooted).Alike Shows
      ((Service.release address).unserved.run none) := by
  have served : (release address).run unbooted =
      (do if address ≠ 0 then Action.report (.pointerLeaked address) :
        Action Instance Unit).run unbooted := rfl
  rw [served]
  exact Simulates.ite (.report _) (.pure ()) unbooted none rfl

theorem alike_unserved (service : Service α) :
    (service.onInstance.run unbooted).Alike Shows (service.unserved.run none) := by
  cases service with
  | boot layout ram => exact alike_boot layout ram
  | release address => exact alike_release address
  | dealloc address request => exact alike_release address
  | _ => exact ⟨rfl, rfl, rfl⟩

theorem simulates_plain (service : Service α) :
    Simulates Shows service.onInstance service.plain := by
  rintro cell (- | manager) shows
  · obtain rfl : cell = unbooted := shows
    exact alike_unserved service
  · obtain ⟨result, state, log⟩ := simulates_onManager service cell manager shows
    exact ⟨result, state, log⟩

end Instance

end PhysicalMemory
