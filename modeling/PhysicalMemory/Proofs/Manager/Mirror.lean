import PhysicalMemory.Manager.Instance

/-!
# The instance mirrors its manager

One action simulates another if from related states both tell the same and lead to
related states.  A cell holds a manager when the manager is in its mutex and nobody has
the lock.  What is done under the lock simulates what is done to the manager alone, halts
included: the lock is left in either case.
-/

namespace PhysicalMemory

structure Outcome.Alike {σ τ α : Type} (relation : σ → τ → Prop) (first : Outcome σ α)
    (second : Outcome τ α) : Prop where
  result : first.result = second.result
  state : relation first.state second.state
  log : first.log = second.log

/-- From related states both actions have outcomes that are alike. -/
def Action.Simulates {σ τ α : Type} (relation : σ → τ → Prop) (action : Action σ α)
    (model : Action τ α) : Prop :=
  ∀ state other, relation state other → (action.run state).Alike relation (model.run other)

theorem Action.run_runFrom {σ τ α : Type} (action : Action τ α) (inner : τ) (state : σ) :
    (action.runFrom inner).run state =
      match action.run inner with
      | ⟨.error halt, _, log⟩ => ⟨.error halt, state, log⟩
      | ⟨.ok value, after, log⟩ => ⟨.ok (value, after), state, log⟩ :=
  rfl

namespace Action.Simulates

variable {σ τ α β γ : Type} {relation : σ → τ → Prop}

theorem pure (value : α) : Simulates relation (Pure.pure value) (Pure.pure value) :=
  fun _ _ related => ⟨rfl, related, rfl⟩

theorem report (event : Event) :
    Simulates relation (Action.report event) (Action.report event) :=
  fun _ _ related => ⟨rfl, related, rfl⟩

theorem ite {condition : Prop} [Decidable condition] {yes no : Action σ α} {yes' no' : Action τ α}
    (first : Simulates relation yes yes') (second : Simulates relation no no') :
    Simulates relation (if condition then yes else no) (if condition then yes' else no') := by
  split
  · exact first
  · exact second

/-- What follows needs to agree only on the answers that the first action can give. -/
theorem bind_map {action : Action σ β} {model : Action τ α} {change : α → β}
    {next : β → Action σ γ} {follow : α → Action τ γ}
    (first : Simulates relation action (change <$> model))
    (rest : ∀ value, Simulates relation (next (change value)) (follow value)) :
    Simulates relation (action >>= next) (model >>= follow) := by
  intro state other related
  obtain ⟨result, states, logs⟩ := first state other related
  rw [run_map] at result states logs
  rw [run_bind, run_bind]
  generalize action.run state = outcome at result states logs ⊢
  generalize model.run other = outcome' at result states logs ⊢
  rcases outcome with ⟨told, after, log⟩
  rcases outcome' with ⟨halt | value, after', log'⟩
  · obtain rfl : told = .error halt := result
    exact ⟨rfl, states, logs⟩
  · obtain rfl : told = .ok (change value) := result
    obtain rfl : log = log' := logs
    obtain ⟨result, states, logs⟩ := rest value after after' states
    exact ⟨result, states, congrArg (log ++ ·) logs⟩

theorem bind {action : Action σ α} {model : Action τ α} {next : α → Action σ β}
    {follow : α → Action τ β} (first : Simulates relation action model)
    (rest : ∀ value, Simulates relation (next value) (follow value)) :
    Simulates relation (action >>= next) (model >>= follow) :=
  bind_map (show Simulates relation action (id <$> model) by rwa [id_map]) rest

theorem map {action : Action σ α} {model : Action τ α} (change : α → β)
    (simulates : Simulates relation action model) :
    Simulates relation (change <$> action) (change <$> model) := by
  rw [← bind_pure_comp, ← bind_pure_comp]
  exact simulates.bind fun value => pure (change value)

end Action.Simulates

namespace Instance

open PhysicalMemory.Action

variable {α : Type}

/-- The manager is in the cell's mutex, and nobody has the lock. -/
def Holds (cell : Instance) (manager : Manager) : Prop :=
  ∃ lock : TicketLock, lock.isLocked = false ∧ cell = ⟨.ready, some ⟨lock, manager⟩⟩

theorem holds_ofValue (manager : Manager) : Holds ⟨.ready, some (.ofValue manager)⟩ manager :=
  ⟨{}, rfl, rfl⟩

theorem simulates_boot (layout : MemoryLayout) (ram : Ram) :
    Simulates Holds (boot layout ram) (pure (.error .alreadyInitialized)) := by
  rintro cell manager ⟨lock, free, rfl⟩
  exact ⟨rfl, ⟨lock, free, rfl⟩, rfl⟩

/-- What is done to a manager that is booted is done in its mutex. -/
theorem run_withManager (action : Action Manager α) (mutex : Mutex Manager) :
    (withManager action).outcome.run ⟨.ready, some mutex⟩ =
      ⟨Except.ok <$> ((Mutex.withLock action).run mutex).result,
        ⟨.ready, some ((Mutex.withLock action).run mutex).state⟩,
        ((Mutex.withLock action).run mutex).log⟩ := by
  unfold withManager Attempt.outcome Action.run ExceptT.run ExceptT.mk
  simp only [OnceCell.get?, inMutex, if_true]
  rcases Mutex.withLock action mutex with ⟨halt | value, after, log⟩ <;> rfl

/-- Under the lock an action does what it does to the manager alone, and the lock is left. -/
theorem simulates_withManager (action : Action Manager α) :
    Simulates Holds (withManager action).outcome (Except.ok <$> action) := by
  rintro cell manager ⟨lock, free, rfl⟩
  have alone : (⟨lock, manager⟩ : Mutex Manager).isLocked = false := free
  rw [run_withManager, Mutex.run_withLock_of_free alone, run_map]
  exact ⟨rfl, ⟨_, TicketLock.isLocked_release_of_free free, rfl⟩, rfl⟩

theorem outcome_tryManager (attempt : Attempt Manager α) :
    (tryManager attempt).outcome = (· >>= id) <$> (withManager attempt.outcome).outcome := by
  rw [← bind_pure_comp]
  refine congrArg ((withManager attempt.outcome).outcome >>= ·) (funext fun answer => ?_)
  rcases answer with failure | ⟨failure | value⟩ <;> rfl

theorem simulates_tryManager (attempt : Attempt Manager α) :
    Simulates Holds (tryManager attempt).outcome attempt.outcome := by
  have answers : Simulates Holds
      ((withManager attempt.outcome).outcome >>= fun answer => pure (answer >>= id))
      (attempt.outcome >>= pure) :=
    (simulates_withManager _).bind_map fun answer => .pure answer
  rwa [bind_pure, bind_pure_comp, ← outcome_tryManager] at answers

theorem simulates_changeRam (change : Manager → Ram) :
    Simulates Holds (changeRam change) (modify fun manager => manager.setRam (change manager)) := by
  rintro cell manager ⟨lock, free, rfl⟩
  exact ⟨rfl, ⟨lock, free, rfl⟩, rfl⟩

end Instance

end PhysicalMemory
