import PhysicalMemory.Event
import PhysicalMemory.Failure

/-!
# Actions

An action runs on a state and leaves three things: an answer or a halt, the
state as it then is, and the events it reported, oldest first.  A halt ends the
action but undoes nothing, so the state after it is what had been written.
-/

namespace PhysicalMemory

structure Outcome (σ α : Type) where
  result : Checked α
  state : σ
  log : List Event

/-- A computation on a state that may report events and may halt. -/
def Action (σ α : Type) : Type :=
  σ → Outcome σ α

namespace Action

variable {σ τ α β : Type}

def run (action : Action σ α) (state : σ) : Outcome σ α :=
  action state

def answer (value : α) : Action σ α :=
  fun state => ⟨.ok value, state, []⟩

/-- Run one action and then the one chosen by its answer; a halt ends both. -/
def andThen (first : Action σ α) (next : α → Action σ β) : Action σ β := fun state =>
  match first state with
  | ⟨.error halt, after, log⟩ => ⟨.error halt, after, log⟩
  | ⟨.ok value, after, log⟩ =>
      match next value after with
      | ⟨result, final, more⟩ => ⟨result, final, log ++ more⟩

instance : Monad (Action σ) where
  pure := answer
  bind := andThen

def halt (cause : Halt) : Action σ α :=
  fun state => ⟨.error cause, state, Event.onHalt cause⟩

def violate (cause : Violation) : Action σ α :=
  halt (.violation cause)

def report (event : Event) : Action σ Unit :=
  fun state => ⟨.ok (), state, [event]⟩

def check : Checked α → Action σ α
  | .ok value => answer value
  | .error cause => halt cause

instance : MonadLift (Except Halt) (Action σ) where
  monadLift := check

instance : MonadStateOf σ (Action σ) where
  get := fun state => ⟨.ok state, state, []⟩
  set state := fun _ => ⟨.ok (), state, []⟩
  modifyGet step := fun state =>
    match step state with
    | (value, after) => ⟨.ok value, after, []⟩

def runFrom (action : Action τ α) (state : τ) : Action σ (α × τ) := fun outer =>
  match action state with
  | ⟨.error halt, _, log⟩ => ⟨.error halt, outer, log⟩
  | ⟨.ok value, after, log⟩ => ⟨.ok (value, after), outer, log⟩

@[simp] theorem run_pure (value : α) (state : σ) :
    (pure value : Action σ α).run state = ⟨.ok value, state, []⟩ :=
  rfl

@[simp] theorem run_halt (cause : Halt) (state : σ) :
    (halt cause : Action σ α).run state = ⟨.error cause, state, Event.onHalt cause⟩ :=
  rfl

@[simp] theorem run_report (event : Event) (state : σ) :
    (report event : Action σ Unit).run state = ⟨.ok (), state, [event]⟩ :=
  rfl

@[simp] theorem run_violate (cause : Violation) (state : σ) :
    (violate cause : Action σ α).run state =
      ⟨.error (.violation cause), state, [.violated cause]⟩ :=
  rfl

@[simp] theorem check_ok (value : α) : (check (.ok value) : Action σ α) = pure value :=
  rfl

@[simp] theorem check_error (cause : Halt) : (check (.error cause) : Action σ α) = halt cause :=
  rfl

@[simp] theorem liftM_eq_check (value : Checked α) : (liftM value : Action σ α) = check value :=
  rfl

@[simp] theorem run_get (state : σ) :
    (get : Action σ σ).run state = ⟨.ok state, state, []⟩ :=
  rfl

@[simp] theorem run_set (after state : σ) :
    (set after : Action σ Unit).run state = ⟨.ok (), after, []⟩ :=
  rfl

@[simp] theorem run_modify (step : σ → σ) (state : σ) :
    (modify step : Action σ Unit).run state = ⟨.ok (), step state, []⟩ :=
  rfl

@[simp] theorem run_modifyGet (step : σ → α × σ) (state : σ) :
    (modifyGet step : Action σ α).run state = ⟨.ok (step state).1, (step state).2, []⟩ :=
  rfl

theorem run_bind (first : Action σ α) (next : α → Action σ β) (state : σ) :
    (first >>= next).run state =
      match first.run state with
      | ⟨.error halt, after, log⟩ => ⟨.error halt, after, log⟩
      | ⟨.ok value, after, log⟩ =>
          match (next value).run after with
          | ⟨result, final, more⟩ => ⟨result, final, log ++ more⟩ :=
  rfl

/-- A function of the answer changes neither the state nor what is reported. -/
@[simp] theorem run_map (change : α → β) (action : Action σ α) (state : σ) :
    (change <$> action).run state =
      ⟨change <$> (action.run state).result, (action.run state).state,
        (action.run state).log⟩ := by
  change (action >>= fun value => pure (change value)).run state = _
  rw [run_bind]
  rcases action.run state with ⟨_ | value, after, log⟩
  · rfl
  · simp [Functor.map, Except.map]

/-- After an answer the second action goes on from the state the first one left. -/
theorem run_bind_ok {first : Action σ α} {next : α → Action σ β} {state after : σ}
    {value : α} {log : List Event} (h : first.run state = ⟨.ok value, after, log⟩) :
    (first >>= next).run state =
      ⟨((next value).run after).result, ((next value).run after).state,
        log ++ ((next value).run after).log⟩ := by
  rw [run_bind, h]

theorem run_bind_error {first : Action σ α} {next : α → Action σ β} {state after : σ}
    {cause : Halt} {log : List Event} (h : first.run state = ⟨.error cause, after, log⟩) :
    (first >>= next).run state = ⟨.error cause, after, log⟩ := by
  rw [run_bind, h]

private theorem map_id_eq (action : Action σ α) : id <$> action = action := by
  funext state
  change (action >>= fun value => pure (id value)).run state = action.run state
  rw [run_bind]
  rcases action.run state with ⟨_ | value, after, log⟩ <;> simp

private theorem pure_bind_eq (value : α) (next : α → Action σ β) :
    (pure value >>= next) = next value := by
  funext state
  exact run_bind_ok (run_pure value state)

private theorem bind_assoc_eq {γ : Type} (first : Action σ α) (next : α → Action σ β)
    (last : β → Action σ γ) :
    (first >>= next) >>= last = first >>= fun value => next value >>= last := by
  funext state
  change ((first >>= next) >>= last).run state =
    (first >>= fun value => next value >>= last).run state
  cases h : first.run state with
  | mk result after log =>
      cases result with
      | error cause => simp only [run_bind, h]
      | ok value =>
          rw [run_bind_ok h, run_bind]
          cases h' : (next value).run after with
          | mk result' final more =>
              cases result' with
              | error cause =>
                  rw [run_bind_ok h, run_bind_error h', h']
              | ok other =>
                  rw [run_bind_ok h, run_bind_ok h', h']
                  simp [List.append_assoc]

instance : LawfulMonad (Action σ) :=
  LawfulMonad.mk' (Action σ) map_id_eq pure_bind_eq bind_assoc_eq

@[simp] theorem halt_bind (cause : Halt) (next : α → Action σ β) :
    (halt cause >>= next) = halt cause :=
  rfl

@[simp] theorem violate_bind (cause : Violation) (next : α → Action σ β) :
    (violate cause >>= next) = violate cause :=
  rfl

end Action

/-- An action that may also be refused. -/
abbrev Attempt (σ α : Type) : Type :=
  ExceptT AllocFailure (Action σ) α

namespace Attempt

variable {σ α : Type}

def outcome (attempt : Attempt σ α) : Action σ (Except AllocFailure α) :=
  ExceptT.run attempt

def report (event : Event) : Attempt σ Unit :=
  ExceptT.lift (Action.report event)

def violate (cause : Violation) : Attempt σ α :=
  ExceptT.lift (Action.violate cause)

end Attempt

end PhysicalMemory
