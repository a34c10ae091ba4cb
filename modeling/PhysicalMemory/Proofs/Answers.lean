import Mathlib
import PhysicalMemory.Manager.Pages

/-!
# Answers

An action answers from a state when it does not halt there; the relation says
with which value and in which state it ends, and leaves the log out.  Every
step of an action has one equivalence here, so a composed action is taken apart
by rewriting.  An attempt answers with a value or with the reason it is refused.
-/

namespace PhysicalMemory

namespace Action

variable {σ τ α β : Type}

/-- The action does not halt: it answers with the value and leaves the second state. -/
def Answers (action : Action σ α) (state : σ) (value : α) (after : σ) : Prop :=
  (action.run state).result = .ok value ∧ (action.run state).state = after

theorem Answers.value_unique {action : Action σ α} {state after after' : σ} {value value' : α}
    (first : Answers action state value after) (second : Answers action state value' after') :
    value = value' := by
  have same := first.1.symm.trans second.1
  exact Except.ok.inj same

theorem Answers.state_unique {action : Action σ α} {state after after' : σ} {value value' : α}
    (first : Answers action state value after) (second : Answers action state value' after') :
    after = after' :=
  first.2.symm.trans second.2

@[simp] theorem answers_pure_iff {value answer : α} {state after : σ} :
    Answers (pure value : Action σ α) state answer after ↔ answer = value ∧ after = state := by
  simp [Answers, eq_comm]

@[simp] theorem answers_bind_iff {first : Action σ α} {next : α → Action σ β}
    {state after : σ} {answer : β} :
    Answers (first >>= next) state answer after ↔
      ∃ value middle, Answers first state value middle ∧
        Answers (next value) middle answer after := by
  cases h : first.run state with
  | mk result middle log =>
      cases result with
      | error cause =>
          constructor
          · rintro ⟨result, -⟩
            rw [run_bind_error h] at result
            cases result
          · rintro ⟨value, other, ⟨result, -⟩, -⟩
            rw [h] at result
            cases result
      | ok value =>
          simp only [Answers, run_bind_ok h, h]
          constructor
          · rintro ⟨result, final⟩
            exact ⟨value, middle, ⟨rfl, rfl⟩, result, final⟩
          · rintro ⟨other, there, ⟨result, rfl⟩, rest⟩
            cases result
            exact rest

@[simp] theorem answers_halt_iff {cause : Halt} {state after : σ} {answer : α} :
    Answers (halt cause : Action σ α) state answer after ↔ False := by
  simp [Answers]

@[simp] theorem answers_violate_iff {cause : Violation} {state after : σ} {answer : α} :
    Answers (violate cause : Action σ α) state answer after ↔ False := by
  simp [Answers]

@[simp] theorem answers_report_iff {event : Event} {state after : σ} {answer : Unit} :
    Answers (report event : Action σ Unit) state answer after ↔ after = state := by
  simp [Answers, eq_comm]

@[simp] theorem answers_check_iff {value : Checked α} {state after : σ} {answer : α} :
    Answers (check value : Action σ α) state answer after ↔
      value = .ok answer ∧ after = state := by
  cases value with
  | error cause => simp
  | ok value => simp [eq_comm]

@[simp] theorem answers_get_iff {state after answer : σ} :
    Answers (get : Action σ σ) state answer after ↔ answer = state ∧ after = state := by
  simp [Answers, eq_comm]

@[simp] theorem answers_set_iff {state after next : σ} {answer : PUnit} :
    Answers (set next : Action σ PUnit) state answer after ↔ after = next := by
  constructor
  · rintro ⟨-, rfl⟩
    rfl
  · rintro rfl
    exact ⟨rfl, rfl⟩

@[simp] theorem answers_modify_iff {step : σ → σ} {state after : σ} {answer : PUnit} :
    Answers (modify step : Action σ PUnit) state answer after ↔ after = step state := by
  constructor
  · rintro ⟨-, rfl⟩
    rfl
  · rintro rfl
    exact ⟨rfl, rfl⟩

@[simp] theorem answers_map_iff {change : α → β} {action : Action σ α} {state after : σ}
    {answer : β} :
    Answers (change <$> action) state answer after ↔
      ∃ value, answer = change value ∧ Answers action state value after := by
  rw [← bind_pure_comp]
  simp only [answers_bind_iff, answers_pure_iff]
  constructor
  · rintro ⟨value, middle, answers, rfl, rfl⟩
    exact ⟨value, rfl, answers⟩
  · rintro ⟨value, rfl, answers⟩
    exact ⟨value, after, answers, rfl, rfl⟩

@[simp] theorem answers_runFrom_iff {action : Action τ α} {inner : τ} {state after : σ}
    {answer : α × τ} :
    Answers (runFrom action inner : Action σ (α × τ)) state answer after ↔
      Answers action inner answer.1 answer.2 ∧ after = state := by
  simp only [Answers, run, runFrom]
  rcases action inner with ⟨result, last, log⟩
  cases result with
  | error cause => simp
  | ok value =>
      rcases answer with ⟨first, second⟩
      simp only [Except.ok.injEq, Prod.mk.injEq]
      constructor
      · rintro ⟨⟨rfl, rfl⟩, rfl⟩
        exact ⟨⟨rfl, rfl⟩, rfl⟩
      · rintro ⟨⟨rfl, rfl⟩, rfl⟩
        exact ⟨⟨rfl, rfl⟩, rfl⟩

theorem answers_get_bind_iff {next : σ → Action σ β} {state after : σ} {answer : β} :
    Answers (get >>= next) state answer after ↔ Answers (next state) state answer after := by
  simp only [answers_bind_iff, answers_get_iff]
  constructor
  · rintro ⟨value, middle, ⟨rfl, rfl⟩, rest⟩
    exact rest
  · intro rest
    exact ⟨state, state, ⟨rfl, rfl⟩, rest⟩

theorem answers_check_bind_iff {value : Checked α} {next : α → Action σ β} {state after : σ}
    {answer : β} :
    Answers (check value >>= next) state answer after ↔
      ∃ result, value = .ok result ∧ Answers (next result) state answer after := by
  simp only [answers_bind_iff, answers_check_iff]
  constructor
  · rintro ⟨result, middle, ⟨given, rfl⟩, rest⟩
    exact ⟨result, given, rest⟩
  · rintro ⟨result, given, rest⟩
    exact ⟨result, state, ⟨given, rfl⟩, rest⟩

theorem answers_modify_bind_iff {step : σ → σ} {next : PUnit → Action σ β} {state after : σ}
    {answer : β} :
    Answers (modify step >>= next) state answer after ↔
      Answers (next PUnit.unit) (step state) answer after := by
  simp only [answers_bind_iff, answers_modify_iff]
  constructor
  · rintro ⟨value, middle, rfl, rest⟩
    exact rest
  · intro rest
    exact ⟨PUnit.unit, step state, rfl, rest⟩

theorem run_get_bind (next : σ → Action σ α) (state : σ) :
    (get >>= next).run state = (next state).run state :=
  rfl

theorem result_get_bind (next : σ → Action σ α) (state : σ) :
    ((get >>= next).run state).result = ((next state).run state).result :=
  rfl

theorem state_get_bind (next : σ → Action σ α) (state : σ) :
    ((get >>= next).run state).state = ((next state).run state).state :=
  rfl

/-- What a checked computation halts with, the action that takes its answer halts with too. -/
theorem run_check_bind_error {value : Checked α} {cause : Halt} (h : value = .error cause)
    (next : α → Action σ β) (state : σ) :
    ((check value >>= next).run state).result = .error cause ∧
      ((check value >>= next).run state).state = state := by
  subst h
  simp

end Action

namespace Attempt

variable {σ α β : Type}

@[simp] theorem outcome_pure (value : α) :
    (pure value : Attempt σ α).outcome = pure (.ok value) :=
  rfl

@[simp] theorem outcome_throw (failure : AllocFailure) :
    (throw failure : Attempt σ α).outcome = pure (.error failure) :=
  rfl

/-- A refusal ends an attempt; it is the answer of the whole. -/
@[simp] theorem answers_outcome_bind_iff {first : Attempt σ α} {next : α → Attempt σ β}
    {state after : σ} {answer : Except AllocFailure β} :
    Action.Answers (first >>= next).outcome state answer after ↔
      (∃ value middle, Action.Answers first.outcome state (.ok value) middle ∧
        Action.Answers (next value).outcome middle answer after) ∨
      ∃ failure, Action.Answers first.outcome state (.error failure) after ∧
        answer = .error failure := by
  change Action.Answers (first.outcome >>= ExceptT.bindCont next) state answer after ↔ _
  rw [Action.answers_bind_iff]
  constructor
  · rintro ⟨result, middle, answers, rest⟩
    cases result with
    | ok value => exact .inl ⟨value, middle, answers, rest⟩
    | error failure =>
        obtain ⟨rfl, rfl⟩ := Action.answers_pure_iff.1 rest
        exact .inr ⟨failure, answers, rfl⟩
  · rintro (⟨value, middle, answers, rest⟩ | ⟨failure, answers, rfl⟩)
    · exact ⟨.ok value, middle, answers, rest⟩
    · exact ⟨.error failure, after, answers, Action.answers_pure_iff.2 ⟨rfl, rfl⟩⟩

@[simp] theorem answers_outcome_liftM_iff {action : Action σ α} {state after : σ}
    {answer : Except AllocFailure α} :
    Action.Answers (liftM action : Attempt σ α).outcome state answer after ↔
      ∃ value, answer = .ok value ∧ Action.Answers action state value after := by
  change Action.Answers (Except.ok <$> action) state answer after ↔ _
  rw [Action.answers_map_iff]

@[simp] theorem answers_outcome_check_iff {value : Checked α} {state after : σ}
    {answer : Except AllocFailure α} :
    Action.Answers (liftM value : Attempt σ α).outcome state answer after ↔
      ∃ result, value = .ok result ∧ answer = .ok result ∧ after = state := by
  change Action.Answers (Except.ok <$> Action.check value) state answer after ↔ _
  rw [Action.answers_map_iff]
  constructor
  · rintro ⟨result, rfl, answers⟩
    obtain ⟨rfl, rfl⟩ := Action.answers_check_iff.1 answers
    exact ⟨result, rfl, rfl, rfl⟩
  · rintro ⟨result, rfl, rfl, rfl⟩
    exact ⟨result, rfl, Action.answers_check_iff.2 ⟨rfl, rfl⟩⟩

@[simp] theorem answers_outcome_get_iff {state after : σ} {answer : Except AllocFailure σ} :
    Action.Answers (get : Attempt σ σ).outcome state answer after ↔
      answer = .ok state ∧ after = state := by
  change Action.Answers (Except.ok <$> (get : Action σ σ)) state answer after ↔ _
  rw [Action.answers_map_iff]
  simp only [Action.answers_get_iff]
  constructor
  · rintro ⟨value, rfl, rfl, rfl⟩
    exact ⟨rfl, rfl⟩
  · rintro ⟨rfl, rfl⟩
    exact ⟨after, rfl, rfl, rfl⟩

@[simp] theorem answers_outcome_report_iff {event : Event} {state after : σ}
    {answer : Except AllocFailure Unit} :
    Action.Answers (report event : Attempt σ Unit).outcome state answer after ↔
      answer = .ok () ∧ after = state := by
  change Action.Answers (Except.ok <$> Action.report event) state answer after ↔ _
  rw [Action.answers_map_iff]
  constructor
  · rintro ⟨⟨⟩, rfl, answers⟩
    exact ⟨rfl, Action.answers_report_iff.1 answers⟩
  · rintro ⟨rfl, rfl⟩
    exact ⟨(), rfl, Action.answers_report_iff.2 rfl⟩

@[simp] theorem answers_outcome_violate_iff {cause : Violation} {state after : σ}
    {answer : Except AllocFailure α} :
    Action.Answers (violate cause : Attempt σ α).outcome state answer after ↔ False := by
  change Action.Answers (Except.ok <$> Action.violate cause) state answer after ↔ _
  rw [Action.answers_map_iff]
  simp

section

variable {first : Attempt σ α} {next : α → Attempt σ β} {state middle after : σ}

theorem answers_bind_of_ok {value : α} {answer : Except AllocFailure β}
    (answers : Action.Answers first.outcome state (.ok value) middle)
    (rest : Action.Answers (next value).outcome middle answer after) :
    Action.Answers (first >>= next).outcome state answer after :=
  answers_outcome_bind_iff.2 (.inl ⟨value, middle, answers, rest⟩)

theorem answers_bind_of_error {failure : AllocFailure}
    (answers : Action.Answers first.outcome state (.error failure) after) :
    Action.Answers (first >>= next).outcome state (.error failure) after :=
  answers_outcome_bind_iff.2 (.inr ⟨failure, answers, rfl⟩)

/-- Where the whole is not refused, neither is its first part. -/
theorem exists_answers_of_bind {value : β}
    (answers : Action.Answers (first >>= next).outcome state (.ok value) after) :
    ∃ given middle, Action.Answers first.outcome state (.ok given) middle ∧
      Action.Answers (next given).outcome middle (.ok value) after := by
  rcases answers_outcome_bind_iff.1 answers with both | ⟨failure, -, refused⟩
  · exact both
  · cases refused

end

theorem run_get_bind (next : σ → Attempt σ α) (state : σ) :
    ((get : Attempt σ σ) >>= next).outcome.run state = (next state).outcome.run state :=
  rfl

/-- What a checked computation halts with, the attempt that takes its answer halts with too. -/
theorem run_check_bind_error {value : Checked α} {cause : Halt} (h : value = .error cause)
    (next : α → Attempt σ β) (state : σ) :
    ((((liftM value : Attempt σ α) >>= next).outcome).run state).result = .error cause ∧
      ((((liftM value : Attempt σ α) >>= next).outcome).run state).state = state := by
  subst h
  exact ⟨rfl, rfl⟩

end Attempt

end PhysicalMemory
