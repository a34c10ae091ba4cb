import PhysicalMemory.Proofs.Answers

/-!
# Halts

An action that does not answer from a state halts there, with a cause and in the
state that it had reached.  What makes a composed action halt is read off its
steps, and a step that answers is left behind.
-/

namespace PhysicalMemory

namespace Action

variable {σ τ α β : Type}

/-- The action does not answer: it halts with the cause and leaves the second state. -/
def Halts (action : Action σ α) (state : σ) (cause : Halt) (after : σ) : Prop :=
  (action.run state).result = .error cause ∧ (action.run state).state = after

theorem Halts.not_answers {action : Action σ α} {state after after' : σ} {cause : Halt} {value : α}
    (halts : Halts action state cause after) : ¬ Answers action state value after' := by
  rintro ⟨result, -⟩
  rw [halts.1] at result
  cases result

theorem Halts.cause_unique {action : Action σ α} {state after after' : σ} {cause cause' : Halt}
    (halts : Halts action state cause after) (halts' : Halts action state cause' after') :
    cause = cause' :=
  Except.error.inj (halts.1.symm.trans halts'.1)

theorem answers_or_halts (action : Action σ α) (state : σ) :
    (∃ value after, Answers action state value after) ∨
      ∃ cause after, Halts action state cause after := by
  cases result : (action.run state).result with
  | ok value => exact .inl ⟨value, _, result, rfl⟩
  | error cause => exact .inr ⟨cause, _, result, rfl⟩

theorem exists_halts_iff_not_answers {action : Action σ α} {state : σ} :
    (∃ cause after, Halts action state cause after) ↔
      ¬ ∃ value after, Answers action state value after := by
  constructor
  · rintro ⟨cause, after, halts⟩ ⟨value, after', answers⟩
    exact halts.not_answers answers
  · exact (answers_or_halts action state).resolve_left

@[simp] theorem halts_pure_iff {value : α} {state after : σ} {cause : Halt} :
    Halts (pure value : Action σ α) state cause after ↔ False := by
  simp [Halts]

@[simp] theorem halts_halt_iff {other cause : Halt} {state after : σ} :
    Halts (halt other : Action σ α) state cause after ↔ cause = other ∧ after = state := by
  simp [Halts, eq_comm]

/-- A composed action halts in its first step, or in the second once the first has answered. -/
@[simp] theorem halts_bind_iff {first : Action σ α} {next : α → Action σ β} {state after : σ}
    {cause : Halt} :
    Halts (first >>= next) state cause after ↔ Halts first state cause after ∨
      ∃ value middle, Answers first state value middle ∧ Halts (next value) middle cause after := by
  cases h : first.run state with
  | mk result middle log =>
      cases result with
      | error other =>
          simp only [Halts, Answers, run_bind_error h, h]
          constructor
          · rintro ⟨⟨⟩, there⟩
            exact .inl ⟨rfl, there⟩
          · rintro (⟨⟨⟩, there⟩ | ⟨value, middle, ⟨⟨⟩, -⟩, -⟩)
            exact ⟨rfl, there⟩
      | ok value =>
          simp only [Halts, Answers, run_bind_ok h, h]
          constructor
          · exact fun halts => .inr ⟨value, middle, ⟨rfl, rfl⟩, halts⟩
          · rintro (⟨⟨⟩, -⟩ | ⟨other, there, ⟨result, rfl⟩, halts⟩)
            cases result
            exact halts

theorem halts_check_bind_iff {value : Checked α} {next : α → Action σ β} {state after : σ}
    {cause : Halt} :
    Halts (check value >>= next) state cause after ↔
      (value = .error cause ∧ after = state) ∨
        ∃ result, value = .ok result ∧ Halts (next result) state cause after := by
  cases value with
  | error other => simp [eq_comm]
  | ok value => simp

/-- From one state the action ends just as another does from a second state. -/
def EndsAs (action : Action σ α) (state : σ) (rest : Action σ α) (later : σ) : Prop :=
  (action.run state).result = (rest.run later).result ∧
    (action.run state).state = (rest.run later).state

theorem EndsAs.trans {first second third : Action σ α} {state middle later : σ}
    (ends : EndsAs first state second middle) (ends' : EndsAs second middle third later) :
    EndsAs first state third later :=
  ⟨ends.1.trans ends'.1, ends.2.trans ends'.2⟩

theorem EndsAs.answers_iff {action rest : Action σ α} {state later after : σ} {answer : α}
    (ends : EndsAs action state rest later) :
    Answers action state answer after ↔ Answers rest later answer after := by
  rw [Answers, Answers, ends.1, ends.2]

theorem EndsAs.halts_iff {action rest : Action σ α} {state later after : σ} {cause : Halt}
    (ends : EndsAs action state rest later) :
    Halts action state cause after ↔ Halts rest later cause after := by
  rw [Halts, Halts, ends.1, ends.2]

theorem Answers.bind_endsAs {first : Action σ α} {state middle : σ} {value : α}
    (answers : Answers first state value middle) (next : α → Action σ β) :
    EndsAs (first >>= next) state (next value) middle := by
  cases h : first.run state with
  | mk result last log =>
      obtain ⟨rfl, rfl⟩ : result = .ok value ∧ last = middle := by
        simpa [Answers, h] using answers
      rw [EndsAs, run_bind_ok h]
      exact ⟨rfl, rfl⟩

/-- What halts on a state of its own leaves the state around it alone. -/
@[simp] theorem halts_runFrom_iff {action : Action τ α} {inner : τ} {state after : σ}
    {cause : Halt} :
    Halts (runFrom action inner : Action σ (α × τ)) state cause after ↔
      (∃ last, Halts action inner cause last) ∧ after = state := by
  simp only [Halts, run, runFrom]
  rcases action inner with ⟨result, last, log⟩
  cases result with
  | ok value => simp
  | error other => simp [eq_comm]

end Action

end PhysicalMemory
