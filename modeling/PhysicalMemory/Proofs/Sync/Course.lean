import PhysicalMemory.Proofs.Sync.Winner

/-!
# The course of a call at a cell

The accesses that a call has made tell what it does next: which access, or with which answer
it is over.  `CellCall.Course` lists this for each kind of call.  A call makes one access
whenever it is its turn, so it is over after a few turns, unless it waits for the winner.
-/

namespace PhysicalMemory

variable {α β : Type}

inductive Getting : List (CellAccess α) → CellProcedure α (CellAnswer α β) → Prop where
  | begun (next : CellPhase → CellProcedure α (CellAnswer α β)) : Getting [] (.load next)
  | unready {phase : CellPhase} (unready : phase ≠ .ready) :
      Getting [.load phase] (.done (.seen none))
  | reading (next : α → CellProcedure α (CellAnswer α β)) : Getting [.load .ready] (.read next)
  | seen (value : α) : Getting [.load .ready, .read (some value)] (.done (.seen (some value)))

inductive Setting (value : α) : List (CellAccess α) → CellProcedure α (CellAnswer α β) → Prop where
  | begun (next : Bool → CellProcedure α (CellAnswer α β)) : Setting value [] (.claim next)
  | late : Setting value [.claim false] (.done (.handedBack (some value)))
  | won (next : CellProcedure α (CellAnswer α β)) : Setting value [.claim true] (.store value next)
  | stored (next : CellProcedure α (CellAnswer α β)) :
      Setting value [.claim true, .store value] (.publish next)
  | published : Setting value [.claim true, .store value, .publish] (.done (.handedBack none))

/--
A call with an initializer first looks whether the cell is ready and then tries to win it.
Only the winner runs its initializer, and stores the value that this came to unless it
panicked; every other call waits until the cell is ready.
-/
inductive Initializing (init : Initializer α β) :
    List (CellAccess α) → CellProcedure α (CellAnswer α β) → Prop where
  | begun (next : CellPhase → CellProcedure α (CellAnswer α β)) : Initializing init [] (.load next)
  | unready {phase : CellPhase} (unready : phase ≠ .ready)
      (next : Bool → CellProcedure α (CellAnswer α β)) :
      Initializing init [.load phase] (.claim next)
  | waiting {phase : CellPhase} {waits : List (CellAccess α)} (unready : phase ≠ .ready)
      (waited : ∀ wait ∈ waits, ∃ phase ≠ .ready, wait = .await phase)
      (next : CellProcedure α (CellAnswer α β)) :
      Initializing init (.load phase :: .claim false :: waits) (.await next)
  | reading {before : List (CellAccess α)} (readied : Readied before)
      (next : α → CellProcedure α (CellAnswer α β)) : Initializing init before (.read next)
  | told {before : List (CellAccess α)} (readied : Readied before) (value : α) :
      Initializing init (before ++ [.read (some value)]) (.done (.made (.ok value) none))
  | making {phase : CellPhase} {own rest : List (CellAccess α)} {access : CellAccess α}
      {procedure : CellProcedure α (CellAnswer α β)} (unready : phase ≠ .ready)
      (left : own ++ access :: rest = init.accesses)
      (next : procedure.access? ⟨.filling, none⟩ = some access) :
      Initializing init (.load phase :: .claim true :: own) procedure
  | panicked {phase : CellPhase} {text : String} {told : β} (unready : phase ≠ .ready)
      (panics : init.outcome = (.error text, told)) :
      Initializing init (.load phase :: .claim true :: init.accesses)
        (.done (.made (.error text) (some told)))
  | won {phase : CellPhase} {value : α} {told : β} (unready : phase ≠ .ready)
      (made : init.outcome = (.ok value, told)) (next : CellProcedure α (CellAnswer α β)) :
      Initializing init (.load phase :: .claim true :: init.accesses) (.store value next)
  | stored {phase : CellPhase} {value : α} {told : β} (unready : phase ≠ .ready)
      (made : init.outcome = (.ok value, told)) (next : CellProcedure α (CellAnswer α β)) :
      Initializing init (.load phase :: .claim true :: (init.accesses ++ [.store value]))
        (.publish next)
  | published {phase : CellPhase} {value : α} {told : β} (unready : phase ≠ .ready)
      (made : init.outcome = (.ok value, told)) (next : α → CellProcedure α (CellAnswer α β)) :
      Initializing init (.load phase :: .claim true :: (init.accesses ++ [.store value, .publish]))
        (.read next)
  | made {phase : CellPhase} {value : α} {told : β} (unready : phase ≠ .ready)
      (made : init.outcome = (.ok value, told)) :
      Initializing init (.load phase :: .claim true ::
        (init.accesses ++ [.store value, .publish, .read (some value)]))
        (.done (.made (.ok value) (some told)))

def CellCall.Course : CellCall α β → List (CellAccess α) → CellProcedure α (CellAnswer α β) → Prop
  | .get => Getting
  | .set value => Setting value
  | .getOrInit init => Initializing init

/-- The accesses of a call that does not wait, at most. -/
def CellCall.mostAccesses : CellCall α β → Nat
  | .get => 2
  | .set _ => 3
  | .getOrInit init => init.accesses.length + 5

variable {cell : OnceCell α} {call : CellCall α β} {made : List (CellAccess α)}
  {procedure : CellProcedure α (CellAnswer α β)}

theorem CellCall.course_begun (call : CellCall α β) : call.Course [] call.procedure := by
  cases call with
  | get =>
      rw [CellProcedure.procedure_get]
      exact .begun _
  | set value =>
      rw [CellProcedure.procedure_set]
      exact .begun _
  | getOrInit init =>
      rw [CellProcedure.procedure_getOrInit]
      exact .begun _

theorem Losing.course (losing : Losing cell call made procedure) : call.Course made procedure := by
  cases losing with
  | begun => exact call.course_begun
  | blind unready => exact .unready unready
  | looking => exact .reading _
  | seen => exact .seen _
  | late => exact .late
  | claiming init unready => exact .unready unready _
  | waiting init unready waited => exact .waiting unready waited _
  | fetching init readied => exact .reading readied _
  | fetched init readied => exact .told readied _

theorem Winning.course (winning : Winning cell call made procedure) :
    call.Course made procedure := by
  cases winning with
  | storing => exact .won _
  | publishing => exact .stored _
  | written => exact .published
  | @making init rest phase own unready same left =>
      rcases CellProcedure.step_making ⟨.filling, none⟩ rfl rest with
        ⟨access, next, accesses, -, -, access_eq, -⟩ | ⟨value, told, accesses, outcome, rest_eq⟩ |
        ⟨text, told, accesses, outcome, rest_eq⟩
      · rw [accesses] at left
        exact .making unready left access_eq
      · rw [accesses, List.append_nil] at left
        rw [left, rest_eq]
        exact .won unready (same.symm.trans outcome) _
      · rw [accesses, List.append_nil] at left
        rw [left, rest_eq]
        exact .panicked unready (same.symm.trans outcome)
  | offering unready made => exact .stored unready made _
  | fetching unready made => exact .published unready made _
  | fetched unready made => exact .made unready made

/-- The call tried to win the cell for its initializer and another had won it. -/
def CellCall.Lost (call : CellCall α β) (made : List (CellAccess α)) : Prop :=
  ∃ init phase, call = .getOrInit init ∧ [.load phase, .claim false] <+: made

theorem CellCall.Course.length_lt (course : call.Course made procedure) :
    (∃ answer, procedure = .done answer) ∨ made.length < call.mostAccesses ∨ call.Lost made := by
  cases call with
  | get =>
      cases course with
      | begun | reading => exact .inr (.inl (by simp [mostAccesses]))
      | unready | seen => exact .inl ⟨_, rfl⟩
  | set value =>
      cases course with
      | begun | won | stored => exact .inr (.inl (by simp [mostAccesses]))
      | late | published => exact .inl ⟨_, rfl⟩
  | getOrInit init =>
      have lost : ∀ (phase : CellPhase) (rest : List (CellAccess α)),
          (CellCall.getOrInit init).Lost (.load phase :: .claim false :: rest) :=
        fun phase rest => ⟨init, phase, rfl, rest, rfl⟩
      cases course with
      | begun | unready => exact .inr (.inl (by simp [mostAccesses]))
      | waiting => exact .inr (.inr (lost _ _))
      | reading readied =>
          cases readied with
          | found => exact .inr (.inl (by simp [mostAccesses]))
          | awaited => exact .inr (.inr (lost _ _))
      | @making phase own rest access procedure unready left next =>
          have few := congrArg List.length left
          simp only [List.length_append, List.length_cons] at few
          refine .inr (.inl ?_)
          simp only [mostAccesses, List.length_cons]
          omega
      | won | stored | published => exact .inr (.inl (by simp [mostAccesses]))
      | told | panicked | made => exact .inl ⟨_, rfl⟩

namespace CellCallers

def advances (place : Nat) : CellMove α β → Bool
  | .begin _ => false
  | .advance mover => mover == place

def accessesOf (place : Nat) (history : List (Nat × CellAccess α)) : List (CellAccess α) :=
  (history.filter (·.1 == place)).map Prod.snd

@[simp] theorem accessesOf_nil (place : Nat) :
    accessesOf place ([] : List (Nat × CellAccess α)) = [] :=
  rfl

@[simp] theorem accessesOf_append (place : Nat) (first second : List (Nat × CellAccess α)) :
    accessesOf place (first ++ second) = accessesOf place first ++ accessesOf place second := by
  simp [accessesOf]

@[simp] theorem accessesOf_self (place : Nat) (access : Option (CellAccess α)) :
    accessesOf place (access.map (place, ·)).toList = access.toList := by
  cases access <;> simp [accessesOf]

theorem accessesOf_of_ne {place other : Nat} (apart : other ≠ place)
    (access : Option (CellAccess α)) :
    accessesOf other (access.map (place, ·)).toList = [] := by
  cases access <;> simp [accessesOf, apart.symm]

variable {callers : CellCallers α β} {place : Nat}

/-- A move leaves the calls as they are, except for the one whose turn it is. -/
theorem step_found (found : callers.calls[place]? = some (call, procedure))
    (move : CellMove α β) :
    (advances place move = false ∧ (callers.step move).calls[place]? = some (call, procedure) ∧
      accessesOf place (callers.access? move).toList = []) ∨
    (advances place move = true ∧
      (callers.step move).calls[place]? = some (call, (procedure.step callers.cell).2) ∧
      accessesOf place (callers.access? move).toList =
        (procedure.access? callers.cell).toList) := by
  have inside := (List.getElem?_eq_some_iff.1 found).1
  cases move with
  | begin call =>
      refine .inl ⟨rfl, ?_, rfl⟩
      rwa [step, List.getElem?_append_left inside]
  | advance mover =>
      by_cases mine : mover = place
      · subst mine
        refine .inr ⟨beq_self_eq_true mover, ?_, ?_⟩
        · simp only [step, found]
          exact List.getElem?_set_self inside
        · simp only [access?, found, accessesOf_self]
      · refine .inl ⟨beq_false_of_ne mine, ?_⟩
        cases moved : callers.calls[mover]? with
        | none => simp [step, access?, moved, found]
        | some entry =>
            simp only [step, access?, moved, List.getElem?_set_ne mine, found, true_and]
            exact accessesOf_of_ne (Ne.symm mine) _

theorem run_done {answer : CellAnswer α β}
    (found : callers.calls[place]? = some (call, .done answer)) (moves : List (CellMove α β)) :
    (callers.run moves).calls[place]? = some (call, .done answer) := by
  induction moves generalizing callers with
  | nil => exact found
  | cons move rest ih =>
      refine ih ?_
      rcases step_found found move with ⟨-, still, -⟩ | ⟨-, stepped, -⟩
      · exact still
      · exact stepped

/-- A call makes one access whenever it is its turn, until it is over. -/
theorem run_found (found : callers.calls[place]? = some (call, procedure))
    (moves : List (CellMove α β)) :
    ∃ rest, (callers.run moves).calls[place]? = some (call, rest) ∧
      ((∃ answer, rest = .done answer) ∨
        (accessesOf place (callers.history moves)).length = moves.countP (advances place)) := by
  induction moves generalizing callers procedure with
  | nil => exact ⟨procedure, found, .inr rfl⟩
  | cons move rest ih =>
      rw [history, accessesOf_append, List.length_append, List.countP_cons]
      rcases step_found found move with ⟨idle, still, none⟩ | ⟨turn, stepped, made⟩
      · rw [idle, none, List.length_nil, Nat.zero_add]
        exact ih still
      · rw [turn, made, if_pos rfl, Nat.add_comm]
        cases accessed : procedure.access? callers.cell with
        | none =>
            obtain ⟨answer, rfl⟩ : ∃ answer, procedure = .done answer := by
              cases procedure <;> first | exact ⟨_, rfl⟩ | cases accessed
            exact ⟨_, run_done stepped rest, .inl ⟨answer, rfl⟩⟩
        | some access =>
            obtain ⟨left, found', done | counted⟩ := ih stepped
            · exact ⟨left, found', .inl done⟩
            · exact ⟨left, found', .inr (by rw [counted]; rfl)⟩

end CellCallers

end PhysicalMemory
