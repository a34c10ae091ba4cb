import Mathlib
import PhysicalMemory.Sync.Callers

/-!
# How far a call at a cell is

At most one call ever finds the cell empty.  Only this call, the winner, changes the cell
after that: it stores its value and then publishes it, unless its initializer panics.  All
other calls only tell what was published.  `Losing` and `Winning` list the points at which
a call of either kind can be, each with the accesses that lead there, and one step leads
from one point to the next.
-/

namespace PhysicalMemory

variable {α β γ δ : Type}

/-! An initializer finds no value in the cell that it fills, and gets its own ones back. -/

def Initializer.outcome : Initializer α β → Except String α × β
  | .finish result told => (result, told)
  | .get next => (next none).outcome
  | .set value next => (next (some value)).outcome

def Initializer.accesses : Initializer α β → List (CellAccess α)
  | .finish _ _ => []
  | .get next => .load .filling :: (next none).accesses
  | .set value next => .claim false :: (next (some value)).accesses

inductive Readied : List (CellAccess α) → Prop where
  | found : Readied [.load .ready]
  | awaited {phase : CellPhase} {waits : List (CellAccess α)} (unready : phase ≠ .ready)
      (waited : ∀ wait ∈ waits, ∃ phase ≠ .ready, wait = .await phase) :
      Readied (.load phase :: .claim false :: (waits ++ [.await .ready]))

namespace CellProcedure

theorem andThen_assoc (procedure : CellProcedure α β) (next : β → CellProcedure α γ)
    (last : γ → CellProcedure α δ) :
    (procedure.andThen next).andThen last =
      procedure.andThen fun answer => (next answer).andThen last := by
  induction procedure with
  | done answer => rfl
  | load rest ih => simp only [andThen, ih]
  | claim rest ih => simp only [andThen, ih]
  | store value rest ih => simp only [andThen, ih]
  | publish rest ih => simp only [andThen, ih]
  | read rest ih => simp only [andThen, ih]
  | await rest ih => simp only [andThen, ih]

/-- What is left of a call that won the cell for its initializer, which has still this to do. -/
def making (rest : Initializer α β) : CellProcedure α (CellAnswer α β) := do
  match ← ofInitializer rest with
  | (.ok value, told) =>
      .store value (.publish (.read fun value => .done (.made (.ok value) (some told))))
  | (.error text, told) => return .made (.error text) (some told)

def claiming (init : Initializer α β) : CellProcedure α (CellAnswer α β) :=
  .claim fun won =>
    if won then making init else .await (.read fun value => .done (.made (.ok value) none))

theorem procedure_get : (CellCall.get : CellCall α β).procedure =
    .load fun phase =>
      if phase = .ready then .read fun value => .done (.seen (some value))
      else .done (.seen none) := by
  simp only [CellCall.procedure, get, bind, andThen, pure]
  congr
  funext phase
  split <;> rfl

theorem procedure_set (value : α) : (CellCall.set value : CellCall α β).procedure =
    .claim fun won =>
      if won then .store value (.publish (.done (.handedBack none)))
      else .done (.handedBack (some value)) := by
  simp only [CellCall.procedure, set, bind, andThen, pure]
  congr
  funext won
  split <;> rfl

theorem procedure_getOrInit (init : Initializer α β) : (CellCall.getOrInit init).procedure =
    .load fun phase =>
      if phase = .ready then .read fun value => .done (.made (.ok value) none)
      else claiming init := by
  simp only [CellCall.procedure, getOrInit, get, bind, andThen, pure]
  congr
  funext phase
  split
  · rfl
  · simp only [andThen, claiming]
    congr
    funext won
    split
    · simp only [andThen_assoc, making, bind, pure]
      congr
      funext result
      rcases result with ⟨_ | _, told⟩ <;> rfl
    · rfl

/-- In a cell that is being filled an initializer makes its own accesses, one after the other. -/
theorem step_making (cell : OnceCell α) (filling : cell.phase = .filling)
    (rest : Initializer α β) :
    (∃ access next, rest.accesses = access :: next.accesses ∧ next.outcome = rest.outcome ∧
      (making rest).step cell = (cell, making next) ∧ (making rest).access? cell = some access ∧
      (access = .load .filling ∨ access = .claim false)) ∨
    (∃ value told, rest.accesses = [] ∧ rest.outcome = (.ok value, told) ∧ making rest =
      .store value (.publish (.read fun value => .done (.made (.ok value) (some told))))) ∨
    ∃ text told, rest.accesses = [] ∧ rest.outcome = (.error text, told) ∧
      making rest = .done (.made (.error text) (some told)) := by
  cases rest with
  | finish result told =>
      cases result with
      | ok value => exact .inr (.inl ⟨value, told, rfl, rfl, rfl⟩)
      | error text => exact .inr (.inr ⟨text, told, rfl, rfl, rfl⟩)
  | get next =>
      refine .inl ⟨.load .filling, next none, rfl, rfl, ?_, ?_, .inl rfl⟩
      · simp [making, ofInitializer, get, bind, andThen, step, filling]
      · simp [making, ofInitializer, get, bind, andThen, access?, filling]
  | set value next =>
      refine .inl ⟨.claim false, next (some value), rfl, rfl, ?_, ?_, .inr rfl⟩
      · simp [making, ofInitializer, set, bind, andThen, step, filling]
      · simp [making, ofInitializer, set, bind, andThen, access?, filling]

end CellProcedure

open CellProcedure (making claiming)

/-- How far a call is that did not win the cell, and the accesses it has made. -/
inductive Losing (cell : OnceCell α) :
    CellCall α β → List (CellAccess α) → CellProcedure α (CellAnswer α β) → Prop where
  | begun (call : CellCall α β) : Losing cell call [] call.procedure
  | blind {phase : CellPhase} (unready : phase ≠ .ready) :
      Losing cell .get [.load phase] (.done (.seen none))
  | looking (ready : cell.phase = .ready) :
      Losing cell .get [.load .ready] (.read fun value => .done (.seen (some value)))
  | seen {value : α} (ready : cell = ⟨.ready, some value⟩) :
      Losing cell .get [.load .ready, .read (some value)] (.done (.seen (some value)))
  | late (value : α) (taken : cell.phase ≠ .empty) :
      Losing cell (.set value) [.claim false] (.done (.handedBack (some value)))
  | claiming (init : Initializer α β) {phase : CellPhase} (unready : phase ≠ .ready) :
      Losing cell (.getOrInit init) [.load phase] (claiming init)
  | waiting (init : Initializer α β) {phase : CellPhase} {waits : List (CellAccess α)}
      (unready : phase ≠ .ready) (waited : ∀ wait ∈ waits, ∃ phase ≠ .ready, wait = .await phase) :
      Losing cell (.getOrInit init) (.load phase :: .claim false :: waits)
        (.await (.read fun value => .done (.made (.ok value) none)))
  | fetching (init : Initializer α β) {before : List (CellAccess α)} (readied : Readied before)
      (ready : cell.phase = .ready) :
      Losing cell (.getOrInit init) before (.read fun value => .done (.made (.ok value) none))
  | fetched (init : Initializer α β) {before : List (CellAccess α)} (readied : Readied before)
      {value : α} (ready : cell = ⟨.ready, some value⟩) :
      Losing cell (.getOrInit init) (before ++ [.read (some value)])
        (.done (.made (.ok value) none))

/-- How far the call is that won the cell, and the accesses it has made. -/
inductive Winning :
    OnceCell α → CellCall α β → List (CellAccess α) → CellProcedure α (CellAnswer α β) → Prop where
  | storing (value : α) : Winning ⟨.filling, none⟩ (.set value) [.claim true]
      (.store value (.publish (.done (.handedBack none))))
  | publishing (value : α) : Winning ⟨.filling, some value⟩ (.set value)
      [.claim true, .store value] (.publish (.done (.handedBack none)))
  | written (value : α) : Winning ⟨.ready, some value⟩ (.set value)
      [.claim true, .store value, .publish] (.done (.handedBack none))
  | making {init rest : Initializer α β} {phase : CellPhase} {own : List (CellAccess α)}
      (unready : phase ≠ .ready) (same : rest.outcome = init.outcome)
      (left : own ++ rest.accesses = init.accesses) :
      Winning ⟨.filling, none⟩ (.getOrInit init) (.load phase :: .claim true :: own) (making rest)
  | offering {init : Initializer α β} {value : α} {told : β} {phase : CellPhase}
      (unready : phase ≠ .ready) (made : init.outcome = (.ok value, told)) :
      Winning ⟨.filling, some value⟩ (.getOrInit init)
        (.load phase :: .claim true :: (init.accesses ++ [.store value]))
        (.publish (.read fun value => .done (.made (.ok value) (some told))))
  | fetching {init : Initializer α β} {value : α} {told : β} {phase : CellPhase}
      (unready : phase ≠ .ready) (made : init.outcome = (.ok value, told)) :
      Winning ⟨.ready, some value⟩ (.getOrInit init)
        (.load phase :: .claim true :: (init.accesses ++ [.store value, .publish]))
        (.read fun value => .done (.made (.ok value) (some told)))
  | fetched {init : Initializer α β} {value : α} {told : β} {phase : CellPhase}
      (unready : phase ≠ .ready) (made : init.outcome = (.ok value, told)) :
      Winning ⟨.ready, some value⟩ (.getOrInit init)
        (.load phase :: .claim true ::
          (init.accesses ++ [.store value, .publish, .read (some value)]))
        (.done (.made (.ok value) (some told)))

/-- The accesses that changed a cell if it is as it is now. -/
def OnceCell.changes (cell : OnceCell α) : List (CellAccess α) :=
  match cell.phase with
  | .empty => []
  | .filling => .claim true :: cell.slot.toList.map .store
  | .ready => .claim true :: cell.slot.toList.map .store ++ [.publish]

def OnceCell.Sound (cell : OnceCell α) : Prop :=
  cell = {} ∨ (∃ slot, cell = ⟨.filling, slot⟩) ∨ ∃ value, cell = ⟨.ready, some value⟩

/-- What is ready in a cell stays there, and a cell that was taken is never empty again. -/
structure OnceCell.Keeps (cell next : OnceCell α) : Prop where
  ready : cell.phase = .ready → next = cell
  taken : cell.phase ≠ .empty → next.phase ≠ .empty

def CellAccess.Looks (cell : OnceCell α) (access : CellAccess α) : Prop :=
  access.changes = false ∧ ∀ seen, access = .read seen → ∃ value,
    seen = some value ∧ cell = ⟨.ready, some value⟩

namespace CellAccess

variable {cell : OnceCell α}

@[simp] theorem looks_load (phase : CellPhase) : (load phase).Looks cell :=
  ⟨rfl, by rintro seen ⟨⟩⟩

@[simp] theorem looks_await (phase : CellPhase) : (await phase).Looks cell :=
  ⟨rfl, by rintro seen ⟨⟩⟩

@[simp] theorem looks_claim_false : (claim false).Looks cell :=
  ⟨rfl, by rintro seen ⟨⟩⟩

@[simp] theorem looks_read (value : α) :
    (read (some value)).Looks ⟨.ready, some value⟩ :=
  ⟨rfl, by rintro seen ⟨⟩; exact ⟨value, rfl, rfl⟩⟩

end CellAccess

variable {cell cell' : OnceCell α} {call : CellCall α β} {made : List (CellAccess α)}
  {procedure : CellProcedure α (CellAnswer α β)}

theorem Losing.mono (losing : Losing cell call made procedure) (keeps : cell.Keeps cell') :
    Losing cell' call made procedure := by
  cases losing with
  | begun => exact .begun call
  | blind unready => exact .blind unready
  | looking ready => exact .looking (by rw [keeps.ready ready, ready])
  | seen ready => exact .seen (by rw [keeps.ready (by rw [ready]), ready])
  | late value taken => exact .late value (keeps.taken taken)
  | claiming init unready => exact .claiming init unready
  | waiting init unready waited => exact .waiting init unready waited
  | fetching init readied ready =>
      exact .fetching init readied (by rw [keeps.ready ready, ready])
  | fetched init readied ready =>
      exact .fetched init readied (by rw [keeps.ready (by rw [ready]), ready])

def Losing.Looks (cell : OnceCell α) (call : CellCall α β) (made : List (CellAccess α))
    (procedure : CellProcedure α (CellAnswer α β)) : Prop :=
  (procedure.step cell).1 = cell ∧
    Losing cell call (made ++ (procedure.access? cell).toList) (procedure.step cell).2 ∧
    ∀ access ∈ procedure.access? cell, access.Looks cell

def Losing.Wins (cell : OnceCell α) (call : CellCall α β) (made : List (CellAccess α))
    (procedure : CellProcedure α (CellAnswer α β)) : Prop :=
  cell = {} ∧ (procedure.step cell).1 = ⟨.filling, none⟩ ∧
    Winning ⟨.filling, none⟩ call (made ++ [.claim true]) (procedure.step cell).2 ∧
    procedure.access? cell = some (.claim true)

theorem Losing.step_begun (call : CellCall α β) (sound : cell.Sound) :
    Looks cell call [] call.procedure ∨ Wins cell call [] call.procedure := by
  cases call with
  | get =>
      rw [CellProcedure.procedure_get]
      rcases sound with rfl | ⟨slot, rfl⟩ | ⟨value, rfl⟩
      · exact .inl ⟨rfl, .blind (by nofun), by simp [CellProcedure.access?]⟩
      · exact .inl ⟨rfl, .blind (by nofun), by simp [CellProcedure.access?]⟩
      · exact .inl ⟨rfl, .looking rfl, by simp [CellProcedure.access?]⟩
  | set value =>
      rw [CellProcedure.procedure_set]
      rcases sound with rfl | ⟨slot, rfl⟩ | ⟨stored, rfl⟩
      · exact .inr ⟨rfl, rfl, .storing value, rfl⟩
      · exact .inl ⟨rfl, .late value (by nofun), by simp [CellProcedure.access?]⟩
      · exact .inl ⟨rfl, .late value (by nofun), by simp [CellProcedure.access?]⟩
  | getOrInit init =>
      rw [CellProcedure.procedure_getOrInit]
      rcases sound with rfl | ⟨slot, rfl⟩ | ⟨value, rfl⟩
      · exact .inl ⟨rfl, .claiming init (by nofun), by simp [CellProcedure.access?]⟩
      · exact .inl ⟨rfl, .claiming init (by nofun), by simp [CellProcedure.access?]⟩
      · exact .inl ⟨rfl, .fetching init .found rfl, by simp [CellProcedure.access?]⟩

/-- A call that did not win only looks, or wins the empty cell. -/
theorem Losing.step (losing : Losing cell call made procedure) (sound : cell.Sound) :
    Looks cell call made procedure ∨ Wins cell call made procedure := by
  cases losing with
  | begun => exact step_begun call sound
  | blind unready => exact .inl ⟨rfl, .blind unready, by simp [CellProcedure.access?]⟩
  | looking ready =>
      rcases sound with rfl | ⟨slot, rfl⟩ | ⟨value, rfl⟩
      · cases ready
      · cases ready
      · exact .inl ⟨rfl, .seen rfl, by simp [CellProcedure.access?]⟩
  | seen ready => exact .inl ⟨rfl, .seen ready, by simp [CellProcedure.access?]⟩
  | late value taken => exact .inl ⟨rfl, .late value taken, by simp [CellProcedure.access?]⟩
  | claiming init unready =>
      rcases sound with rfl | ⟨slot, rfl⟩ | ⟨value, rfl⟩
      · exact .inr ⟨rfl, rfl, .making unready rfl rfl, rfl⟩
      · exact .inl ⟨rfl, .waiting init unready (by nofun),
          by simp [CellProcedure.claiming, CellProcedure.access?]⟩
      · exact .inl ⟨rfl, .waiting init unready (by nofun),
          by simp [CellProcedure.claiming, CellProcedure.access?]⟩
  | @waiting init phase waits unready waited =>
      have goesOn : ∀ {now : CellPhase}, now ≠ .ready →
          ∀ wait ∈ waits ++ [.await now], ∃ phase ≠ .ready, wait = .await phase := by
        intro now waits wait mem
        rcases List.mem_append.1 mem with before | last
        · exact waited wait before
        · exact ⟨now, waits, List.mem_singleton.1 last⟩
      rcases sound with rfl | ⟨slot, rfl⟩ | ⟨value, rfl⟩
      · exact .inl ⟨rfl, .waiting init unready (goesOn (by nofun)), by simp [CellProcedure.access?]⟩
      · exact .inl ⟨rfl, .waiting init unready (goesOn (by nofun)), by simp [CellProcedure.access?]⟩
      · exact .inl ⟨rfl, .fetching init (.awaited unready waited) rfl,
          by simp [CellProcedure.access?]⟩
  | fetching init readied ready =>
      rcases sound with rfl | ⟨slot, rfl⟩ | ⟨value, rfl⟩
      · cases ready
      · cases ready
      · exact .inl ⟨rfl, .fetched init readied rfl, by simp [CellProcedure.access?]⟩
  | fetched init readied ready =>
      refine .inl ⟨rfl, ?_, by simp [CellProcedure.access?]⟩
      simpa [CellProcedure.access?, CellProcedure.step] using Losing.fetched init readied ready

/-- A call that has not won answers without a value, or with the one that was written. -/
theorem Losing.done {answer : CellAnswer α β} (losing : Losing cell call made (.done answer)) :
    (call = .get ∧ answer = .seen none) ∨
    (∃ value, call = .set value ∧ cell.phase ≠ .empty ∧ answer = .handedBack (some value)) ∨
    ∃ value, cell = ⟨.ready, some value⟩ ∧ ((call = .get ∧ answer = .seen (some value)) ∨
      ∃ init, call = .getOrInit init ∧ answer = .made (.ok value) none) := by
  generalize same : CellProcedure.done answer = procedure at losing
  cases losing with
  | begun =>
      cases call with
      | get => rw [CellProcedure.procedure_get] at same; cases same
      | set value => rw [CellProcedure.procedure_set] at same; cases same
      | getOrInit init => rw [CellProcedure.procedure_getOrInit] at same; cases same
  | blind => cases same; exact .inl ⟨rfl, rfl⟩
  | seen ready => cases same; exact .inr (.inr ⟨_, ready, .inl ⟨rfl, rfl⟩⟩)
  | late value taken => cases same; exact .inr (.inl ⟨value, rfl, taken, rfl⟩)
  | fetched init readied ready => cases same; exact .inr (.inr ⟨_, ready, .inr ⟨init, rfl, rfl⟩⟩)
  | looking | claiming | waiting | fetching => cases same

theorem Losing.step_get (losing : Losing cell .get made procedure) (ready : cell.phase = .ready)
    (unseen : procedure ≠ .done (.seen none)) :
    (procedure.step cell).2 ≠ .done (.seen none) := by
  cases losing with
  | begun =>
      rw [CellProcedure.procedure_get]
      simp [CellProcedure.step, ready]
  | blind => exact absurd rfl unseen
  | looking =>
      rw [CellProcedure.step]
      split <;> simp
  | seen => simp [CellProcedure.step]

theorem Winning.call_ne (winning : Winning cell call made procedure) : call ≠ .get := by
  cases winning <;> rintro ⟨⟩

/-- The changes of a cell that was won are the first few of the winner's three. -/
theorem Winning.changes_eq (winning : Winning cell call made procedure) :
    cell.changes = [.claim true] ∨ ∃ value, cell.changes = [.claim true, .store value] ∨
      cell.changes = [.claim true, .store value, .publish] := by
  cases winning with
  | storing | making => exact .inl rfl
  | publishing value | @offering _ value => exact .inr ⟨value, .inl rfl⟩
  | written value | @fetching _ value | @fetched _ value => exact .inr ⟨value, .inr rfl⟩

theorem Winning.sound (winning : Winning cell call made procedure) : cell.Sound := by
  cases winning with
  | storing | publishing | making | offering => exact .inr (.inl ⟨_, rfl⟩)
  | written | fetching | fetched => exact .inr (.inr ⟨_, rfl⟩)

/-- The winner makes the next change of the cell, or only looks. -/
theorem Winning.step (winning : Winning cell call made procedure) :
    Winning (procedure.step cell).1 call (made ++ (procedure.access? cell).toList)
      (procedure.step cell).2 ∧
    ((∃ access, procedure.access? cell = some access ∧ access.changes = true ∧
        cell.phase = .filling ∧ (procedure.step cell).1.changes = cell.changes ++ [access]) ∨
      ((procedure.step cell).1 = cell ∧ ∀ access ∈ procedure.access? cell, access.Looks cell)) := by
  cases winning with
  | storing value => exact ⟨.publishing value, .inl ⟨_, rfl, rfl, rfl, rfl⟩⟩
  | publishing value => exact ⟨.written value, .inl ⟨_, rfl, rfl, rfl, rfl⟩⟩
  | written value => exact ⟨.written value, .inr ⟨rfl, by simp [CellProcedure.access?]⟩⟩
  | @making init rest phase own unready same left =>
      rcases CellProcedure.step_making ⟨.filling, none⟩ rfl rest with
        ⟨access, next, accesses, outcome, step, access_eq, looks⟩ |
        ⟨value, told, accesses, outcome, rest_eq⟩ | ⟨text, told, -, outcome, rest_eq⟩
      · rw [step, access_eq]
        refine ⟨.making unready (outcome.trans same) ?_, .inr ⟨rfl, ?_⟩⟩
        · rw [← left, accesses]
          exact List.append_assoc own [access] next.accesses
        · rcases looks with rfl | rfl <;> simp
      · rw [accesses, List.append_nil] at left
        rw [rest_eq, left]
        exact ⟨.offering unready (same.symm.trans outcome), .inl ⟨_, rfl, rfl, rfl, rfl⟩⟩
      · have stays := Winning.making unready same left
        rw [rest_eq] at stays ⊢
        refine ⟨?_, .inr ⟨rfl, by simp [CellProcedure.access?]⟩⟩
        simpa [CellProcedure.access?, CellProcedure.step] using stays
  | offering unready made =>
      refine ⟨?_, .inl ⟨_, rfl, rfl, rfl, rfl⟩⟩
      simpa [CellProcedure.access?, CellProcedure.step] using Winning.fetching unready made
  | fetching unready made =>
      refine ⟨?_, .inr ⟨rfl, by simp [CellProcedure.access?]⟩⟩
      simpa [CellProcedure.access?, CellProcedure.step] using Winning.fetched unready made
  | fetched unready made =>
      refine ⟨?_, .inr ⟨rfl, by simp [CellProcedure.access?]⟩⟩
      simpa [CellProcedure.access?, CellProcedure.step] using Winning.fetched unready made

/-- The winner answers when it has written its value, or when its initializer panicked. -/
theorem Winning.done {answer : CellAnswer α β} (winning : Winning cell call made (.done answer)) :
    (∃ value, call = .set value ∧ cell = ⟨.ready, some value⟩ ∧ answer = .handedBack none) ∨
    ∃ init told, call = .getOrInit init ∧
      ((∃ value, init.outcome = (.ok value, told) ∧ cell = ⟨.ready, some value⟩ ∧
          answer = .made (.ok value) (some told)) ∨
        ∃ text, init.outcome = (.error text, told) ∧ cell = ⟨.filling, none⟩ ∧
          answer = .made (.error text) (some told)) := by
  generalize same : CellProcedure.done answer = procedure at winning
  cases winning with
  | written value => cases same; exact .inl ⟨value, rfl, rfl, rfl⟩
  | @making init rest _ _ _ outcome =>
      rcases CellProcedure.step_making ⟨.filling, none⟩ rfl rest with
        ⟨access, next, -, -, -, access_eq, -⟩ | ⟨value, told, -, -, left⟩ |
        ⟨text, told, -, panics, left⟩
      · rw [← same] at access_eq
        cases access_eq
      · rw [left] at same
        cases same
      · rw [left] at same
        cases same
        exact .inr ⟨init, told, rfl, .inr ⟨text, outcome.symm.trans panics, rfl, rfl⟩⟩
  | fetched unready made => cases same; exact .inr ⟨_, _, rfl, .inl ⟨_, made, rfl, rfl⟩⟩
  | storing | publishing | offering | fetching => cases same

/-- The winner's initializer makes the value, so one that panics leaves none. -/
theorem Winning.of_panic {init : Initializer α β} {text : String} {told : β}
    (winning : Winning cell (.getOrInit init) made procedure)
    (panics : init.outcome = (.error text, told)) : cell = ⟨.filling, none⟩ := by
  cases winning with
  | making => rfl
  | offering unready made | fetching unready made | fetched unready made =>
      rw [panics] at made
      cases made

end PhysicalMemory
