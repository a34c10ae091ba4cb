import PhysicalMemory.Action

/-!
# Cells written once

A cell is empty, being filled, or ready.  Whoever moves it from empty to being
filled is the only one to write its value, and then makes it ready for all.
What a caller does is written as a procedure of atomic accesses to the cell, so
the same procedures run alone or interleaved with those of others.  A cell
whose filler panics is being filled for ever.
-/

namespace PhysicalMemory

inductive CellPhase where
  | empty
  | filling
  | ready
  deriving DecidableEq

structure OnceCell (α : Type) where
  phase : CellPhase := .empty
  slot : Option α := none

/-- Atomic accesses to a cell, each followed by what depends on its result. -/
inductive CellProcedure (α β : Type) where
  | done (answer : β)
  | load (next : CellPhase → CellProcedure α β)
  | claim (next : Bool → CellProcedure α β)
  | store (value : α) (next : CellProcedure α β)
  | publish (next : CellProcedure α β)
  | read (next : α → CellProcedure α β)
  | await (next : CellProcedure α β)

/--
How a value for a cell is made: the maker may look at the cell and try to fill
it, and ends with a value or a panic and with something to tell its caller.
-/
inductive Initializer (α β : Type) where
  | finish (result : Except String α) (told : β)
  | get (next : Option α → Initializer α β)
  | set (value : α) (next : Option α → Initializer α β)

namespace CellProcedure

variable {α β γ : Type}

def andThen : CellProcedure α β → (β → CellProcedure α γ) → CellProcedure α γ
  | .done answer, rest => rest answer
  | .load next, rest => .load fun phase => (next phase).andThen rest
  | .claim next, rest => .claim fun won => (next won).andThen rest
  | .store value next, rest => .store value (next.andThen rest)
  | .publish next, rest => .publish (next.andThen rest)
  | .read next, rest => .read fun value => (next value).andThen rest
  | .await next, rest => .await (next.andThen rest)

instance : Monad (CellProcedure α) where
  pure := .done
  bind := andThen

def get : CellProcedure α (Option α) :=
  .load fun phase =>
    if phase = .ready then .read fun value => .done (some value) else .done none

def set (value : α) : CellProcedure α (Option α) :=
  .claim fun won =>
    if won then .store value (.publish (.done none)) else .done (some value)

def ofInitializer : Initializer α β → CellProcedure α (Except String α × β)
  | .finish result told => .done (result, told)
  | .get next => do ofInitializer (next (← get))
  | .set value next => do ofInitializer (next (← set value))

/--
The value of the cell, which an initializer makes if the cell is empty.  What
the initializer tells comes back only to the caller that ran it, and so does
its panic, which leaves the cell being filled.
-/
def getOrInit (init : Initializer α β) : CellProcedure α (Except String α × Option β) := do
  match ← get with
  | some value => return (.ok value, none)
  | none =>
      .claim fun won =>
        if won then do
          match ← ofInitializer init with
          | (.ok value, told) =>
              .store value (.publish (.read fun value => .done (.ok value, some told)))
          | (.error text, told) => return (.error text, some told)
        else
          .await (.read fun value => .done (.ok value, none))

/--
One atomic step of a procedure.  A procedure that is over, and one that reads a
value nobody stored, stay where they are, and waiting is a step that may change
nothing.
-/
def step (cell : OnceCell α) : CellProcedure α β → OnceCell α × CellProcedure α β
  | .done answer => (cell, .done answer)
  | .load next => (cell, next cell.phase)
  | .claim next =>
      if cell.phase = .empty then ({ cell with phase := .filling }, next true)
      else (cell, next false)
  | .store value next => ({ cell with slot := some value }, next)
  | .publish next => ({ cell with phase := .ready }, next)
  | .read next =>
      match cell.slot with
      | some value => (cell, next value)
      | none => (cell, .read next)
  | .await next => if cell.phase = .ready then (cell, next) else (cell, .await next)

/-- Run a procedure with nobody else at the cell. -/
def runAlone : CellProcedure α β → Action (OnceCell α) β
  | .done answer => pure answer
  | .load next => fun cell => (next cell.phase).runAlone cell
  | .claim next => fun cell =>
      if cell.phase = .empty then (next true).runAlone { cell with phase := .filling }
      else (next false).runAlone cell
  | .store value next => fun cell => next.runAlone { cell with slot := some value }
  | .publish next => fun cell => next.runAlone { cell with phase := .ready }
  | .read next => fun cell =>
      match cell.slot with
      | some value => (next value).runAlone cell
      | none => ⟨.error .endlessWait, cell, []⟩
  | .await next => fun cell =>
      if cell.phase = .ready then next.runAlone cell else ⟨.error .endlessWait, cell, []⟩

end CellProcedure

namespace OnceCell

variable {α : Type}

instance : Inhabited (OnceCell α) :=
  ⟨{}⟩

def get? (cell : OnceCell α) : Option α :=
  if cell.phase = .ready then cell.slot else none

theorem run_get {cell : OnceCell α} (h : cell.phase = .ready → cell.slot.isSome) :
    CellProcedure.get.runAlone.run cell = ⟨.ok cell.get?, cell, []⟩ := by
  by_cases ready : cell.phase = .ready
  · obtain ⟨value, stored⟩ := Option.isSome_iff_exists.1 (h ready)
    simp [CellProcedure.get, CellProcedure.runAlone, Action.run, ready, stored, get?, pure,
      Action.answer]
  · simp [CellProcedure.get, CellProcedure.runAlone, Action.run, ready, get?, pure,
      Action.answer]

end OnceCell

end PhysicalMemory
