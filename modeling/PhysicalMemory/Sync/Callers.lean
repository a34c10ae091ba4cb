import PhysicalMemory.Sync.OnceCell

/-!
# Callers at a cell

Any number of calls are under way at one cell.  Every move begins a call or is one atomic
access of one of them, so between any two accesses of a call the others may make any
number of theirs; a thread that makes one call after another begins each when the one
before is over.  The history of a run is the accesses in the order in which they were
made, each with the place of the call that made it.  What an initializer does to the cell
belongs to the call that runs it.
-/

namespace PhysicalMemory

inductive CellCall (α β : Type) where
  | get
  | set (value : α)
  | getOrInit (init : Initializer α β)

inductive CellAnswer (α β : Type) where
  | seen (value : Option α)
  | handedBack (value : Option α)
  | made (result : Except String α) (told : Option β)

/-- What an access did to a cell or saw there. -/
inductive CellAccess (α : Type) where
  | load (phase : CellPhase)
  | claim (won : Bool)
  | store (value : α)
  | publish
  | read (seen : Option α)
  | await (phase : CellPhase)

variable {α β : Type}

def CellCall.procedure : CellCall α β → CellProcedure α (CellAnswer α β)
  | .get => do return .seen (← CellProcedure.get)
  | .set value => do return .handedBack (← CellProcedure.set value)
  | .getOrInit init => do
      let (result, told) ← CellProcedure.getOrInit init
      return .made result told

def CellAnswer.observed? : CellAnswer α β → Option α
  | .seen value => value
  | .handedBack _ => none
  | .made (.ok value) _ => some value
  | .made (.error _) _ => none

def CellAccess.changes : CellAccess α → Bool
  | .claim won => won
  | .store _ | .publish => true
  | .load _ | .read _ | .await _ => false

def CellProcedure.access? (cell : OnceCell α) : CellProcedure α β → Option (CellAccess α)
  | .done _ => none
  | .load _ => some (.load cell.phase)
  | .claim _ => some (.claim (cell.phase = .empty))
  | .store value _ => some (.store value)
  | .publish _ => some .publish
  | .read _ => some (.read cell.slot)
  | .await _ => some (.await cell.phase)

/-- A cell and the calls begun at it, each with what it still has to do. -/
structure CellCallers (α β : Type) where
  cell : OnceCell α := {}
  calls : List (CellCall α β × CellProcedure α (CellAnswer α β)) := []

/-- A call begins, or the call at a place makes its next access. -/
inductive CellMove (α β : Type) where
  | begin (call : CellCall α β)
  | advance (place : Nat)

namespace CellCallers

def step (callers : CellCallers α β) : CellMove α β → CellCallers α β
  | .begin call => { callers with calls := callers.calls ++ [(call, call.procedure)] }
  | .advance place =>
      match callers.calls[place]? with
      | none => callers
      | some (call, procedure) =>
          let (cell, rest) := procedure.step callers.cell
          ⟨cell, callers.calls.set place (call, rest)⟩

/-- The access that a move makes, with the place of the call that makes it. -/
def access? (callers : CellCallers α β) : CellMove α β → Option (Nat × CellAccess α)
  | .begin _ => none
  | .advance place =>
      match callers.calls[place]? with
      | none => none
      | some (_, procedure) => (procedure.access? callers.cell).map (place, ·)

def run (callers : CellCallers α β) (moves : List (CellMove α β)) : CellCallers α β :=
  moves.foldl step callers

/-- The accesses that moves make, in order. -/
def history (callers : CellCallers α β) : List (CellMove α β) → List (Nat × CellAccess α)
  | [] => []
  | move :: rest => (callers.access? move).toList ++ (callers.step move).history rest

end CellCallers

end PhysicalMemory
