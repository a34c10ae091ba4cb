import PhysicalMemory.Manager.Image
import PhysicalMemory.Sync.Mutex
import PhysicalMemory.Sync.OnceCell

/-!
# The one instance

The system has one manager, in a mutex, in a cell that booting fills once.
Before that every allocation is refused and nothing can be given back; after
it, every call works on that manager under its lock.  Booting that fails leaves
the cell empty for another try.
-/

namespace PhysicalMemory

/-- The cell of the one manager. -/
abbrev Instance : Type :=
  OnceCell (Mutex Manager)

namespace Instance

variable {α : Type}

def unbooted : Instance :=
  {}

def isInitialized (cell : Instance) : Bool :=
  cell.get?.isSome

/-- Boot the manager, unless it has been. -/
def boot (layout : MemoryLayout) (ram : Ram := {}) :
    Action Instance (Except BootFailure Unit) := do
  if (← get).isInitialized then return .error .alreadyInitialized
  let (booted, ()) ← (Manager.boot layout ram).runFrom ()
  match booted with
  | .error failure => return .error failure
  | .ok manager => do
      let rejected ← (CellProcedure.set (Mutex.ofValue manager)).runAlone
      if rejected.isSome then return .error .alreadyInitialized
      return .ok ()

def inMutex (mutex : Mutex Manager) (action : Action (Mutex Manager) α) : Action Instance α :=
  fun cell =>
    match cell with
    | ⟨phase, _⟩ =>
        match action mutex with
        | ⟨result, mutex, log⟩ => ⟨result, ⟨phase, some mutex⟩, log⟩

/-- Act on the manager under its lock. -/
def withManager (action : Action Manager α) : Attempt Instance α :=
  ExceptT.mk fun cell =>
    match cell.get? with
    | none => ⟨.ok (.error .notInitialized), cell, []⟩
    | some mutex =>
        match (inMutex mutex (Mutex.withLock action)).run cell with
        | ⟨.error halt, cell, log⟩ => ⟨.error halt, cell, log⟩
        | ⟨.ok value, cell, log⟩ => ⟨.ok (.ok value), cell, log⟩

def tryManager (attempt : Attempt Manager α) : Attempt Instance α := do
  match ← withManager attempt.outcome with
  | .ok value => return value
  | .error failure => throw failure

def allocatePages (order : Nat) : Attempt Instance Page :=
  tryManager (Manager.allocatePages order)

def allocate (size : Nat) : Attempt Instance Nat :=
  tryManager (Manager.allocate size)

def allocateAligned (size alignment : Nat) : Attempt Instance Nat :=
  tryManager (Manager.allocateAligned size alignment)

def releasePages (page : Page) (order : Nat) : Action Instance Unit := do
  match ← (withManager (Manager.releasePages page order)).outcome with
  | .ok () => return
  | .error _ => Action.report (.pagesLeaked page.start)

def release (address : Nat) : Action Instance Unit := do
  match ← (withManager (Manager.release address)).outcome with
  | .ok () => return
  | .error _ => if address ≠ 0 then Action.report (.pointerLeaked address)

def freeBytes : Attempt Instance Nat :=
  withManager do
    (← get).freeBytes

end Instance

structure Request where
  size : Nat
  alignment : Nat
  deriving DecidableEq

namespace Request

/-- The largest size that may be asked for, rounded up to the alignment. -/
def maxSize : Nat :=
  0x7fffffffffffffff

def isValid (request : Request) : Bool :=
  Word.isPowerOfTwo request.alignment && request.size + (request.alignment - 1) ≤ maxSize

end Request

namespace Instance

def alloc (request : Request) : Action Instance Nat := do
  match ← (allocateAligned request.size request.alignment).outcome with
  | .ok address => return address
  | .error _ => return 0

def dealloc (address : Nat) (_request : Request) : Action Instance Unit :=
  release address

/-- Change what is in memory, as whoever holds some of it may without any lock. -/
def changeRam (change : Manager → Ram) : Action Instance Unit :=
  modify fun cell =>
    { cell with slot := cell.slot.map fun mutex =>
        { mutex with value := mutex.value.setRam (change mutex.value) } }

def allocZeroed (request : Request) : Action Instance Nat := do
  let address ← alloc request
  if address ≠ 0 then changeRam fun manager => manager.ram.clear address request.size
  return address

/--
Move requested bytes, or as many as fit, to a place with another size.  Without
such a place they stay where they are.
-/
def realloc (address : Nat) (request : Request) (size : Nat) : Action Instance Nat := do
  let moved ← alloc { request with size := size }
  if moved ≠ 0 then
    changeRam fun manager =>
      manager.ram.copy (manager.readable address) address moved (min request.size size)
    dealloc address request
  return moved

end Instance

end PhysicalMemory
