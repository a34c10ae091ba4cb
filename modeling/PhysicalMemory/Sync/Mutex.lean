import PhysicalMemory.Sync.Interrupts
import PhysicalMemory.Sync.TicketLock

/-!
# Mutexes

A mutex keeps a value behind a ticket lock.  Whoever has the lock has a guard;
dropping the guard leaves the lock.  Work under the lock may halt, and the lock
is left all the same, with what the work had written.  A guard may also mask the
interrupt requests of its core, before it takes the lock and until it has left
it, so that a handler never waits for a lock that its own core has.  A session is
one thread that names its guards and asks for what it wants in any order.
-/

namespace PhysicalMemory

structure Mutex (α : Type) where
  lock : TicketLock := {}
  value : α
  deriving DecidableEq

namespace Mutex

variable {α β : Type}

def ofValue (value : α) : Mutex α :=
  { value := value }

def isLocked (mutex : Mutex α) : Bool :=
  mutex.lock.isLocked

def onLock (action : Action TicketLock β) : Action (Mutex α) β :=
  fun ⟨lock, value⟩ =>
    match action lock with
    | ⟨result, lock, log⟩ => ⟨result, ⟨lock, value⟩, log⟩

def acquire : Action (Mutex α) Unit :=
  onLock TicketLock.acquire

def tryAcquire (mutex : Mutex α) : Bool × Mutex α :=
  let (taken, lock) := mutex.lock.tryAcquire
  (taken, { mutex with lock := lock })

def release (mutex : Mutex α) : Mutex α :=
  { mutex with lock := mutex.lock.release }

/-- Act on the value under the lock, which is left even if the action halts. -/
def withLock (action : Action α β) : Action (Mutex α) β := fun mutex =>
  match acquire.run mutex with
  | ⟨.error halt, mutex, log⟩ => ⟨.error halt, mutex, log⟩
  | ⟨.ok (), ⟨lock, value⟩, log⟩ =>
      match action value with
      | ⟨result, value, more⟩ => ⟨result, ⟨lock.release, value⟩, log ++ more⟩

/-- Work under a free lock has its own result and leaves the lock free. -/
theorem run_withLock_of_free {mutex : Mutex α} (h : mutex.isLocked = false)
    (action : Action α β) :
    (withLock action).run mutex =
      ⟨(action.run mutex.value).result,
        ⟨({ mutex.lock with next := mutex.lock.next + 1 } : TicketLock).release,
          (action.run mutex.value).state⟩,
        (action.run mutex.value).log⟩ := by
  have taken : acquire.run mutex =
      ⟨.ok (), ⟨{ mutex.lock with next := mutex.lock.next + 1 }, mutex.value⟩, []⟩ := by
    have onFree := TicketLock.run_acquire_of_free h
    unfold Action.run at onFree
    simp [acquire, onLock, Action.run, onFree]
  simp [withLock, Action.run] at taken ⊢
  simp [taken]

end Mutex

/-- What a thread may ask of a mutex; guards go by numbers. -/
inductive MutexCall (α : Type) where
  | acquire
  | acquireMasked
  | tryAcquire
  | drop (guard : Nat)
  | read (guard : Nat)
  | write (guard : Nat) (value : α)
  | within (work : Action α α)
  | replace (value : α)
  | replaceAndPanic (value : α) (text : String)
  | isLocked
  | exchange (value : α)
  | renew (value : α)

inductive MutexAnswer (α : Type) where
  | acquired
  | flag (value : Bool)
  | value (value : α)
  | noGuard
  | wouldWait
  | guardsHeld
  | halted (cause : Halt)

/-- A guard of a mutex, with the guard of the mask that it has brought along, if any. -/
structure MutexGuard where
  number : Nat
  irq : Option IrqGuard := none
  deriving DecidableEq

/-- A mutex, the guards that one thread has, and the core that it runs on. -/
structure MutexSession (α : Type) where
  mutex : Mutex α
  guards : List MutexGuard := []
  core : Core := .hosted

namespace MutexSession

variable {α : Type}

def start (value : α) (core : Core := .hosted) : MutexSession α :=
  { mutex := .ofValue value, core := core }

def replacing (value : α) (rest : Action α Unit) : Action α α := do
  let previous ← get
  set value
  rest
  return previous

def workWithin (session : MutexSession α) (work : Action α α) :
    MutexAnswer α × MutexSession α :=
  if session.mutex.isLocked then (.wouldWait, session)
  else
    match (Mutex.withLock work).run session.mutex with
    | ⟨.ok told, mutex, _⟩ => (.value told, { session with mutex := mutex })
    | ⟨.error halt, mutex, _⟩ => (.halted halt, { session with mutex := mutex })

def guard? (session : MutexSession α) (number : Nat) : Option MutexGuard :=
  session.guards.find? (·.number == number)

def hasGuard (session : MutexSession α) (number : Nat) : Bool :=
  (session.guard? number).isSome

def mask (session : MutexSession α) : IrqGuard × MutexSession α :=
  let (irq, core) := IrqGuard.new session.core
  (irq, { session with core := core })

def take (session : MutexSession α) (number : Nat) (irq : Option IrqGuard) : MutexSession α :=
  { session with
    mutex := (Mutex.acquire.run session.mutex).state
    guards := ⟨number, irq⟩ :: session.guards }

def leave (session : MutexSession α) (guard : MutexGuard) : MutexSession α :=
  { session with mutex := session.mutex.release, guards := session.guards.erase guard }

def unmask (session : MutexSession α) : Option IrqGuard → MutexSession α
  | none => session
  | some irq => { session with core := irq.drop session.core }

/-- Serve one call; a call that takes a guard gives it the given number. -/
def step (session : MutexSession α) (number : Nat) :
    MutexCall α → MutexAnswer α × MutexSession α
  | .acquire =>
      if session.mutex.isLocked then (.wouldWait, session)
      else (.acquired, session.take number none)
  | .acquireMasked =>
      if session.mutex.isLocked then (.wouldWait, session)
      else
        let (irq, masked) := session.mask
        (.acquired, masked.take number (some irq))
  | .tryAcquire =>
      match session.mutex.tryAcquire with
      | (true, mutex) =>
          (.flag true, { session with mutex := mutex, guards := ⟨number, none⟩ :: session.guards })
      | (false, mutex) => (.flag false, { session with mutex := mutex })
  | .drop named =>
      match session.guard? named with
      | some guard => (.flag true, (session.leave guard).unmask guard.irq)
      | none => (.flag false, session)
  | .read named =>
      if session.hasGuard named then (.value session.mutex.value, session)
      else (.noGuard, session)
  | .write named value =>
      if session.hasGuard named then
        (.value session.mutex.value,
          { session with mutex := { session.mutex with value := value } })
      else (.noGuard, session)
  | .within work => session.workWithin work
  | .replace value => session.workWithin (replacing value (pure ()))
  | .replaceAndPanic value text =>
      session.workWithin (replacing value (Action.halt (.panic text)))
  | .isLocked => (.flag session.mutex.isLocked, session)
  | .exchange value =>
      if session.guards ≠ [] then (.guardsHeld, session)
      else
        (.value session.mutex.value,
          { session with mutex := { session.mutex with value := value } })
  | .renew value =>
      if session.guards ≠ [] then (.guardsHeld, session)
      else (.value session.mutex.value, start value session.core)

/-- The state that a call passes through between what it does to the lock and to the mask. -/
def midway? (session : MutexSession α) : MutexCall α → Option (MutexSession α)
  | .acquireMasked => if session.mutex.isLocked then none else some session.mask.2
  | .drop named => (session.guard? named).map session.leave
  | _ => none

end MutexSession

end PhysicalMemory
