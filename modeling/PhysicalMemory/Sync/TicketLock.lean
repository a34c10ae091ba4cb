import PhysicalMemory.Action

/-!
# Ticket locks

Whoever wants the lock draws the next ticket and waits until it is served;
whoever leaves serves the ticket after the one being served.  Both counters are
words of thirty-two bits and wrap.  The lock is free when the next ticket is
the one being served.  An attempt that must not wait claims that ticket only if
it is still the next one.
-/

namespace PhysicalMemory

/-- The next ticket to be drawn and the ticket being served. -/
structure TicketLock where
  next : UInt32 := 0
  serving : UInt32 := 0
  deriving DecidableEq, Inhabited

namespace TicketLock

def draw (lock : TicketLock) : UInt32 × TicketLock :=
  (lock.next, { lock with next := lock.next + 1 })

def admits (lock : TicketLock) (ticket : UInt32) : Bool :=
  lock.serving == ticket

/-- Draw a given ticket if it is the next one, and tell whether it was. -/
def claim (lock : TicketLock) (ticket : UInt32) : Bool × TicketLock :=
  if lock.next = ticket then (true, { lock with next := ticket + 1 }) else (false, lock)

def serveAfter (lock : TicketLock) (ticket : UInt32) : TicketLock :=
  { lock with serving := ticket + 1 }

def isLocked (lock : TicketLock) : Bool :=
  lock.next != lock.serving

/-- Wait for the lock; a lock that is not free is never had by waiting alone. -/
def acquire : Action TicketLock Unit := do
  let ticket ← modifyGet draw
  if !(← get).admits ticket then Action.halt .endlessWait

def tryAcquire (lock : TicketLock) : Bool × TicketLock :=
  lock.claim lock.serving

def release (lock : TicketLock) : TicketLock :=
  lock.serveAfter lock.serving

theorem isLocked_eq_false_iff {lock : TicketLock} :
    lock.isLocked = false ↔ lock.next = lock.serving := by
  simp [isLocked]

theorem tryAcquire_fst (lock : TicketLock) : lock.tryAcquire.1 = !lock.isLocked := by
  by_cases h : lock.next = lock.serving <;> simp [tryAcquire, claim, isLocked, h]

theorem run_acquire_of_free {lock : TicketLock} (h : lock.isLocked = false) :
    acquire.run lock = ⟨.ok (), { lock with next := lock.next + 1 }, []⟩ := by
  have same := isLocked_eq_false_iff.1 h
  simp [acquire, Action.run_bind, draw, admits, same]

theorem isLocked_release_of_free {lock : TicketLock} (h : lock.isLocked = false) :
    ({ lock with next := lock.next + 1 } : TicketLock).release.isLocked = false := by
  have same := isLocked_eq_false_iff.1 h
  simp [release, serveAfter, isLocked, same]

end TicketLock

end PhysicalMemory
