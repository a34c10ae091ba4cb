import Mathlib
import PhysicalMemory.Sync.Mutex

/-!
# One thread at a mutex

A thread takes guards and drops them, works under the lock and takes the value out, in any
order and any number of times.  A session in which this is all that happens is in one of
two states: no guard is alive and all tickets are served, or one guard is alive and only
its ticket is not.  Every call leads from such a state to such a state, however often the
counters have wrapped, and the value is what the calls that were served have written.
Interrupt requests are masked while a guard is alive that masks them, and no longer.
-/

namespace PhysicalMemory

variable {α β : Type}

def MutexCall.leaves (found : α) : MutexCall α → α
  | .write _ value | .replace value | .replaceAndPanic value _ | .exchange value
  | .renew value => value
  | .within work => (work.run found).state
  | .acquire | .acquireMasked | .tryAcquire | .drop _ | .read _ | .isLocked => found

def MutexCall.guardsAfter (guards : List MutexGuard) (enabled : Bool) (number : Nat) :
    MutexCall α → List MutexGuard
  | .acquire | .tryAcquire => if guards.isEmpty then [⟨number, none⟩] else guards
  | .acquireMasked => if guards.isEmpty then [⟨number, some ⟨enabled⟩⟩] else guards
  | .drop named => guards.eraseP (·.number == named)
  | .read _ | .write _ _ | .within _ | .replace _ | .replaceAndPanic _ _ | .isLocked
  | .exchange _ | .renew _ => guards

def MutexAnswer.refuses : MutexAnswer α → Bool
  | .noGuard | .wouldWait | .guardsHeld => true
  | .acquired | .flag _ | .value _ | .halted _ => false

def MutexAnswer.ofResult : Checked α → MutexAnswer α
  | .ok told => .value told
  | .error halt => .halted halt

/-- What a call is told, by the guards that are alive and the value that was written last. -/
def MutexCall.answer (guards : List MutexGuard) (written : α) : MutexCall α → MutexAnswer α
  | .acquire | .acquireMasked => if guards.isEmpty then .acquired else .wouldWait
  | .tryAcquire => .flag guards.isEmpty
  | .isLocked => .flag !guards.isEmpty
  | .drop named => .flag (guards.any (·.number == named))
  | .read named | .write named _ =>
      if guards.any (·.number == named) then .value written else .noGuard
  | .within work =>
      if guards.isEmpty then .ofResult (work.run written).result else .wouldWait
  | .replace _ => if guards.isEmpty then .value written else .wouldWait
  | .replaceAndPanic _ text => if guards.isEmpty then .halted (.panic text) else .wouldWait
  | .exchange _ | .renew _ => if guards.isEmpty then .value written else .guardsHeld

def writtenAfter (written : α) (entry : MutexCall α × MutexAnswer α) : α :=
  if entry.2.refuses then written else entry.1.leaves written

def lastWritten (initial : α) (log : List (MutexCall α × MutexAnswer α)) : α :=
  log.foldl writtenAfter initial

namespace MutexSession

def run (session : MutexSession α) (number : Nat) : List (MutexCall α) → MutexSession α
  | [] => session
  | call :: rest => (session.step number call).2.run (number + 1) rest

def log (session : MutexSession α) (number : Nat) :
    List (MutexCall α) → List (MutexCall α × MutexAnswer α)
  | [] => []
  | call :: rest =>
      let (answer, next) := session.step number call
      (call, answer) :: next.log (number + 1) rest

def free (ticket : UInt32) (value : α) (core : Core) : MutexSession α :=
  ⟨⟨⟨ticket, ticket⟩, value⟩, [], core⟩

def held (ticket : UInt32) (guard : MutexGuard) (value : α) (core : Core) : MutexSession α :=
  ⟨⟨⟨ticket + 1, ticket⟩, value⟩, [guard], core⟩

section

variable (ticket : UInt32) (guard : MutexGuard) (value : α) (core : Core) (number : Nat)

@[simp] theorem isLocked_free : (free ticket value core).mutex.isLocked = false := by
  simp [free, Mutex.isLocked, TicketLock.isLocked]

@[simp] theorem isLocked_held : (held ticket guard value core).mutex.isLocked = true := by
  simp [held, Mutex.isLocked, TicketLock.isLocked]

@[simp] theorem hasGuard_held : (held ticket guard value core).hasGuard number =
    (guard.number == number) := by
  cases same : guard.number == number <;> simp [held, hasGuard, guard?, same]

theorem tryAcquire_free : (free ticket value core).mutex.tryAcquire =
    (true, (held ticket guard value core).mutex) := by
  simp [free, held, Mutex.tryAcquire, TicketLock.tryAcquire, TicketLock.claim]

theorem tryAcquire_held : (held ticket guard value core).mutex.tryAcquire =
    (false, (held ticket guard value core).mutex) := by
  simp [held, Mutex.tryAcquire, TicketLock.tryAcquire, TicketLock.claim]

theorem run_acquire_free : Mutex.acquire.run (free ticket value core).mutex =
    ⟨.ok (), (held ticket guard value core).mutex, []⟩ := by
  have onFree := TicketLock.run_acquire_of_free (isLocked_free ticket value core)
  unfold Action.run at onFree
  simp only [free] at onFree
  simp [free, held, Mutex.acquire, Mutex.onLock, Action.run, onFree]

theorem take_free (irq : Option IrqGuard) : (free ticket value core).take number irq =
    held ticket ⟨number, irq⟩ value core := by
  rw [take, run_acquire_free ticket ⟨number, irq⟩]
  rfl

theorem leave_held : (held ticket guard value core).leave guard =
    free (ticket + 1) value core := by
  simp [held, free, leave, Mutex.release, TicketLock.release, TicketLock.serveAfter]

theorem mask_free : (free ticket value core).mask =
    ((IrqGuard.new core).1, free ticket value (IrqGuard.new core).2) :=
  rfl

end

/-- What is left of the mask when a guard is dropped. -/
def unmasked (irq : Option IrqGuard) (core : Core) : Core :=
  match irq with
  | none => core
  | some irq => irq.drop core

theorem unmask_free (ticket : UInt32) (value : α) (core : Core) (irq : Option IrqGuard) :
    (free ticket value core).unmask irq = free ticket value (unmasked irq core) := by
  cases irq <;> rfl

/-- Work under a lock that is free serves its own ticket, also when it halts. -/
theorem run_withLock_free (ticket : UInt32) (value : α) (core : Core) (work : Action α β) :
    (Mutex.withLock work).run (free ticket value core).mutex =
      ⟨(work.run value).result, (free (ticket + 1) (work.run value).state core).mutex,
        (work.run value).log⟩ :=
  Mutex.run_withLock_of_free (isLocked_free ticket value core) work

theorem workWithin_free (ticket : UInt32) (value : α) (core : Core) (work : Action α α) :
    (free ticket value core).workWithin work =
      (.ofResult (work.run value).result, free (ticket + 1) (work.run value).state core) := by
  rw [workWithin, if_neg (by rw [isLocked_free]; decide), run_withLock_free]
  cases (work.run value).result <;> rfl

theorem workWithin_held (ticket : UInt32) (guard : MutexGuard) (value : α) (core : Core)
    (work : Action α α) :
    (held ticket guard value core).workWithin work = (.wouldWait, held ticket guard value core) :=
  if_pos (isLocked_held ticket guard value core)

theorem run_replacing (found value : α) (rest : Action α Unit) :
    (replacing value rest).run found =
      ⟨(rest.run value).result.map fun _ => found, (rest.run value).state,
        (rest.run value).log⟩ := by
  rcases same : rest.run value with ⟨_ | _, _, _⟩ <;>
    simp [replacing, Action.run_bind, same, Except.map]

/-- What a call comes to when no guard is alive. -/
def onFree (ticket : UInt32) (value : α) (core : Core) (number : Nat) :
    MutexCall α → MutexAnswer α × MutexSession α
  | .acquire => (.acquired, held ticket ⟨number, none⟩ value core)
  | .acquireMasked =>
      (.acquired, held ticket ⟨number, some (IrqGuard.new core).1⟩ value (IrqGuard.new core).2)
  | .tryAcquire => (.flag true, held ticket ⟨number, none⟩ value core)
  | .drop _ | .isLocked => (.flag false, free ticket value core)
  | .read _ | .write _ _ => (.noGuard, free ticket value core)
  | .within work =>
      (.ofResult (work.run value).result, free (ticket + 1) (work.run value).state core)
  | .replace next => (.value value, free (ticket + 1) next core)
  | .replaceAndPanic next text => (.halted (.panic text), free (ticket + 1) next core)
  | .exchange next => (.value value, free ticket next core)
  | .renew next => (.value value, free 0 next core)

/-- What a call comes to when one guard is alive. -/
def onHeld (ticket : UInt32) (guard : MutexGuard) (value : α) (core : Core) :
    MutexCall α → MutexAnswer α × MutexSession α
  | .acquire | .acquireMasked | .within _ | .replace _ | .replaceAndPanic _ _ =>
      (.wouldWait, held ticket guard value core)
  | .tryAcquire => (.flag false, held ticket guard value core)
  | .drop named =>
      if guard.number == named then (.flag true, free (ticket + 1) value (unmasked guard.irq core))
      else (.flag false, held ticket guard value core)
  | .read named =>
      (if guard.number == named then .value value else .noGuard, held ticket guard value core)
  | .write named next =>
      if guard.number == named then (.value value, held ticket guard next core)
      else (.noGuard, held ticket guard value core)
  | .isLocked => (.flag true, held ticket guard value core)
  | .exchange _ | .renew _ => (.guardsHeld, held ticket guard value core)

theorem step_free (ticket : UInt32) (value : α) (core : Core) (number : Nat)
    (call : MutexCall α) :
    (free ticket value core).step number call = onFree ticket value core number call := by
  cases call with
  | acquire =>
      rw [step, if_neg (by rw [isLocked_free]; decide), take_free]
      rfl
  | acquireMasked =>
      simp only [step, isLocked_free, mask_free, take_free]
      rfl
  | tryAcquire =>
      rw [step, tryAcquire_free ticket ⟨number, none⟩]
      rfl
  | within work => exact workWithin_free ticket value core work
  | replace next =>
      rw [step, workWithin_free, run_replacing]
      rfl
  | replaceAndPanic next text =>
      rw [step, workWithin_free, run_replacing]
      rfl
  | isLocked =>
      rw [step, isLocked_free]
      rfl
  | drop | read | write | exchange | renew => rfl

theorem step_held (ticket : UInt32) (guard : MutexGuard) (value : α) (core : Core) (number : Nat)
    (call : MutexCall α) :
    (held ticket guard value core).step number call = onHeld ticket guard value core call := by
  cases call with
  | acquire | acquireMasked => exact if_pos (isLocked_held ticket guard value core)
  | tryAcquire =>
      rw [step, tryAcquire_held]
      rfl
  | drop named =>
      cases same : guard.number == named with
      | true =>
          have found : (held ticket guard value core).guard? named = some guard := by
            simp [held, guard?, same]
          simp only [step, found, leave_held, unmask_free, onHeld, same, if_true]
      | false =>
          have missing : (held ticket guard value core).guard? named = none := by
            simp [held, guard?, same]
          simp [step, missing, onHeld, same]
  | read named =>
      simp only [step, onHeld, hasGuard_held]
      split <;> rfl
  | write named next =>
      simp only [step, onHeld, hasGuard_held]
      split <;> rfl
  | within | replace | replaceAndPanic => exact workWithin_held ticket guard value core _
  | isLocked =>
      rw [step, isLocked_held]
      rfl
  | exchange | renew => rfl

/--
All tickets are served, or all but that of the one guard.  Only a guard that masks interrupt
requests has changed the mask, and it can undo this.
-/
inductive FreeOrHeld (home : Core) : MutexSession α → α → Prop where
  | free (ticket : UInt32) (value : α) : FreeOrHeld home (free ticket value home) value
  | held (ticket : UInt32) (number : Nat) (value : α) :
      FreeOrHeld home (held ticket ⟨number, none⟩ value home) value
  | masked (ticket : UInt32) (number : Nat) (value : α) : FreeOrHeld home
      (held ticket ⟨number, some (IrqGuard.new home).1⟩ value (IrqGuard.new home).2) value

variable {session : MutexSession α} {written : α} {home : Core}

/-- A call to a mutex that has a guard frees it, or leaves the guard alive. -/
theorem step_held_cases {holds : MutexSession α → α → Prop} {ticket : UInt32}
    {guard : MutexGuard} {core : Core}
    (freed : holds (free (ticket + 1) written (unmasked guard.irq core)) written)
    (kept : ∀ value, holds (held ticket guard value core) value) (number : Nat)
    (call : MutexCall α) :
    holds ((held ticket guard written core).step number call).2
      (writtenAfter written (call, ((held ticket guard written core).step number call).1)) := by
  rw [step_held]
  cases call with
  | drop named =>
      rw [onHeld]
      split
      · exact freed
      · exact kept written
  | read named =>
      rw [onHeld]
      split <;> exact kept written
  | write named next =>
      rw [onHeld]
      split <;> exact kept _
  | acquire | acquireMasked | tryAcquire | within | replace | replaceAndPanic | isLocked
  | exchange | renew => exact kept written

/-- Every call keeps the tickets and the guards together, and writes what it is said to. -/
theorem FreeOrHeld.step (balanced : FreeOrHeld home session written) (number : Nat)
    (call : MutexCall α) :
    FreeOrHeld home (session.step number call).2
      (writtenAfter written (call, (session.step number call).1)) := by
  cases balanced with
  | free ticket =>
      rw [step_free]
      cases call with
      | acquire | tryAcquire => exact .held ticket number written
      | acquireMasked => exact .masked ticket number written
      | drop | read | write | isLocked | exchange | renew => exact .free _ _
      | within work =>
          cases told : (work.run written).result <;>
            simpa [onFree, writtenAfter, told, MutexAnswer.ofResult, MutexAnswer.refuses,
              MutexCall.leaves] using .free _ _
      | replace | replaceAndPanic => exact .free _ _
  | held ticket named => exact step_held_cases (.free _ _) (.held ticket named) number call
  | masked ticket named =>
      refine step_held_cases ?_ (.masked ticket named) number call
      simp only [unmasked, IrqGuard.drop_new]
      exact .free _ _

theorem FreeOrHeld.run (balanced : FreeOrHeld home session written) (number : Nat)
    (calls : List (MutexCall α)) :
    FreeOrHeld home (session.run number calls)
      ((session.log number calls).foldl writtenAfter written) := by
  induction calls generalizing session written number with
  | nil => exact balanced
  | cons call rest ih => exact ih (balanced.step number call) (number + 1)

theorem guards_step_held (ticket : UInt32) (guard : MutexGuard) (value : α) (core : Core)
    (number : Nat) (call : MutexCall α) :
    ((held ticket guard value core).step number call).2.guards =
      call.guardsAfter [guard] core.irqsEnabled number := by
  rw [step_held]
  cases call with
  | drop named =>
      rw [onHeld]
      cases same : guard.number == named <;> simp [same, MutexCall.guardsAfter, free, held]
  | write named next =>
      rw [onHeld]
      split <;> rfl
  | acquire | acquireMasked | tryAcquire | read | within | replace | replaceAndPanic | isLocked
  | exchange | renew => rfl

/-- Guards come only from taking the lock and go only by being dropped. -/
theorem FreeOrHeld.guards_step (balanced : FreeOrHeld home session written) (number : Nat)
    (call : MutexCall α) :
    (session.step number call).2.guards =
      call.guardsAfter session.guards session.core.irqsEnabled number := by
  cases balanced with
  | free ticket =>
      rw [step_free]
      cases call <;> rfl
  | held ticket named => exact guards_step_held ..
  | masked ticket named => exact guards_step_held ..

theorem answer_step_held (ticket : UInt32) (guard : MutexGuard) (value : α) (core : Core)
    (number : Nat) (call : MutexCall α) :
    ((held ticket guard value core).step number call).1 = call.answer [guard] value := by
  rw [step_held]
  cases call with
  | drop named | read named | write named _ =>
      rw [onHeld, MutexCall.answer]
      cases same : guard.number == named <;> simp [same]
  | acquire | acquireMasked | tryAcquire | within | replace | replaceAndPanic | isLocked
  | exchange | renew => rfl

/-- What a call is told depends on the guards and on the value alone. -/
theorem FreeOrHeld.answer_step (balanced : FreeOrHeld home session written) (number : Nat)
    (call : MutexCall α) :
    (session.step number call).1 = call.answer session.guards written := by
  cases balanced with
  | free ticket =>
      rw [step_free]
      cases call <;> rfl
  | held ticket named => exact answer_step_held ..
  | masked ticket named => exact answer_step_held ..

/-- If an interrupt request may come, whoever has the lock has taken it without the mask. -/
def Interruptible (session : MutexSession α) : Prop :=
  session.core.irqsEnabled = true → session.mutex.isLocked = true →
    ∃ guard ∈ session.guards, guard.irq = none

theorem interruptible_free (ticket : UInt32) (value : α) (core : Core) :
    (free ticket value core).Interruptible := by
  intro _ locked
  rw [isLocked_free] at locked
  cases locked

theorem FreeOrHeld.interruptible (balanced : FreeOrHeld home session written) :
    session.Interruptible := by
  cases balanced with
  | free ticket => exact interruptible_free ticket written home
  | held ticket named => exact fun _ _ => ⟨_, List.mem_singleton_self _, rfl⟩
  | masked ticket named =>
      intro enabled
      cases (IrqGuard.irqsEnabled_new home).symm.trans enabled

/-- A guard has left the lock before it is done with the mask. -/
theorem interruptible_midway_held {ticket : UInt32} {guard : MutexGuard} {value : α} {core : Core}
    {call : MutexCall α} {between : MutexSession α}
    (midway : (held ticket guard value core).midway? call = some between) :
    between.Interruptible := by
  cases call with
  | drop named =>
      cases same : guard.number == named with
      | true =>
          have found : (held ticket guard value core).guard? named = some guard := by
            simp [held, guard?, same]
          rw [midway?, found, Option.map_some, leave_held] at midway
          obtain rfl := Option.some.inj midway
          exact interruptible_free _ _ _
      | false => simp [midway?, guard?, held, same] at midway
  | acquireMasked => simp [midway?] at midway
  | acquire | tryAcquire | read | write | within | replace | replaceAndPanic | isLocked
  | exchange | renew => cases midway

/-- The mask is set before the lock is taken, and cleared after it is left. -/
theorem FreeOrHeld.interruptible_midway (balanced : FreeOrHeld home session written)
    {call : MutexCall α} {between : MutexSession α} (midway : session.midway? call = some between) :
    between.Interruptible := by
  cases balanced with
  | free ticket =>
      cases call with
      | acquireMasked =>
          rw [midway?, if_neg (by rw [isLocked_free]; decide), mask_free] at midway
          obtain rfl := Option.some.inj midway
          exact interruptible_free _ _ _
      | acquire | tryAcquire | drop | read | write | within | replace | replaceAndPanic | isLocked
      | exchange | renew => cases midway
  | held => exact interruptible_midway_held midway
  | masked => exact interruptible_midway_held midway

/-- Midway through a call either the mask or the lock is as after the call, the other as before. -/
theorem halfway_of_midway {between : MutexSession α} {call : MutexCall α}
    (midway : session.midway? call = some between) (number : Nat) :
    (between.mutex = session.mutex ∧ between.core = (session.step number call).2.core) ∨
      between.mutex = (session.step number call).2.mutex ∧ between.core = session.core := by
  cases call with
  | acquireMasked =>
      left
      rw [midway?] at midway
      split at midway
      · cases midway
      · next unlocked =>
          obtain rfl := Option.some.inj midway
          rw [MutexSession.step, if_neg unlocked]
          exact ⟨rfl, rfl⟩
  | drop named =>
      right
      obtain ⟨guard, found, rfl⟩ := Option.map_eq_some_iff.1 midway
      simp only [MutexSession.step, found]
      cases guard.irq <;> exact ⟨rfl, rfl⟩
  | acquire | tryAcquire | read | write | within | replace | replaceAndPanic | isLocked
  | exchange | renew => cases midway

/--
What a thread may rely on at a mutex in which a value was written last.  The tickets that
are not served are the guards that are alive, of which there is one at most; guards come
and go and calls are answered as these guards and this value say.  A thread that has no
guard gets one without waiting, and its work under the lock, also work that halts, starts
from the value, leaves what it wrote itself and leaves the lock free.  While a guard is alive
that masks interrupt requests they are masked, also while it comes and goes, and when no such
guard is alive the mask is as it was.
-/
structure GuardsMatchTickets (session : MutexSession α) (written : α) (home : Core) : Prop where
  waiting : (session.mutex.lock.next - session.mutex.lock.serving).toNat = session.guards.length
  single : session.guards.length ≤ 1
  locked : session.mutex.isLocked = !session.guards.isEmpty
  value : session.mutex.value = written
  guards : ∀ number call, (session.step number call).2.guards =
    call.guardsAfter session.guards session.core.irqsEnabled number
  answers : ∀ number call, (session.step number call).1 = call.answer session.guards written
  acquires : session.guards = [] → (Mutex.acquire.run session.mutex).result = .ok ()
  works : session.guards = [] → ∀ {β : Type} (work : Action α β),
    ∃ mutex log, (Mutex.withLock work).run session.mutex =
        ⟨(work.run written).result, mutex, log⟩ ∧
      mutex.isLocked = false ∧ mutex.value = (work.run written).state
  panics : session.guards = [] → ∀ number value text,
    ∃ mutex, session.step number (.replaceAndPanic value text) =
        (.halted (.panic text), ⟨mutex, [], session.core⟩) ∧
      mutex.isLocked = false ∧ mutex.value = value
  masks : ∀ guard ∈ session.guards, guard.irq.isSome → session.core.irqsEnabled = false
  restores : (∀ guard ∈ session.guards, guard.irq = none) → session.core = home
  interruptible : session.Interruptible
  midway : ∀ call between, session.midway? call = some between → between.Interruptible
  halfway : ∀ number call between, session.midway? call = some between →
    (between.mutex = session.mutex ∧ between.core = (session.step number call).2.core) ∨
      between.mutex = (session.step number call).2.mutex ∧ between.core = session.core

theorem guardsMatchTickets_free (ticket : UInt32) (written : α) (home : Core) :
    GuardsMatchTickets (free ticket written home) written home where
  waiting := by simp [MutexSession.free]
  single := Nat.zero_le 1
  locked := isLocked_free ticket written home
  value := rfl
  guards := (FreeOrHeld.free ticket written).guards_step
  answers := (FreeOrHeld.free ticket written).answer_step
  acquires := fun _ => by rw [run_acquire_free ticket ⟨0, none⟩]
  works := fun _ _ work =>
    ⟨_, _, run_withLock_free ticket written home work, isLocked_free _ _ home, rfl⟩
  panics := fun _ _ value text =>
    ⟨_, step_free ticket written home _ _, isLocked_free (ticket + 1) value home, rfl⟩
  masks := by rintro guard ⟨⟩
  restores := fun _ => rfl
  interruptible := interruptible_free ticket written home
  midway := fun _ _ => (FreeOrHeld.free ticket written).interruptible_midway
  halfway := fun number _ _ between => halfway_of_midway between number

/-- Only what becomes of the mask depends on which guard is alive. -/
theorem guardsMatchTickets_held {ticket : UInt32} {guard : MutexGuard} {core : Core}
    (balanced : FreeOrHeld home (held ticket guard written core) written)
    (masks : guard.irq.isSome → core.irqsEnabled = false)
    (restores : guard.irq = none → core = home) :
    GuardsMatchTickets (held ticket guard written core) written home where
  waiting := by simp [MutexSession.held]
  single := Nat.le_refl 1
  locked := isLocked_held ticket guard written core
  value := rfl
  guards := balanced.guards_step
  answers := balanced.answer_step
  acquires := by rintro ⟨⟩
  works := by rintro ⟨⟩
  panics := by rintro ⟨⟩
  masks := fun _ alive => List.mem_singleton.1 alive ▸ masks
  restores := fun plain => restores (plain _ (List.mem_singleton_self _))
  interruptible := balanced.interruptible
  midway := fun _ _ => balanced.interruptible_midway
  halfway := fun number _ _ between => halfway_of_midway between number

theorem FreeOrHeld.guardsMatchTickets (balanced : FreeOrHeld home session written) :
    GuardsMatchTickets session written home := by
  cases balanced with
  | free ticket => exact guardsMatchTickets_free ticket written home
  | held ticket named =>
      exact guardsMatchTickets_held (.held ticket named written) (by rintro ⟨⟩) fun _ => rfl
  | masked ticket named =>
      exact guardsMatchTickets_held (.masked ticket named written)
        (fun _ => IrqGuard.irqsEnabled_new home) (by rintro ⟨⟩)

/-- However long a thread goes on at a mutex, it may rely on the guards and on the value. -/
theorem run_guardsMatchTickets (initial : α) (home : Core) (calls : List (MutexCall α)) :
    GuardsMatchTickets ((start initial home).run 0 calls)
      (lastWritten initial ((start initial home).log 0 calls)) home :=
  ((FreeOrHeld.free 0 initial).run 0 calls).guardsMatchTickets

end MutexSession

end PhysicalMemory
