import Mathlib
import PhysicalMemory.Sync.Contention

/-!
# What a move can do

A thread makes a move only at the stage for it.  `Steps` lists what the move then does to
the lock, to the value and to the thread's own stage; the stages of the other threads stay
as they are.
-/

namespace PhysicalMemory

namespace Contention

variable {α : Type} {threads : Nat} {system next : Contention α threads}
  {thread other : Fin threads} {move : Move α}

def stageOf (system : Contention α threads) (thread : Fin threads) : Stage α :=
  system.stages.get thread

theorem stageOf_setStage (stage : Stage α) :
    (system.setStage thread stage).stageOf other =
      if other = thread then stage else system.stageOf other := by
  by_cases same : other = thread
  · subst same
    simp [stageOf, setStage, Vector.get_eq_getElem]
  · have distinct : thread.val ≠ other.val := fun equal => same (Fin.ext equal.symm)
    simp [stageOf, setStage, Vector.get_eq_getElem, same, distinct]

@[simp] theorem lock_setStage (stage : Stage α) :
    (system.setStage thread stage).lock = system.lock :=
  rfl

theorem setStage_setStage (stage stage' : Stage α) :
    (system.setStage thread stage).setStage thread stage' = system.setStage thread stage' := by
  simp [setStage]

theorem setStage_self {stage : Stage α} (same : system.stageOf thread = stage) :
    system.setStage thread stage = system := by
  subst same
  simp [setStage, stageOf, Vector.get_eq_getElem]

/-- Everything that a move of a thread can do. -/
inductive Steps (system : Contention α threads) (thread : Fin threads) :
    Move α → Contention α threads → Prop where
  | draw (stage : system.stageOf thread = .outside) : Steps system thread .draw
      ({ system with lock := system.lock.draw.2 }.setStage thread (.waiting system.lock.draw.1))
  | wait {ticket : UInt32} (stage : system.stageOf thread = .waiting ticket)
      (refused : system.lock.admits ticket = false) : Steps system thread .look system
  | enter {ticket : UInt32} (stage : system.stageOf thread = .waiting ticket)
      (admits : system.lock.admits ticket = true) :
      Steps system thread .look (system.setStage thread .inside)
  | probe (stage : system.stageOf thread = .outside) :
      Steps system thread .probe (system.setStage thread (.probing system.lock.serving))
  | miss {seen : UInt32} (stage : system.stageOf thread = .probing seen)
      (late : system.lock.next ≠ seen) :
      Steps system thread .claim (system.setStage thread .outside)
  | claim {seen : UInt32} (stage : system.stageOf thread = .probing seen)
      (early : system.lock.next = seen) : Steps system thread .claim
      ({ system with lock := system.lock.draw.2 }.setStage thread .inside)
  | read (stage : system.stageOf thread = .inside) :
      Steps system thread .read (system.setStage thread (.working system.value))
  | write {seen : α} (change : α → α) (stage : system.stageOf thread = .working seen) :
      Steps system thread (.write change)
        ({ system with value := change seen }.setStage thread .finished)
  | lookUp (stage : system.stageOf thread = .inside ∨ system.stageOf thread = .finished) :
      Steps system thread .lookUp (system.setStage thread (.leaving system.lock.serving))
  | serve {seen : UInt32} (stage : system.stageOf thread = .leaving seen) :
      Steps system thread .serve
        ({ system with lock := system.lock.serveAfter seen }.setStage thread .outside)

theorem step?_eq_some_iff :
    system.step? thread move = some next ↔ Steps system thread move next := by
  constructor
  · intro stepped
    cases move with
    | draw =>
        simp only [step?] at stepped
        split at stepped
        · next stage => cases stepped; exact .draw stage
        · cases stepped
    | look =>
        simp only [step?] at stepped
        split at stepped
        · next ticket stage =>
            split at stepped
            · next admits => cases stepped; exact .enter stage admits
            · next refused => cases stepped; exact .wait stage (Bool.not_eq_true _ ▸ refused)
        · cases stepped
    | probe =>
        simp only [step?] at stepped
        split at stepped
        · next stage => cases stepped; exact .probe stage
        · cases stepped
    | claim =>
        simp only [step?, TicketLock.claim] at stepped
        split at stepped
        · next seen stage =>
            by_cases early : system.lock.next = seen
            · subst early
              simp only [if_true] at stepped
              cases stepped
              exact .claim stage rfl
            · simp only [early, if_false] at stepped
              cases stepped
              exact .miss stage early
        · cases stepped
    | read =>
        simp only [step?] at stepped
        split at stepped
        · next stage => cases stepped; exact .read stage
        · cases stepped
    | write change =>
        simp only [step?] at stepped
        split at stepped
        · next stage => cases stepped; exact .write change stage
        · cases stepped
    | lookUp =>
        simp only [step?] at stepped
        split at stepped
        · next stage => cases stepped; exact .lookUp (.inl stage)
        · next stage => cases stepped; exact .lookUp (.inr stage)
        · cases stepped
    | serve =>
        simp only [step?] at stepped
        split at stepped
        · next stage => cases stepped; exact .serve stage
        · cases stepped
  · intro steps
    have same : system.stages[thread] = system.stageOf thread := rfl
    cases steps with
    | draw stage | probe stage | read stage | write change stage | serve stage =>
        simp [step?, same, stage]
    | wait stage verdict | enter stage verdict => simp [step?, same, stage, verdict]
    | miss stage late => simp [step?, same, stage, TicketLock.claim, late]
    | claim stage early => simp [step?, same, stage, TicketLock.claim, TicketLock.draw, early]
    | lookUp stage => rcases stage with stage | stage <;> simp [step?, same, stage]

end Contention

end PhysicalMemory
