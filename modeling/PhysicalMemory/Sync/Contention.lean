import PhysicalMemory.Sync.TicketLock

/-!
# Threads at a ticket lock

Several threads share one ticket lock and the value it protects.  Every move is
one access to one of the lock's counters or to the value, so between any two
moves of a thread the others may make any number of theirs.  A trace is the
order in which the moves were made.  A thread that leaves, with or without
having used the value, first looks up the ticket being served and then serves
the one after it.
-/

namespace PhysicalMemory

/-- How far a thread is with taking the lock, working under it and leaving it. -/
inductive Stage (α : Type) where
  | outside
  | waiting (ticket : UInt32)
  | probing (seen : UInt32)
  | inside
  | working (seen : α)
  | finished
  | leaving (seen : UInt32)
  deriving DecidableEq

namespace Stage

variable {α : Type}

def holds : Stage α → Bool
  | .inside | .working _ | .finished | .leaving _ => true
  | .outside | .waiting _ | .probing _ => false

end Stage

/-- One atomic step of a thread. -/
inductive Move (α : Type) where
  | draw
  | look
  | probe
  | claim
  | read
  | write (change : α → α)
  | lookUp
  | serve

/-- A lock, the value it protects, and the threads at it. -/
structure Contention (α : Type) (threads : Nat) where
  lock : TicketLock
  value : α
  stages : Vector (Stage α) threads

namespace Contention

variable {α : Type} {threads : Nat}

def start (threads : Nat) (value : α) : Contention α threads where
  lock := {}
  value := value
  stages := Vector.replicate threads .outside

def setStage (system : Contention α threads) (thread : Fin threads) (stage : Stage α) :
    Contention α threads :=
  { system with stages := system.stages.set thread stage }

/-- What a move of a thread leads to, if the thread is at the stage for it. -/
def step? (system : Contention α threads) (thread : Fin threads) :
    Move α → Option (Contention α threads)
  | .draw =>
      match system.stages[thread] with
      | .outside =>
          let (ticket, lock) := system.lock.draw
          some ({ system with lock := lock }.setStage thread (.waiting ticket))
      | _ => none
  | .look =>
      match system.stages[thread] with
      | .waiting ticket =>
          if system.lock.admits ticket then some (system.setStage thread .inside)
          else some system
      | _ => none
  | .probe =>
      match system.stages[thread] with
      | .outside => some (system.setStage thread (.probing system.lock.serving))
      | _ => none
  | .claim =>
      match system.stages[thread] with
      | .probing seen =>
          let (claimed, lock) := system.lock.claim seen
          let stage := if claimed then .inside else .outside
          some ({ system with lock := lock }.setStage thread stage)
      | _ => none
  | .read =>
      match system.stages[thread] with
      | .inside => some (system.setStage thread (.working system.value))
      | _ => none
  | .write change =>
      match system.stages[thread] with
      | .working seen => some ({ system with value := change seen }.setStage thread .finished)
      | _ => none
  | .lookUp =>
      match system.stages[thread] with
      | .inside | .finished => some (system.setStage thread (.leaving system.lock.serving))
      | _ => none
  | .serve =>
      match system.stages[thread] with
      | .leaving seen =>
          some ({ system with lock := system.lock.serveAfter seen }.setStage thread .outside)
      | _ => none

def run? (system : Contention α threads) :
    List (Fin threads × Move α) → Option (Contention α threads)
  | [] => some system
  | (thread, move) :: rest => (system.step? thread move).bind (·.run? rest)

theorem run?_append (system : Contention α threads) (first second : List (Fin threads × Move α)) :
    system.run? (first ++ second) = (system.run? first).bind (·.run? second) := by
  induction first generalizing system with
  | nil => rfl
  | cons head rest ih =>
      obtain ⟨thread, move⟩ := head
      cases h : system.step? thread move with
      | none => simp [run?, h]
      | some next => simp [run?, h, ih]

end Contention

/-- Threads that still have some turns to take under the lock. -/
structure Race (α : Type) (threads : Nat) where
  system : Contention α threads
  turns : Vector Nat threads

namespace Race

variable {α : Type} {threads : Nat}

def start (threads turns : Nat) (value : α) : Race α threads where
  system := .start threads value
  turns := Vector.replicate threads turns

/-- The next move of a thread that applies a change in each of its turns. -/
def nextMove (race : Race α threads) (change : α → α) (thread : Fin threads) :
    Option (Move α) :=
  match race.system.stages[thread] with
  | .outside => if race.turns[thread] = 0 then none else some .draw
  | .waiting _ => some .look
  | .probing _ => some .claim
  | .inside => some .read
  | .working _ => some (.write change)
  | .finished => some .lookUp
  | .leaving _ => some .serve

def advance (race : Race α threads) (change : α → α) (thread : Fin threads) :
    Race α threads :=
  match race.nextMove change thread with
  | none => race
  | some move =>
      match race.system.step? thread move with
      | none => race
      | some system =>
          match move with
          | .draw => ⟨system, race.turns.set thread (race.turns[thread] - 1)⟩
          | _ => ⟨system, race.turns⟩

def round (race : Race α threads) (change : α → α) : Race α threads :=
  (List.finRange threads).foldl (fun race thread => race.advance change thread) race

def isOver (race : Race α threads) : Bool :=
  (List.finRange threads).all fun thread =>
    (match race.system.stages[thread] with
      | .outside => true
      | _ => false) && race.turns[thread] == 0

def rounds (change : α → α) : Nat → Race α threads → Race α threads
  | 0, race => race
  | fuel + 1, race => if race.isOver then race else rounds change fuel (race.round change)

/--
The end of a race: in every round somebody makes one of the six moves of a
turn, so six rounds for each turn are enough.
-/
def finish (threads turns : Nat) (change : α → α) (value : α) : Race α threads :=
  rounds change (6 * threads * turns + 1) (start threads turns value)

theorem exists_run?_advance (race : Race α threads) (change : α → α) (thread : Fin threads) :
    ∃ trace, race.system.run? trace = some (race.advance change thread).system := by
  unfold advance
  split
  · exact ⟨[], rfl⟩
  · next move _ =>
      split
      · exact ⟨[], rfl⟩
      · next system h =>
          refine ⟨[(thread, move)], ?_⟩
          simp only [Contention.run?, h, Option.bind_some]
          split <;> rfl

theorem exists_run?_round (race : Race α threads) (change : α → α) :
    ∃ trace, race.system.run? trace = some (race.round change).system := by
  unfold round
  generalize List.finRange threads = order
  induction order generalizing race with
  | nil => exact ⟨[], rfl⟩
  | cons thread rest ih =>
      obtain ⟨first, hfirst⟩ := exists_run?_advance race change thread
      obtain ⟨later, hlater⟩ := ih (race.advance change thread)
      refine ⟨first ++ later, ?_⟩
      rw [Contention.run?_append, hfirst]
      exact hlater

/-- Rounds are some trace of the whole system. -/
theorem exists_run?_rounds (change : α → α) (fuel : Nat) (race : Race α threads) :
    ∃ trace, race.system.run? trace = some (rounds change fuel race).system := by
  induction fuel generalizing race with
  | zero => exact ⟨[], rfl⟩
  | succ fuel ih =>
      unfold rounds
      split
      · exact ⟨[], rfl⟩
      · obtain ⟨first, hfirst⟩ := exists_run?_round race change
        obtain ⟨later, hlater⟩ := ih (race.round change)
        refine ⟨first ++ later, ?_⟩
        rw [Contention.run?_append, hfirst]
        exact hlater

end Race

end PhysicalMemory
