import PhysicalMemory.Sync.Mutex
import PhysicalMemory.Proofs.Sync.Queue

/-!
# Work under a ticket lock is serial

A trace is read as a list of turns at the lock: a turn begins when a thread draws a
ticket, and what the thread writes until it draws again is what the turn does to the
value.  Turns that only wait have done nothing yet and stand behind all that entered,
so the value is what the turns make of it one after the other, in the order of their
tickets.
-/

namespace PhysicalMemory

/-- A turn at the lock: the thread that drew the ticket, and what it made of the value. -/
structure Turn (α : Type) (threads : Nat) where
  thread : Fin threads
  change : α → α

def Move.work {α β : Type} (action : Action α β) : Move α :=
  .write fun value => (action.run value).state

def Move.writes {α : Type} : Move α → Bool
  | .write _ => true
  | .draw | .look | .probe | .claim | .read | .lookUp | .serve => false

namespace Turn

variable {α : Type} {threads : Nat}

def idle (thread : Fin threads) : Turn α threads :=
  ⟨thread, id⟩

/-- The turns, latest first, after a thread wrote in its latest one. -/
def amend (thread : Fin threads) (change : α → α) : List (Turn α threads) → List (Turn α threads)
  | [] => []
  | turn :: rest =>
      if turn.thread = thread then ⟨thread, change ∘ turn.change⟩ :: rest
      else turn :: amend thread change rest

def record (turns : List (Turn α threads)) (step : Fin threads × Move α) :
    List (Turn α threads) :=
  match step.2 with
  | .draw => idle step.1 :: turns
  | .write change => amend step.1 change turns
  | .look | .probe | .claim | .read | .lookUp | .serve => turns

def ofTrace (trace : List (Fin threads × Move α)) : List (Turn α threads) :=
  (trace.foldl record []).reverse

def compose (turns : List (Turn α threads)) (value : α) : α :=
  turns.foldl (fun value turn => turn.change value) value

theorem compose_append (first second : List (Turn α threads)) (value : α) :
    compose (first ++ second) value = compose second (compose first value) :=
  List.foldl_append

theorem compose_idle (waiting : List (Fin threads)) (value : α) :
    compose (waiting.map idle) value = value := by
  induction waiting with
  | nil => rfl
  | cons thread rest ih => exact ih

/-- Behind the idle turns of other threads a thread finds its latest turn. -/
theorem amend_append {waiting : List (Fin threads)} {thread : Fin threads}
    (absent : thread ∉ waiting) (change old : α → α) (rest : List (Turn α threads)) :
    amend thread change (waiting.map idle ++ ⟨thread, old⟩ :: rest) =
      waiting.map idle ++ ⟨thread, change ∘ old⟩ :: rest := by
  induction waiting with
  | nil => simp [amend]
  | cons other waiting ih =>
      rw [List.mem_cons, not_or] at absent
      have distinct : (idle other : Turn α threads).thread ≠ thread := Ne.symm absent.1
      rw [List.map_cons, List.cons_append, amend, if_neg distinct, ih absent.2]
      rfl

end Turn

namespace Contention

open Turn (record idle compose)

variable {α : Type} {threads : Nat}

def entry (system next : Contention α threads) (thread : Fin threads) : List (Fin threads) :=
  if !(system.stageOf thread).holds && (next.stageOf thread).holds then [thread] else []

def entries (system : Contention α threads) :
    List (Fin threads × Move α) → List (Fin threads)
  | [] => []
  | (thread, move) :: rest =>
      match system.step? thread move with
      | none => []
      | some next => system.entry next thread ++ next.entries rest

/--
What is so of a system that a trace leads to: no two threads hold the lock, threads
entered in the order of their tickets, the value is what the turns make of it in that
order, and the lock is free when all threads are outside.
-/
structure Serialized (initial : α) (trace : List (Fin threads × Move α))
    (system : Contention α threads) : Prop where
  exclusive : ∀ thread other : Fin threads, (system.stageOf thread).holds = true →
    (system.stageOf other).holds = true → thread = other
  ordered : (start threads initial).entries trace <+: (Turn.ofTrace trace).map Turn.thread
  composed : system.value = compose (Turn.ofTrace trace) initial
  unlocked : system.lock.isLocked = false ↔ ∀ thread : Fin threads, system.stageOf thread = .outside
  settled : (∀ thread : Fin threads, system.stageOf thread = .outside) →
    (start threads initial).entries trace = (Turn.ofTrace trace).map Turn.thread

/-- How the turns of a trace stand to the queue: those that entered, and then those that wait. -/
structure Traced (initial : α) (turns : List (Turn α threads)) (entered : List (Fin threads))
    (system : Contention α threads) (holder : Option (Fin threads))
    (waiting : List (Fin threads)) (begun : List (Turn α threads)) : Prop where
  queued : system.Queued holder waiting
  turns_eq : turns = waiting.reverse.map idle ++ begun
  entered_eq : entered = begun.reverse.map Turn.thread
  value_eq : system.value = compose begun.reverse initial
  latest : ∀ thread, holder = some thread → ∃ change rest, begun = ⟨thread, change⟩ :: rest

namespace Traced

variable {initial : α} {turns begun : List (Turn α threads)} {entered waiting : List (Fin threads)}
  {system next : Contention α threads} {holder : Option (Fin threads)} {thread : Fin threads}
  {move : Move α}

theorem start (initial : α) : Traced initial [] [] (.start threads initial) none [] [] where
  queued := queued_start threads initial
  turns_eq := rfl
  entered_eq := rfl
  value_eq := rfl
  latest := by rintro thread ⟨⟩

/-- The thread of a move entered just if the lock was not held and then it was by the thread. -/
theorem entry_eq {holder' : Option (Fin threads)} {waiting' : List (Fin threads)}
    (queued : system.Queued holder waiting) (queued' : next.Queued holder' waiting')
    (thread : Fin threads) :
    system.entry next thread =
      if holder ≠ some thread ∧ holder' = some thread then [thread] else [] := by
  have before := queued.holds_iff thread
  have after := queued'.holds_iff thread
  by_cases held : holder = some thread <;> by_cases held' : holder' = some thread <;>
    simp_all [entry]

/-- Every move that waits for the lock keeps the turns and the queue together. -/
theorem step (traced : Traced initial turns entered system holder waiting begun)
    (few : threads < 1 <<< 32) (queues : move.queues = true)
    (stepped : system.step? thread move = some next) :
    ∃ holder' waiting' begun', Traced initial (record turns (thread, move))
      (entered ++ system.entry next thread) next holder' waiting' begun' := by
  obtain ⟨holder', waiting', passes, queued', value⟩ := traced.queued.step few queues stepped
  have entry := entry_eq traced.queued queued' thread
  have turns_eq := traced.turns_eq
  have entered_eq := traced.entered_eq
  have value_eq := traced.value_eq
  have latest := traced.latest
  cases passes with
  | draw =>
      rw [if_neg (by simp)] at entry
      refine ⟨_, _, begun, queued', ?_, by rw [entry, List.append_nil, entered_eq],
        value.trans value_eq, latest⟩
      rw [List.reverse_append, List.reverse_singleton, List.singleton_append, List.map_cons,
        List.cons_append, ← turns_eq]
      rfl
  | wait | read | lookUp =>
      rw [if_neg (by simp)] at entry
      exact ⟨_, _, begun, queued', turns_eq, by rw [entry, List.append_nil, entered_eq],
        value.trans value_eq, latest⟩
  | enter =>
      rw [if_pos (by simp)] at entry
      refine ⟨_, _, idle thread :: begun, queued', ?_, ?_, ?_, ?_⟩
      · rw [List.reverse_cons, List.map_append, List.append_assoc] at turns_eq
        exact turns_eq
      · rw [entry, entered_eq, List.reverse_cons, List.map_append]
        rfl
      · rw [List.reverse_cons, Turn.compose_append]
        exact value.trans value_eq
      · rintro _ ⟨⟩
        exact ⟨id, begun, rfl⟩
  | serve =>
      rw [if_neg (by simp)] at entry
      exact ⟨_, _, begun, queued', turns_eq, by rw [entry, List.append_nil, entered_eq],
        value.trans value_eq, by rintro thread ⟨⟩⟩
  | write change =>
      rw [if_neg (by simp)] at entry
      obtain ⟨old, rest, rfl⟩ := latest thread rfl
      -- Threads that wait have drawn since, but the writer is none of them.
      have absent : thread ∉ waiting.reverse := fun member =>
        (List.nodup_cons.1 traced.queued.nodup).1 (List.mem_reverse.1 member)
      refine ⟨_, _, ⟨thread, change ∘ old⟩ :: rest, queued', ?_, ?_, ?_, ?_⟩
      · rw [← Turn.amend_append absent, ← turns_eq]
        rfl
      · rw [entry, List.append_nil, entered_eq, List.reverse_cons, List.reverse_cons,
          List.map_append, List.map_append]
        rfl
      · rw [List.reverse_cons, Turn.compose_append] at value_eq ⊢
        rw [value, value_eq]
        rfl
      · rintro _ ⟨⟩
        exact ⟨_, rest, rfl⟩

/-- So does every trace of such moves. -/
theorem run {trace : List (Fin threads × Move α)} {last : Contention α threads}
    (traced : Traced initial turns entered system holder waiting begun)
    (few : threads < 1 <<< 32) (queues : ∀ step ∈ trace, step.2.queues = true)
    (ran : system.run? trace = some last) :
    ∃ holder' waiting' begun', Traced initial (trace.foldl record turns)
      (entered ++ system.entries trace) last holder' waiting' begun' := by
  induction trace generalizing system turns entered holder waiting begun with
  | nil =>
      obtain rfl := Option.some.inj ran
      exact ⟨holder, waiting, begun, by rwa [entries, List.append_nil]⟩
  | cons step rest ih =>
      obtain ⟨thread, move⟩ := step
      rw [run?] at ran
      obtain ⟨next, stepped, ran⟩ := Option.bind_eq_some_iff.1 ran
      obtain ⟨holder', waiting', begun', traced'⟩ :=
        traced.step few (queues _ List.mem_cons_self) stepped
      have final := ih traced' (fun step member => queues step (List.mem_cons_of_mem _ member)) ran
      rw [List.append_assoc] at final
      rw [entries, stepped]
      exact final

theorem serialized {trace : List (Fin threads × Move α)}
    (traced : Traced initial (trace.foldl record [])
      ((Contention.start threads initial).entries trace) system holder waiting begun)
    (few : threads < 1 <<< 32) :
    Serialized initial trace system := by
  have queued := traced.queued
  have turns : Turn.ofTrace trace = begun.reverse ++ waiting.map idle := by
    rw [Turn.ofTrace, traced.turns_eq, List.reverse_append, ← List.map_reverse,
      List.reverse_reverse]
  refine ⟨?_, ?_, ?_, queued.isLocked_iff few, ?_⟩
  · intro thread other holds holds'
    have same := ((queued.holds_iff thread).1 holds).symm.trans ((queued.holds_iff other).1 holds')
    exact Option.some.inj same
  · rw [traced.entered_eq, turns, List.map_append]
    exact List.prefix_append _ _
  · rw [turns, Turn.compose_append, Turn.compose_idle]
    exact traced.value_eq
  · intro outside
    have none : waiting = [] := (queued.eq_nil_of_outside outside).2
    rw [traced.entered_eq, turns, none, List.map_nil, List.append_nil]

end Traced

/-- The value after a trace is what its writes made of it, in the order they were made. -/
theorem Queued.value_run {system last : Contention α threads} {holder : Option (Fin threads)}
    {waiting : List (Fin threads)} {trace : List (Fin threads × Move α)}
    (queued : system.Queued holder waiting) (few : threads < 1 <<< 32)
    (queues : ∀ step ∈ trace, step.2.queues = true) (ran : system.run? trace = some last) :
    last.value = trace.foldl (fun value step => step.2.effect value) system.value := by
  induction trace generalizing system holder waiting with
  | nil =>
      obtain rfl := Option.some.inj ran
      rfl
  | cons step rest ih =>
      obtain ⟨thread, move⟩ := step
      rw [run?] at ran
      obtain ⟨next, stepped, ran⟩ := Option.bind_eq_some_iff.1 ran
      obtain ⟨holder', waiting', -, queued', value⟩ :=
        queued.step few (queues _ List.mem_cons_self) stepped
      rw [List.foldl_cons, ← value]
      exact ih queued' (fun step member => queues step (List.mem_cons_of_mem _ member)) ran

def writesOf (trace : List (Fin threads × Move α)) (thread : Fin threads) : Nat :=
  trace.countP fun step => step.1 = thread && step.2.writes

theorem sum_writesOf (trace : List (Fin threads × Move α)) :
    ∑ thread, writesOf trace thread = trace.countP (·.2.writes) := by
  induction trace with
  | nil => simp [writesOf]
  | cons step rest ih =>
      simp only [writesOf, List.countP_cons, Finset.sum_add_distrib] at ih ⊢
      rw [ih]
      cases step.2.writes <;> simp

/-- Writes that all make the same change repeat it. -/
theorem foldl_effect {change : α → α} {trace : List (Fin threads × Move α)}
    (alike : ∀ step ∈ trace, ∀ other, step.2 = .write other → other = change) (value : α) :
    trace.foldl (fun value step => step.2.effect value) value =
      change^[trace.countP (·.2.writes)] value := by
  induction trace generalizing value with
  | nil => rfl
  | cons step rest ih =>
      obtain ⟨thread, move⟩ := step
      have later := ih fun step member => alike step (List.mem_cons_of_mem _ member)
      rw [List.foldl_cons, later]
      cases move with
      | write other =>
          obtain rfl := alike _ List.mem_cons_self other rfl
          rw [List.countP_cons_of_pos (by rfl), Function.iterate_succ_apply]
          rfl
      | _ => rw [List.countP_cons_of_neg (by simp [Move.writes])]; rfl

/-- A thread that nobody disturbs does by its moves what working under the lock does. -/
theorem run?_undisturbed {β : Type} {system : Contention α threads} {thread : Fin threads}
    (free : system.lock.isLocked = false) (outside : system.stageOf thread = .outside)
    (action : Action α β) :
    system.run? [(thread, .draw), (thread, .look), (thread, .read), (thread, .work action),
        (thread, .lookUp), (thread, .serve)] =
      let after := ((Mutex.withLock action).run ⟨system.lock, system.value⟩).state
      some ⟨after.lock, after.value, system.stages⟩ := by
  have same : system.lock.serving = system.lock.next :=
    (TicketLock.isLocked_eq_false_iff.1 free).symm
  have stage : system.stages[thread] = .outside := outside
  have back : system.stages.set thread .outside = system.stages := by
    rw [← stage]
    exact Vector.set_getElem_self thread.isLt
  have alone : (⟨system.lock, system.value⟩ : Mutex α).isLocked = false := free
  rw [Mutex.run_withLock_of_free alone]
  simp [run?, step?, stage, setStage, TicketLock.draw, TicketLock.admits, TicketLock.release,
    same, Move.work, back]

/--
However threads interleave that take a ticket lock by waiting for it, and however often
its counters wrap: no two hold it at once, they enter in the order of their tickets, and
the value is what their turns make of it in that order.  So if each of them adds one so
many times and all have left, nothing is lost and the lock is free.
-/
theorem run_serialized {threads : Nat} (few : threads < 1 <<< 32) :
    (∀ (α : Type) (initial : α) (trace : List (Fin threads × Move α))
      (system : Contention α threads),
      (∀ step ∈ trace, step.2.queues = true) → (start threads initial).run? trace = some system →
        Serialized initial trace system) ∧
    ∀ (rounds : Nat) (trace : List (Fin threads × Move Nat)) (system : Contention Nat threads),
      (∀ step ∈ trace, step.2.queues = true) →
      (∀ step ∈ trace, ∀ change, step.2 = .write change → change = (· + 1)) →
      (∀ thread, writesOf trace thread = rounds) →
      (start threads 0).run? trace = some system →
      (∀ thread : Fin threads, system.stageOf thread = .outside) →
        system.value = threads * rounds ∧ system.lock.isLocked = false := by
  constructor
  · intro α initial trace system queues ran
    obtain ⟨holder, waiting, begun, traced⟩ := (Traced.start initial).run few queues ran
    rw [List.nil_append] at traced
    exact traced.serialized few
  · intro rounds trace system queues alike each ran outside
    obtain ⟨holder, waiting, begun, traced⟩ := (Traced.start 0).run few queues ran
    refine ⟨?_, (traced.queued.isLocked_iff few).2 outside⟩
    have value := (queued_start threads 0).value_run few queues ran
    rw [foldl_effect alike, ← sum_writesOf,
      Finset.sum_congr rfl fun thread _ => each thread] at value
    simpa [start] using value

def countThenPanic : Action Nat Unit := do
  modify (· + 1)
  Action.halt (.panic "late")

def countUp : Action Nat Unit :=
  modify (· + 1)

def contended : List (Fin 2 × Move Nat) :=
  [(0, .draw), (1, .draw), (1, .look), (0, .look), (0, .read), (1, .look),
    (0, .work countThenPanic), (0, .lookUp), (1, .look), (0, .serve), (1, .look), (1, .read),
    (1, .work countUp), (1, .lookUp), (1, .serve)]

theorem contended_queues : ∀ step ∈ contended, step.2.queues = true := by
  decide +kernel

theorem contended_alike : ∀ step ∈ contended, ∀ change, step.2 = .write change →
    change = (· + 1) := by
  intro step member change same
  simp only [contended, List.mem_cons, List.not_mem_nil, or_false] at member
  rcases member with rfl | rfl | rfl | rfl | rfl | rfl | rfl | rfl | rfl | rfl | rfl | rfl | rfl |
    rfl | rfl <;> cases same <;> rfl

/-- No update is lost, the panic notwithstanding. -/
theorem run_serialized_sample :
    (start 2 0).run? contended = some ⟨⟨2, 2⟩, 2, #v[.outside, .outside]⟩ ∧
    (start 2 0).entries contended = [0, 1] ∧
    Serialized 0 contended ⟨⟨2, 2⟩, 2, #v[.outside, .outside]⟩ ∧
    (⟨⟨2, 2⟩, 2, #v[.outside, .outside]⟩ : Contention Nat 2).value = 2 * 1 := by
  have ran : (start 2 0).run? contended = some ⟨⟨2, 2⟩, 2, #v[.outside, .outside]⟩ := by rfl
  refine ⟨ran, by decide +kernel, ?_, ?_⟩
  · exact (run_serialized (by decide)).1 Nat 0 contended _ contended_queues ran
  · exact ((run_serialized (by decide)).2 1 contended _ contended_queues contended_alike
      (by decide +kernel) ran (by decide)).1

end Contention

end PhysicalMemory
