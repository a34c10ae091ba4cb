import PhysicalMemory.Proofs.Sync.Serial

/-!
# Trying a ticket lock

A thread that must not wait looks up the ticket being served, and then claims this ticket
if it is still the next one.  Between the two steps the others may do anything.  What the
claim compares are words, so it finds out no more than that the tickets drawn so far are
as many as those that were served when the thread looked, up to a multiple of the words
there are.  If fewer tickets than that are drawn in between, a claim that succeeds has found
the lock free; a thread that is held up while that many are drawn can claim a lock that
another thread holds.
-/

namespace PhysicalMemory

variable {α : Type} {threads : Nat}

namespace Stage

def pends : Stage α → Bool
  | .waiting _ | .inside | .working _ | .finished | .leaving _ => true
  | .outside | .probing _ => false

def queued : Stage α → Stage α
  | .probing _ => .outside
  | stage => stage

theorem holds_queued (stage : Stage α) : stage.queued.holds = stage.holds := by
  cases stage <;> rfl

theorem pends_eq_false_iff (stage : Stage α) : stage.pends = false ↔ stage.queued = .outside := by
  cases stage <;> simp [pends, queued]

end Stage

/--
How many tickets were drawn and served so far, and how many had been served when each
thread last looked up the ticket to claim.
-/
structure Tally (threads : Nat) where
  drawn : Nat := 0
  served : Nat := 0
  seen : Fin threads → Nat := fun _ => 0

namespace Contention

variable {system next : Contention α threads} {thread other : Fin threads} {move : Move α}
  {tally : Tally threads}

def count (next : Contention α threads) (tally : Tally threads) (thread : Fin threads) :
    Move α → Tally threads
  | .draw => { tally with drawn := tally.drawn + 1 }
  | .probe => { tally with seen := Function.update tally.seen thread tally.served }
  | .claim =>
      if (next.stageOf thread).holds then { tally with drawn := tally.drawn + 1 } else tally
  | .serve => { tally with served := tally.served + 1 }
  | .look | .read | .write _ | .lookUp => tally

def countAll (system : Contention α threads) (tally : Tally threads) :
    List (Fin threads × Move α) → Tally threads
  | [] => tally
  | (thread, move) :: rest =>
      match system.step? thread move with
      | none => tally
      | some next => next.countAll (next.count tally thread move) rest

/-- Whether a claim comes before as many tickets were drawn as there are words. -/
def inTime (tally : Tally threads) (thread : Fin threads) : Move α → Bool
  | .claim => tally.drawn < tally.seen thread + 1 <<< 32
  | .draw | .look | .probe | .read | .write _ | .lookUp | .serve => true

/-- Whether a move is a claim that came too late, and succeeded all the same. -/
def claimsLate (next : Contention α threads) (tally : Tally threads) (thread : Fin threads)
    (move : Move α) : Bool :=
  !inTime tally thread move && (next.stageOf thread).holds

def noneLate (system : Contention α threads) (tally : Tally threads) :
    List (Fin threads × Move α) → Bool
  | [] => true
  | (thread, move) :: rest =>
      match system.step? thread move with
      | none => true
      | some next =>
          !next.claimsLate tally thread move && next.noneLate (next.count tally thread move) rest

/-- The system as it would be without the attempts to take the lock. -/
def settled (system : Contention α threads) : Contention α threads :=
  { system with stages := system.stages.map Stage.queued }

theorem stageOf_settled (thread : Fin threads) :
    system.settled.stageOf thread = (system.stageOf thread).queued := by
  simp [settled, stageOf, Vector.get_eq_getElem]

theorem settled_setStage (lock : TicketLock) (value : α) (stage : Stage α) :
    ({ system with lock := lock, value := value }.setStage thread stage).settled =
      { system.settled with lock := lock, value := value }.setStage thread stage.queued := by
  simp [settled, setStage, Vector.map_set]

theorem settled_setStage_of_alike {stage : Stage α}
    (alike : (system.stageOf thread).queued = stage.queued) :
    (system.setStage thread stage).settled = system.settled :=
  (settled_setStage system.lock system.value stage).trans
    (setStage_self ((stageOf_settled thread).trans alike))

theorem Steps.settle (steps : Steps system thread move next) (queues : move.queues = true) :
    Steps system.settled thread move next.settled := by
  have stage_eq : system.settled.stageOf thread = (system.stageOf thread).queued :=
    stageOf_settled thread
  cases steps with
  | draw stage =>
      rw [settled_setStage]
      exact .draw (by rw [stage_eq, stage]; rfl)
  | wait stage refused => exact .wait (by rw [stage_eq, stage]; rfl) refused
  | enter stage admits =>
      rw [settled_setStage]
      exact .enter (by rw [stage_eq, stage]; rfl) admits
  | probe | miss | claim => cases queues
  | read stage =>
      rw [settled_setStage]
      exact .read (by rw [stage_eq, stage]; rfl)
  | write change stage =>
      rw [settled_setStage]
      exact .write change (by rw [stage_eq, stage]; rfl)
  | lookUp stage =>
      rw [settled_setStage]
      refine .lookUp (stage.imp ?_ ?_) <;>
      · intro stage
        rw [stage_eq, stage]
        rfl
  | serve stage =>
      rw [settled_setStage]
      exact .serve (by rw [stage_eq, stage]; rfl)

/-- A thread is probing only since it looked up the ticket itself. -/
theorem Steps.probing (steps : Steps system thread move next) {seen : UInt32}
    (probes : next.stageOf other = .probing seen) :
    (move = .probe ∧ other = thread ∧ seen = system.lock.serving) ∨
      system.stageOf other = .probing seen := by
  cases steps with
  | wait => exact .inr probes
  | probe =>
      rw [stageOf_setStage] at probes
      split at probes
      · next same => cases probes; exact .inl ⟨rfl, same, rfl⟩
      · exact .inr probes
  | draw | enter | miss | claim | read | write | lookUp | serve =>
      rw [stageOf_setStage] at probes
      split at probes
      · cases probes
      · exact .inr probes

/-- The queue and the counts tell the same about the lock. -/
structure Counted (system : Contention α threads) (tally : Tally threads)
    (holder : Option (Fin threads)) (waiting : List (Fin threads)) : Prop where
  queued : system.settled.Queued holder waiting
  serving_eq : system.lock.serving = UInt32.ofNat tally.served
  drawn_eq : tally.drawn = tally.served + (holder.toList.length + waiting.length)
  probing : ∀ thread seen, system.stageOf thread = .probing seen →
    seen = UInt32.ofNat (tally.seen thread)
  seen_le : ∀ thread, tally.seen thread ≤ tally.served

theorem counted_start (threads : Nat) (value : α) : (start threads value).Counted {} none [] where
  queued := by
    have same : (start threads value).settled = start threads value := by
      simp [settled, start, Stage.queued]
    rw [same]
    exact queued_start threads value
  serving_eq := rfl
  drawn_eq := rfl
  probing := by simp [stageOf, start, Vector.get_eq_getElem]
  seen_le := fun _ => Nat.le_refl 0

namespace Counted

variable {holder : Option (Fin threads)} {waiting : List (Fin threads)}

theorem next_eq (counted : system.Counted tally holder waiting) :
    system.lock.next = UInt32.ofNat tally.drawn := by
  have next := counted.queued.next_eq
  rw [counted.drawn_eq, UInt32.ofNat_add, ← counted.serving_eq]
  exact next

theorem holds_iff (counted : system.Counted tally holder waiting) (thread : Fin threads) :
    (system.stageOf thread).holds = true ↔ holder = some thread := by
  rw [← counted.queued.holds_iff thread, stageOf_settled, Stage.holds_queued]

theorem eq_nil_of_idle (counted : system.Counted tally holder waiting)
    (idle : tally.drawn = tally.served) : holder = none ∧ waiting = [] := by
  have drawn := counted.drawn_eq
  have empty : holder.toList.length + waiting.length = 0 := by omega
  obtain ⟨unheld, unwaited⟩ := Nat.add_eq_zero_iff.1 empty
  refine ⟨?_, List.length_eq_zero_iff.1 unwaited⟩
  cases holder with
  | none => rfl
  | some other => cases unheld

/-- As many tickets are drawn as served just if no thread holds the lock or waits for it. -/
theorem idle_iff (counted : system.Counted tally holder waiting) :
    tally.drawn = tally.served ↔ ∀ thread, (system.stageOf thread).pends = false := by
  constructor
  · intro same thread
    obtain ⟨rfl, rfl⟩ := counted.eq_nil_of_idle same
    rw [Stage.pends_eq_false_iff, ← stageOf_settled]
    exact counted.queued.outside thread (by simp) (by simp)
  · intro idle
    obtain ⟨rfl, rfl⟩ := counted.queued.eq_nil_of_outside fun thread => by
      rw [stageOf_settled]
      exact (Stage.pends_eq_false_iff _).1 (idle thread)
    exact counted.drawn_eq

/-- A claim succeeds if, but for whole circles, the tickets drawn are those it saw served. -/
theorem claim_iff (counted : system.Counted tally holder waiting)
    (stepped : Steps system thread .claim next) :
    (next.stageOf thread).holds = true ↔
      tally.drawn % (1 <<< 32) = tally.seen thread % (1 <<< 32) := by
  have word : UInt32.ofNat tally.drawn = UInt32.ofNat (tally.seen thread) ↔
      tally.drawn % (1 <<< 32) = tally.seen thread % (1 <<< 32) := by
    rw [← UInt32.toNat_inj, UInt32.toNat_ofNat', UInt32.toNat_ofNat']
    rfl
  rw [← word, ← counted.next_eq]
  cases stepped with
  | miss stage late =>
      rw [counted.probing thread _ stage] at late
      simp [stageOf_setStage, Stage.holds, late]
  | claim stage early =>
      rw [counted.probing thread _ stage] at early
      simp [stageOf_setStage, Stage.holds, early]

/-- A claim that succeeds in time finds that nobody holds the lock or waits for it. -/
theorem idle_of_claim (counted : system.Counted tally holder waiting)
    (stepped : Steps system thread .claim next)
    (soon : tally.drawn < tally.seen thread + 1 <<< 32)
    (claimed : (next.stageOf thread).holds = true) : tally.drawn = tally.served := by
  have same := (counted.claim_iff stepped).1 claimed
  have seen := counted.seen_le thread
  have drawn := counted.drawn_eq
  have circle : 1 <<< 32 = 4294967296 := rfl
  rw [circle] at same soon
  omega

theorem probing_step (counted : system.Counted tally holder waiting)
    (steps : Steps system thread move next) (other_move : move ≠ .probe) {seen : UInt32}
    (probes : next.stageOf other = .probing seen) : seen = UInt32.ofNat (tally.seen other) := by
  rcases steps.probing probes with ⟨same, -⟩ | before
  · exact absurd same other_move
  · exact counted.probing other seen before

theorem queue (counted : system.Counted tally holder waiting) (few : threads < 1 <<< 32)
    (queues : move.queues = true) (steps : Steps system thread move next) :
    ∃ holder' waiting', next.Counted (next.count tally thread move) holder' waiting' := by
  obtain ⟨holder', waiting', passes, queued', -⟩ :=
    counted.queued.step few queues (step?_eq_some_iff.2 (steps.settle queues))
  have seen : ∀ other seen, next.stageOf other = .probing seen →
      seen = UInt32.ofNat (tally.seen other) := fun other seen =>
    counted.probing_step steps (by rintro rfl; cases queues)
  have serving := counted.serving_eq
  have drawn := counted.drawn_eq
  refine ⟨holder', waiting', ?_⟩
  cases passes with
  | draw =>
      cases steps
      refine ⟨queued', serving, ?_, seen, counted.seen_le⟩
      simp only [count, List.length_append, List.length_singleton]
      omega
  | wait =>
      cases steps <;> exact ⟨queued', serving, drawn, seen, counted.seen_le⟩
  | enter =>
      refine ⟨queued', ?_, ?_, seen, counted.seen_le⟩
      · cases steps <;> exact serving
      · simp only [count, Option.toList_none, Option.toList_some, List.length_nil,
          List.length_cons] at drawn ⊢
        omega
  | read | write | lookUp =>
      cases steps
      exact ⟨queued', serving, drawn, seen, counted.seen_le⟩
  | serve =>
      cases steps with
      | @serve ticket stage =>
          -- Whoever leaves serves the ticket after its own, which is the one being served.
          have owns := counted.queued.owns thread rfl
          rw [stageOf_settled, stage] at owns
          refine ⟨queued', ?_, ?_, seen, fun other => Nat.le_succ_of_le (counted.seen_le other)⟩
          · simp only [count, lock_setStage, TicketLock.serveAfter]
            rw [UInt32.ofNat_add, ← serving]
            exact congrArg (· + 1) owns
          · simp only [count, Option.toList_none, Option.toList_some, List.length_nil,
              List.length_cons] at drawn ⊢
            omega

/-- An attempt begins with a look at the ticket being served. -/
theorem probe (counted : system.Counted tally holder waiting)
    (stage : system.stageOf thread = .outside) :
    (system.setStage thread (.probing system.lock.serving)).Counted
      { tally with seen := Function.update tally.seen thread tally.served } holder waiting where
  queued := by
    rw [settled_setStage_of_alike (by rw [stage]; rfl)]
    exact counted.queued
  serving_eq := counted.serving_eq
  drawn_eq := counted.drawn_eq
  probing := by
    intro other seen probes
    rw [stageOf_setStage] at probes
    by_cases same : other = thread
    · subst same
      rw [if_pos rfl] at probes
      cases probes
      simp only [Function.update_self]
      exact counted.serving_eq
    · rw [if_neg same] at probes
      simp only [Function.update_of_ne same]
      exact counted.probing other seen probes
  seen_le := by
    intro other
    by_cases same : other = thread
    · simp only [same, Function.update_self]
      exact Nat.le_refl _
    · simp only [Function.update_of_ne same]
      exact counted.seen_le other

theorem miss (counted : system.Counted tally holder waiting) {seen : UInt32}
    (stage : system.stageOf thread = .probing seen) (late : system.lock.next ≠ seen) :
    (system.setStage thread .outside).Counted tally holder waiting where
  queued := by
    rw [settled_setStage_of_alike (by rw [stage]; rfl)]
    exact counted.queued
  serving_eq := counted.serving_eq
  drawn_eq := counted.drawn_eq
  probing := fun _ _ => counted.probing_step (.miss stage late) (by rintro ⟨⟩)
  seen_le := counted.seen_le

/-- To claim a lock that is free is to draw a ticket that is served at once. -/
theorem claim (counted : system.Counted tally holder waiting) {seen : UInt32}
    (stage : system.stageOf thread = .probing seen) (early : system.lock.next = seen)
    (idle : tally.drawn = tally.served) :
    ({ system with lock := system.lock.draw.2 }.setStage thread .inside).Counted
      { tally with drawn := tally.drawn + 1 } (some thread) [] where
  queued := by
    obtain ⟨rfl, rfl⟩ := counted.eq_nil_of_idle idle
    have outside : system.settled.stageOf thread = .outside := by
      rw [stageOf_settled, stage]
      rfl
    have entered := (counted.queued.draw outside).enter
    rw [setStage_setStage] at entered
    rw [settled_setStage]
    exact entered
  serving_eq := counted.serving_eq
  drawn_eq := by simp [idle]
  probing := fun _ _ => counted.probing_step (.claim stage early) (by rintro ⟨⟩)
  seen_le := counted.seen_le

/-- Every move keeps the queue and the counts together, but for a claim that succeeds late. -/
theorem step (counted : system.Counted tally holder waiting) (few : threads < 1 <<< 32)
    (soon : next.claimsLate tally thread move = false)
    (stepped : system.step? thread move = some next) :
    ∃ holder' waiting', next.Counted (next.count tally thread move) holder' waiting' := by
  have steps := step?_eq_some_iff.1 stepped
  by_cases queues : move.queues = true
  · exact counted.queue few queues steps
  · cases steps with
    | probe stage => exact ⟨holder, waiting, counted.probe stage⟩
    | miss stage late =>
        refine ⟨holder, waiting, ?_⟩
        rw [count, if_neg (by simp [stageOf_setStage, Stage.holds])]
        exact counted.miss stage late
    | claim stage early =>
        have holds : (({ system with lock := system.lock.draw.2 }.setStage thread
            .inside).stageOf thread).holds = true := by
          simp [stageOf_setStage, Stage.holds]
        have before : tally.drawn < tally.seen thread + 1 <<< 32 := by
          simpa [claimsLate, holds, inTime] using soon
        refine ⟨some thread, [], ?_⟩
        rw [count, if_pos holds]
        exact counted.claim stage early
          (counted.idle_of_claim (.claim stage early) before holds)
    | draw | wait | enter | read | write | lookUp | serve => exact absurd rfl queues

/-- So does every trace in which no claim succeeds late. -/
theorem run {trace : List (Fin threads × Move α)} {last : Contention α threads}
    (counted : system.Counted tally holder waiting) (few : threads < 1 <<< 32)
    (soon : system.noneLate tally trace = true) (ran : system.run? trace = some last) :
    ∃ holder' waiting', last.Counted (system.countAll tally trace) holder' waiting' := by
  induction trace generalizing system tally holder waiting with
  | nil =>
      obtain rfl := Option.some.inj ran
      exact ⟨holder, waiting, counted⟩
  | cons step rest ih =>
      obtain ⟨thread, move⟩ := step
      rw [run?] at ran
      obtain ⟨next, stepped, ran⟩ := Option.bind_eq_some_iff.1 ran
      rw [noneLate, stepped] at soon
      obtain ⟨early, soon⟩ := (Bool.and_eq_true _ _).mp soon
      obtain ⟨holder', waiting', counted'⟩ :=
        counted.step few (Bool.not_eq_true' _ |>.mp early) stepped
      rw [countAll, stepped]
      exact ih counted' soon ran

end Counted

/--
What is so of a system with its counts.  No two threads hold the lock, and as many tickets
are drawn as served when nobody holds it or waits for it.  A claim succeeds if the tickets
drawn are those that were served when its thread looked, but for whole circles of words;
and if it comes in time it succeeds only when nobody holds the lock or waits for it.
-/
structure ExclusiveUnderTries (system : Contention α threads) (tally : Tally threads) : Prop where
  exclusive : ∀ thread other : Fin threads, (system.stageOf thread).holds = true →
    (system.stageOf other).holds = true → thread = other
  idle : tally.drawn = tally.served ↔
    ∀ thread : Fin threads, (system.stageOf thread).pends = false
  claims : ∀ (thread : Fin threads) next, system.step? thread .claim = some next →
    ((next.stageOf thread).holds = true ↔
      tally.drawn % (1 <<< 32) = tally.seen thread % (1 <<< 32))
  sound : ∀ (thread : Fin threads) next, system.step? thread .claim = some next →
    inTime tally thread (.claim : Move α) = true → (next.stageOf thread).holds = true →
      ∀ other : Fin threads, (system.stageOf other).pends = false

/--
However threads interleave that take a ticket lock by waiting for it or by trying, and
however often its counters wrap: unless a claim has succeeded before which as many tickets
were drawn as there are words, no two threads hold the lock, and a claim in time succeeds
only if nobody holds the lock or waits for it.
-/
theorem run_exclusiveUnderTries (few : threads < 1 <<< 32) (initial : α)
    (trace : List (Fin threads × Move α)) (system : Contention α threads)
    (ran : (start threads initial).run? trace = some system)
    (soon : (start threads initial).noneLate {} trace = true) :
    ExclusiveUnderTries system ((start threads initial).countAll {} trace) := by
  obtain ⟨holder, waiting, counted⟩ := (counted_start threads initial).run few soon ran
  refine ⟨?_, counted.idle_iff, ?_, ?_⟩
  · intro thread other holds holds'
    have held := (counted.holds_iff thread).1 holds
    exact Option.some.inj (held.symm.trans ((counted.holds_iff other).1 holds'))
  · intro thread next stepped
    exact counted.claim_iff (step?_eq_some_iff.1 stepped)
  · intro thread next stepped early claimed
    refine counted.idle_iff.1 (counted.idle_of_claim (step?_eq_some_iff.1 stepped) ?_ claimed)
    simpa [inTime] using early

def tries (thread other : Fin threads) : List (Fin threads × Move Nat) :=
  [(thread, .probe), (other, .draw), (other, .look), (thread, .claim), (thread, .probe),
    (other, .read), (other, .write (· + 1)), (other, .lookUp), (other, .serve), (thread, .claim),
    (thread, .probe), (other, .probe), (thread, .claim), (other, .claim)]

theorem run_exclusiveUnderTries_sample :
    2 < 1 <<< 32 ∧ (start 2 0).noneLate {} (tries 0 1) = true ∧
    (start 2 0).run? (tries 0 1) = some ⟨⟨2, 1⟩, 1, #v[.inside, .outside]⟩ ∧
    ExclusiveUnderTries ⟨⟨2, 1⟩, 1, #v[.inside, .outside]⟩
      ((start 2 0).countAll {} (tries 0 1)) := by
  have few : 2 < 1 <<< 32 := by decide
  have soon : (start 2 0).noneLate {} (tries 0 1) = true := by decide +kernel
  have ran : (start 2 0).run? (tries 0 1) = some ⟨⟨2, 1⟩, 1, #v[.inside, .outside]⟩ := by rfl
  exact ⟨few, soon, ran, run_exclusiveUnderTries few 0 (tries 0 1) _ ran soon⟩

def turnOf (thread : Fin threads) : List (Fin threads × Move α) :=
  [(thread, .draw), (thread, .look), (thread, .read), (thread, .work (pure () : Action α Unit)),
    (thread, .lookUp), (thread, .serve)]

theorem run?_turnOf (free : system.lock.isLocked = false)
    (outside : system.stageOf thread = .outside) :
    system.run? (turnOf thread) =
      some { system with lock := ⟨system.lock.next + 1, system.lock.serving + 1⟩ } := by
  have alone : (⟨system.lock, system.value⟩ : Mutex α).isLocked = false := free
  rw [turnOf, run?_undisturbed free outside, Mutex.run_withLock_of_free alone]
  rfl

/-- However many turns a thread takes undisturbed, both counters count them. -/
theorem run?_turns (free : system.lock.isLocked = false)
    (outside : system.stageOf thread = .outside) (turns : Nat) :
    system.run? (List.replicate turns (turnOf thread)).flatten =
      some { system with lock :=
        ⟨system.lock.next + UInt32.ofNat turns, system.lock.serving + UInt32.ofNat turns⟩ } := by
  induction turns generalizing system with
  | zero => simp [run?]
  | succ turns ih =>
      have counters : ∀ counter : UInt32,
          counter + 1 + UInt32.ofNat turns = counter + UInt32.ofNat (turns + 1) := by
        intro counter
        rw [UInt32.add_assoc, UInt32.add_comm 1, UInt32.ofNat_add]
        rfl
      have later := @ih { system with lock := ⟨system.lock.next + 1, system.lock.serving + 1⟩ }
        (TicketLock.isLocked_release_of_free free) outside
      rw [List.replicate_succ, List.flatten_cons, run?_append, run?_turnOf free outside,
        Option.bind_some, later]
      simp only [counters]

/-- A thread is held up in its attempt until another begins its last turn of a whole circle. -/
def heldUp (thread other : Fin threads) : List (Fin threads × Move α) :=
  (thread, .probe) :: ((List.replicate ((1 <<< 32) - 1) (turnOf other)).flatten ++
    [(other, .draw), (other, .look)])

/-- The thread that was held up gets the lock that the other holds. -/
theorem heldUp_claims :
    ∃ system next, (start 2 ()).run? (heldUp 0 1) = some system ∧
      (system.stageOf 1).holds = true ∧ system.step? 0 .claim = some next ∧
      (next.stageOf 0).holds = true ∧ (next.stageOf 1).holds = true := by
  refine ⟨⟨⟨0, 4294967295⟩, (), #v[.probing 0, .inside]⟩,
    ⟨⟨1, 4294967295⟩, (), #v[.inside, .inside]⟩, ?_, rfl, rfl, rfl, rfl⟩
  have probed : (start 2 ()).step? 0 .probe = some ⟨⟨0, 0⟩, (), #v[.probing 0, .outside]⟩ := rfl
  rw [heldUp, run?, probed, Option.bind_some, run?_append, run?_turns rfl rfl, Option.bind_some]
  rfl

end Contention

end PhysicalMemory
