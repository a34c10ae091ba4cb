import PhysicalMemory.Proofs.Sync.Moves

/-!
# The queue behind a ticket lock

The tickets that were drawn and not yet served are a window on the circle of words.
Its first ticket belongs to the thread that holds the lock, if one does, and the others
to the waiting threads in the order in which they drew.  As long as the threads are
fewer than the words of thirty-two bits no two places of the window have the same
ticket, however often the counters have wrapped, so each move of a thread is a move of
this queue.
-/

namespace PhysicalMemory

/-- Different places of a window that is no longer than the circle have different tickets. -/
theorem TicketLock.place_unique {base : UInt32} {place place' : Nat} (h : place < 1 <<< 32)
    (h' : place' < 1 <<< 32) (same : base + UInt32.ofNat place = base + UInt32.ofNat place') :
    place = place' := by
  have tickets := congrArg UInt32.toNat ((UInt32.add_right_inj base).1 same)
  rwa [UInt32.toNat_ofNat_of_lt' h, UInt32.toNat_ofNat_of_lt' h'] at tickets

/-- The move belongs to a thread that has the lock by waiting for it. -/
def Move.queues {α : Type} : Move α → Bool
  | .probe | .claim => false
  | .draw | .look | .read | .write _ | .lookUp | .serve => true

def Move.effect {α : Type} : Move α → α → α
  | .write change, value => change value
  | _, value => value

/-- Whoever is at the stage holds the lock, and what it has seen is still so. -/
def Stage.Current {α : Type} (value : α) (serving : UInt32) : Stage α → Prop
  | .inside | .finished => True
  | .working seen => seen = value
  | .leaving seen => seen = serving
  | .outside | .waiting _ | .probing _ => False

theorem Stage.Current.holds {α : Type} {value : α} {serving : UInt32} {stage : Stage α}
    (current : stage.Current value serving) : stage.holds = true := by
  cases stage <;> first | rfl | cases current

namespace Contention

variable {α : Type} {threads : Nat} {system next : Contention α threads}
  {thread other : Fin threads} {move : Move α}

/-- One thread may hold the lock, others wait for it in order, and all others are outside. -/
structure Queued (system : Contention α threads) (holder : Option (Fin threads))
    (waiting : List (Fin threads)) : Prop where
  nodup : (holder.toList ++ waiting).Nodup
  next_eq : system.lock.next =
    system.lock.serving + UInt32.ofNat (holder.toList.length + waiting.length)
  owns : ∀ thread : Fin threads, holder = some thread →
    (system.stageOf thread).Current system.value system.lock.serving
  waits : ∀ (place : Nat) (thread : Fin threads), waiting[place]? = some thread →
    system.stageOf thread =
      .waiting (system.lock.serving + UInt32.ofNat (holder.toList.length + place))
  outside : ∀ thread : Fin threads, holder ≠ some thread → thread ∉ waiting →
    system.stageOf thread = .outside

/-- What a move of a thread does to the holder of the lock and those who wait for it. -/
inductive Passes (thread : Fin threads) : Move α → Option (Fin threads) → List (Fin threads) →
    Option (Fin threads) → List (Fin threads) → Prop where
  | draw {holder waiting} : Passes thread .draw holder waiting holder (waiting ++ [thread])
  | wait {holder waiting} : Passes thread .look holder waiting holder waiting
  | enter {waiting} : Passes thread .look none (thread :: waiting) (some thread) waiting
  | read {waiting} : Passes thread .read (some thread) waiting (some thread) waiting
  | write {waiting} (change : α → α) :
      Passes thread (.write change) (some thread) waiting (some thread) waiting
  | lookUp {waiting} : Passes thread .lookUp (some thread) waiting (some thread) waiting
  | serve {waiting} : Passes thread .serve (some thread) waiting none waiting

theorem queued_start (threads : Nat) (value : α) :
    (start threads value).Queued none [] where
  nodup := List.nodup_nil
  next_eq := rfl
  owns := by rintro thread ⟨⟩
  waits := by simp
  outside := by simp [stageOf, start, Vector.get_eq_getElem]

namespace Queued

variable {holder : Option (Fin threads)} {waiting : List (Fin threads)}

/-- A thread holds the lock, waits for it at some place, or is outside. -/
theorem cases (queued : system.Queued holder waiting) (thread : Fin threads) :
    (holder = some thread ∧ (system.stageOf thread).Current system.value system.lock.serving) ∨
    (holder ≠ some thread ∧ ∃ place, waiting[place]? = some thread ∧ system.stageOf thread =
      .waiting (system.lock.serving + UInt32.ofNat (holder.toList.length + place))) ∨
    (holder ≠ some thread ∧ thread ∉ waiting ∧ system.stageOf thread = .outside) := by
  by_cases held : holder = some thread
  · exact .inl ⟨held, queued.owns thread held⟩
  by_cases listed : thread ∈ waiting
  · obtain ⟨place, found⟩ := List.getElem?_of_mem listed
    exact .inr (.inl ⟨held, place, found, queued.waits place thread found⟩)
  · exact .inr (.inr ⟨held, listed, queued.outside thread held listed⟩)

/-- Just the holder holds the lock. -/
theorem holds_iff (queued : system.Queued holder waiting) (thread : Fin threads) :
    (system.stageOf thread).holds = true ↔ holder = some thread := by
  rcases queued.cases thread with ⟨held, owns⟩ | ⟨held, place, -, stage⟩ | ⟨held, -, stage⟩
  · exact ⟨fun _ => held, fun _ => owns.holds⟩
  · simp [stage, Stage.holds, held]
  · simp [stage, Stage.holds, held]

theorem length_le (queued : system.Queued holder waiting) :
    holder.toList.length + waiting.length ≤ threads := by
  have count := queued.nodup.length_le_card
  rwa [List.length_append, Fintype.card_fin] at count

theorem eq_nil_of_outside (queued : system.Queued holder waiting)
    (outside : ∀ thread : Fin threads, system.stageOf thread = .outside) :
    holder = none ∧ waiting = [] := by
  refine ⟨?_, ?_⟩
  · cases held : holder with
    | none => rfl
    | some thread =>
        have holds := (queued.owns thread held).holds
        rw [outside thread] at holds
        cases holds
  · cases listed : waiting with
    | nil => rfl
    | cons thread rest =>
        have stage := queued.waits 0 thread (by simp [listed])
        rw [outside thread] at stage
        cases stage

/-- The lock is free when no thread holds it or waits for it. -/
theorem isLocked_iff (queued : system.Queued holder waiting) (few : threads < 1 <<< 32) :
    system.lock.isLocked = false ↔ ∀ thread : Fin threads, system.stageOf thread = .outside := by
  have bound := queued.length_le
  rw [TicketLock.isLocked_eq_false_iff, queued.next_eq]
  constructor
  · intro free
    have same : system.lock.serving + UInt32.ofNat (holder.toList.length + waiting.length) =
        system.lock.serving + UInt32.ofNat 0 := by simpa using free
    have empty := TicketLock.place_unique (by omega) (by omega) same
    obtain ⟨unheld, unwaited⟩ := Nat.add_eq_zero_iff.1 empty
    rw [List.length_eq_zero_iff] at unheld unwaited
    intro thread
    apply queued.outside thread
    · rintro rfl
      cases unheld
    · simp [unwaited]
  · intro outside
    obtain ⟨rfl, rfl⟩ := queued.eq_nil_of_outside outside
    simp

theorem advance (queued : system.Queued (some thread) waiting) {stage : Stage α} {value : α}
    (current : stage.Current value system.lock.serving) :
    ({ system with value := value }.setStage thread stage).Queued (some thread) waiting where
  nodup := queued.nodup
  next_eq := queued.next_eq
  owns := by
    rintro _ ⟨⟩
    rw [stageOf_setStage, if_pos rfl]
    exact current
  waits := by
    intro place other found
    have distinct : other ≠ thread := by
      rintro rfl
      exact (List.nodup_cons.1 queued.nodup).1 (List.mem_of_getElem? found)
    rw [stageOf_setStage, if_neg distinct]
    exact queued.waits place other found
  outside := by
    intro other distinct absent
    rw [stageOf_setStage, if_neg fun same => distinct (congrArg some same.symm)]
    exact queued.outside other distinct absent

/-- A ticket that is drawn is the last place of the queue. -/
theorem draw (queued : system.Queued holder waiting) (stage : system.stageOf thread = .outside) :
    ({ system with lock := system.lock.draw.2 }.setStage thread
      (.waiting system.lock.draw.1)).Queued holder (waiting ++ [thread]) := by
  have unheld : holder ≠ some thread := by
    rintro rfl
    have holds := (queued.owns thread rfl).holds
    rw [stage] at holds
    cases holds
  have unlisted : thread ∉ waiting := by
    intro listed
    obtain ⟨place, found⟩ := List.getElem?_of_mem listed
    have waits := queued.waits place thread found
    rw [stage] at waits
    cases waits
  refine ⟨?_, ?_, ?_, ?_, ?_⟩
  · rw [← List.append_assoc]
    refine List.nodup_append.2 ⟨queued.nodup, List.nodup_singleton thread, ?_⟩
    rintro other member _ same rfl
    rw [List.mem_singleton.1 same, List.mem_append, Option.mem_toList] at member
    exact member.elim unheld unlisted
  · simp only [lock_setStage, TicketLock.draw, List.length_append, List.length_singleton]
    rw [queued.next_eq, UInt32.add_assoc, ← UInt32.ofNat_one, ← UInt32.ofNat_add, Nat.add_assoc]
  · rintro other rfl
    have distinct : other ≠ thread := fun same => unheld (congrArg some same)
    rw [stageOf_setStage, if_neg distinct]
    exact queued.owns other rfl
  · intro place other found
    rw [stageOf_setStage]
    rcases Nat.lt_or_ge place waiting.length with low | high
    · rw [List.getElem?_append_left low] at found
      have distinct : other ≠ thread := by
        rintro rfl
        exact unlisted (List.mem_of_getElem? found)
      rw [if_neg distinct]
      exact queued.waits place other found
    · rw [List.getElem?_append_right high] at found
      obtain ⟨last, rfl⟩ := List.getElem?_eq_some_iff.1 found
      have place_eq : place = waiting.length := by
        rw [List.length_singleton] at last
        omega
      subst place_eq
      simp only [Nat.sub_self, List.getElem_cons_zero, if_true, Stage.waiting.injEq]
      exact queued.next_eq
  · intro other distinct absent
    rw [List.mem_append, not_or, List.mem_singleton] at absent
    rw [stageOf_setStage, if_neg absent.2]
    exact queued.outside other distinct absent.1

/-- Whose ticket is served is the first to wait, and nobody holds the lock. -/
theorem first_of_admits (queued : system.Queued holder waiting) (few : threads < 1 <<< 32)
    {ticket : UInt32} (stage : system.stageOf thread = .waiting ticket)
    (admits : system.lock.admits ticket = true) :
    holder = none ∧ ∃ rest, waiting = thread :: rest := by
  have bound := queued.length_le
  rcases queued.cases thread with ⟨-, owns⟩ | ⟨-, place, found, waits⟩ | ⟨-, -, outside⟩
  · have holds := owns.holds
    rw [stage] at holds
    cases holds
  · have ticket_eq := Stage.waiting.inj (stage.symm.trans waits)
    have inside := (List.getElem?_eq_some_iff.1 found).1
    have served : system.lock.serving + UInt32.ofNat (holder.toList.length + place) =
        system.lock.serving + UInt32.ofNat 0 := by
      rw [← ticket_eq, ← beq_iff_eq.1 admits]
      simp
    have first := TicketLock.place_unique (by omega) (by omega) served
    obtain ⟨unheld, rfl⟩ := Nat.add_eq_zero_iff.1 first
    refine ⟨?_, ?_⟩
    · cases holder with
      | none => rfl
      | some other => cases unheld
    · cases waiting with
      | nil => cases found
      | cons head rest => exact ⟨rest, by rw [Option.some.inj found]⟩
  · rw [stage] at outside
    cases outside

/-- The first to wait may hold the lock. -/
theorem enter (queued : system.Queued none (thread :: waiting)) :
    (system.setStage thread .inside).Queued (some thread) waiting where
  nodup := queued.nodup
  next_eq := by
    rw [lock_setStage, queued.next_eq]
    simp [Nat.add_comm]
  owns := by
    rintro _ ⟨⟩
    rw [stageOf_setStage, if_pos rfl]
    trivial
  waits := by
    intro place other found
    have distinct : other ≠ thread := by
      rintro rfl
      exact (List.nodup_cons.1 queued.nodup).1 (List.mem_of_getElem? found)
    rw [stageOf_setStage, if_neg distinct, queued.waits (place + 1) other found]
    simp [Nat.add_comm]
  outside := by
    intro other distinct absent
    have apart : other ≠ thread := fun same => distinct (congrArg some same.symm)
    rw [stageOf_setStage, if_neg apart]
    exact queued.outside other (by simp) (by simp [apart, absent])

/-- The holder leaves by serving the ticket of the next place. -/
theorem serve (queued : system.Queued (some thread) waiting) :
    ({ system with lock := system.lock.serveAfter system.lock.serving }.setStage thread
      .outside).Queued none waiting where
  nodup := (List.nodup_cons.1 queued.nodup).2
  next_eq := by
    have next := queued.next_eq
    simp only [lock_setStage, TicketLock.serveAfter, next, Option.toList_some, Option.toList_none,
      List.length_singleton, List.length_nil]
    rw [UInt32.add_assoc, ← UInt32.ofNat_one, ← UInt32.ofNat_add, Nat.zero_add]
  owns := by rintro other ⟨⟩
  waits := by
    intro place other found
    have distinct : other ≠ thread := by
      rintro rfl
      exact (List.nodup_cons.1 queued.nodup).1 (List.mem_of_getElem? found)
    rw [stageOf_setStage, if_neg distinct]
    change system.stageOf other = _
    rw [queued.waits place other found]
    simp only [lock_setStage, TicketLock.serveAfter, Option.toList_some, Option.toList_none,
      List.length_singleton, List.length_nil]
    rw [UInt32.add_assoc, ← UInt32.ofNat_one, ← UInt32.ofNat_add, Nat.zero_add]
  outside := by
    intro other _ absent
    rw [stageOf_setStage]
    split
    · rfl
    · next distinct =>
        exact queued.outside other (fun same => distinct (Option.some.inj same).symm) absent

/-- Whatever move a thread makes that waits for the lock, it is a move of the queue. -/
theorem step (queued : system.Queued holder waiting) (few : threads < 1 <<< 32)
    (queues : move.queues = true) (stepped : system.step? thread move = some next) :
    ∃ holder' waiting', Passes thread move holder waiting holder' waiting' ∧
      next.Queued holder' waiting' ∧ next.value = move.effect system.value := by
  -- What the stage that the move needs says about the holder and about what it has seen.
  have held : ∀ stage, system.stageOf thread = stage → stage.holds = true →
      holder = some thread := by
    rintro stage rfl
    exact (queued.holds_iff thread).1
  have current : ∀ stage, system.stageOf thread = stage → stage.holds = true →
      stage.Current system.value system.lock.serving := by
    rintro stage rfl holds
    exact queued.owns thread (held _ rfl holds)
  cases step?_eq_some_iff.1 stepped with
  | draw stage => exact ⟨_, _, .draw, queued.draw stage, rfl⟩
  | wait => exact ⟨_, _, .wait, queued, rfl⟩
  | enter stage admits =>
      obtain ⟨rfl, rest, rfl⟩ := queued.first_of_admits few stage admits
      exact ⟨_, _, .enter, queued.enter, rfl⟩
  | probe | miss | claim => cases queues
  | read stage =>
      obtain rfl := held _ stage rfl
      exact ⟨_, _, .read, queued.advance rfl, rfl⟩
  | @write seen change stage =>
      obtain rfl := held _ stage rfl
      obtain rfl : seen = _ := current _ stage rfl
      exact ⟨_, _, .write change, queued.advance trivial, rfl⟩
  | lookUp stage =>
      obtain rfl : holder = some thread := by
        rcases stage with stage | stage
        · exact held _ stage rfl
        · exact held _ stage rfl
      exact ⟨_, _, .lookUp, queued.advance rfl, rfl⟩
  | @serve seen stage =>
      obtain rfl := held _ stage rfl
      obtain rfl : seen = _ := current _ stage rfl
      exact ⟨_, _, .serve, queued.serve, rfl⟩

end Queued

end Contention

end PhysicalMemory
