import PhysicalMemory.Proofs.Sync.OneWinner

/-!
# A cell is written once

What the callers of a cell may rely on follows from how far the winner's three changes have
come, and from the course of each call: `run_writtenOnce` says it of every run.
-/

namespace PhysicalMemory

variable {α β : Type}

namespace CellCallers

variable {callers : CellCallers α β} {history : List (Nat × CellAccess α)} {winner : Option Nat}

def Starts (history : List (Nat × CellAccess α)) (callers : CellCallers α β) (place : Nat) : Prop :=
  (place, .claim true) ∈ history ∧
    ∃ init procedure, callers.calls[place]? = some (.getOrInit init, procedure)

/--
What is so of a history and the calls that made it.  The accesses that changed the cell
are the first few with which one call writes one value; whoever reads finds this value
written, and whoever asks for it later gets it; a call comes back with its own value, with
what its initializer came to, or with the value that was written; and a winner whose
initializer panics leaves nothing to see.  Every call is in its course, and is over after a
few more accesses of its own unless another has won the cell that it wanted to fill.
-/
structure WrittenOnce (history : List (Nat × CellAccess α)) (callers : CellCallers α β) :
    Prop where
  changes : ∃ writer, changesOf history <+: [(writer, .claim true)] ∨
    ∃ value, changesOf history <+: writing writer value
  starts : ∀ place other : Nat, Starts history callers place → Starts history callers other →
    place = other
  reads : ∀ before (place : Nat) seen after, history = before ++ (place, .read seen) :: after →
    ∃ writer value, seen = some value ∧ changesOf before = writing writer value
  gets : ∀ (place : Nat) value,
    callers.calls[place]? = some (.get, .done (.seen (some value))) →
    ∃ writer, changesOf history = writing writer value
  sets : ∀ (place : Nat) value answer,
    callers.calls[place]? = some (.set value, .done answer) →
    (changesOf history = writing place value ∧ answer = .handedBack none) ∨
      ((place, .claim true) ∉ history ∧ (∃ writer, (writer, .claim true) ∈ history) ∧
        answer = .handedBack (some value))
  inits : ∀ (place : Nat) init answer,
    callers.calls[place]? = some (.getOrInit init, .done answer) →
    (∃ value told, init.outcome = (.ok value, told) ∧ changesOf history = writing place value ∧
      answer = .made (.ok value) (some told)) ∨
    (∃ text told, init.outcome = (.error text, told) ∧
      changesOf history = [(place, .claim true)] ∧ answer = .made (.error text) (some told)) ∨
    ((place, .claim true) ∉ history ∧ ∃ writer value,
      changesOf history = writing writer value ∧ answer = .made (.ok value) none)
  panics : ∀ (place : Nat) init procedure text told,
    callers.calls[place]? = some (.getOrInit init, procedure) →
    (place, .claim true) ∈ history → init.outcome = (.error text, told) →
    changesOf history = [(place, .claim true)] ∧
      ∀ (other : Nat) call answer, callers.calls[other]? = some (call, .done answer) →
        answer.observed? = none
  lasting : ∀ writer value, changesOf history = writing writer value →
    ∀ (moves : List (CellMove α β)), ∀ later ≥ callers.calls.length, ∀ answer,
      (callers.run moves).calls[later]? = some (.get, .done answer) →
        answer = .seen (some value)
  courses : ∀ (place : Nat) call procedure,
    callers.calls[place]? = some (call, procedure) →
    call.Course (accessesOf place history) procedure
  ends : ∀ (place : Nat) call procedure, callers.calls[place]? = some (call, procedure) →
    ∀ moves : List (CellMove α β), call.mostAccesses ≤ moves.countP (advances place) →
      (∃ answer, (callers.run moves).calls[place]? = some (call, .done answer)) ∨
        call.Lost (accessesOf place (history ++ callers.history moves))

namespace OneWinner

theorem changes_prefix (unique : OneWinner history callers winner) :
    ∃ writer, changesOf history <+: [(writer, .claim true)] ∨
      ∃ value, changesOf history <+: writing writer value := by
  cases winner with
  | none => exact ⟨0, .inl (by rw [(unique.empty rfl).2]; exact List.nil_prefix)⟩
  | some writer =>
      obtain ⟨changes, call, procedure, -, winning⟩ := unique.winning writer rfl
      refine ⟨writer, ?_⟩
      rw [changes]
      rcases winning.changes_eq with same | ⟨value, same | same⟩
      · exact .inl (by rw [same]; exact List.prefix_rfl)
      · exact .inr ⟨value, by rw [same]; exact ⟨[(writer, .publish)], rfl⟩⟩
      · exact .inr ⟨value, by rw [same]; exact List.prefix_rfl⟩

theorem starts_eq (unique : OneWinner history callers winner) {place other : Nat}
    (starts : Starts history callers place) (starts' : Starts history callers other) :
    place = other := by
  have won := unique.claimed_iff.1 starts.1
  exact Option.some.inj (won.symm.trans (unique.claimed_iff.1 starts'.1))

/-- A call of `get` that is over saw nothing, or the value of a cell that is ready. -/
theorem get_done (unique : OneWinner history callers winner) {place : Nat}
    {answer : CellAnswer α β} (found : callers.calls[place]? = some (.get, .done answer)) :
    answer = .seen none ∨
      ∃ value, callers.cell = ⟨.ready, some value⟩ ∧ answer = .seen (some value) := by
  by_cases won : winner = some place
  · exact absurd rfl (unique.winning_at found won).2.call_ne
  · rcases (unique.losing place _ _ found won).done with
      ⟨-, none⟩ | ⟨_, other, -⟩ | ⟨value, ready, ⟨-, same⟩ | ⟨_, other, -⟩⟩
    · exact .inl none
    · cases other
    · exact .inr ⟨value, ready, same⟩
    · cases other

theorem get_seen (unique : OneWinner history callers winner) {place : Nat} {value : α}
    (found : callers.calls[place]? = some (.get, .done (.seen (some value)))) :
    ∃ writer, changesOf history = writing writer value := by
  rcases unique.get_done found with other | ⟨_, ready, same⟩
  · cases other
  · cases same
    exact unique.written ready

/-- A call of `set` that is over wrote its value, or came too late and has it back. -/
theorem set_done (unique : OneWinner history callers winner) {place : Nat} {value : α}
    {answer : CellAnswer α β} (found : callers.calls[place]? = some (.set value, .done answer)) :
    (changesOf history = writing place value ∧ answer = .handedBack none) ∨
      ((place, .claim true) ∉ history ∧ (∃ writer, (writer, .claim true) ∈ history) ∧
        answer = .handedBack (some value)) := by
  by_cases won : winner = some place
  · obtain ⟨changes, winning⟩ := unique.winning_at found won
    rcases winning.done with ⟨value, same, ready, rfl⟩ | ⟨_, _, other, -⟩
    · cases same
      rw [ready] at changes
      exact .inl ⟨changes, rfl⟩
    · cases other
  · rw [unique.claimed_iff]
    rcases (unique.losing place _ _ found won).done with
      ⟨other, -⟩ | ⟨_, same, taken, rfl⟩ | ⟨_, ready, ⟨other, -⟩ | ⟨_, other, -⟩⟩
    · cases other
    · cases same
      obtain ⟨writer, claimed⟩ := unique.exists_winner taken
      exact .inr ⟨won, ⟨writer, unique.claimed_iff.2 claimed⟩, rfl⟩
    · cases other
    · cases other

/-- A call with an initializer wrote what this made, saw it panic, or is told what was written. -/
theorem getOrInit_done (unique : OneWinner history callers winner) {place : Nat}
    {init : Initializer α β} {answer : CellAnswer α β}
    (found : callers.calls[place]? = some (.getOrInit init, .done answer)) :
    (∃ value told, init.outcome = (.ok value, told) ∧ changesOf history = writing place value ∧
      answer = .made (.ok value) (some told)) ∨
    (∃ text told, init.outcome = (.error text, told) ∧
      changesOf history = [(place, .claim true)] ∧ answer = .made (.error text) (some told)) ∨
    ((place, .claim true) ∉ history ∧ ∃ writer value,
      changesOf history = writing writer value ∧ answer = .made (.ok value) none) := by
  by_cases won : winner = some place
  · obtain ⟨changes, winning⟩ := unique.winning_at found won
    rcases winning.done with ⟨_, other, -⟩ |
      ⟨_, told, same, ⟨value, made, ready, rfl⟩ | ⟨text, panics, filling, rfl⟩⟩
    · cases other
    · cases same
      rw [ready] at changes
      exact .inl ⟨value, told, made, changes, rfl⟩
    · cases same
      rw [filling] at changes
      exact .inr (.inl ⟨text, told, panics, changes, rfl⟩)
  · rw [unique.claimed_iff]
    rcases (unique.losing place _ _ found won).done with
      ⟨other, -⟩ | ⟨_, other, -⟩ | ⟨value, ready, ⟨other, -⟩ | ⟨_, -, rfl⟩⟩
    · cases other
    · cases other
    · cases other
    · obtain ⟨writer, written⟩ := unique.written ready
      exact .inr (.inr ⟨won, writer, value, written, rfl⟩)

/-- While the cell is being filled nobody is told a value. -/
theorem unobserved (unique : OneWinner history callers winner)
    (filling : callers.cell = ⟨.filling, none⟩) {place : Nat} {call : CellCall α β}
    {answer : CellAnswer α β} (found : callers.calls[place]? = some (call, .done answer)) :
    answer.observed? = none := by
  by_cases won : winner = some place
  · rcases (unique.winning_at found won).2.done with ⟨_, -, ready, -⟩ |
      ⟨_, told, -, ⟨value, -, ready, -⟩ | ⟨text, -, -, rfl⟩⟩
    · rw [filling] at ready
      cases ready
    · rw [filling] at ready
      cases ready
    · rfl
  · rcases (unique.losing place _ _ found won).done with
      ⟨-, rfl⟩ | ⟨_, -, -, rfl⟩ | ⟨_, ready, -⟩
    · rfl
    · rfl
    · rw [filling] at ready
      cases ready

theorem panics (unique : OneWinner history callers winner) {place : Nat}
    {init : Initializer α β} {procedure : CellProcedure α (CellAnswer α β)} {text : String}
    {told : β} (found : callers.calls[place]? = some (.getOrInit init, procedure))
    (claimed : (place, .claim true) ∈ history) (panics : init.outcome = (.error text, told)) :
    changesOf history = [(place, .claim true)] ∧
      ∀ (other : Nat) call answer, callers.calls[other]? = some (call, .done answer) →
        answer.observed? = none := by
  obtain ⟨changes, winning⟩ := unique.winning_at found (unique.claimed_iff.1 claimed)
  have filling := winning.of_panic panics
  refine ⟨by rw [changes, filling]; rfl, fun other call answer found' => ?_⟩
  exact unique.unobserved filling found'

/-- Whoever begins to look after the value was published is told it. -/
theorem lasting (unique : OneWinner history callers winner) {writer : Nat} {value : α}
    (written : changesOf history = writing writer value) (moves : List (CellMove α β))
    {later : Nat} (fresh : callers.calls.length ≤ later) {answer : CellAnswer α β}
    (found : (callers.run moves).calls[later]? = some (.get, .done answer)) :
    answer = .seen (some value) := by
  have ready := unique.ready_of_written written
  obtain ⟨⟨_, ran⟩, keeps⟩ := unique.run moves
  have still := keeps (by rw [ready])
  have sees := unique.run_get callers.calls.length (by rw [ready])
    (fun place reached _ found => by
      rw [List.getElem?_eq_none_iff.2 reached] at found
      cases found)
    moves later fresh _ found
  rcases ran.get_done found with rfl | ⟨_, ready', rfl⟩
  · exact absurd rfl sees
  · rw [still, ready] at ready'
    cases ready'
    rfl

theorem ends (unique : OneWinner history callers winner) {place : Nat} {call : CellCall α β}
    {procedure : CellProcedure α (CellAnswer α β)}
    (found : callers.calls[place]? = some (call, procedure)) {moves : List (CellMove α β)}
    (enough : call.mostAccesses ≤ moves.countP (advances place)) :
    (∃ answer, (callers.run moves).calls[place]? = some (call, .done answer)) ∨
      call.Lost (accessesOf place (history ++ callers.history moves)) := by
  obtain ⟨⟨_, ran⟩, -⟩ := unique.run moves
  obtain ⟨rest, found', ⟨answer, rfl⟩ | counted⟩ := run_found found moves
  · exact .inl ⟨answer, found'⟩
  · rcases (ran.course found').length_lt with ⟨answer, rfl⟩ | few | lost
    · exact .inl ⟨answer, found'⟩
    · rw [accessesOf_append, List.length_append] at few
      omega
    · exact .inr lost

theorem writtenOnce (unique : OneWinner history callers winner) : WrittenOnce history callers where
  changes := unique.changes_prefix
  starts := fun _ _ => unique.starts_eq
  reads := unique.reads
  gets := fun _ _ => unique.get_seen
  sets := fun _ _ _ => unique.set_done
  inits := fun _ _ _ => unique.getOrInit_done
  panics := fun _ _ _ _ _ => unique.panics
  lasting := fun _ _ written moves _ fresh _ => unique.lasting written moves fresh
  courses := fun _ _ _ => unique.course
  ends := fun _ _ _ found _ => unique.ends found

end OneWinner

/--
However many calls race for a cell and however their accesses interleave, with
initializers that look at the cell, try to fill it, or panic: it is written once.
-/
theorem run_writtenOnce (moves : List (CellMove α β)) :
    WrittenOnce (({} : CellCallers α β).history moves) (({} : CellCallers α β).run moves) := by
  obtain ⟨⟨winner, unique⟩, -⟩ := (oneWinner_start (α := α) (β := β)).run moves
  exact unique.writtenOnce

end CellCallers

end PhysicalMemory
