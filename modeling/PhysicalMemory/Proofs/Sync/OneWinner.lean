import PhysicalMemory.Proofs.Sync.Course

/-!
# One call wins a cell

The accesses that changed a cell are at any time the first few of the winner's three, and
the accesses of every other call are those of a call that came too late.  `OneWinner` says
this of the calls and the history so far, and every move keeps it.
-/

namespace PhysicalMemory

variable {α β : Type}

namespace CellCallers

variable {callers : CellCallers α β} {history : List (Nat × CellAccess α)} {winner : Option Nat}

def changesOf (history : List (Nat × CellAccess α)) : List (Nat × CellAccess α) :=
  history.filter (·.2.changes)

/-- The three accesses with which a call writes a value. -/
def writing (writer : Nat) (value : α) : List (Nat × CellAccess α) :=
  [(writer, .claim true), (writer, .store value), (writer, .publish)]

theorem found_begin {call : CellCall α β} {place : Nat}
    {entry : CellCall α β × CellProcedure α (CellAnswer α β)}
    (found : (callers.step (.begin call)).calls[place]? = some entry) :
    callers.calls[place]? = some entry ∨
      callers.calls.length ≤ place ∧ entry = (call, call.procedure) := by
  rw [step] at found
  rcases Nat.lt_or_ge place callers.calls.length with low | high
  · rw [List.getElem?_append_left low] at found
    exact .inl found
  · rw [List.getElem?_append_right high, List.getElem?_singleton] at found
    split at found
    · exact .inr ⟨high, (Option.some.inj found).symm⟩
    · cases found

/-- One call may have won the cell and changed it, and no other call has. -/
structure OneWinner (history : List (Nat × CellAccess α)) (callers : CellCallers α β)
    (winner : Option Nat) : Prop where
  empty : winner = none → callers.cell = {} ∧ changesOf history = []
  winning : ∀ place, winner = some place →
    changesOf history = callers.cell.changes.map (place, ·) ∧
    ∃ call procedure, callers.calls[place]? = some (call, procedure) ∧
      Winning callers.cell call (accessesOf place history) procedure
  losing : ∀ place call procedure, callers.calls[place]? = some (call, procedure) →
    winner ≠ some place → Losing callers.cell call (accessesOf place history) procedure
  reads : ∀ before place seen after, history = before ++ (place, .read seen) :: after →
    ∃ writer value, seen = some value ∧ changesOf before = writing writer value
  known : ∀ entry ∈ history, entry.1 < callers.calls.length

theorem oneWinner_start : OneWinner [] ({} : CellCallers α β) none where
  empty := fun _ => ⟨rfl, rfl⟩
  winning := by rintro place ⟨⟩
  losing := by simp
  reads := by simp
  known := by simp

namespace OneWinner

theorem sound (unique : OneWinner history callers winner) : callers.cell.Sound := by
  cases winner with
  | none => exact .inl (unique.empty rfl).1
  | some place =>
      obtain ⟨-, call, procedure, -, winning⟩ := unique.winning place rfl
      exact winning.sound

/-- What is known of the call that won the cell. -/
theorem winning_at (unique : OneWinner history callers winner) {place : Nat}
    {call : CellCall α β} {procedure : CellProcedure α (CellAnswer α β)}
    (found : callers.calls[place]? = some (call, procedure)) (won : winner = some place) :
    changesOf history = callers.cell.changes.map (place, ·) ∧
      Winning callers.cell call (accessesOf place history) procedure := by
  obtain ⟨changes, call', procedure', found', winning⟩ := unique.winning place won
  obtain ⟨rfl, rfl⟩ := Prod.mk.inj (Option.some.inj (found.symm.trans found'))
  exact ⟨changes, winning⟩

theorem course (unique : OneWinner history callers winner) {place : Nat} {call : CellCall α β}
    {procedure : CellProcedure α (CellAnswer α β)}
    (found : callers.calls[place]? = some (call, procedure)) :
    call.Course (accessesOf place history) procedure := by
  by_cases won : winner = some place
  · exact (unique.winning_at found won).2.course
  · exact (unique.losing place call procedure found won).course

theorem accessesOf_eq_nil (unique : OneWinner history callers winner) {place : Nat}
    (fresh : callers.calls.length ≤ place) : accessesOf place history = [] := by
  rw [accessesOf, List.map_eq_nil_iff, List.filter_eq_nil_iff]
  rintro entry made mine
  have known := unique.known entry made
  rw [eq_of_beq mine] at known
  omega

theorem begin (unique : OneWinner history callers winner) (call : CellCall α β) :
    OneWinner history (callers.step (.begin call)) winner where
  empty := unique.empty
  winning := by
    intro place won
    obtain ⟨changes, call', procedure, found, winning⟩ := unique.winning place won
    have inside := (List.getElem?_eq_some_iff.1 found).1
    exact ⟨changes, call', procedure, by rwa [step, List.getElem?_append_left inside], winning⟩
  losing := by
    intro place call' procedure found lost
    rcases found_begin found with before | begun
    · exact unique.losing place call' procedure before lost
    · obtain ⟨fresh, same⟩ := begun
      cases same
      rw [unique.accessesOf_eq_nil fresh]
      exact .begun call
  reads := unique.reads
  known := by
    intro entry made
    simp only [CellCallers.step, List.length_append]
    exact Nat.lt_add_right _ (unique.known entry made)

theorem written (unique : OneWinner history callers winner) {value : α}
    (ready : callers.cell = ⟨.ready, some value⟩) :
    ∃ writer, changesOf history = writing writer value := by
  cases winner with
  | none =>
      rw [(unique.empty rfl).1] at ready
      cases ready
  | some writer =>
      refine ⟨writer, ?_⟩
      rw [(unique.winning writer rfl).1, ready]
      rfl

theorem ready_of_written (unique : OneWinner history callers winner) {writer : Nat} {value : α}
    (written : changesOf history = writing writer value) : callers.cell = ⟨.ready, some value⟩ := by
  have changes : callers.cell.changes = [.claim true, .store value, .publish] := by
    cases winner with
    | none =>
        rw [(unique.empty rfl).2] at written
        cases written
    | some place =>
        have same := congrArg (List.map Prod.snd) ((unique.winning place rfl).1.symm.trans written)
        simpa [writing, Function.comp_def] using same
  rcases unique.sound with empty | ⟨slot, filling⟩ | ⟨stored, ready⟩
  · rw [empty] at changes
    cases changes
  · rw [filling] at changes
    cases slot <;> cases changes
  · rw [ready] at changes ⊢
    cases changes
    rfl

/-- Somebody has won a cell that is not empty. -/
theorem exists_winner (unique : OneWinner history callers winner)
    (taken : callers.cell.phase ≠ .empty) :
    ∃ place, winner = some place := by
  cases winner with
  | none =>
      rw [(unique.empty rfl).1] at taken
      exact absurd rfl taken
  | some place => exact ⟨place, rfl⟩

/-- A read that only looks at the cell finds what was written. -/
theorem reads_append (unique : OneWinner history callers winner) {place : Nat}
    {access : CellAccess α}
    (looks : ∀ seen, access = .read seen → ∃ value, seen = some value ∧
      callers.cell = ⟨.ready, some value⟩)
    {before after : List (Nat × CellAccess α)} {reader : Nat} {seen : Option α}
    (split : history ++ [(place, access)] = before ++ (reader, .read seen) :: after) :
    ∃ writer value, seen = some value ∧ changesOf before = writing writer value := by
  rcases List.eq_nil_or_concat after with rfl | ⟨earlier, last, rfl⟩
  · obtain ⟨rfl, same⟩ := List.append_inj' split rfl
    simp only [List.cons.injEq, Prod.mk.injEq, and_true] at same
    obtain ⟨value, rfl, ready⟩ := looks seen same.2
    obtain ⟨writer, written⟩ := unique.written ready
    exact ⟨writer, value, rfl, written⟩
  · rw [List.concat_eq_append, ← List.cons_append, ← List.append_assoc] at split
    obtain ⟨same, -⟩ := List.append_inj' split rfl
    exact unique.reads before reader seen earlier same

/-- What the others are at remains so when one call fills the cell further. -/
theorem others (unique : OneWinner history callers winner) {cell : OnceCell α}
    (keeps : callers.cell.Keeps cell) {place other : Nat}
    (apart : other ≠ place) {moved : CellCall α β × CellProcedure α (CellAnswer α β)}
    {call : CellCall α β} {procedure : CellProcedure α (CellAnswer α β)}
    (found : (callers.calls.set place moved)[other]? = some (call, procedure))
    (lost : winner ≠ some other) (access : Option (CellAccess α)) :
    Losing cell call (accessesOf other (history ++ (access.map (place, ·)).toList)) procedure := by
  rw [List.getElem?_set_ne apart.symm] at found
  rw [accessesOf_append, accessesOf_of_ne apart, List.append_nil]
  exact (unique.losing other call procedure found lost).mono keeps

theorem known_append (unique : OneWinner history callers winner) {place : Nat}
    (inside : place < callers.calls.length) (access : Option (CellAccess α)) :
    ∀ entry ∈ history ++ (access.map (place, ·)).toList, entry.1 < callers.calls.length := by
  intro entry made
  rcases List.mem_append.1 made with before | now
  · exact unique.known entry before
  · obtain ⟨access, -, rfl⟩ := Option.map_eq_some_iff.1 (Option.mem_toList.1 now)
    exact inside

variable {place : Nat} {call : CellCall α β} {procedure rest : CellProcedure α (CellAnswer α β)}

/-- A step that only looks at the cell leaves the winner and the changes as they are. -/
theorem look (unique : OneWinner history callers winner)
    (found : callers.calls[place]? = some (call, procedure)) {access : Option (CellAccess α)}
    (looks : ∀ made ∈ access, made.Looks callers.cell)
    (mine : if winner = some place
      then Winning callers.cell call (accessesOf place history ++ access.toList) rest
      else Losing callers.cell call (accessesOf place history ++ access.toList) rest) :
    OneWinner (history ++ (access.map (place, ·)).toList)
      { callers with calls := callers.calls.set place (call, rest) } winner := by
  have same : changesOf (history ++ (access.map (place, ·)).toList) = changesOf history := by
    cases access with
    | none => simp [changesOf]
    | some made => simp [changesOf, (looks made rfl).1]
  have inside := (List.getElem?_eq_some_iff.1 found).1
  refine ⟨?_, ?_, ?_, ?_, ?_⟩
  · rw [same]
    exact unique.empty
  · intro other won
    obtain ⟨changes, call', procedure', found', winning⟩ := unique.winning other won
    refine ⟨same.trans changes, ?_⟩
    by_cases mover : other = place
    · subst mover
      rw [if_pos won] at mine
      exact ⟨call, rest, List.getElem?_set_self inside, by rwa [accessesOf_append, accessesOf_self]⟩
    · refine ⟨call', procedure', by rwa [List.getElem?_set_ne (Ne.symm mover)], ?_⟩
      rwa [accessesOf_append, accessesOf_of_ne mover, List.append_nil]
  · intro other call' procedure' found' lost
    by_cases mover : other = place
    · subst mover
      rw [List.getElem?_set_self inside] at found'
      cases found'
      rwa [if_neg lost, ← accessesOf_self, ← accessesOf_append] at mine
    · exact unique.others ⟨fun _ => rfl, id⟩ mover found' lost access
  · intro before reader seen after split
    cases access with
    | none =>
        rw [Option.map_none, Option.toList_none, List.append_nil] at split
        exact unique.reads before reader seen after split
    | some made => exact unique.reads_append (looks made rfl).2 split
  · simpa only [List.length_set] using unique.known_append inside access

/-- A step of the winner, or of a call that wins, may make the next change of the cell. -/
theorem change (unique : OneWinner history callers winner)
    (found : callers.calls[place]? = some (call, procedure))
    (unready : callers.cell.phase ≠ .ready) {access : CellAccess α} {cell : OnceCell α}
    (changes : access.changes = true) (next : cell.changes = callers.cell.changes ++ [access])
    (mine : winner = none ∨ winner = some place)
    (winning : Winning cell call (accessesOf place history ++ [access]) rest) :
    OneWinner (history ++ [(place, access)])
      ⟨cell, callers.calls.set place (call, rest)⟩ (some place) := by
  have inside := (List.getElem?_eq_some_iff.1 found).1
  have before : changesOf history = callers.cell.changes.map (place, ·) := by
    rcases mine with none | won
    · rw [(unique.empty none).1, (unique.empty none).2]
      rfl
    · exact (unique.winning place won).1
  refine ⟨by rintro ⟨⟩, ?_, ?_, ?_, ?_⟩
  · rintro _ ⟨⟩
    refine ⟨?_, call, rest, List.getElem?_set_self inside, ?_⟩
    · rw [changesOf] at before ⊢
      rw [List.filter_append, before, next, List.map_append]
      simp [changes]
    · rwa [accessesOf_append, show accessesOf place [(place, access)] = [access] from
        accessesOf_self place (some access)]
  · intro other call' procedure' found' lost
    have mover : other ≠ place := fun same => lost (congrArg some same.symm)
    have keeps : callers.cell.Keeps cell :=
      ⟨fun ready => absurd ready unready, fun _ empty => by simp [OnceCell.changes, empty] at next⟩
    refine unique.others keeps mover found' ?_ (some access)
    rcases mine with rfl | rfl
    · simp
    · exact lost
  · intro before reader seen after split
    refine unique.reads_append ?_ split
    rintro seen rfl
    cases changes
  · simp only [List.length_set]
    exact unique.known_append inside (some access)

theorem unwon (unique : OneWinner history callers winner) (fresh : callers.cell = {}) :
    winner = none := by
  cases winner with
  | none => rfl
  | some place =>
      obtain ⟨-, _, _, -, winning⟩ := unique.winning place rfl
      rw [fresh] at winning
      cases winning

/-- A step of a call is a change by the winner, or it only looks. -/
theorem advance (unique : OneWinner history callers winner)
    (found : callers.calls[place]? = some (call, procedure)) :
    (∃ winner', OneWinner (history ++ ((procedure.access? callers.cell).map (place, ·)).toList)
      ⟨(procedure.step callers.cell).1,
        callers.calls.set place (call, (procedure.step callers.cell).2)⟩ winner') ∧
      (callers.cell.phase = .ready → (procedure.step callers.cell).1 = callers.cell) := by
  by_cases won : winner = some place
  · obtain ⟨-, winning⟩ := unique.winning_at found won
    obtain ⟨further, ⟨access, made, changes, filling, next⟩ | ⟨same, looks⟩⟩ := winning.step
    · have unready : callers.cell.phase ≠ .ready := by
        rw [filling]
        decide
      rw [made] at further ⊢
      exact ⟨⟨_, unique.change found unready changes next (.inr won) further⟩,
        fun ready => absurd ready unready⟩
    · rw [same] at further ⊢
      exact ⟨⟨winner, unique.look found looks (by rwa [if_pos won])⟩, fun _ => rfl⟩
  · rcases (unique.losing place call procedure found won).step unique.sound with
      ⟨same, losing, looks⟩ | ⟨fresh, filled, winning, made⟩
    · rw [same]
      exact ⟨⟨winner, unique.look found looks (by rwa [if_neg won])⟩, fun _ => rfl⟩
    · have unready : callers.cell.phase ≠ .ready := by
        rw [fresh]
        nofun
      rw [filled, made]
      refine ⟨⟨_, unique.change found unready rfl ?_ (.inl (unique.unwon fresh)) winning⟩,
        fun ready => absurd ready unready⟩
      rw [fresh]
      rfl

/-- Every move keeps the calls together with the history, and leaves alone what is ready. -/
theorem step (unique : OneWinner history callers winner) (move : CellMove α β) :
    (∃ winner', OneWinner (history ++ (callers.access? move).toList) (callers.step move) winner') ∧
      (callers.cell.phase = .ready → (callers.step move).cell = callers.cell) := by
  cases move with
  | begin call => exact ⟨⟨winner, by simpa [access?] using unique.begin call⟩, fun _ => rfl⟩
  | advance place =>
      cases found : callers.calls[place]? with
      | none =>
          exact ⟨⟨winner, by simpa [access?, CellCallers.step, found] using unique⟩,
            fun _ => by simp [CellCallers.step, found]⟩
      | some entry =>
          obtain ⟨⟨winner', unique'⟩, keeps⟩ := unique.advance found
          exact ⟨⟨winner', by simpa [access?, CellCallers.step, found] using unique'⟩,
            fun ready => by simpa [CellCallers.step, found] using keeps ready⟩

theorem run (unique : OneWinner history callers winner) (moves : List (CellMove α β)) :
    (∃ winner', OneWinner (history ++ callers.history moves) (callers.run moves) winner') ∧
      (callers.cell.phase = .ready → (callers.run moves).cell = callers.cell) := by
  induction moves generalizing history callers winner with
  | nil =>
      exact ⟨⟨winner, by simpa [CellCallers.history, CellCallers.run] using unique⟩, fun _ => rfl⟩
  | cons move rest ih =>
      obtain ⟨⟨winner', unique'⟩, keeps⟩ := unique.step move
      obtain ⟨ran, keeps'⟩ := ih unique'
      rw [List.append_assoc] at ran
      refine ⟨ran, fun ready => ?_⟩
      have same := keeps ready
      exact (keeps' (by rw [same, ready])).trans same

/-- Calls that begin when the cell is ready get its value. -/
theorem run_get (unique : OneWinner history callers winner) (late : Nat)
    (ready : callers.cell.phase = .ready) (sees : ∀ place ≥ late, ∀ procedure,
      callers.calls[place]? = some (.get, procedure) → procedure ≠ .done (.seen none))
    (moves : List (CellMove α β)) :
    ∀ place ≥ late, ∀ procedure,
      (callers.run moves).calls[place]? = some (.get, procedure) →
        procedure ≠ .done (.seen none) := by
  induction moves generalizing history callers winner with
  | nil => exact sees
  | cons move rest ih =>
      obtain ⟨⟨winner', unique'⟩, keeps⟩ := unique.step move
      refine ih unique' (by rw [keeps ready, ready]) fun place reached procedure found => ?_
      cases move with
      | begin call =>
          rcases found_begin found with before | begun
          · exact sees place reached procedure before
          · obtain ⟨-, same⟩ := begun
            cases same
            rw [CellProcedure.procedure_get]
            nofun
      | advance mover =>
          rw [CellCallers.step] at found
          split at found
          · exact sees place reached procedure found
          · next call left mine =>
              by_cases same : place = mover
              · subst same
                rw [List.getElem?_set_self (List.getElem?_eq_some_iff.1 mine).1] at found
                cases found
                refine (unique.losing place _ _ mine ?_).step_get ready (sees place reached _ mine)
                intro won
                exact (unique.winning_at mine won).2.call_ne rfl
              · rw [List.getElem?_set_ne (Ne.symm same)] at found
                exact sees place reached procedure found

/-- The winner's claim is in the history, and nobody else's. -/
theorem claimed_iff (unique : OneWinner history callers winner) {place : Nat} :
    (place, .claim true) ∈ history ↔ winner = some place := by
  have changed : (place, .claim true) ∈ history ↔ (place, .claim true) ∈ changesOf history := by
    simp [changesOf, CellAccess.changes]
  rw [changed]
  cases winner with
  | none => simp [(unique.empty rfl).2]
  | some writer =>
      obtain ⟨changes, call, procedure, -, winning⟩ := unique.winning writer rfl
      rw [changes]
      rcases winning.changes_eq with same | ⟨value, same | same⟩ <;> simp [same, eq_comm]

end OneWinner

end CellCallers

end PhysicalMemory
