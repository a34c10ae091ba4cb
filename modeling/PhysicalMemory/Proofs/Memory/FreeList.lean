import PhysicalMemory.FreeList
import PhysicalMemory.Proofs.Memory.Chain

/-!
# Free lists as sequences

A free list spells a sequence of blocks when its chain is threaded through them
and its count is their number.  Putting a block in front, taking the first one
off and taking any one out act on the sequence as they do on a list, and write
nothing but the links of the blocks in it.
-/

namespace PhysicalMemory

namespace FreeList

open Chain (Threads Apart)

structure Spells (list : FreeList) (ram : Ram) (blocks : List Nat) : Prop where
  threads : Threads ram 0 list.head blocks
  length_eq : list.length = blocks.length

variable {list : FreeList} {ram ram' : Ram} {blocks : List Nat}

theorem spells_empty (ram : Ram) : Spells {} ram [] :=
  ⟨rfl, rfl⟩

theorem Spells.toList_eq (spells : list.Spells ram blocks) (apart : blocks.Pairwise Apart) :
    list.toList ram = blocks :=
  spells.threads.toList_eq apart

theorem Spells.congr (spells : list.Spells ram blocks)
    (same : ∀ block ∈ blocks, link ram' block = link ram block) : list.Spells ram' blocks :=
  ⟨spells.threads.congr same, spells.length_eq⟩

theorem agreesOff_setLink (ram : Ram) (block : Nat) (next : Option Nat) :
    ram.AgreesOff (setLink ram block next) fun byte => block ≤ byte ∧ byte < block + 8 :=
  Chain.agreesOff_setLink ram 0 block next

theorem Spells.push (spells : list.Spells ram blocks) {block : Nat} (nonzero : block ≠ 0)
    (apart : ∀ other ∈ blocks, Apart other block)
    (words : ∀ other ∈ blocks, other < Word.limit ∧ other ≠ 0) :
    (list.push ram block).1.Spells (list.push ram block).2 (block :: blocks) := by
  have head : ∀ address ∈ list.head, address < Word.limit ∧ address ≠ 0 := by
    intro address member
    have first := spells.threads.head?_eq
    rw [Option.mem_def.1 member] at first
    exact words address (List.mem_of_mem_head? (Option.mem_def.2 first))
  refine ⟨⟨Address.pointer?_of_ne_zero nonzero, ?_⟩, ?_⟩
  · have linked : Chain.link (setLink ram block list.head) 0 block = list.head :=
      Chain.link_setLink head
    rw [FreeList.push, linked]
    exact spells.threads.setLink apart list.head
  · simp [FreeList.push, spells.length_eq]

theorem Spells.pop?_nil (spells : list.Spells ram []) : list.pop? ram = none := by
  rw [pop?, show list.head = none from spells.threads]

theorem Spells.pop?_cons {block : Nat} {rest : List Nat}
    (spells : list.Spells ram (block :: rest)) :
    ∃ shorter, list.pop? ram = some (block, shorter) ∧ shorter.Spells ram rest := by
  obtain ⟨head, threads⟩ := spells.threads
  refine ⟨⟨link ram block, list.length - 1⟩, ?_, threads, ?_⟩
  · rw [pop?, head]
  · simp [spells.length_eq]

private theorem unlinkBehind_eq_none {block target : Nat} {rest : List Nat}
    (threads : Threads ram 0 (link ram block) rest) (absent : target ∉ rest) (fuel : Nat) :
    unlinkBehind ram target fuel block = none := by
  induction fuel generalizing block rest with
  | zero => rfl
  | succ fuel ih =>
      cases rest with
      | nil =>
          rw [Chain.threads_nil_iff] at threads
          simp [unlinkBehind, threads]
      | cons next rest =>
          obtain ⟨here, further⟩ := threads
          rw [List.mem_cons, not_or] at absent
          simp only [unlinkBehind, here]
          rw [if_neg (Ne.symm absent.1)]
          exact ih further absent.2

/--
Somewhere behind a block the link to the target is led past it.  Only the link
of the block before the target is written.
-/
private theorem exists_unlinkBehind {block target : Nat} {rest : List Nat}
    (threads : Threads ram 0 (link ram block) rest) (apart : (block :: rest).Pairwise Apart)
    (words : ∀ other ∈ rest, other < Word.limit ∧ other ≠ 0) (present : target ∈ rest)
    {fuel : Nat} (enough : rest.length ≤ fuel) :
    ∃ before ∈ block :: rest, ∃ next,
      unlinkBehind ram target fuel block = some (setLink ram before next) ∧
        Threads (setLink ram before next) 0 (link (setLink ram before next) block)
          (rest.erase target) := by
  induction fuel generalizing block rest with
  | zero =>
      cases rest with
      | nil => cases present
      | cons next rest => simp at enough
  | succ fuel ih =>
      cases rest with
      | nil => cases present
      | cons next rest =>
          obtain ⟨here, further⟩ := threads
          have behind := List.pairwise_cons.1 apart
          simp only [unlinkBehind]
          rw [show link ram block = some next from here]
          by_cases found : next = target
          · subst found
            refine ⟨block, List.mem_cons_self, link ram next, ?_, ?_⟩
            · simp
            have onward : ∀ address ∈ link ram next, address < Word.limit ∧ address ≠ 0 := by
              intro address member
              have first := Threads.head?_eq further
              rw [show Chain.link ram 0 next = some address from member] at first
              exact words address
                (List.mem_cons_of_mem next (List.mem_of_mem_head? (Option.mem_def.2 first)))
            rw [List.erase_cons_head, link_setLink onward]
            exact further.setLink (fun other member =>
              (behind.1 other (List.mem_cons_of_mem next member)).symm) _
          · have elsewhere : target ∈ rest := by
              rcases List.mem_cons.1 present with same | member
              · exact absurd same.symm found
              · exact member
            obtain ⟨before, listed, onward, unlinked, rethreaded⟩ := ih further behind.2
              (fun other member => words other (List.mem_cons_of_mem next member)) elsewhere
              (by simpa using enough)
            refine ⟨before, List.mem_cons_of_mem block listed, onward, ?_, ?_⟩
            · simpa [found] using unlinked
            rw [List.erase_cons_tail (by simpa using found)]
            refine ⟨?_, rethreaded⟩
            -- the block before the target is behind this one, so this link stays
            rw [← here]
            exact link_setLink_of_apart (behind.1 before listed)

theorem Spells.remove?_of_not_mem (spells : list.Spells ram blocks) {target : Nat}
    (absent : target ∉ blocks) : list.remove? ram target = none := by
  cases blocks with
  | nil => rw [remove?, show list.head = none from spells.threads]
  | cons first rest =>
      obtain ⟨head, threads⟩ := spells.threads
      rw [List.mem_cons, not_or] at absent
      rw [remove?, head]
      simp only
      rw [if_neg (Ne.symm absent.1), unlinkBehind_eq_none threads absent.2]
      rfl

/-- A block is taken out wherever it stands, and only links of the list are written. -/
theorem Spells.exists_remove? (spells : list.Spells ram blocks)
    (apart : blocks.Pairwise Apart)
    (words : ∀ other ∈ blocks, other < Word.limit ∧ other ≠ 0) {target : Nat}
    (present : target ∈ blocks) :
    ∃ shorter ram', list.remove? ram target = some (shorter, ram') ∧
      shorter.Spells ram' (blocks.erase target) ∧
      ram.AgreesOff ram' fun byte => ∃ block ∈ blocks, block ≤ byte ∧ byte < block + 8 := by
  cases blocks with
  | nil => cases present
  | cons first rest =>
      obtain ⟨head, threads⟩ := spells.threads
      rw [remove?, head]
      simp only
      by_cases found : first = target
      · subst found
        refine ⟨⟨link ram first, list.length - 1⟩, ram, if_pos rfl, ⟨?_, ?_⟩,
          Ram.AgreesOff.refl _ _⟩
        · rw [List.erase_cons_head]
          exact threads
        · simp [spells.length_eq]
      · have elsewhere : target ∈ rest := by
          rcases List.mem_cons.1 present with same | member
          · exact absurd same.symm found
          · exact member
        have enough : rest.length ≤ ram.written + 1 := by
          have bound := spells.threads.length_le apart
          rw [List.length_cons] at bound
          omega
        obtain ⟨before, listed, onward, unlinked, rethreaded⟩ := exists_unlinkBehind threads
          apart (fun other member => words other (List.mem_cons_of_mem first member)) elsewhere
          enough
        refine ⟨⟨some first, list.length - 1⟩, setLink ram before onward, ?_, ⟨?_, ?_⟩, ?_⟩
        · rw [if_neg found, unlinked]
          rfl
        · rw [List.erase_cons_tail (by simpa using found)]
          exact ⟨rfl, rethreaded⟩
        · rw [List.length_erase_of_mem present, spells.length_eq]
        · exact (agreesOff_setLink ram before onward).mono fun byte inside =>
            ⟨before, listed, inside⟩

end FreeList

end PhysicalMemory
