import PhysicalMemory.Proofs.Memory.FreeList

/-!
# Free lists in use

A free list is called, and between the calls the owners of other memory store what
they like beside its links.  Through all of this it is the sequence of blocks that
the same calls make of the empty one.  What is said of the steps along the links is
said of them without a bound: they end, because no block is met twice.
-/

namespace PhysicalMemory

namespace FreeList

open Chain (Threads Apart)

inductive Call where
  | push (block : Nat)
  | pop
  | remove (block : Nat)
  deriving DecidableEq

inductive Answer where
  | done
  | taken (block : Option Nat)
  | found (flag : Bool)
  deriving DecidableEq

/-- What happens around a free list: a call on it, or a store by somebody else. -/
inductive Move where
  | called (call : Call)
  | stored (address value count : Nat)
  deriving DecidableEq

namespace Call

def answer (blocks : List Nat) : Call → Answer
  | .push _ => .done
  | .pop => .taken blocks.head?
  | .remove block => .found (block ∈ blocks)

def after (blocks : List Nat) : Call → List Nat
  | .push block => block :: blocks
  | .pop => blocks.tail
  | .remove block => blocks.erase block

def Allowed (blocks : List Nat) : Call → Prop
  | .push block => block ≠ 0 ∧ block < Word.limit ∧ ∀ other ∈ blocks, Apart other block
  | .pop | .remove _ => True

end Call

def OnLinks (blocks : List Nat) (byte : Nat) : Prop :=
  ∃ block ∈ blocks, block ≤ byte ∧ byte < block + 8

namespace Move

def after (blocks : List Nat) : Move → List Nat
  | .called call => call.after blocks
  | .stored _ _ _ => blocks

def Allowed (blocks : List Nat) : Move → Prop
  | .called call => call.Allowed blocks
  | .stored address _ count => ∀ block ∈ blocks, address + count ≤ block ∨ block + 8 ≤ address

end Move

def Allows (blocks : List Nat) : List Move → Prop
  | [] => True
  | move :: rest => move.Allowed blocks ∧ Allows (move.after blocks) rest

instance (place other : Nat) : Decidable (Apart place other) :=
  inferInstanceAs (Decidable (_ ∨ _))

instance (blocks : List Nat) : (call : Call) → Decidable (call.Allowed blocks)
  | .push _ => inferInstanceAs (Decidable (_ ∧ _))
  | .pop | .remove _ => inferInstanceAs (Decidable True)

instance (blocks : List Nat) : (move : Move) → Decidable (move.Allowed blocks)
  | .called call => inferInstanceAs (Decidable (call.Allowed blocks))
  | .stored _ _ _ => inferInstanceAs (Decidable (∀ block ∈ blocks, _))

instance decidableAllows : (blocks : List Nat) → (moves : List Move) →
    Decidable (Allows blocks moves)
  | _, [] => inferInstanceAs (Decidable True)
  | blocks, move :: rest =>
      have := decidableAllows (move.after blocks) rest
      inferInstanceAs (Decidable (_ ∧ _))

structure Site where
  list : FreeList
  ram : Ram

namespace Site

/-- What a call on the list comes back with, and what it leaves. -/
def call (site : Site) : Call → Answer × Site
  | .push block =>
      let (list, ram) := site.list.push site.ram block
      (.done, ⟨list, ram⟩)
  | .pop =>
      match site.list.pop? site.ram with
      | none => (.taken none, site)
      | some (block, list) => (.taken (some block), ⟨list, site.ram⟩)
  | .remove block =>
      match site.list.remove? site.ram block with
      | none => (.found false, site)
      | some (list, ram) => (.found true, ⟨list, ram⟩)

def step (site : Site) : Move → Site
  | .called call => (site.call call).2
  | .stored address value count => ⟨site.list, site.ram.write address value count⟩

def run (site : Site) (moves : List Move) : Site :=
  moves.foldl step site

end Site

/--
What looking for a block behind another comes to, by going along the links for as
long as it takes: at the end nothing was found, and in front of the block looked for
the link is led past it.
-/
inductive Search (ram : Ram) (target : Nat) : Nat → Option Ram → Prop where
  | ends {block : Nat} (last : link ram block = none) : Search ram target block none
  | finds {block : Nat} (here : link ram block = some target) :
      Search ram target block (some (setLink ram block (link ram target)))
  | goesOn {block next : Nat} {left : Option Ram} (here : link ram block = some next)
      (other : next ≠ target) (rest : Search ram target next left) :
      Search ram target block left

variable {site : Site} {ram : Ram} {blocks : List Nat} {call : Call} {move : Move}

/-- With fuel for the blocks that follow, the bounded search does what the search does. -/
theorem search_unlinkBehind {block target fuel : Nat} {rest : List Nat}
    (threads : Threads ram 0 (link ram block) rest) (enough : rest.length < fuel) :
    Search ram target block (unlinkBehind ram target fuel block) := by
  induction fuel generalizing block rest with
  | zero => cases enough
  | succ fuel ih =>
      cases rest with
      | nil =>
          have last : link ram block = none := threads
          rw [unlinkBehind, last]
          exact .ends last
      | cons next rest =>
          obtain ⟨here, further⟩ := threads
          rw [unlinkBehind, show link ram block = some next from here]
          dsimp only
          split
          · next found =>
              subst found
              exact .finds here
          · next other => exact .goesOn here other (ih further (Nat.lt_of_succ_lt_succ enough))

structure Site.Lists (site : Site) (blocks : List Nat) : Prop where
  spells : site.list.Spells site.ram blocks
  apart : blocks.Pairwise Apart
  words : ∀ block ∈ blocks, block < Word.limit ∧ block ≠ 0

/-- What a call does that is allowed: it acts on the sequence and writes only links. -/
structure Site.Served (site : Site) (blocks : List Nat) (call : Call) : Prop where
  answer_eq : (site.call call).1 = call.answer blocks
  lists : (site.call call).2.Lists (call.after blocks)
  agrees : site.ram.AgreesOff (site.call call).2.ram (OnLinks (blocks ++ call.after blocks))

namespace Site.Lists

theorem empty (ram : Ram) : Lists ⟨{}, ram⟩ [] :=
  ⟨spells_empty ram, .nil, by simp⟩

theorem push (lists : site.Lists blocks) {block : Nat}
    (allowed : (Call.push block).Allowed blocks) : site.Served blocks (.push block) := by
  obtain ⟨nonzero, word, apart⟩ := allowed
  refine ⟨rfl, ⟨lists.spells.push nonzero apart lists.words, ?_, ?_⟩, ?_⟩
  · exact List.pairwise_cons.2 ⟨fun other member => (apart other member).symm, lists.apart⟩
  · exact List.forall_mem_cons.2 ⟨⟨word, nonzero⟩, lists.words⟩
  · exact (agreesOff_setLink site.ram block _).mono fun byte inside =>
      ⟨block, List.mem_append_right blocks List.mem_cons_self, inside⟩

theorem pop (lists : site.Lists blocks) : site.Served blocks .pop := by
  cases blocks with
  | nil =>
      have none : site.call .pop = (.taken none, site) := by rw [Site.call, lists.spells.pop?_nil]
      exact ⟨by rw [none]; rfl, by rw [none]; exact lists, by rw [none]; exact .refl _ _⟩
  | cons block rest =>
      obtain ⟨shorter, popped, spells⟩ := lists.spells.pop?_cons
      have taken : site.call .pop = (.taken (some block), ⟨shorter, site.ram⟩) := by
        rw [Site.call, popped]
      refine ⟨by rw [taken]; rfl, ?_, by rw [taken]; exact .refl _ _⟩
      rw [taken]
      exact ⟨spells, (List.pairwise_cons.1 lists.apart).2,
        fun other member => lists.words other (List.mem_cons_of_mem block member)⟩

theorem remove (lists : site.Lists blocks) (block : Nat) : site.Served blocks (.remove block) := by
  by_cases present : block ∈ blocks
  · obtain ⟨shorter, ram, removed, spells, agrees⟩ :=
      lists.spells.exists_remove? lists.apart lists.words present
    have found : site.call (.remove block) = (.found true, ⟨shorter, ram⟩) := by
      rw [Site.call, removed]
    refine ⟨by simp [found, Call.answer, present], ?_, ?_⟩
    · rw [found]
      exact ⟨spells, lists.apart.sublist List.erase_sublist,
        fun other member => lists.words other (List.mem_of_mem_erase member)⟩
    · rw [found]
      exact agrees.mono fun byte ⟨other, member, inside⟩ =>
        ⟨other, List.mem_append_left _ member, inside⟩
  · have missed : site.call (.remove block) = (.found false, site) := by
      rw [Site.call, lists.spells.remove?_of_not_mem present]
    refine ⟨by simp [missed, Call.answer, present], ?_, by rw [missed]; exact .refl _ _⟩
    rw [missed, Call.after, List.erase_of_not_mem present]
    exact lists

theorem served (lists : site.Lists blocks) (allowed : call.Allowed blocks) :
    site.Served blocks call := by
  cases call with
  | push block => exact lists.push allowed
  | pop => exact lists.pop
  | remove block => exact lists.remove block

theorem store (lists : site.Lists blocks) {address value count : Nat}
    (beside : ∀ block ∈ blocks, address + count ≤ block ∨ block + 8 ≤ address) :
    Lists ⟨site.list, site.ram.write address value count⟩ blocks := by
  refine ⟨lists.spells.congr fun block member => ?_, lists.apart, lists.words⟩
  refine Chain.link_eq_of_agreesOff (Ram.agreesOff_write site.ram address value count)
    fun byte low high inside => ?_
  have apart := beside block member
  omega

theorem step (lists : site.Lists blocks) (allowed : move.Allowed blocks) :
    (site.step move).Lists (move.after blocks) := by
  cases move with
  | called call => exact (lists.served allowed).lists
  | stored address value count => exact lists.store allowed

theorem run (lists : site.Lists blocks) {moves : List Move} (allowed : Allows blocks moves) :
    (site.run moves).Lists (moves.foldl Move.after blocks) := by
  induction moves generalizing site blocks with
  | nil => exact lists
  | cons move rest ih => exact ih (lists.step allowed.1) allowed.2

theorem nodup (lists : site.Lists blocks) : blocks.Nodup := by
  refine List.nodup_iff_pairwise_ne.2 (lists.apart.imp fun apart same => ?_)
  simp only [Apart] at apart
  omega

/-- Looking for a block behind the first one ends by itself. -/
theorem search (lists : site.Lists blocks) (target : Nat) {first : Nat}
    (head : site.list.head = some first) :
    Search site.ram target first
      (unlinkBehind site.ram target (site.ram.written + 1) first) := by
  have threads := lists.spells.threads
  cases blocks with
  | nil => cases head.symm.trans (Chain.threads_nil_iff.1 threads)
  | cons block rest =>
      obtain ⟨same, further⟩ := threads
      obtain rfl : first = block := Option.some.inj (head.symm.trans same)
      have bound := lists.spells.threads.length_le lists.apart
      rw [List.length_cons] at bound
      exact search_unlinkBehind further (by omega)

end Site.Lists

/--
A free list is a sequence of blocks.  Going through it gives the blocks in order, and
they are counted.  Its links lead from each of them to the next, meet none twice and
end, so going through it ends, and so does looking for any block.  Calls that are
allowed answer as they do on the sequence, and they write nothing but the links of the
blocks before and after.  A block that is taken out leaves those before it and those
behind it, wherever it stood.
-/
structure Refines (site : Site) (blocks : List Nat) : Prop where
  toList_eq : site.list.toList site.ram = blocks
  length_eq : site.list.length = blocks.length
  threads : Threads site.ram 0 site.list.head blocks
  nodup : blocks.Nodup
  searches : ∀ target, ∀ first ∈ site.list.head, Search site.ram target first
    (unlinkBehind site.ram target (site.ram.written + 1) first)
  answers : ∀ call : Call, call.Allowed blocks → (site.call call).1 = call.answer blocks
  unlinks : ∀ before block behind, blocks = before ++ block :: behind →
    let left := (site.call (.remove block)).2
    left.list.toList left.ram = before ++ behind
  writes : ∀ call : Call, call.Allowed blocks →
    site.ram.AgreesOff (site.call call).2.ram (OnLinks (blocks ++ call.after blocks))

theorem Site.Lists.refines (lists : site.Lists blocks) : Refines site blocks where
  toList_eq := lists.spells.toList_eq lists.apart
  length_eq := lists.spells.length_eq
  threads := lists.spells.threads
  nodup := lists.nodup
  searches := fun target _ head => lists.search target head
  answers := fun _ allowed => (lists.served allowed).answer_eq
  unlinks := by
    rintro before block behind rfl
    have removed := (lists.remove block).lists
    have elsewhere : block ∉ before := fun member =>
      (List.nodup_append.1 lists.nodup).2.2 block member block List.mem_cons_self rfl
    rw [Call.after, List.erase_append_right _ elsewhere, List.erase_cons_head] at removed
    exact removed.spells.toList_eq removed.apart
  writes := fun _ allowed => (lists.served allowed).agrees

/--
However a new list is used, in whatever memory, it is at every point the sequence that
the calls on it so far make of the empty one.
-/
theorem run_refines (ram : Ram) {moves : List Move} (allowed : Allows [] moves) :
    Refines (Site.run ⟨{}, ram⟩ moves) (moves.foldl Move.after []) :=
  ((Site.Lists.empty ram).run allowed).refines

def sampleMoves : List Move :=
  [.called (.push 4096), .called (.push 4104), .called (.push 4112), .called (.remove 4104),
    .stored 4104 0xffffffffffffffff 8, .called (.push 4104), .called (.remove 4096)]

/-- What was put back is first, and the last one was taken out from behind the others. -/
theorem run_refines_sample :
    Allows [] sampleMoves ∧ sampleMoves.foldl Move.after [] = [4104, 4112] ∧
      Refines (Site.run ⟨{}, {}⟩ sampleMoves) [4104, 4112] := by
  have allowed : Allows [] sampleMoves := by decide
  exact ⟨allowed, rfl, run_refines {} allowed⟩

end FreeList

end PhysicalMemory
