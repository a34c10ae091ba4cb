import PhysicalMemory.Chain
import PhysicalMemory.Proofs.Memory.Bytes

/-!
# Threaded chains

A chain is threaded through a list of places when its head and the links of
the places lead along the list and end behind it.  Places that lie apart make
such a chain finite within the bound that walking it assumes, so the walk finds
exactly the list.
-/

namespace PhysicalMemory

namespace Chain

/-- The links lead from a head through the places of a list, in order, and to nothing more. -/
def Threads (ram : Ram) (offset : Nat) : Option Nat → List Nat → Prop
  | head, [] => head = none
  | head, place :: rest => head = some place ∧ Threads ram offset (link ram offset place) rest

/-- So far apart that neither place's word meets the other's. -/
def Apart (place other : Nat) : Prop :=
  place + 8 ≤ other ∨ other + 8 ≤ place

variable {ram ram' : Ram} {offset : Nat} {head : Option Nat} {places : List Nat}

theorem Apart.symm {place other : Nat} (apart : Apart place other) : Apart other place :=
  Or.symm apart

theorem apart_of_aligned {place other : Nat} (first : place % 8 = 0) (second : other % 8 = 0)
    (distinct : place ≠ other) : Apart place other := by
  unfold Apart
  omega

@[simp] theorem threads_nil_iff : Threads ram offset head [] ↔ head = none :=
  Iff.rfl

@[simp] theorem threads_cons_iff {place : Nat} {rest : List Nat} :
    Threads ram offset head (place :: rest) ↔
      head = some place ∧ Threads ram offset (link ram offset place) rest :=
  Iff.rfl

theorem Threads.head?_eq (threads : Threads ram offset head places) : places.head? = head := by
  cases places with
  | nil => exact (threads_nil_iff.1 threads).symm
  | cons place rest => exact threads.1.symm

theorem Threads.congr (threads : Threads ram offset head places)
    (same : ∀ place ∈ places, link ram' offset place = link ram offset place) :
    Threads ram' offset head places := by
  induction places generalizing head with
  | nil => exact threads
  | cons place rest ih =>
      refine ⟨threads.1, ?_⟩
      rw [same place List.mem_cons_self]
      exact ih threads.2 fun other member => same other (List.mem_cons_of_mem place member)

theorem Threads.walk_eq (threads : Threads ram offset head places) {fuel : Nat}
    (enough : places.length ≤ fuel) : walk ram offset fuel head = places := by
  induction places generalizing head fuel with
  | nil =>
      rw [threads_nil_iff.1 threads]
      cases fuel <;> rfl
  | cons place rest ih =>
      cases fuel with
      | zero => simp at enough
      | succ fuel =>
          rw [threads.1, walk, ih threads.2 (by simpa using enough)]

theorem word_ne_zero_of_link {place next : Nat} (h : link ram offset place = some next) :
    ram.word (place + offset) ≠ 0 := by
  intro zero
  rw [link, zero] at h
  cases h

private theorem Threads.word_ne_zero (threads : Threads ram offset head places) :
    ∀ place ∈ places.dropLast, ram.word (place + offset) ≠ 0 := by
  induction places generalizing head with
  | nil => simp
  | cons place rest ih =>
      cases rest with
      | nil => simp
      | cons next rest =>
          intro other member
          rw [List.dropLast_cons_cons, List.mem_cons] at member
          rcases member with rfl | member
          · exact word_ne_zero_of_link threads.2.1
          · exact ih threads.2 other member

/-- A chain through places that lie apart is no longer than the walk along it may be. -/
theorem Threads.length_le (threads : Threads ram offset head places)
    (apart : places.Pairwise Apart) : places.length ≤ ram.written + 1 := by
  have bound := Ram.length_le_written_of_words offset
    (List.Pairwise.sublist (List.dropLast_sublist places) apart) threads.word_ne_zero
  rw [List.length_dropLast] at bound
  omega

theorem Threads.toList_eq (threads : Threads ram offset head places)
    (apart : places.Pairwise Apart) : toList ram offset head = places :=
  threads.walk_eq (threads.length_le apart)

theorem agreesOff_setLink (ram : Ram) (offset place : Nat) (next : Option Nat) :
    ram.AgreesOff (setLink ram offset place next)
      fun byte => place + offset ≤ byte ∧ byte < place + offset + 8 :=
  Ram.agreesOff_write ram (place + offset) (next.getD 0) 8

/-- Where no byte of its word is excepted, a place keeps its link. -/
theorem link_eq_of_agreesOff {excepted : Nat → Prop} (agrees : ram.AgreesOff ram' excepted)
    {place : Nat}
    (outside : ∀ byte, place + offset ≤ byte → byte < place + offset + 8 → ¬ excepted byte) :
    link ram' offset place = link ram offset place := by
  rw [link, link, Ram.word, Ram.word, agrees.read_eq outside]

theorem Threads.setLink (threads : Threads ram offset head places) {place : Nat}
    (apart : ∀ other ∈ places, Apart other place) (next : Option Nat) :
    Threads (setLink ram offset place next) offset head places :=
  threads.congr fun other member => link_setLink_of_apart (apart other member)

end Chain

end PhysicalMemory
