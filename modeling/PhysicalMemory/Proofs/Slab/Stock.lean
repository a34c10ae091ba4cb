import PhysicalMemory.Slab.Cache
import PhysicalMemory.Proofs.Slab.Page

/-!
# The stock of a cache

What a cache has is the size of its objects, its slabs list by list and the
free objects of each slab in order.  Making a slab partly full, adding one,
handing an object out and taking one back are operations on that stock.  There
is never more than one slab to hand objects out of: partly full ones have a free
object, and an empty one has all of them.
-/

namespace PhysicalMemory

/-- The size of a cache's objects, its slabs and their free objects. -/
structure Stock where
  size : Nat
  slabs : Fill → List Nat
  free : Nat → List Nat

namespace Stock

def bare (size : Nat) : Stock :=
  ⟨size, fun _ => [], fun _ => []⟩

def all (stock : Stock) : List Nat :=
  Fill.all.flatMap stock.slabs

def capacity (stock : Stock) (pageSize : Nat) : Nat :=
  Slab.capacity pageSize stock.size

def put (stock : Stock) (fill : Fill) (slabs : List Nat) : Stock :=
  { stock with slabs := Function.update stock.slabs fill slabs }

def chain (stock : Stock) (slab : Nat) (free : List Nat) : Stock :=
  { stock with free := Function.update stock.free slab free }

def add (stock : Stock) (fill : Fill) (slab : Nat) (free : List Nat) : Stock :=
  (stock.put fill (slab :: stock.slabs fill)).chain slab free

/-- The stock with its first empty slab, if there is one, made partly full. -/
def promote (stock : Stock) : Stock :=
  match stock.slabs .empty with
  | [] => stock
  | slab :: rest => (stock.put .empty rest).add .partly slab (stock.free slab)

def retire (stock : Stock) : Stock :=
  match stock.slabs .partly with
  | [] => stock
  | slab :: rest => (stock.put .partly rest).add .full slab (stock.free slab)

def take (stock : Stock) (slab : Nat) : Stock :=
  let stock := stock.chain slab (stock.free slab).tail
  if stock.free slab = [] then stock.retire else stock

def give (stock : Stock) (slab index : Nat) : Stock :=
  stock.chain slab (index :: stock.free slab)

/-- Slabs are on one list each, and at most one of them is ready to hand objects out. -/
structure OneReady (stock : Stock) (pageSize : Nat) : Prop where
  nodup : stock.all.Nodup
  fresh : ∀ slab ∈ stock.slabs .empty,
    stock.free slab = List.range (Slab.room (stock.capacity pageSize))
  partial_free : ∀ slab ∈ stock.slabs .partly, stock.free slab ≠ []
  single : (stock.slabs .partly).length + (stock.slabs .empty).length ≤ 1

variable {stock : Stock} {pageSize slab other index : Nat} {fill : Fill} {free : List Nat}

theorem mem_all_iff : slab ∈ stock.all ↔ ∃ fill, slab ∈ stock.slabs fill := by
  rw [all, List.mem_flatMap]
  constructor
  · rintro ⟨fill, -, member⟩
    exact ⟨fill, member⟩
  · rintro ⟨fill, member⟩
    exact ⟨fill, by cases fill <;> simp [Fill.all], member⟩

theorem mem_all (member : slab ∈ stock.slabs fill) : slab ∈ stock.all :=
  mem_all_iff.2 ⟨fill, member⟩

theorem all_eq (stock : Stock) :
    stock.all = stock.slabs .full ++ (stock.slabs .partly ++ stock.slabs .empty) := by
  simp [all, Fill.all]

@[simp] theorem slabs_put (slabs : List Nat) (other : Fill) :
    (stock.put fill slabs).slabs other = if other = fill then slabs else stock.slabs other := by
  simp [put, Function.update_apply]

@[simp] theorem free_put (slabs : List Nat) : (stock.put fill slabs).free = stock.free :=
  rfl

@[simp] theorem size_put (slabs : List Nat) : (stock.put fill slabs).size = stock.size :=
  rfl

@[simp] theorem slabs_chain : (stock.chain slab free).slabs = stock.slabs :=
  rfl

@[simp] theorem all_chain : (stock.chain slab free).all = stock.all :=
  rfl

@[simp] theorem size_chain : (stock.chain slab free).size = stock.size :=
  rfl

@[simp] theorem free_chain :
    (stock.chain slab free).free other = if other = slab then free else stock.free other := by
  simp [chain, Function.update_apply]

@[simp] theorem size_add : (stock.add fill slab free).size = stock.size :=
  rfl

theorem slabs_add (other : Fill) :
    (stock.add fill slab free).slabs other =
      if other = fill then slab :: stock.slabs fill else stock.slabs other := by
  rw [add, slabs_chain, slabs_put]

theorem all_add_perm : (stock.add fill slab free).all.Perm (slab :: stock.all) := by
  simp only [all_eq, slabs_add]
  cases fill with
  | full => simp
  | partly => simp
  | empty => simp [← List.append_assoc]

theorem mem_all_add_iff :
    other ∈ (stock.add fill slab free).all ↔ other = slab ∨ other ∈ stock.all := by
  rw [all_add_perm.mem_iff, List.mem_cons]

theorem all_put_perm {rest : List Nat} (first : stock.slabs fill = slab :: rest) :
    stock.all.Perm (slab :: (stock.put fill rest).all) := by
  simp only [all_eq, slabs_put]
  cases fill with
  | full => simp [first]
  | partly => simp [first]
  | empty => simp [first, ← List.append_assoc]

theorem all_move_perm {target : Fill} {rest : List Nat}
    (first : stock.slabs fill = slab :: rest) :
    ((stock.put fill rest).add target slab free).all.Perm stock.all :=
  all_add_perm.trans (all_put_perm first).symm

theorem promote_nil (none : stock.slabs .empty = []) : stock.promote = stock := by
  rw [promote, none]

theorem promote_cons {rest : List Nat} (first : stock.slabs .empty = slab :: rest) :
    stock.promote = (stock.put .empty rest).add .partly slab (stock.free slab) := by
  rw [promote, first]

theorem retire_cons {rest : List Nat} (first : stock.slabs .partly = slab :: rest) :
    stock.retire = (stock.put .partly rest).add .full slab (stock.free slab) := by
  rw [retire, first]

theorem take_last (last : (stock.free slab).tail = []) :
    stock.take slab = (stock.chain slab []).retire := by
  rw [take, last]
  simp

theorem take_more (more : (stock.free slab).tail ≠ []) :
    stock.take slab = stock.chain slab (stock.free slab).tail := by
  simp [take, more]

theorem all_promote_perm (stock : Stock) : stock.promote.all.Perm stock.all := by
  unfold promote
  split
  · exact .refl _
  · next first => exact all_move_perm first

theorem all_retire_perm (stock : Stock) : stock.retire.all.Perm stock.all := by
  unfold retire
  split
  · exact .refl _
  · next first => exact all_move_perm first

theorem all_take_perm (stock : Stock) (slab : Nat) : (stock.take slab).all.Perm stock.all := by
  simp only [take]
  split
  · exact all_retire_perm _
  · exact .refl _

@[simp] theorem size_promote (stock : Stock) : stock.promote.size = stock.size := by
  unfold promote
  split <;> rfl

@[simp] theorem size_retire (stock : Stock) : stock.retire.size = stock.size := by
  unfold retire
  split <;> rfl

@[simp] theorem size_take (stock : Stock) (slab : Nat) : (stock.take slab).size = stock.size := by
  simp only [take]
  split <;> simp

theorem free_move (stock : Stock) (fill target : Fill) (slab : Nat) (rest : List Nat) :
    ((stock.put fill rest).add target slab (stock.free slab)).free = stock.free := by
  funext other
  simp only [add, free_chain, free_put]
  split
  · next same => rw [same]
  · rfl

theorem free_promote (stock : Stock) : stock.promote.free = stock.free := by
  unfold promote
  split
  · rfl
  · exact stock.free_move _ _ _ _

theorem free_retire (stock : Stock) : stock.retire.free = stock.free := by
  unfold retire
  split
  · rfl
  · exact stock.free_move _ _ _ _

theorem free_take (stock : Stock) (slab other : Nat) :
    (stock.take slab).free other =
      if other = slab then (stock.free slab).tail else stock.free other := by
  simp only [take]
  split
  · rw [free_retire, free_chain]
  · rw [free_chain]

theorem capacity_congr {stock' : Stock} (h : stock'.size = stock.size) :
    stock'.capacity pageSize = stock.capacity pageSize := by
  rw [capacity, capacity, h]

theorem not_mem_bare {size : Nat} : slab ∉ (bare size).all := by
  simp [bare, all_eq]

theorem oneReady_bare (size pageSize : Nat) : (bare size).OneReady pageSize :=
  ⟨by simp [bare, all_eq], by simp [bare], by simp [bare], by simp [bare]⟩

namespace OneReady

theorem add_empty (oneReady : stock.OneReady pageSize) (fresh : slab ∉ stock.all)
    (none : stock.slabs .partly = [] ∧ stock.slabs .empty = [])  :
    (stock.add .empty slab (List.range (Slab.room (stock.capacity pageSize)))).OneReady
      pageSize where
  nodup := all_add_perm.nodup_iff.2 (List.nodup_cons.2 ⟨fresh, oneReady.nodup⟩)
  fresh := by
    intro other member
    rw [slabs_add, if_pos rfl, none.2, List.mem_singleton] at member
    rw [add, free_chain, if_pos member]
    rfl
  partial_free := by
    intro other member
    rw [slabs_add, if_neg (by decide), none.1] at member
    cases member
  single := by
    rw [slabs_add, slabs_add, if_neg (by decide), if_pos rfl, none.1, none.2]
    exact Nat.le_refl 1

theorem add_partly (oneReady : stock.OneReady pageSize) (fresh : slab ∉ stock.all)
    (none : stock.slabs .partly = [] ∧ stock.slabs .empty = []) (some : free ≠ []) :
    (stock.add .partly slab free).OneReady pageSize where
  nodup := all_add_perm.nodup_iff.2 (List.nodup_cons.2 ⟨fresh, oneReady.nodup⟩)
  fresh := by
    intro other member
    rw [slabs_add, if_neg (by decide), none.2] at member
    cases member
  partial_free := by
    intro other member
    rw [slabs_add, if_pos rfl, none.1, List.mem_singleton] at member
    rwa [add, free_chain, if_pos member]
  single := by
    rw [slabs_add, slabs_add, if_pos rfl, if_neg (by decide), none.1, none.2]
    exact Nat.le_refl 1

theorem promote (oneReady : stock.OneReady pageSize) (positive : 0 < stock.capacity pageSize) :
    stock.promote.OneReady pageSize := by
  have nodup := (all_promote_perm stock).nodup_iff.2 oneReady.nodup
  have single := oneReady.single
  cases first : stock.slabs .empty with
  | nil => rwa [promote_nil first]
  | cons slab rest =>
      rw [first, List.length_cons] at single
      have rest_nil : rest = [] := List.length_eq_zero_iff.1 (by omega)
      have partly_nil : stock.slabs .partly = [] := List.length_eq_zero_iff.1 (by omega)
      have partly : stock.promote.slabs .partly = [slab] := by
        rw [promote_cons first, slabs_add, if_pos rfl, slabs_put, if_neg (by decide), partly_nil]
      have empty : stock.promote.slabs .empty = [] := by
        rw [promote_cons first, slabs_add, if_neg (by decide), slabs_put, if_pos rfl, rest_nil]
      refine ⟨nodup, by rw [empty]; simp, ?_, by rw [partly, empty]; exact Nat.le_refl 1⟩
      intro other member
      rw [partly, List.mem_singleton] at member
      rw [free_promote, member, oneReady.fresh slab (by rw [first]; exact List.mem_cons_self)]
      exact List.ne_nil_of_mem (List.mem_range.2 (Slab.room_pos positive))

theorem take (oneReady : stock.OneReady pageSize) {rest : List Nat}
    (first : stock.slabs .partly = slab :: rest) : (stock.take slab).OneReady pageSize := by
  have nodup := (all_take_perm stock slab).nodup_iff.2 oneReady.nodup
  have single := oneReady.single
  rw [first, List.length_cons] at single
  have rest_nil : rest = [] := List.length_eq_zero_iff.1 (by omega)
  have empty_nil : stock.slabs .empty = [] := List.length_eq_zero_iff.1 (by omega)
  by_cases last : (stock.free slab).tail = []
  · have emptied : (stock.chain slab []).slabs .partly = slab :: rest := first
    have retired := retire_cons emptied
    have partly : (stock.take slab).slabs .partly = [] := by
      rw [take_last last, retired, slabs_add, if_neg (by decide), slabs_put, if_pos rfl, rest_nil]
    have empty : (stock.take slab).slabs .empty = [] := by
      rw [take_last last, retired, slabs_add, if_neg (by decide), slabs_put, if_neg (by decide),
        slabs_chain, empty_nil]
    exact ⟨nodup, by rw [empty]; simp, by rw [partly]; simp, by rw [partly, empty]; decide⟩
  · rw [take_more last] at nodup ⊢
    refine ⟨nodup, ?_, ?_, oneReady.single⟩
    · rw [slabs_chain, empty_nil]
      simp
    · intro other member
      rw [slabs_chain, first, rest_nil, List.mem_singleton] at member
      rwa [free_chain, if_pos member]

theorem give (oneReady : stock.OneReady pageSize)
    (below : index < Slab.room (stock.capacity pageSize)) (taken : index ∉ stock.free slab) :
    (stock.give slab index).OneReady pageSize where
  nodup := oneReady.nodup
  fresh := by
    intro other member
    rw [Stock.give, free_chain, if_neg]
    · exact oneReady.fresh other member
    · rintro rfl
      exact taken (by rw [oneReady.fresh other member]; exact List.mem_range.2 below)
  partial_free := by
    intro other member
    rw [Stock.give, free_chain]
    split
    · exact List.cons_ne_nil _ _
    · exact oneReady.partial_free other member
  single := oneReady.single

end OneReady

end Stock

end PhysicalMemory
