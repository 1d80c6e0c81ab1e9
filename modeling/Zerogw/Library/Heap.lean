import Mathlib.Algebra.Order.BigOperators.Group.Finset

/-!
# Heaps with fresh addresses

A heap maps finitely many addresses to objects. Addresses are handed out in increasing order and
never reused, so a freed address stays dangling and every access to it is detected.
-/

universe u

/-- A finite map from addresses to objects: nothing is allocated from `next` on. -/
structure Heap (α : Type u) where
  get : Nat → Option α
  next : Nat
  fresh : ∀ n, next ≤ n → get n = none

namespace Heap

variable {α : Type u}

def empty : Heap α := ⟨fun _ => none, 0, fun _ _ => rfl⟩

instance : Inhabited (Heap α) := ⟨empty⟩

lemma lt_next {H : Heap α} {n : Nat} {a : α} (h : H.get n = some a) : n < H.next := by
  by_contra hn
  rw [H.fresh n (by omega)] at h
  cases h

/-- Allocate `a` at the address `H.next`. -/
def alloc (a : α) (H : Heap α) : Heap α where
  get := Function.update H.get H.next (some a)
  next := H.next + 1
  fresh n hn := by
    rw [Function.update_of_ne (by omega)]
    exact H.fresh n (by omega)

/-- Overwrite the object at `n` by `f` of it; nothing happens at a dangling address. -/
def modify (n : Nat) (f : α → α) (H : Heap α) : Heap α where
  get := Function.update H.get n ((H.get n).map f)
  next := H.next
  fresh m hm := by
    by_cases hmn : m = n
    · subst hmn
      simp [H.fresh m hm]
    · rw [Function.update_of_ne hmn]
      exact H.fresh m hm

def free (n : Nat) (H : Heap α) : Heap α where
  get := Function.update H.get n none
  next := H.next
  fresh m hm := by
    by_cases hmn : m = n
    · simp [hmn]
    · rw [Function.update_of_ne hmn]
      exact H.fresh m hm

@[simp] lemma get_empty (n : Nat) : (empty : Heap α).get n = none := rfl
@[simp] lemma next_empty : (empty : Heap α).next = 0 := rfl
@[simp] lemma next_alloc (a : α) (H : Heap α) : (H.alloc a).next = H.next + 1 := rfl
@[simp] lemma next_modify (n : Nat) (f : α → α) (H : Heap α) : (H.modify n f).next = H.next := rfl
@[simp] lemma next_free (n : Nat) (H : Heap α) : (H.free n).next = H.next := rfl

@[simp] lemma get_next (H : Heap α) : H.get H.next = none := H.fresh _ le_rfl

@[simp] lemma get_alloc_self (a : α) (H : Heap α) : (H.alloc a).get H.next = some a := by
  simp [alloc]

lemma get_alloc_of_ne {n : Nat} {H : Heap α} (a : α) (h : n ≠ H.next) :
    (H.alloc a).get n = H.get n := by
  simp [alloc, h]

lemma get_alloc (a : α) (H : Heap α) (n : Nat) :
    (H.alloc a).get n = if n = H.next then some a else H.get n := by
  simp [alloc, Function.update_apply]

/-- An object allocated before stays where it is. -/
lemma get_alloc_of_some {n : Nat} {H : Heap α} {b : α} (a : α) (h : H.get n = some b) :
    (H.alloc a).get n = some b := by
  rw [get_alloc_of_ne a (lt_next h).ne, h]

@[simp] lemma get_modify_self (n : Nat) (f : α → α) (H : Heap α) :
    (H.modify n f).get n = (H.get n).map f := by
  simp [modify]

lemma get_modify_of_ne {n m : Nat} (f : α → α) (H : Heap α) (h : m ≠ n) :
    (H.modify n f).get m = H.get m := by
  simp [modify, h]

lemma get_modify (n : Nat) (f : α → α) (H : Heap α) (m : Nat) :
    (H.modify n f).get m = if m = n then (H.get n).map f else H.get m := by
  simp [modify, Function.update_apply]

@[simp] lemma get_free_self (n : Nat) (H : Heap α) : (H.free n).get n = none := by
  simp [free]

lemma get_free_of_ne {n m : Nat} (H : Heap α) (h : m ≠ n) : (H.free n).get m = H.get m := by
  simp [free, h]

lemma get_free (n : Nat) (H : Heap α) (m : Nat) :
    (H.free n).get m = if m = n then none else H.get m := by
  simp [free, Function.update_apply]

/-! ### Counting -/

/-- The number of objects on the heap that satisfy `p`. -/
def count (p : α → Bool) (H : Heap α) : Nat :=
  ((Finset.range H.next).filter fun n => (H.get n).any p).card

@[simp] lemma count_empty (p : α → Bool) : count p (empty : Heap α) = 0 := by
  simp [count]

lemma count_alloc (p : α → Bool) (a : α) (H : Heap α) :
    count p (H.alloc a) = count p H + if p a then 1 else 0 := by
  have hold : ∀ n ∈ Finset.range H.next,
      (((H.alloc a).get n).any p = true ↔ (H.get n).any p = true) := by
    intro n hn
    rw [get_alloc_of_ne a (Finset.mem_range.mp hn).ne]
  unfold count
  rw [next_alloc, Finset.range_add_one, Finset.filter_insert, get_alloc_self,
    Finset.filter_congr hold, Option.any_some]
  by_cases h : p a = true
  · rw [if_pos h, if_pos h, Finset.card_insert_of_notMem (by simp)]
  · rw [if_neg h, if_neg h, Nat.add_zero]

/-- A modification that keeps the truth of `p` keeps the count. -/
lemma count_modify (p : α → Bool) {n : Nat} {f : α → α} {H : Heap α}
    (hf : ∀ a, H.get n = some a → p (f a) = p a) : count p (H.modify n f) = count p H := by
  rw [count]
  rw [next_modify]
  congr 1
  apply Finset.filter_congr
  intro m _
  by_cases hmn : m = n
  · subst hmn
    cases h : H.get m with
    | none => simp [h]
    | some a => simp [h, hf a h]
  · rw [get_modify_of_ne f H hmn]

lemma count_free (p : α → Bool) {n : Nat} {a : α} {H : Heap α} (h : H.get n = some a) :
    count p (H.free n) + (if p a then 1 else 0) = count p H := by
  have hrest : ((Finset.range H.next).filter fun m => ((H.free n).get m).any p)
      = ((Finset.range H.next).filter fun m => (H.get m).any p).erase n := by
    ext m
    by_cases hmn : m = n
    · simp [hmn]
    · simp [get_free_of_ne H hmn, hmn]
  unfold count
  rw [next_free, hrest]
  split_ifs with hp
  · rw [Finset.card_erase_add_one]
    simp [lt_next h, h, hp]
  · rw [Finset.erase_eq_of_notMem (by simp [h, hp]), Nat.add_zero]

lemma count_congr {p q : α → Bool} {H : Heap α} (h : ∀ n a, H.get n = some a → p a = q a) :
    count p H = count q H := by
  rw [count]
  congr 1
  apply Finset.filter_congr
  intro n _
  cases ha : H.get n with
  | none => simp
  | some a => simp [h n a ha]

lemma count_eq_zero {p : α → Bool} {H : Heap α} :
    count p H = 0 ↔ ∀ n a, H.get n = some a → p a = false := by
  simp only [count, Finset.card_eq_zero, Finset.filter_eq_empty_iff, Finset.mem_range]
  constructor
  · intro h n a ha
    simpa [ha] using h (lt_next ha)
  · intro h n _
    cases ha : H.get n with
    | none => simp
    | some a => simp [h n a ha]

end Heap
