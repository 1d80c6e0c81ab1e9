import Mathlib.Algebra.BigOperators.Finprod

/-!
# Counting entries over a family of lists

The number of entries with some property in all lists of a family, of which only finitely many are
not empty. This is what a reference count has to agree with when the references are list entries.
-/

universe u v

variable {κ : Type u} {α : Type v} {p : α → Bool} {q : κ → List α} {k : κ} {l : List α}

/-- Only finitely many lists of the family have entries. -/
def FinitelyMany (q : κ → List α) : Prop := {k | q k ≠ []}.Finite

/-- The number of entries with property `p`. -/
noncomputable def tally (p : α → Bool) (q : κ → List α) : Nat := ∑ᶠ k, (q k).countP p

lemma finitelyMany_nil : FinitelyMany (fun _ : κ => ([] : List α)) := by
  simp [FinitelyMany]

@[simp] lemma tally_nil : tally p (fun _ : κ => ([] : List α)) = 0 := by
  simp [tally]

lemma tally_eq_zero (h : ∀ k, ∀ a ∈ q k, p a = false) : tally p q = 0 := by
  have hzero : (fun k => (q k).countP p) = fun _ => 0 := by
    funext k
    rw [List.countP_eq_zero]
    intro a ha
    simp [h k a ha]
  rw [tally, hzero, finsum_zero]

variable [DecidableEq κ]

lemma FinitelyMany.update (hq : FinitelyMany q) : FinitelyMany (Function.update q k l) := by
  refine (hq.insert k).subset fun j hj => ?_
  by_cases hjk : j = k
  · exact Set.mem_insert_iff.mpr (Or.inl hjk)
  · refine Set.mem_insert_of_mem _ ?_
    rw [Set.mem_ofPred_eq, Function.update_of_ne hjk] at hj
    exact hj

/-- The entries of one list can be split off. -/
lemma tally_split (hq : FinitelyMany q) :
    tally p q = (q k).countP p + tally p (Function.update q k []) := by
  have hfin : ∀ q : κ → List α, FinitelyMany q → ∀ S : Finset κ,
      (∀ j, q j ≠ [] → j ∈ S) → tally p q = ∑ j ∈ S, (q j).countP p := by
    intro q _ S hS
    refine finsum_eq_sum_of_support_subset _ fun j hj => ?_
    refine hS j ?_
    rintro hnil
    exact hj (by simp [hnil])
  have hmem : ∀ j, q j ≠ [] → j ∈ insert k hq.toFinset := fun j hj =>
    Finset.mem_insert_of_mem (hq.mem_toFinset.mpr hj)
  have hmem' : ∀ j, Function.update q k [] j ≠ [] → j ∈ insert k hq.toFinset := by
    intro j hj
    by_cases hjk : j = k
    · simp [hjk]
    · exact hmem j (by rwa [Function.update_of_ne hjk] at hj)
  have hk : k ∈ insert k hq.toFinset := Finset.mem_insert_self _ _
  rw [hfin q hq _ hmem, hfin _ hq.update _ hmem', ← Finset.add_sum_erase _ _ hk,
    ← Finset.add_sum_erase _ _ hk]
  congr 1
  rw [Function.update_self, List.countP_nil, zero_add]
  refine Finset.sum_congr rfl fun j hj => ?_
  rw [Function.update_of_ne (Finset.ne_of_mem_erase hj)]

/-- Replacing one list changes the tally by the difference of the two lists. -/
lemma tally_update (hq : FinitelyMany q) :
    tally p (Function.update q k l) + (q k).countP p = tally p q + l.countP p := by
  rw [tally_split (k := k) hq.update, tally_split (k := k) hq, Function.update_self,
    Function.update_idem]
  omega

lemma countP_le_tally (hq : FinitelyMany q) : (q k).countP p ≤ tally p q := by
  rw [tally_split (k := k) hq]
  omega

/-- A list whose entries are sorted into a family. -/
lemma tally_fibers (f : α → κ) (l : List α) :
    FinitelyMany (fun k => l.filter fun a => f a = k) ∧
      tally p (fun k => l.filter fun a => f a = k) = l.countP p := by
  induction l with
  | nil => exact ⟨finitelyMany_nil, tally_nil⟩
  | cons a l ih =>
    obtain ⟨hfin, htally⟩ := ih
    have hcons : (fun k => (a :: l).filter fun a => f a = k)
        = Function.update (fun k => l.filter fun a => f a = k) (f a)
          (a :: l.filter fun b => f b = f a) := by
      funext k
      by_cases hk : k = f a
      · subst hk
        simp
      · simp [hk, Ne.symm hk]
    rw [hcons]
    refine ⟨hfin.update, ?_⟩
    have hupdate := tally_update (p := p) (k := f a) (l := a :: l.filter fun b => f b = f a) hfin
    rw [htally, List.countP_cons] at hupdate
    rw [List.countP_cons]
    omega
