import Mathlib.Data.List.Nodup

/-!
# Lists in groups

A list is contiguous if equal entries stand next to each other. Removing entries keeps this, and so
does inserting an entry behind one that is equal to it. In a contiguous list the entries that are
followed by a different one are the distinct values of the list, each once.
-/

universe u v

variable {α : Type u} {β : Type v}

/-- Equal entries are neighbours: a value that occurs again occurs in the next position. -/
def Contiguous : List β → Prop
  | [] => True
  | b :: l => (b ∈ l → l.head? = some b) ∧ Contiguous l

namespace Contiguous

@[simp] lemma nil : Contiguous ([] : List β) := trivial

lemma cons_of_notMem {b : β} {l : List β} (hb : b ∉ l) (h : Contiguous l) : Contiguous (b :: l) :=
  ⟨fun hmem => absurd hmem hb, h⟩

/-- In a sublist of the rest, the first value still comes first. -/
lemma head_of_sublist {b : β} {l l' : List β} (h : Contiguous (b :: l)) (hsub : l'.Sublist l)
    (hb : b ∈ l') : l'.head? = some b := by
  induction hsub with
  | slnil => simp at hb
  | cons c hsub ih =>
    have hc : c = b := by simpa using h.1 (List.mem_cons_of_mem _ (hsub.subset hb))
    subst hc
    exact ih h.2 hb
  | cons_cons c hsub _ =>
    have hc : c = b := by
      rcases List.mem_cons.mp hb with rfl | hmem
      · rfl
      · simpa using h.1 (List.mem_cons_of_mem _ (hsub.subset hmem))
    rw [hc, List.head?_cons]

/-- Groups can be seen under injective labels. -/
lemma of_map {f : α → β} (hf : Function.Injective f) {l : List α} (h : Contiguous (l.map f)) :
    Contiguous l := by
  induction l with
  | nil => trivial
  | cons a l ih =>
    refine ⟨fun ha => ?_, ih h.2⟩
    have hhead := h.1 (List.mem_map_of_mem ha)
    rw [List.head?_map] at hhead
    exact Option.map_injective hf hhead

/-- Removing entries keeps the groups together. -/
lemma sublist {l l' : List β} (hsub : l'.Sublist l) (h : Contiguous l) : Contiguous l' := by
  induction hsub with
  | slnil => trivial
  | cons _ _ ih => exact ih h.2
  | cons_cons b hsub ih => exact ⟨head_of_sublist h hsub, ih h.2⟩

end Contiguous

/-! ### Insertion behind an entry -/

section insertAfter

variable [DecidableEq α] {x y z : α} {l : List α} {f : α → β}

/-- Insert `y` right behind the first `x`. -/
def insertAfter (x y : α) : List α → List α
  | [] => []
  | a :: l => if a = x then a :: y :: l else a :: insertAfter x y l

lemma insertAfter_perm (hx : x ∈ l) : (insertAfter x y l).Perm (y :: l) := by
  induction l with
  | nil => simp at hx
  | cons a l ih =>
    rw [insertAfter]
    split_ifs with ha
    · exact List.Perm.swap y a l
    · have hx' : x ∈ l := by simpa [Ne.symm ha] using hx
      exact ((ih hx').cons a).trans (List.Perm.swap y a l)

lemma mem_insertAfter (hx : x ∈ l) : z ∈ insertAfter x y l ↔ z = y ∨ z ∈ l := by
  rw [(insertAfter_perm hx).mem_iff, List.mem_cons]

lemma head?_insertAfter : (insertAfter x y l).head? = l.head? := by
  cases l with
  | nil => rfl
  | cons a l =>
    rw [insertAfter]
    split_ifs <;> rfl

/-- An entry inserted behind one of its group joins the group. -/
lemma contiguous_insertAfter (hx : x ∈ l) (hf : f y = f x) (h : Contiguous (l.map f)) :
    Contiguous ((insertAfter x y l).map f) := by
  induction l with
  | nil => simp at hx
  | cons a l ih =>
    rw [insertAfter]
    split_ifs with ha
    · subst ha
      refine ⟨fun _ => by simp [hf], ?_, h.2⟩
      rw [hf]
      exact h.1
    · have hx' : x ∈ l := by simpa [Ne.symm ha] using hx
      refine ⟨fun hmem => ?_, ih hx' h.2⟩
      have hmem' : f a ∈ l.map f := by
        obtain ⟨z, hz, hfz⟩ := List.mem_map.mp hmem
        rcases (mem_insertAfter hx').mp hz with rfl | hz
        · rw [← hfz, hf]
          exact List.mem_map_of_mem hx'
        · rw [← hfz]
          exact List.mem_map_of_mem hz
      have hhead := h.1 hmem'
      rw [List.head?_map] at hhead ⊢
      rw [head?_insertAfter]
      exact hhead

end insertAfter

/-! ### The last entry of every group -/

section groupEnds

variable [DecidableEq β]

/-- The values at the positions that are not followed by the same value. -/
def groupEnds : List β → List β
  | [] => []
  | b :: l => if l.head? = some b then groupEnds l else b :: groupEnds l

lemma mem_groupEnds {b : β} {l : List β} : b ∈ groupEnds l ↔ b ∈ l := by
  induction l with
  | nil => simp [groupEnds]
  | cons a l ih =>
    rw [groupEnds]
    split_ifs with ha
    · rw [ih, List.mem_cons]
      constructor
      · exact Or.inr
      · rintro (rfl | hb)
        · exact List.mem_of_mem_head? ha
        · exact hb
    · rw [List.mem_cons, List.mem_cons, ih]

/-- Every value of a contiguous list ends exactly one group. -/
lemma Contiguous.nodup_groupEnds {l : List β} (h : Contiguous l) : (groupEnds l).Nodup := by
  induction l with
  | nil => exact List.nodup_nil
  | cons a l ih =>
    rw [groupEnds]
    split_ifs with ha
    · exact ih h.2
    · refine List.nodup_cons.mpr ⟨fun hmem => ha (h.1 (mem_groupEnds.mp hmem)), ih h.2⟩

end groupEnds
