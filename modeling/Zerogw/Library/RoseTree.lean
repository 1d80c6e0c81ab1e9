import Mathlib.Data.List.Flatten
import Mathlib.Data.List.Perm.Basic

/-!
# Trees and traversals

A traversal of a finite tree lists something before and after what it lists for the items of a node,
and goes below some nodes only. It lists what belongs to the nodes it reaches; the others are hidden
below a node where it stops. A descent goes down one way, on which it may end or get lost.
-/

universe u v w

/-- A tree with any number of items below a node. -/
inductive RoseTree (α : Type u) where
  | node (label : α) (items : List (RoseTree α))

namespace RoseTree

variable {α : Type u} {β : Type v} {t s r : RoseTree α} {before after : RoseTree α → List β}
  {deeper : RoseTree α → Bool} {x : β}

def label : RoseTree α → α
  | .node a _ => a

def items : RoseTree α → List (RoseTree α)
  | .node _ ts => ts

@[elab_as_elim, induction_eliminator]
theorem induct {P : RoseTree α → Prop} (node : ∀ a ts, (∀ t ∈ ts, P t) → P (.node a ts))
    (t : RoseTree α) : P t := by
  refine RoseTree.rec (motive_1 := P) (motive_2 := fun ts => ∀ t ∈ ts, P t) node ?_ ?_ t
  · simp
  · intro t ts ht hts s hs
    rcases List.mem_cons.mp hs with rfl | hs
    · exact ht
    · exact hts s hs

/-! ### Traversals -/

mutual

/-- What a traversal lists for a tree. -/
def visit (before after : RoseTree α → List β) (deeper : RoseTree α → Bool) : RoseTree α → List β
  | .node a ts =>
    before (.node a ts) ++ (if deeper (.node a ts) then visitAll before after deeper ts else []) ++
      after (.node a ts)

def visitAll (before after : RoseTree α → List β) (deeper : RoseTree α → Bool) :
    List (RoseTree α) → List β
  | [] => []
  | t :: ts => t.visit before after deeper ++ visitAll before after deeper ts

end

lemma visitAll_eq (ts : List (RoseTree α)) :
    visitAll before after deeper ts = ts.flatMap (visit before after deeper) := by
  induction ts with
  | nil => rfl
  | cons t ts ih => rw [visitAll, ih, List.flatMap_cons]

lemma visit_eq (t : RoseTree α) : t.visit before after deeper =
    before t ++ (if deeper t then t.items.flatMap (visit before after deeper) else []) ++
      after t := by
  cases t with
  | node a ts => rw [visit, visitAll_eq, items]

/-- All nodes of a tree. -/
def subtrees : RoseTree α → List (RoseTree α) := visit (fun t => [t]) (fun _ => []) fun _ => true

/-- The nodes below a node. -/
def descendants (t : RoseTree α) : List (RoseTree α) := t.items.flatMap subtrees

/-- The nodes that a traversal reaches. -/
def reached (deeper : RoseTree α → Bool) : RoseTree α → List (RoseTree α) :=
  visit (fun t => [t]) (fun _ => []) deeper

/-- The nodes below those where a traversal stops. -/
def hidden (deeper : RoseTree α → Bool) : RoseTree α → List (RoseTree α) :=
  visit (fun t => if deeper t then [] else t.descendants) (fun _ => []) deeper

lemma subtrees_eq (t : RoseTree α) : t.subtrees = t :: t.descendants := by
  rw [subtrees, visit_eq, List.append_nil]
  rfl

lemma reached_eq (t : RoseTree α) :
    t.reached deeper = t :: if deeper t then t.items.flatMap (reached deeper) else [] := by
  rw [reached, visit_eq, List.append_nil]
  rfl

lemma hidden_eq (t : RoseTree α) :
    t.hidden deeper = if deeper t then t.items.flatMap (hidden deeper) else t.descendants := by
  rw [hidden, visit_eq, List.append_nil]
  split_ifs
  · rfl
  · rw [List.append_nil]

lemma mem_subtrees : s ∈ t.subtrees ↔ s = t ∨ s ∈ t.descendants := by
  rw [subtrees_eq, List.mem_cons]

lemma mem_descendants : s ∈ t.descendants ↔ ∃ i ∈ t.items, s ∈ i.subtrees := List.mem_flatMap

lemma reached_true (t : RoseTree α) : t.reached (fun _ => true) = t.subtrees := rfl

/-- A traversal lists what belongs to the nodes it reaches. -/
lemma visit_perm (t : RoseTree α) : (t.visit before after deeper).Perm
    ((t.reached deeper).flatMap fun s => before s ++ after s) := by
  induction t with
  | node a ts ih =>
    rw [visit_eq, reached_eq, List.flatMap_cons, items]
    split_ifs
    · rw [List.flatMap_assoc, List.append_assoc, List.append_assoc]
      apply List.Perm.append_left
      apply List.perm_append_comm.trans
      apply List.Perm.append_left
      exact List.Perm.flatMap_left ts ih
    · simp

/-- A traversal that lists nothing after the items lists everything in the order of the nodes. -/
lemma visit_eq_flatMap (t : RoseTree α) :
    t.visit before (fun _ => []) deeper = (t.reached deeper).flatMap before := by
  induction t with
  | node a ts ih =>
    rw [visit_eq, reached_eq, List.flatMap_cons, items, List.append_nil]
    split_ifs
    · rw [List.flatMap_assoc, List.flatMap_congr ih]
    · rfl

lemma mem_visit : x ∈ t.visit before after deeper ↔
    ∃ s ∈ t.reached deeper, x ∈ before s ∨ x ∈ after s := by
  simp only [t.visit_perm.mem_iff, List.mem_flatMap, List.mem_append]

/-! ### Nodes that are not reached -/

lemma mem_subtrees_trans (hs : s ∈ t.subtrees) (hr : r ∈ s.subtrees) : r ∈ t.subtrees := by
  induction t with
  | node a ts ih =>
    rcases mem_subtrees.mp hs with rfl | hs
    · exact hr
    · obtain ⟨i, hi, hs⟩ := mem_descendants.mp hs
      have hi : i ∈ ts := hi
      exact mem_subtrees.mpr (Or.inr (mem_descendants.mpr ⟨i, hi, ih i hi hs⟩))

/-- Every node is reached or hidden. -/
lemma subtrees_perm (deeper : RoseTree α → Bool) (t : RoseTree α) :
    t.subtrees.Perm (t.reached deeper ++ t.hidden deeper) := by
  induction t with
  | node a ts ih =>
    rw [subtrees_eq, reached_eq, hidden_eq, List.cons_append]
    apply List.Perm.cons
    split_ifs
    · exact (List.Perm.flatMap_left ts ih).trans (List.flatMap_append_perm ts _ _).symm
    · rfl

/-- The hidden nodes are those below a node where the traversal would stop. -/
lemma mem_hidden : r ∈ t.hidden deeper ↔
    ∃ s ∈ t.subtrees, deeper s = false ∧ r ∈ s.descendants := by
  induction t with
  | node a ts ih =>
    rw [hidden_eq]
    by_cases hd : deeper (.node a ts) = true
    · rw [if_pos hd, List.mem_flatMap]
      constructor
      · rintro ⟨i, hi, hr⟩
        obtain ⟨s, hs, hstop, hr⟩ := (ih i hi).mp hr
        exact ⟨s, mem_subtrees.mpr (Or.inr (mem_descendants.mpr ⟨i, hi, hs⟩)), hstop, hr⟩
      · rintro ⟨s, hs, hstop, hr⟩
        rcases mem_subtrees.mp hs with rfl | hs
        · rw [hd] at hstop
          cases hstop
        · obtain ⟨i, hi, hs⟩ := mem_descendants.mp hs
          exact ⟨i, hi, (ih i hi).mpr ⟨s, hs, hstop, hr⟩⟩
    · rw [if_neg hd]
      constructor
      · exact fun hr => ⟨_, mem_subtrees.mpr (Or.inl rfl), Bool.eq_false_iff.mpr hd, hr⟩
      · rintro ⟨s, hs, -, hr⟩
        rcases mem_subtrees.mp hs with rfl | hs
        · exact hr
        · obtain ⟨i, hi, hs⟩ := mem_descendants.mp hs
          exact mem_descendants.mpr ⟨i, hi, mem_subtrees_trans hs (mem_subtrees.mpr (Or.inr hr))⟩

/-! ### Descents -/

/-- What a descent does at a node: it ends, it is lost, or it goes on to one of the items. -/
inductive Turn where
  | stay
  | lost
  | item (i : Nat)

variable {ε : Type w} {next next' : RoseTree α → Except ε Turn}

mutual

/-- The node where a descent comes to an end, and whether it ends there or is lost. -/
def descend (next : RoseTree α → Except ε Turn) : RoseTree α → Except ε (RoseTree α × Bool)
  | .node a ts =>
    match next (.node a ts) with
    | .error e => .error e
    | .ok .stay => .ok (.node a ts, true)
    | .ok .lost => .ok (.node a ts, false)
    | .ok (.item i) => descendAt next (.node a ts) i ts

/-- The descent from one of the items of a node; without that item it is lost. -/
def descendAt (next : RoseTree α → Except ε Turn) (t : RoseTree α) :
    Nat → List (RoseTree α) → Except ε (RoseTree α × Bool)
  | _, [] => .ok (t, false)
  | 0, s :: _ => descend next s
  | i + 1, _ :: ts => descendAt next t i ts

end

/-- A descent from `t` comes past `s`. -/
inductive Passes (next : RoseTree α → Except ε Turn) : RoseTree α → RoseTree α → Prop
  | here {t : RoseTree α} : Passes next t t
  | item {t s r : RoseTree α} {i : Nat} (ht : next t = .ok (.item i)) (hi : t.items[i]? = some s)
      (hs : Passes next s r) : Passes next t r

lemma descendAt_eq (i : Nat) (ts : List (RoseTree α)) :
    descendAt next t i ts = (ts[i]?.map (descend next)).getD (.ok (t, false)) := by
  induction ts generalizing i with
  | nil => rfl
  | cons s ts ih =>
    cases i with
    | zero => rfl
    | succ i => exact ih i

lemma descend_of_error {e : ε} (h : next t = .error e) : t.descend next = .error e := by
  cases t with
  | node a ts => rw [descend, h]

lemma descend_of_stay (h : next t = .ok .stay) : t.descend next = .ok (t, true) := by
  cases t with
  | node a ts => rw [descend, h]

lemma descend_of_lost (h : next t = .ok .lost) : t.descend next = .ok (t, false) := by
  cases t with
  | node a ts => rw [descend, h]

lemma descend_of_item {i : Nat} (h : next t = .ok (.item i)) :
    t.descend next = (t.items[i]?.map (descend next)).getD (.ok (t, false)) := by
  cases t with
  | node a ts =>
    rw [descend, h]
    exact descendAt_eq i ts

/-- Descents agree if they do the same on the way. -/
lemma descend_congr (h : ∀ s, Passes next t s → next' s = next s) :
    t.descend next' = t.descend next := by
  induction t with
  | node a ts ih =>
    have hhere := h _ .here
    cases hnext : next (.node a ts) with
    | error e => rw [descend_of_error hnext, descend_of_error (hhere.trans hnext)]
    | ok turn =>
      cases turn with
      | stay => rw [descend_of_stay hnext, descend_of_stay (hhere.trans hnext)]
      | lost => rw [descend_of_lost hnext, descend_of_lost (hhere.trans hnext)]
      | item i =>
        rw [descend_of_item hnext, descend_of_item (hhere.trans hnext), items]
        cases hi : ts[i]? with
        | none => rfl
        | some s => exact ih s (List.mem_of_getElem? hi) fun r hr => h r (.item hnext hi hr)

/-- A descent ends within the tree. -/
lemma mem_of_descend {found : Bool} (h : t.descend next = .ok (s, found)) : s ∈ t.subtrees := by
  induction t with
  | node a ts ih =>
    cases hnext : next (.node a ts) with
    | error e =>
      rw [descend_of_error hnext] at h
      cases h
    | ok turn =>
      have hself : RoseTree.node a ts ∈ (RoseTree.node a ts).subtrees :=
        mem_subtrees.mpr (Or.inl rfl)
      cases turn with
      | stay =>
        rw [descend_of_stay hnext] at h
        cases h
        exact hself
      | lost =>
        rw [descend_of_lost hnext] at h
        cases h
        exact hself
      | item i =>
        rw [descend_of_item hnext, items] at h
        cases hi : ts[i]? with
        | none =>
          rw [hi] at h
          cases h
          exact hself
        | some u =>
          rw [hi] at h
          have hu : u ∈ ts := List.mem_of_getElem? hi
          exact mem_subtrees.mpr (Or.inr (mem_descendants.mpr ⟨u, hu, ih u hu h⟩))

end RoseTree
