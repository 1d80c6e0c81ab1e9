import Mathlib.Data.List.Induction

/-!
# File trees with symbolic links

Directories, files and symbolic links at paths, and how a path with `.`, `..` and links in it is
resolved. A resolved path is canonical: it leads to its end through directories, and there is no
link at the end.
-/

universe u v

variable {ν : Type u} {φ : Type v}

/-- One part of a path: an empty part or `.`, the part `..`, or a name. -/
inductive Component (ν : Type u) where
  | here
  | up
  | name (n : ν)
  deriving DecidableEq

/-- What is found at a path. The target of a link starts at the root or at the directory of the
link. -/
inductive Node (ν : Type u) (φ : Type v) where
  | dir
  | file (f : φ)
  | link (absolute : Bool) (target : List (Component ν))
  deriving DecidableEq

/-- Whatever is found at a path is in a directory. -/
structure FileTree (ν : Type u) (φ : Type v) where
  node : List ν → Option (Node ν φ)
  root : node [] = some .dir
  parent : ∀ p n, node (p ++ [n]) ≠ none → node p = some .dir

namespace FileTree

variable {t : FileTree ν φ} {cur d p q ns : List ν} {cs : List (Component ν)} {k l : ℕ}

/-- How a walk along a path ends: at a path, at a link with the rest of the way, or nowhere. -/
inductive Walk (ν : Type u) where
  | reached (p : List ν)
  | follow (d : List ν) (rest : List (Component ν))
  | missing

/-- The way from a directory up to the first link. -/
def walk (t : FileTree ν φ) : List ν → List (Component ν) → Walk ν
  | cur, [] => .reached cur
  | cur, c :: cs =>
    match t.node cur with
    | some .dir =>
      match c with
      | .here => walk t cur cs
      | .up => walk t cur.dropLast cs
      | .name n =>
        match t.node (cur ++ [n]) with
        | none => .missing
        | some (.link absolute target) => .follow (if absolute then [] else cur) (target ++ cs)
        | some _ => walk t (cur ++ [n]) cs
    | _ => .missing

/-- The path that is reached through at most `k` links. -/
def resolve (t : FileTree ν φ) : ℕ → List ν → List (Component ν) → Option (List ν)
  | k, cur, cs =>
    match t.walk cur cs with
    | .reached p => some p
    | .missing => none
    | .follow d rest =>
      match k with
      | 0 => none
      | k + 1 => resolve t k d rest

/-- The path that is reached through all links. -/
def Resolves (t : FileTree ν φ) (cur : List ν) (cs : List (Component ν)) (p : List ν) : Prop :=
  ∃ k, t.resolve k cur cs = some p

lemma resolve_mono (h : t.resolve k cur cs = some p) (hl : k ≤ l) :
    t.resolve l cur cs = some p := by
  induction k generalizing l cur cs with
  | zero =>
    rw [resolve] at h ⊢
    cases hw : t.walk cur cs with
    | reached q => simpa only [hw] using h
    | missing => simp only [hw, reduceCtorEq] at h
    | follow d rest => simp only [hw, reduceCtorEq] at h
  | succ k ih =>
    obtain ⟨l, rfl⟩ := Nat.exists_eq_add_of_lt hl
    rw [resolve] at h ⊢
    cases hw : t.walk cur cs with
    | reached q => simpa only [hw] using h
    | missing => simp only [hw, reduceCtorEq] at h
    | follow d rest =>
      simp only [hw] at h ⊢
      exact ih h (by omega)

/-- A path leads to one place at most. -/
lemma Resolves.unique (hp : t.Resolves cur cs p) (hq : t.Resolves cur cs q) : p = q := by
  obtain ⟨k, hk⟩ := hp
  obtain ⟨l, hl⟩ := hq
  have hp := resolve_mono hk (Nat.le_max_left k l)
  have hq := resolve_mono hl (Nat.le_max_right k l)
  exact Option.some.inj (hp.symm.trans hq)

/-! ### Canonical paths -/

/-- There is something at the path, and it is no link. -/
def Canonical (t : FileTree ν φ) (p : List ν) : Prop :=
  ∃ x, t.node p = some x ∧ ∀ absolute target, x ≠ .link absolute target

lemma canonical_of_dir (hd : t.node p = some .dir) : t.Canonical p := ⟨_, hd, by simp⟩

lemma Canonical.dropLast (hp : t.Canonical p) : t.Canonical p.dropLast := by
  induction p using List.reverseRecOn with
  | nil => exact hp
  | append_singleton p n =>
    obtain ⟨x, hx, -⟩ := hp
    rw [List.dropLast_concat]
    exact canonical_of_dir (t.parent p n (by simp [hx]))

/-- Everything above a path is a directory. -/
lemma dir_of_append (hne : ns ≠ []) (hp : t.node (p ++ ns) ≠ none) : t.node p = some .dir := by
  induction ns using List.reverseRecOn with
  | nil => exact absurd rfl hne
  | append_singleton ns n ih =>
    rw [← List.append_assoc] at hp
    have hparent := t.parent (p ++ ns) n hp
    cases ns with
    | nil => simpa using hparent
    | cons m ns => exact ih (by simp) (by simp [hparent])

/-- A walk from a canonical path stays on canonical paths. -/
lemma Canonical.walk (hcur : t.Canonical cur) :
    (∀ p, t.walk cur cs = .reached p → t.Canonical p) ∧
      ∀ d rest, t.walk cur cs = .follow d rest → t.Canonical d := by
  induction cs generalizing cur with
  | nil =>
    constructor
    · rintro p ⟨⟩
      exact hcur
    · rintro d rest ⟨⟩
  | cons c cs ih =>
    cases hdir : t.node cur with
    | none => simp [FileTree.walk, hdir]
    | some x =>
      cases x with
      | file f => simp [FileTree.walk, hdir]
      | link absolute target => simp [FileTree.walk, hdir]
      | dir =>
        cases c with
        | here =>
          simp only [FileTree.walk, hdir]
          exact ih hcur
        | up =>
          simp only [FileTree.walk, hdir]
          exact ih hcur.dropLast
        | name n =>
          cases hn : t.node (cur ++ [n]) with
          | none => simp [FileTree.walk, hdir, hn]
          | some y =>
            cases y with
            | dir =>
              simp only [FileTree.walk, hdir, hn]
              exact ih ⟨_, hn, by simp⟩
            | file f =>
              simp only [FileTree.walk, hdir, hn]
              exact ih ⟨_, hn, by simp⟩
            | link absolute target =>
              simp only [FileTree.walk, hdir, hn]
              constructor
              · rintro p ⟨⟩
              · rintro d rest ⟨⟩
                split_ifs
                · exact canonical_of_dir t.root
                · exact hcur

/-- What a path is resolved to is canonical. -/
lemma Canonical.resolve (hcur : t.Canonical cur) (h : t.resolve k cur cs = some p) :
    t.Canonical p := by
  induction k generalizing cur cs with
  | zero =>
    rw [FileTree.resolve] at h
    cases hw : t.walk cur cs with
    | reached q =>
      simp only [hw, Option.some.injEq] at h
      exact h ▸ hcur.walk.1 q hw
    | missing => simp only [hw, reduceCtorEq] at h
    | follow d rest => simp only [hw, reduceCtorEq] at h
  | succ k ih =>
    rw [FileTree.resolve] at h
    cases hw : t.walk cur cs with
    | reached q =>
      simp only [hw, Option.some.injEq] at h
      exact h ▸ hcur.walk.1 q hw
    | missing => simp only [hw, reduceCtorEq] at h
    | follow d rest =>
      simp only [hw] at h
      exact ih (hcur.walk.2 d rest hw) h

variable (cs) in
/-- The names of a canonical path lead there without a link. -/
lemma walk_names (hp : t.Canonical (cur ++ ns)) :
    t.walk cur (ns.map .name ++ cs) = t.walk (cur ++ ns) cs := by
  induction ns generalizing cur with
  | nil => simp
  | cons n ns ih =>
    have happ : cur ++ n :: ns = (cur ++ [n]) ++ ns := by simp
    obtain ⟨x, hx, hnolink⟩ := hp
    have hcur : t.node cur = some .dir := dir_of_append (List.cons_ne_nil n ns) (by simp [hx])
    rw [happ] at hx ⊢
    rw [← ih ⟨x, hx, hnolink⟩, List.map_cons, List.cons_append, walk]
    simp only [hcur]
    cases ns with
    | nil =>
      rw [List.append_nil] at hx
      cases x with
      | dir => simp only [hx]
      | file f => simp only [hx]
      | link absolute target => exact absurd rfl (hnolink absolute target)
    | cons m ns =>
      have hdir : t.node (cur ++ [n]) = some .dir :=
        dir_of_append (List.cons_ne_nil m ns) (by rw [hx]; simp)
      simp only [hdir]

lemma Canonical.resolve_names (hp : t.Canonical (cur ++ ns)) :
    t.resolve k cur (ns.map .name) = some (cur ++ ns) := by
  have hw := walk_names [] hp
  rw [List.append_nil, FileTree.walk] at hw
  rw [FileTree.resolve]
  simp only [hw]

lemma resolve_here (hcur : t.node cur = some .dir) :
    t.resolve k cur (.here :: cs) = t.resolve k cur cs := by
  have hw : t.walk cur (.here :: cs) = t.walk cur cs := by
    rw [walk]
    simp only [hcur]
  cases k <;> rw [resolve, resolve, hw]

/-- A name in a directory that is resolved is where it is, or it is a link. -/
lemma resolve_entry {n : ν} (hd : t.node d = some .dir)
    (h : t.resolve k [] ((d ++ [n]).map .name) = some q) :
    q = d ++ [n] ∨ ∃ absolute target, t.node (d ++ [n]) = some (.link absolute target) := by
  have hcanon : t.Canonical ([] ++ d) := canonical_of_dir hd
  have hw := walk_names [.name n] hcanon
  rw [List.nil_append, walk] at hw
  cases hn : t.node (d ++ [n]) with
  | none =>
    simp only [hd, hn] at hw
    rw [resolve, List.map_append, List.map_singleton, hw] at h
    cases h
  | some x =>
    cases x with
    | link absolute target => exact Or.inr ⟨absolute, target, rfl⟩
    | dir =>
      have hp : t.Canonical ([] ++ (d ++ [n])) := ⟨_, hn, by simp⟩
      exact Or.inl (Option.some.inj (h.symm.trans hp.resolve_names))
    | file f =>
      have hp : t.Canonical ([] ++ (d ++ [n])) := ⟨_, hn, by simp⟩
      exact Or.inl (Option.some.inj (h.symm.trans hp.resolve_names))

/-! ### Trees with given entries -/

/-- The root with some entries, each of which is in the root or in a directory among them. -/
def ofEntries [DecidableEq ν] (entries : List (List ν × Node ν φ))
    (h : ∀ e ∈ entries, e.1.dropLast = [] ∨ entries.lookup e.1.dropLast = some .dir) :
    FileTree ν φ where
  node p := if p = [] then some .dir else entries.lookup p
  root := if_pos rfl
  parent p n hp := by
    rw [if_neg (by simp)] at hp
    obtain ⟨x, hx⟩ := Option.ne_none_iff_exists'.mp hp
    obtain ⟨l₁, l₂, heq, -⟩ := List.lookup_eq_some_iff.mp hx
    have he := h (p ++ [n], x) (by simp [heq])
    simp only [List.dropLast_concat] at he
    split_ifs with hnil
    · rfl
    · exact he.resolve_left hnil

end FileTree
