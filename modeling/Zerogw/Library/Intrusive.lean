import Mathlib.Data.List.Nodup
import Mathlib.Data.Set.Basic
import Mathlib.Logic.Function.Basic

/-!
# Lists through pointers

Doubly linked lists with the links inside the elements, as the macros of `sys/queue.h` make them. An
element has a pointer to the next element and knows the place of the pointer that leads to itself.
The elements are blocks from `malloc`, and an access to a block that is not allocated has no result.
-/

namespace Intrusive

/-- Where a pointer to an element is: in the head of a list or in another element. -/
inductive Place (κ : Type) where
  | head (k : κ)
  | link (a : Nat)
  deriving DecidableEq

/-- The blocks, each with the two links of an element and a value behind them, and the heads of
lists. `last` is the second pointer in the head of a `TAILQ`. -/
structure Memory (κ α : Type) where
  live : Nat → Bool
  next : Nat
  opened : κ → Bool
  pointer : Place κ → Option Nat
  back : Nat → Place κ
  last : κ → Place κ
  value : Nat → Option α

variable {κ α : Type} {m m' : Memory κ α} {k : κ} {a : Nat} {l l' l₁ l₂ A : List Nat}
  {p q : Place κ} {tailed : Set κ} {L : κ → Option (List Nat)}

/-! ### Paths of pointers -/

/-- The place of the pointer behind the last element. -/
def lastPlace : Place κ → List Nat → Place κ
  | p, [] => p
  | _, a :: l => lastPlace (.link a) l

/-- The places of the pointers to the elements. -/
def sources : Place κ → List Nat → List (Place κ)
  | _, [] => []
  | p, a :: l => p :: sources (.link a) l

/-- The pointers lead from the place `p` through the elements, and these know it. -/
def Path (m : Memory κ α) : Place κ → List Nat → Prop
  | _, [] => True
  | p, a :: l => m.pointer p = some a ∧ m.back a = p ∧ Path m (.link a) l

lemma lastPlace_append : lastPlace p (l₁ ++ l₂) = lastPlace (lastPlace p l₁) l₂ := by
  induction l₁ generalizing p with
  | nil => rfl
  | cons a l₁ ih => exact ih

lemma sources_append_lastPlace : sources p l ++ [lastPlace p l] = p :: l.map .link := by
  induction l generalizing p with
  | nil => rfl
  | cons a l ih => simp [sources, lastPlace, ih]

/-- Before the last pointer every place is another one. -/
lemma lastPlace_notMem_sources (hl : l.Nodup) (hp : ∀ a ∈ l, p ≠ .link a) :
    lastPlace p l ∉ sources p l := by
  have hnodup : (p :: l.map Place.link).Nodup := by
    refine List.nodup_cons.mpr ⟨?_, hl.map fun a b h => by injection h⟩
    simpa [eq_comm] using fun a ha h => hp a ha h
  rw [← sources_append_lastPlace] at hnodup
  intro hmem
  exact (List.disjoint_of_nodup_append hnodup) hmem (List.mem_singleton_self _)

lemma mem_sources (h : q ∈ sources p l) : q = p ∨ ∃ a ∈ l, q = .link a := by
  have hmem : q ∈ p :: l.map Place.link := by
    rw [← sources_append_lastPlace]
    exact List.mem_append_left _ h
  simpa [eq_comm] using hmem

lemma lastPlace_cases : lastPlace p l = p ∨ ∃ a ∈ l, lastPlace p l = .link a := by
  have hmem : lastPlace p l ∈ p :: l.map Place.link := by
    rw [← sources_append_lastPlace]
    exact List.mem_append_right _ (List.mem_singleton_self _)
  simpa [eq_comm] using hmem

lemma path_append : Path m p (l₁ ++ l₂) ↔ Path m p l₁ ∧ Path m (lastPlace p l₁) l₂ := by
  induction l₁ generalizing p with
  | nil => simp [Path, lastPlace]
  | cons a l₁ ih => simp [Path, lastPlace, ih, and_assoc]

/-- A path stays while its pointers and its elements stay. -/
lemma Path.congr (h : Path m p l) (hpointer : ∀ q ∈ sources p l, m'.pointer q = m.pointer q)
    (hback : ∀ a ∈ l, m'.back a = m.back a) : Path m' p l := by
  induction l generalizing p with
  | nil => trivial
  | cons a l ih =>
    obtain ⟨hfirst, hknows, hrest⟩ := h
    refine ⟨?_, ?_, ih hrest (fun q hq => hpointer q ?_) fun b hb => hback b ?_⟩
    · rw [hpointer p (List.mem_cons_self ..), hfirst]
    · rw [hback a (List.mem_cons_self ..), hknows]
    · exact List.mem_cons_of_mem _ hq
    · exact List.mem_cons_of_mem _ hb

/-- The first pointer of a path that ends. -/
lemma Path.pointer_eq (h : Path m p l) (hstop : m.pointer (lastPlace p l) = none) :
    m.pointer p = l.head? := by
  cases l with
  | nil => exact hstop
  | cons a l => exact h.1

/-! ### Lists in memory -/

/-- The pointers from the head `k` make up the list. -/
structure IsList (m : Memory κ α) (k : κ) (l : List Nat) : Prop where
  opened : m.opened k = true
  path : Path m (.head k) l
  stop : m.pointer (lastPlace (.head k) l) = none
  nodup : l.Nodup
  live : ∀ a ∈ l, m.live a = true

/-- What is in memory around an element. -/
lemma IsList.split (h : IsList m k (l₁ ++ a :: l₂)) :
    Path m (.head k) l₁ ∧ m.pointer (lastPlace (.head k) l₁) = some a ∧
      m.back a = lastPlace (.head k) l₁ ∧ Path m (.link a) l₂ ∧
      m.pointer (lastPlace (.link a) l₂) = none := by
  obtain ⟨hbefore, hfirst, hback, hbehind⟩ := path_append.mp h.path
  have hstop := h.stop
  rw [lastPlace_append] at hstop
  exact ⟨hbefore, hfirst, hback, hbehind, hstop⟩

/-- A list stays while its places stay. -/
lemma IsList.congr (h : IsList m k l) (hopened : m'.opened k = m.opened k)
    (hpointer : ∀ p, p = .head k ∨ (∃ a ∈ l, p = .link a) → m'.pointer p = m.pointer p)
    (hback : ∀ a ∈ l, m'.back a = m.back a) (hlive : ∀ a ∈ l, m'.live a = m.live a) :
    IsList m' k l where
  opened := hopened.trans h.opened
  path := h.path.congr (fun _ hq => hpointer _ (mem_sources hq)) hback
  stop := (hpointer _ lastPlace_cases).trans h.stop
  nodup := h.nodup
  live a ha := (hlive a ha).trans (h.live a ha)

/-- The memory holds the lists `L`, which have no element in common, and the heads in `tailed` know
the end of their list. -/
structure Holds (tailed : Set κ) (L : κ → Option (List Nat)) (m : Memory κ α) : Prop where
  list : ∀ k l, L k = some l → IsList m k l
  last : ∀ k l, L k = some l → k ∈ tailed → m.last k = lastPlace (.head k) l
  apart : ∀ k k' l l' a, L k = some l → L k' = some l' → a ∈ l → a ∈ l' → k = k'

/-- The links in the head `k` and in the elements `A` may be others, and nothing else is. -/
structure Within (k : κ) (A : List Nat) (m m' : Memory κ α) : Prop where
  live : m'.live = m.live
  next : m'.next = m.next
  opened : m'.opened = m.opened
  value : m'.value = m.value
  pointer : ∀ p, p ≠ .head k → (∀ a ∈ A, p ≠ .link a) → m'.pointer p = m.pointer p
  back : ∀ a, a ∉ A → m'.back a = m.back a
  last : ∀ k', k' ≠ k → m'.last k' = m.last k'

/-- Lists stay while their links and their elements stay. -/
lemma Holds.keep (h : Holds tailed L m) (hpointer : m'.pointer = m.pointer)
    (hback : m'.back = m.back) (hlast : m'.last = m.last)
    (hopened : ∀ k l, L k = some l → m'.opened k = m.opened k)
    (hlive : ∀ k l a, L k = some l → a ∈ l → m'.live a = m.live a) : Holds tailed L m' where
  list k l hk := (h.list k l hk).congr (hopened k l hk) (fun p _ => congrFun hpointer p)
    (fun a _ => congrFun hback a) fun a ha => hlive k l a hk ha
  last k l hk htail := (congrFun hlast k).trans (h.last k l hk htail)
  apart := h.apart

section

variable [DecidableEq κ]

/-- A list is not looked at any more. -/
lemma Holds.forget (h : Holds tailed L m) (k : κ) : Holds tailed (Function.update L k none) m := by
  have hold : ∀ k' l, Function.update L k none k' = some l → L k' = some l := by
    intro k' l hk'
    by_cases heq : k' = k
    · rw [heq, Function.update_self] at hk'
      cases hk'
    · rw [Function.update_of_ne heq] at hk'
      exact hk'
  exact ⟨fun k' l hk' => h.list k' l (hold k' l hk'), fun k' l hk' => h.last k' l (hold k' l hk'),
    fun k₁ k₂ l₁ l₂ a h₁ h₂ => h.apart k₁ k₂ l₁ l₂ a (hold k₁ l₁ h₁) (hold k₂ l₂ h₂)⟩

/-- One list is linked anew, and the others do not notice. -/
lemma Holds.relink (h : Holds tailed L m) (hw : Within k A m m')
    (hA : ∀ a ∈ A, ∀ k' l', k' ≠ k → L k' = some l' → a ∉ l') (hlist : IsList m' k l)
    (hlast : k ∈ tailed → m'.last k = lastPlace (.head k) l) (hl : ∀ a ∈ l, a ∈ A) :
    Holds tailed (Function.update L k (some l)) m' := by
  have hother : ∀ k' l', k' ≠ k → L k' = some l' → IsList m' k' l' := by
    intro k' l' hne hk'
    refine (h.list k' l' hk').congr (congrFun hw.opened k') ?_ ?_ fun a _ => congrFun hw.live a
    · rintro p (rfl | ⟨b, hb, rfl⟩)
      · exact hw.pointer _ (fun heq => hne (by injection heq)) fun a _ heq => by cases heq
      · refine hw.pointer _ (fun heq => by cases heq) fun a ha heq => ?_
        have hab : b = a := by injection heq
        exact hA a ha k' l' hne hk' (hab ▸ hb)
    · intro a ha
      exact hw.back a fun hmem => hA a hmem k' l' hne hk' ha
  refine ⟨fun k' l' hk' => ?_, fun k' l' hk' htail => ?_, fun k₁ k₂ l₁ l₂ a h₁ h₂ ha₁ ha₂ => ?_⟩
  · by_cases heq : k' = k
    · subst heq
      rw [Function.update_self] at hk'
      exact Option.some.inj hk' ▸ hlist
    · rw [Function.update_of_ne heq] at hk'
      exact hother k' l' heq hk'
  · by_cases heq : k' = k
    · subst heq
      rw [Function.update_self] at hk'
      exact Option.some.inj hk' ▸ hlast htail
    · rw [Function.update_of_ne heq] at hk'
      exact (hw.last k' heq).trans (h.last k' l' hk' htail)
  · by_cases heq₁ : k₁ = k <;> by_cases heq₂ : k₂ = k
    · exact heq₁.trans heq₂.symm
    · subst heq₁
      rw [Function.update_self] at h₁
      rw [Function.update_of_ne heq₂] at h₂
      exact absurd ha₂ (hA a (hl a (Option.some.inj h₁ ▸ ha₁)) k₂ l₂ heq₂ h₂)
    · subst heq₂
      rw [Function.update_self] at h₂
      rw [Function.update_of_ne heq₁] at h₁
      exact absurd ha₁ (hA a (hl a (Option.some.inj h₂ ▸ ha₂)) k₁ l₁ heq₁ h₁)
    · rw [Function.update_of_ne heq₁] at h₁
      rw [Function.update_of_ne heq₂] at h₂
      exact h.apart k₁ k₂ l₁ l₂ a h₁ h₂ ha₁ ha₂

end

namespace Memory

/-! ### Access -/

/-- The place is in a head or in a block that is there. -/
def has (m : Memory κ α) : Place κ → Bool
  | .head k => m.opened k
  | .link a => m.live a

def load (p : Place κ) (m : Memory κ α) : Option (Option Nat) :=
  if m.has p then some (m.pointer p) else none

def loadBack (a : Nat) (m : Memory κ α) : Option (Place κ) :=
  if m.live a then some (m.back a) else none

def loadLast (k : κ) (m : Memory κ α) : Option (Place κ) :=
  if m.opened k then some (m.last k) else none

def loadValue (a : Nat) (m : Memory κ α) : Option α :=
  if m.live a then m.value a else none

def storeBack (a : Nat) (p : Place κ) (m : Memory κ α) : Option (Memory κ α) :=
  if m.live a then some { m with back := Function.update m.back a p } else none

def storeValue (a : Nat) (x : α) (m : Memory κ α) : Option (Memory κ α) :=
  if m.live a then some { m with value := Function.update m.value a (some x) } else none

/-- `malloc`, which gives a block that nobody has had before. -/
def malloc (m : Memory κ α) : Nat × Memory κ α :=
  (m.next, { m with
    live := Function.update m.live m.next true
    next := m.next + 1
    value := Function.update m.value m.next none })

/-- `free` -/
def free (a : Nat) (m : Memory κ α) : Option (Memory κ α) :=
  if m.live a then some { m with live := Function.update m.live a false } else none

lemma has_congr (hlive : m'.live = m.live) (hopened : m'.opened = m.opened) :
    m'.has p = m.has p := by
  cases p with
  | head k => exact congrFun hopened k
  | link a => exact congrFun hlive a

lemma load_eq (h : m.has p = true) : m.load p = some (m.pointer p) := if_pos h

lemma loadBack_eq (h : m.live a = true) : m.loadBack a = some (m.back a) := if_pos h

lemma storeBack_eq (h : m.live a = true) :
    m.storeBack a p = some { m with back := Function.update m.back a p } := if_pos h

/-- The elements from `first` on, if there are at most `n` of them. -/
def walk (m : Memory κ α) : Nat → Option Nat → Option (List Nat)
  | _, none => some []
  | 0, some _ => none
  | n + 1, some a => do
    let next ← m.load (.link a)
    let rest ← m.walk n next
    some (a :: rest)

variable [DecidableEq κ]

def store (p : Place κ) (o : Option Nat) (m : Memory κ α) : Option (Memory κ α) :=
  if m.has p then some { m with pointer := Function.update m.pointer p o } else none

def storeLast (k : κ) (p : Place κ) (m : Memory κ α) : Option (Memory κ α) :=
  if m.opened k then some { m with last := Function.update m.last k p } else none

lemma store_eq {o : Option Nat} (h : m.has p = true) :
    m.store p o = some { m with pointer := Function.update m.pointer p o } := if_pos h

lemma storeLast_eq (h : m.opened k = true) :
    m.storeLast k p = some { m with last := Function.update m.last k p } := if_pos h

/-! ### The macros -/

/-- `TAILQ_INIT` -/
def tailqInit (k : κ) (m : Memory κ α) : Option (Memory κ α) := do
  let m ← m.store (.head k) none
  m.storeLast k (.head k)

/-- `LIST_INSERT_HEAD` -/
def listInsertHead (k : κ) (a : Nat) (m : Memory κ α) : Option (Memory κ α) := do
  let first ← m.load (.head k)
  let m ← m.store (.link a) first
  let m ← match first with
    | some b => m.storeBack b (.link a)
    | none => some m
  let m ← m.store (.head k) (some a)
  m.storeBack a (.head k)

/-- `LIST_REMOVE` -/
def listRemove (a : Nat) (m : Memory κ α) : Option (Memory κ α) := do
  let next ← m.load (.link a)
  let back ← m.loadBack a
  let m ← match next with
    | some b => m.storeBack b back
    | none => some m
  m.store back next

/-- `TAILQ_INSERT_TAIL` -/
def tailqInsertTail (k : κ) (a : Nat) (m : Memory κ α) : Option (Memory κ α) := do
  let m ← m.store (.link a) none
  let last ← m.loadLast k
  let m ← m.storeBack a last
  let m ← m.store last (some a)
  m.storeLast k (.link a)

/-- `TAILQ_REMOVE` -/
def tailqRemove (k : κ) (a : Nat) (m : Memory κ α) : Option (Memory κ α) := do
  let next ← m.load (.link a)
  let back ← m.loadBack a
  let m ← match next with
    | some b => m.storeBack b back
    | none => m.storeLast k back
  m.store back next

end Memory

/-! ### Reading a list -/

/-- The elements are there, and each points to the next one. -/
def Follows (m : Memory κ α) : List Nat → Prop
  | [] => True
  | a :: l => m.live a = true ∧ m.pointer (.link a) = l.head? ∧ Follows m l

lemma Follows.congr (h : Follows m l) (hlive : ∀ a ∈ l, m'.live a = m.live a)
    (hpointer : ∀ a ∈ l, m'.pointer (.link a) = m.pointer (.link a)) : Follows m' l := by
  induction l with
  | nil => trivial
  | cons a l ih =>
    obtain ⟨ha, hnext, hrest⟩ := h
    refine ⟨?_, ?_, ih hrest (fun b hb => hlive b ?_) fun b hb => hpointer b ?_⟩
    · rw [hlive a (List.mem_cons_self ..), ha]
    · rw [hpointer a (List.mem_cons_self ..), hnext]
    · exact List.mem_cons_of_mem _ hb
    · exact List.mem_cons_of_mem _ hb

lemma Path.follows (h : Path m p l) (hstop : m.pointer (lastPlace p l) = none)
    (hlive : ∀ a ∈ l, m.live a = true) : Follows m l := by
  induction l generalizing p with
  | nil => trivial
  | cons a l ih =>
    obtain ⟨-, -, hrest⟩ := h
    refine ⟨hlive a (List.mem_cons_self ..), hrest.pointer_eq hstop, ih hrest hstop fun b hb => ?_⟩
    exact hlive b (List.mem_cons_of_mem _ hb)

lemma IsList.follows (h : IsList m k l) : Follows m l := h.path.follows h.stop h.live

lemma IsList.first (h : IsList m k l) : m.pointer (.head k) = l.head? := h.path.pointer_eq h.stop

/-- The elements are all found. -/
lemma Follows.walk {n : Nat} (h : Follows m l) (hn : l.length ≤ n) :
    m.walk n l.head? = some l := by
  induction l generalizing n with
  | nil => cases n <;> rfl
  | cons a l ih =>
    obtain ⟨ha, hnext, hrest⟩ := h
    cases n with
    | zero => cases hn
    | succ n =>
      have hwalk := ih hrest (Nat.le_of_succ_le_succ hn)
      rw [List.head?_cons, Memory.walk, Memory.load_eq (p := .link a) ha, hnext]
      simp [hwalk]

/-! ### What the macros do -/

/-- The place of the pointer behind the first elements of a list is in memory. -/
lemma IsList.has_lastPlace (h : IsList m k (l₁ ++ l₂)) :
    m.has (lastPlace (.head k) l₁) = true := by
  rcases lastPlace_cases (p := .head k) (l := l₁) with heq | ⟨b, hb, heq⟩
  · rw [heq]
    exact h.opened
  · rw [heq]
    exact h.live b (List.mem_append_left _ hb)

variable [DecidableEq κ]

/-- An element is taken out of its list: the pointer to it passes it by, and the element behind it
knows this pointer. -/
def bypass (p : Place κ) (o : Option Nat) (m : Memory κ α) : Memory κ α :=
  { m with
    pointer := Function.update m.pointer p o
    back := match o with
      | some b => Function.update m.back b p
      | none => m.back }

lemma IsList.bypass (h : IsList m k (l₁ ++ a :: l₂)) :
    IsList (bypass (lastPlace (.head k) l₁) l₂.head? m) k (l₁ ++ l₂) := by
  obtain ⟨hbefore, -, -, hbehind, hstop⟩ := h.split
  have hnodup := h.nodup
  rw [List.nodup_append] at hnodup
  obtain ⟨hnodup₁, hnodup₂, hdisj⟩ := hnodup
  have hplace : ∀ b ∈ l₂, lastPlace (.head k) l₁ ≠ .link b := by
    intro b hb heq
    rcases lastPlace_cases (p := .head k) (l := l₁) with hhead | ⟨c, hc, hlink⟩
    · rw [hhead] at heq
      cases heq
    · have hcb : c = b := by
        rw [hlink] at heq
        injection heq
      exact hdisj c hc b (List.mem_cons_of_mem _ hb) hcb
  have hfirst : Path (Intrusive.bypass (lastPlace (.head k) l₁) l₂.head? m) (.head k) l₁ := by
    refine hbefore.congr (fun q hq => Function.update_of_ne ?_ _ _) fun b hb => ?_
    · rintro rfl
      refine lastPlace_notMem_sources hnodup₁ (fun c _ hc => ?_) hq
      cases hc
    · cases l₂ with
      | nil => rfl
      | cons c l₃ =>
        refine Function.update_of_ne ?_ _ _
        exact hdisj b hb c (List.mem_cons_of_mem _ (List.mem_cons_self ..))
  refine ⟨h.opened, path_append.mpr ⟨hfirst, ?_⟩, ?_, ?_, fun b hb => h.live b ?_⟩
  · cases l₂ with
    | nil => trivial
    | cons b l₃ =>
      refine ⟨Function.update_self .., Function.update_self .., ?_⟩
      obtain ⟨-, -, hrest⟩ := hbehind
      refine hrest.congr (fun q hq => Function.update_of_ne ?_ _ _) fun c hc => ?_
      · rintro rfl
        rcases mem_sources hq with heq | ⟨c, hc, heq⟩
        · exact hplace b (List.mem_cons_self ..) heq
        · exact hplace c (List.mem_cons_of_mem _ hc) heq
      · refine Function.update_of_ne ?_ _ _
        rintro rfl
        exact (List.nodup_cons.mp (List.nodup_cons.mp hnodup₂).2).1 hc
  · rw [lastPlace_append]
    cases l₂ with
    | nil => exact Function.update_self ..
    | cons b l₃ =>
      refine (Function.update_of_ne ?_ _ _).trans hstop
      intro heq
      rcases lastPlace_cases (p := .link b) (l := l₃) with hlink | ⟨c, hc, hlink⟩
      · exact hplace b (List.mem_cons_self ..) (heq.symm.trans hlink)
      · exact hplace c (List.mem_cons_of_mem _ hc) (heq.symm.trans hlink)
  · exact h.nodup.sublist (List.sublist_cons_self a l₂ |>.append_left l₁)
  · rcases List.mem_append.mp hb with hb | hb
    · exact List.mem_append_left _ hb
    · exact List.mem_append_right _ (List.mem_cons_of_mem _ hb)

lemma within_bypass (h : IsList m k (l₁ ++ a :: l₂)) :
    Within k (l₁ ++ a :: l₂) m (bypass (lastPlace (.head k) l₁) l₂.head? m) := by
  refine ⟨rfl, rfl, rfl, rfl, fun p hhead hlink => Function.update_of_ne ?_ _ _, fun b hb => ?_,
    fun _ _ => rfl⟩
  · rcases lastPlace_cases (p := .head k) (l := l₁) with heq | ⟨b, hb, heq⟩
    · rw [heq]
      exact hhead
    · rw [heq]
      exact hlink b (List.mem_append_left _ hb)
  · cases l₂ with
    | nil => rfl
    | cons c l₃ =>
      refine Function.update_of_ne ?_ _ _
      rintro rfl
      exact hb (by simp)

/-- An element is taken out of a list. -/
lemma Memory.listRemove_eq (h : IsList m k (l₁ ++ a :: l₂)) :
    m.listRemove a = some (bypass (lastPlace (.head k) l₁) l₂.head? m) := by
  obtain ⟨-, -, hback, hbehind, hstop⟩ := h.split
  have hlive : m.live a = true := h.live a (by simp)
  have hplace : m.has (lastPlace (.head k) l₁) = true := h.has_lastPlace
  have hnext : m.pointer (.link a) = l₂.head? := hbehind.pointer_eq hstop
  rw [Memory.listRemove, Memory.load_eq (p := .link a) hlive, Memory.loadBack_eq hlive, hnext,
    hback]
  cases l₂ with
  | nil => exact Memory.store_eq hplace
  | cons b l₃ =>
    have hb : m.live b = true := h.live b (by simp)
    simp only [List.head?_cons, Option.bind_eq_bind, Option.bind_some, Memory.storeBack_eq hb]
    exact Memory.store_eq ((Memory.has_congr rfl rfl).trans hplace)

/-- `LIST_REMOVE` in memory. -/
theorem Holds.listRemove (h : Holds tailed L m) (hk : L k = some (l₁ ++ a :: l₂))
    (hplain : k ∉ tailed) : ∃ m', m.listRemove a = some m' ∧ Within k (l₁ ++ a :: l₂) m m' ∧
      Holds tailed (Function.update L k (some (l₁ ++ l₂))) m' := by
  have hlist := h.list k _ hk
  refine ⟨_, Memory.listRemove_eq hlist, within_bypass hlist, ?_⟩
  refine h.relink (within_bypass hlist) (fun b hb k' l' hne hk' hmem => ?_) hlist.bypass
    (fun hmem => absurd hmem hplain) fun b hb => ?_
  · exact hne (h.apart k' k l' _ b hk' hk hmem hb)
  · rcases List.mem_append.mp hb with hb | hb
    · exact List.mem_append_left _ hb
    · exact List.mem_append_right _ (List.mem_cons_of_mem _ hb)

/-- `TAILQ_REMOVE` in memory. -/
theorem Holds.tailqRemove (h : Holds tailed L m) (hk : L k = some (l₁ ++ a :: l₂))
    (htail : k ∈ tailed) : ∃ m', m.tailqRemove k a = some m' ∧ Within k (l₁ ++ a :: l₂) m m' ∧
      Holds tailed (Function.update L k (some (l₁ ++ l₂))) m' := by
  have hlist := h.list k _ hk
  obtain ⟨-, -, hback, hbehind, hstop⟩ := hlist.split
  have hlive : m.live a = true := hlist.live a (by simp)
  have hplace : m.has (lastPlace (.head k) l₁) = true := hlist.has_lastPlace
  have hnext : m.pointer (.link a) = l₂.head? := hbehind.pointer_eq hstop
  have hlast := h.last k _ hk htail
  let m₁ := bypass (lastPlace (.head k) l₁) l₂.head? m
  let m' := { m₁ with last := Function.update m.last k (lastPlace (.head k) (l₁ ++ l₂)) }
  have heq : m.tailqRemove k a = some m' := by
    rw [Memory.tailqRemove, Memory.load_eq (p := .link a) hlive, Memory.loadBack_eq hlive, hnext,
      hback]
    cases l₂ with
    | nil =>
      simp only [List.head?_nil, Option.bind_eq_bind, Option.bind_some,
        Memory.storeLast_eq hlist.opened]
      refine (Memory.store_eq ?_).trans ?_
      · exact (Memory.has_congr rfl rfl).trans hplace
      · simp only [m', m₁, bypass, List.append_nil, List.head?_nil]
    | cons b l₃ =>
      have hb : m.live b = true := hlist.live b (by simp)
      have hsame : lastPlace (.head k) (l₁ ++ b :: l₃) = m.last k := by
        rw [hlast, lastPlace_append, lastPlace_append]
        rfl
      simp only [List.head?_cons, Option.bind_eq_bind, Option.bind_some, Memory.storeBack_eq hb]
      refine (Memory.store_eq ?_).trans ?_
      · exact (Memory.has_congr rfl rfl).trans hplace
      · simp only [m', m₁, bypass, List.head?_cons, hsame, Function.update_eq_self]
  have hwithin : Within k (l₁ ++ a :: l₂) m m' := by
    obtain ⟨hl, hn, ho, hv, hpointer, hbacks, -⟩ := within_bypass hlist
    exact ⟨hl, hn, ho, hv, hpointer, hbacks, fun k' hne => Function.update_of_ne hne _ _⟩
  have hnew : IsList m' k (l₁ ++ l₂) :=
    hlist.bypass.congr rfl (fun _ _ => rfl) (fun _ _ => rfl) fun _ _ => rfl
  refine ⟨m', heq, hwithin, ?_⟩
  refine h.relink hwithin (fun b hb k' l' hne hk' hmem => ?_) hnew
    (fun _ => Function.update_self ..) fun b hb => ?_
  · exact hne (h.apart k' k l' _ b hk' hk hmem hb)
  · rcases List.mem_append.mp hb with hb | hb
    · exact List.mem_append_left _ hb
    · exact List.mem_append_right _ (List.mem_cons_of_mem _ hb)

/-- `LIST_INSERT_HEAD` in memory. -/
theorem Holds.listInsertHead (h : Holds tailed L m) (hk : L k = some l) (hplain : k ∉ tailed)
    (ha : m.live a = true) (hnew : ∀ k' l', L k' = some l' → a ∉ l') :
    ∃ m', m.listInsertHead k a = some m' ∧ Within k (a :: l) m m' ∧
      Holds tailed (Function.update L k (some (a :: l))) m' := by
  have hlist := h.list k _ hk
  have hmem : a ∉ l := hnew k l hk
  have hfirst : m.pointer (.head k) = l.head? := hlist.path.pointer_eq hlist.stop
  let m' : Memory κ α :=
    { m with
      pointer := Function.update (Function.update m.pointer (.link a) l.head?) (.head k) (some a)
      back := Function.update (match l.head? with
        | some b => Function.update m.back b (.link a)
        | none => m.back) a (.head k) }
  have heq : m.listInsertHead k a = some m' := by
    rw [Memory.listInsertHead, Memory.load_eq (p := .head k) hlist.opened, hfirst]
    have hopened := hlist.opened
    cases l with
    | nil => simp [Memory.store, Memory.storeBack, Memory.has, ha, hopened, m']
    | cons b l₃ =>
      have hb : m.live b = true := hlist.live b (List.mem_cons_self ..)
      simp [Memory.store, Memory.storeBack, Memory.has, ha, hb, hopened, m']
  have hwithin : Within k (a :: l) m m' := by
    refine ⟨rfl, rfl, rfl, rfl, fun p hhead hlink => ?_, fun b hb => ?_, fun _ _ => rfl⟩
    · refine (Function.update_of_ne hhead _ _).trans (Function.update_of_ne ?_ _ _)
      exact hlink a (List.mem_cons_self ..)
    · refine (Function.update_of_ne ?_ _ _).trans ?_
      · rintro rfl
        exact hb (List.mem_cons_self ..)
      · cases l with
        | nil => rfl
        | cons c l₃ =>
          refine Function.update_of_ne ?_ _ _
          rintro rfl
          exact hb (by simp)
  have hbehind : ∀ q, q ≠ .head k → q ≠ .link a → m'.pointer q = m.pointer q :=
    fun q hhead hlink => (Function.update_of_ne hhead _ _).trans (Function.update_of_ne hlink _ _)
  have hnext : m'.pointer (.link a) = l.head? := by simp [m']
  have hnewlist : IsList m' k (a :: l) := by
    refine ⟨hlist.opened, ⟨Function.update_self .., Function.update_self .., ?_⟩, ?_,
      List.nodup_cons.mpr ⟨hmem, hlist.nodup⟩, ?_⟩
    · cases l with
      | nil => trivial
      | cons b l₃ =>
        have hba : b ≠ a := fun heq => hmem (heq ▸ List.mem_cons_self ..)
        obtain ⟨-, -, hrest⟩ := hlist.path
        refine ⟨hnext, ?_, hrest.congr (fun q hq => hbehind q ?_ ?_) fun c hc => ?_⟩
        · exact (Function.update_of_ne hba _ _).trans (Function.update_self ..)
        · rintro rfl
          rcases mem_sources hq with heq | ⟨c, -, heq⟩ <;> cases heq
        · rintro rfl
          rcases mem_sources hq with heq | ⟨c, hc, heq⟩
          · exact hba (by injection heq with heq; exact heq.symm)
          · refine hmem (List.mem_cons_of_mem _ ?_)
            injection heq with heq
            exact heq ▸ hc
        · have hcb : c ≠ b := by
            rintro rfl
            exact (List.nodup_cons.mp hlist.nodup).1 hc
          have hca : c ≠ a := fun heq => hmem (heq ▸ List.mem_cons_of_mem _ hc)
          exact (Function.update_of_ne hca _ _).trans (Function.update_of_ne hcb _ _)
    · have hstop := hlist.stop
      cases l with
      | nil => exact hnext
      | cons b l₃ =>
        refine (hbehind _ ?_ ?_).trans hstop
        · rcases lastPlace_cases (p := .link b) (l := l₃) with heq | ⟨c, -, heq⟩ <;>
            exact fun hhead => by cases heq.symm.trans hhead
        · rcases lastPlace_cases (p := .link b) (l := l₃) with heq | ⟨c, hc, heq⟩ <;> intro hlink
          · injection heq.symm.trans hlink with heq
            exact hmem (heq ▸ List.mem_cons_self ..)
          · injection heq.symm.trans hlink with heq
            exact hmem (heq ▸ List.mem_cons_of_mem _ hc)
    · intro b hb
      rcases List.mem_cons.mp hb with rfl | hb
      · exact ha
      · exact hlist.live b hb
  refine ⟨m', heq, hwithin, h.relink hwithin (fun b hb k' l' hne hk' hmem' => ?_) hnewlist
    (fun htail => absurd htail hplain) fun b hb => hb⟩
  rcases List.mem_cons.mp hb with rfl | hb
  · exact hnew k' l' hk' hmem'
  · exact hne (h.apart k' k l' l b hk' hk hmem' hb)

/-- `TAILQ_INSERT_TAIL` in memory. -/
theorem Holds.tailqInsertTail (h : Holds tailed L m) (hk : L k = some l) (htail : k ∈ tailed)
    (ha : m.live a = true) (hnew : ∀ k' l', L k' = some l' → a ∉ l') :
    ∃ m', m.tailqInsertTail k a = some m' ∧ Within k (a :: l) m m' ∧
      Holds tailed (Function.update L k (some (l ++ [a]))) m' := by
  have hlist := h.list k _ hk
  have hmem : a ∉ l := hnew k l hk
  have hlast := h.last k l hk htail
  have hlist' : IsList m k (l ++ []) := by
    rw [List.append_nil]
    exact hlist
  have hplace : m.has (lastPlace (.head k) l) = true := hlist'.has_lastPlace
  have hplace_ne : lastPlace (.head k) l ≠ .link a := by
    intro heq
    rcases lastPlace_cases (p := .head k) (l := l) with hhead | ⟨b, hb, hlink⟩
    · cases hhead.symm.trans heq
    · injection hlink.symm.trans heq with heq
      exact hmem (heq ▸ hb)
  let m' : Memory κ α :=
    { m with
      pointer := Function.update (Function.update m.pointer (.link a) none)
        (lastPlace (.head k) l) (some a)
      back := Function.update m.back a (lastPlace (.head k) l)
      last := Function.update m.last k (.link a) }
  have heq : m.tailqInsertTail k a = some m' := by
    rw [Memory.tailqInsertTail, Memory.store_eq (p := .link a) ha]
    simp only [Option.bind_eq_bind, Option.bind_some, Memory.loadLast, Memory.storeBack,
      hlist.opened, ha, hlast, if_true]
    refine (congrArg (Option.bind · _) (Memory.store_eq ?_)).trans ?_
    · exact (Memory.has_congr rfl rfl).trans hplace
    · exact Memory.storeLast_eq hlist.opened
  have hwithin : Within k (a :: l) m m' := by
    refine ⟨rfl, rfl, rfl, rfl, fun p hhead hlink => ?_, fun b hb => ?_, fun k' hne => ?_⟩
    · refine (Function.update_of_ne ?_ _ _).trans (Function.update_of_ne ?_ _ _)
      · rcases lastPlace_cases (p := .head k) (l := l) with heq | ⟨b, hb, heq⟩
        · rw [heq]
          exact hhead
        · rw [heq]
          exact hlink b (List.mem_cons_of_mem _ hb)
      · exact hlink a (List.mem_cons_self ..)
    · refine Function.update_of_ne ?_ _ _
      rintro rfl
      exact hb (List.mem_cons_self ..)
    · exact Function.update_of_ne hne _ _
  have hnewlist : IsList m' k (l ++ [a]) := by
    refine ⟨hlist.opened, path_append.mpr ⟨?_, Function.update_self .., Function.update_self ..,
      trivial⟩, ?_, ?_, ?_⟩
    · refine hlist.path.congr (fun q hq => ?_) fun b hb => Function.update_of_ne ?_ _ _
      · refine (Function.update_of_ne ?_ _ _).trans (Function.update_of_ne ?_ _ _)
        · rintro rfl
          refine lastPlace_notMem_sources hlist.nodup (fun c _ hc => ?_) hq
          cases hc
        · rintro rfl
          rcases mem_sources hq with heq | ⟨c, hc, heq⟩
          · cases heq
          · injection heq with heq
            exact hmem (heq ▸ hc)
      · rintro rfl
        exact hmem hb
    · rw [lastPlace_append]
      exact (Function.update_of_ne hplace_ne.symm _ _).trans (Function.update_self ..)
    · exact List.nodup_append.mpr ⟨hlist.nodup, List.nodup_singleton _, fun b hb c hc => by
        rw [List.mem_singleton.mp hc]
        exact fun heq => hmem (heq ▸ hb)⟩
    · intro b hb
      rcases List.mem_append.mp hb with hb | hb
      · exact hlist.live b hb
      · rw [List.mem_singleton.mp hb]
        exact ha
  refine ⟨m', heq, hwithin, h.relink hwithin (fun b hb k' l' hne hk' hmem' => ?_) hnewlist
    (fun _ => ?_) fun b hb => ?_⟩
  · rcases List.mem_cons.mp hb with rfl | hb
    · exact hnew k' l' hk' hmem'
    · exact hne (h.apart k' k l' l b hk' hk hmem' hb)
  · rw [lastPlace_append]
    exact Function.update_self ..
  · rw [List.mem_append, List.mem_singleton] at hb
    exact List.mem_cons.mpr hb.symm

/-- `TAILQ_INIT` in memory. -/
theorem Holds.tailqInit (h : Holds tailed L m) (hk : m.opened k = true) :
    ∃ m', m.tailqInit k = some m' ∧ Within k [] m m' ∧
      Holds tailed (Function.update L k (some [])) m' := by
  let m' : Memory κ α :=
    { m with
      pointer := Function.update m.pointer (.head k) none
      last := Function.update m.last k (.head k) }
  have heq : m.tailqInit k = some m' := by
    rw [Memory.tailqInit, Memory.store_eq (p := .head k) hk]
    exact Memory.storeLast_eq hk
  have hwithin : Within k [] m m' :=
    ⟨rfl, rfl, rfl, rfl, fun p hhead _ => Function.update_of_ne hhead _ _, fun _ _ => rfl,
      fun k' hne => Function.update_of_ne hne _ _⟩
  have hlist : IsList m' k [] :=
    ⟨hk, trivial, Function.update_self .., List.nodup_nil, fun a ha => absurd ha (by simp)⟩
  refine ⟨m', heq, hwithin, h.relink hwithin (fun a ha => absurd ha (by simp)) hlist
    (fun _ => Function.update_self ..) fun a ha => ha⟩

omit [DecidableEq κ] in
/-- A new block is in no list. -/
lemma Holds.malloc (h : Holds tailed L m) (hnew : ∀ k l, L k = some l → m.next ∉ l) :
    Holds tailed L m.malloc.2 := by
  refine h.keep rfl rfl rfl (fun _ _ _ => rfl) fun k l a hk ha => Function.update_of_ne ?_ _ _
  rintro rfl
  exact hnew k l hk ha

omit [DecidableEq κ] in
/-- A block that is in no list is freed. -/
lemma Holds.free (h : Holds tailed L m) (ha : m.live a = true)
    (hnot : ∀ k l, L k = some l → a ∉ l) :
    ∃ m', m.free a = some m' ∧ m' = { m with live := Function.update m.live a false } ∧
      Holds tailed L m' := by
  refine ⟨_, if_pos ha, rfl, h.keep rfl rfl rfl (fun _ _ _ => rfl) fun k l b hk hb => ?_⟩
  refine Function.update_of_ne ?_ _ _
  rintro rfl
  exact hnot k l hk hb

end Intrusive
