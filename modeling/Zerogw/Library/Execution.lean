import Mathlib.Data.Set.Basic

/-!
# Executions of a step function that may fail

A system is given by its step function `step : ι → σ → Except ε σ`. An input either moves the
system to a new state or ends the execution with a fault, after which there is no further state.
Invariants of the reachable states, and the states an abstract system reaches in lockstep, are
both proved from one step.
-/

namespace Execution

universe u v w x

variable {ι : Type u} {σ : Type v} {ε : Type w} {τ : Type x}

/-! ### Sequencing -/

lemma bind_eq_ok {α β : Type v} {m : Except ε α} {f : α → Except ε β} {b : β} :
    (m >>= f) = .ok b ↔ ∃ a, m = .ok a ∧ f a = .ok b := by
  cases m with
  | error e => simp [bind, Except.bind]
  | ok a => simp [bind, Except.bind]

lemma bind_eq_error {α β : Type v} {m : Except ε α} {f : α → Except ε β} {e : ε} :
    (m >>= f) = .error e ↔ m = .error e ∨ ∃ a, m = .ok a ∧ f a = .error e := by
  cases m with
  | error e' => simp [bind, Except.bind]
  | ok a => simp [bind, Except.bind]

@[simp] lemma ok_bind {α β : Type v} (a : α) (f : α → Except ε β) :
    ((.ok a : Except ε α) >>= f) = f a := rfl

@[simp] lemma error_bind {α β : Type v} (e : ε) (f : α → Except ε β) :
    ((.error e : Except ε α) >>= f) = .error e := rfl

/-- What is seen of a result. -/
lemma exists_of_map_eq_ok {α : Type u} {β : Type v} {m : Except ε α} {f : α → β} {b : β}
    (h : m.map f = .ok b) : ∃ a, m = .ok a ∧ f a = b := by
  cases m with
  | error e => cases h
  | ok a => exact ⟨a, rfl, Except.ok.inj h⟩

/-- A fault is seen as it is. -/
lemma eq_error_of_map {α : Type u} {β : Type v} {m : Except ε α} {f : α → β} {e : ε}
    (h : m.map f = .error e) : m = .error e := by
  cases m with
  | error e' => exact congrArg Except.error (Except.error.inj h)
  | ok a => cases h

/-- All of a list of results are there. -/
lemma mapM_id_eq_ok {α : Type v} {l : List (Except ε α)} {as : List α} :
    l.mapM id = .ok as ↔ l = as.map .ok := by
  induction l generalizing as with
  | nil =>
    rw [List.mapM_nil, eq_comm (a := ([] : List (Except ε α))), List.map_eq_nil_iff]
    exact ⟨fun h => (Except.ok.inj h).symm, fun h => congrArg _ h.symm⟩
  | cons m l ih =>
    rw [List.mapM_cons]
    simp only [id, bind_eq_ok, ih]
    constructor
    · rintro ⟨a, rfl, as', rfl, h⟩
      cases h
      rfl
    · intro h
      cases as with
      | nil => cases h
      | cons a as =>
        obtain ⟨rfl, rfl⟩ := List.cons.inj h
        exact ⟨a, rfl, as, rfl, rfl⟩

/-- A computation continues in the same way after both branches. -/
lemma ite_bind {α β : Type v} {c : Prop} [Decidable c] {m m' : Except ε α} {f : α → Except ε β} :
    (if c then m >>= f else m' >>= f) = (if c then m else m') >>= f := by
  split_ifs <;> rfl

/-! ### Outcomes -/

section outcomes

variable {α β : Type v} {E F : ε → Prop} {Q R : α → Prop}

/-- A result satisfies `Q`, and a fault satisfies `E`. -/
def Ends (E : ε → Prop) (Q : α → Prop) : Except ε α → Prop
  | .ok a => Q a
  | .error e => E e

lemma Ends.ok {a : α} (h : Q a) : Ends E Q (.ok a) := h

lemma Ends.of_eq_ok {m : Except ε α} {a : α} (hm : m = .ok a) (h : Q a) : Ends E Q m := hm ▸ h

/-- What is known of the result. -/
lemma Ends.result {m : Except ε α} {a : α} (h : Ends E Q m) (hm : m = .ok a) : Q a := by
  rw [hm] at h
  exact h

/-- A computation that cannot go wrong has a result. -/
lemma Ends.exists_ok {m : Except ε α} (h : Ends E Q m) (hE : ∀ e, ¬ E e) :
    ∃ a, m = .ok a ∧ Q a := by
  cases m with
  | error e => exact absurd h (hE e)
  | ok a => exact ⟨a, rfl, h⟩

lemma Ends.mono {m : Except ε α} (h : Ends E R m) (hE : ∀ e, E e → F e) (hQ : ∀ a, R a → Q a) :
    Ends F Q m := by
  cases m with
  | error e => exact hE e h
  | ok a => exact hQ a h

lemma Ends.bind {Q : β → Prop} {m : Except ε α} {f : α → Except ε β} (hm : Ends E R m)
    (hf : ∀ a, R a → Ends E Q (f a)) : Ends E Q (m >>= f) := by
  cases m with
  | error e => exact hm
  | ok a => exact hf a hm

lemma Ends.ite {c : Prop} [Decidable c] {m m' : Except ε α} (h : Ends E Q m) (h' : Ends E Q m') :
    Ends E Q (if c then m else m') := by
  split_ifs
  · exact h
  · exact h'

lemma Ends.map {Q : β → Prop} {m : Except ε α} {f : α → β} (hm : Ends E (fun a => Q (f a)) m) :
    Ends E Q (f <$> m) := by
  cases m with
  | error e => exact hm
  | ok a => exact hm

/-- A result satisfies `Q`, and any fault may happen. -/
abbrev Gives (Q : α → Prop) (m : Except ε α) : Prop := Ends (fun _ => True) Q m

lemma gives_anything (m : Except ε α) : Gives (fun _ => True) m := by
  cases m <;> trivial

/-- What comes of a result does not depend on the result itself. -/
lemma Ends.after {Q : β → Prop} {f : α → Except ε β} (m : Except ε α) (hf : ∀ a, Gives Q (f a)) :
    Gives Q (m >>= f) :=
  (gives_anything m).bind fun a _ => hf a

end outcomes

/-! ### Two computations side by side -/

section agreement

variable {α β α' β' : Type v} {R : α → β → Prop} {R' : α' → β' → Prop} {m : Except ε α}
  {n : Except ε β}

/-- Both computations have results that `R` relates, or both end with the same fault. -/
def Agree (R : α → β → Prop) : Except ε α → Except ε β → Prop
  | .ok a, .ok b => R a b
  | .error e, .error e' => e = e'
  | _, _ => False

lemma Agree.bind {f : α → Except ε α'} {g : β → Except ε β'} (h : Agree R m n)
    (hfg : ∀ a b, R a b → Agree R' (f a) (g b)) : Agree R' (m >>= f) (n >>= g) := by
  cases m with
  | error e =>
    cases n with
    | error e' => exact h
    | ok b => cases h
  | ok a =>
    cases n with
    | error e => cases h
    | ok b => exact hfg a b h

lemma Agree.mono {Q : α → β → Prop} (h : Agree R m n) (hRQ : ∀ a b, R a b → Q a b) :
    Agree Q m n := by
  cases m <;> cases n <;> first | exact hRQ _ _ h | exact h

/-- What both computations come to. -/
lemma Agree.cases (h : Agree R m n) :
    (∃ e, m = .error e ∧ n = .error e) ∨ ∃ a b, m = .ok a ∧ n = .ok b ∧ R a b := by
  cases m with
  | error e =>
    cases n with
    | error e' => exact Or.inl ⟨e, rfl, by rw [show e = e' from h]⟩
    | ok b => cases h
  | ok a =>
    cases n with
    | error e => cases h
    | ok b => exact Or.inr ⟨a, b, rfl, rfl, h⟩

/-- Results that look the same. -/
lemma Agree.map_eq {γ : Type v} {f : α → γ} {g : β → γ} (h : Agree (fun a b => f a = g b) m n) :
    m.map f = n.map g := by
  rcases h.cases with ⟨e, rfl, rfl⟩ | ⟨a, b, rfl, rfl, hab⟩
  · rfl
  · exact congrArg Except.ok hab

end agreement

/-! ### Reachable states -/

/-- The states reached from `s₀` by successful steps that all meet the condition `C`, which may
look at the input and at the state before the step. -/
inductive ReachableVia (step : ι → σ → Except ε σ) (C : ι → σ → Prop) (s₀ : σ) : σ → Prop
  | init : ReachableVia step C s₀ s₀
  | step {i : ι} {s s' : σ} (h : ReachableVia step C s₀ s) (hC : C i s)
      (hs : step i s = .ok s') : ReachableVia step C s₀ s'

/-- The states reached from `s₀` by any successful steps. -/
abbrev Reachable (step : ι → σ → Except ε σ) (s₀ : σ) : σ → Prop :=
  ReachableVia step (fun _ _ => True) s₀

variable {step : ι → σ → Except ε σ} {C : ι → σ → Prop} {s₀ s : σ}

/-- A property of the first state that every allowed step keeps holds of every reached state. -/
theorem ReachableVia.invariant {I : σ → Prop} (h₀ : I s₀)
    (hstep : ∀ i s s', C i s → I s → step i s = .ok s' → I s')
    (h : ReachableVia step C s₀ s) : I s := by
  induction h with
  | init => exact h₀
  | step _ hC hs ih => exact hstep _ _ _ hC ih hs

/-- Invariants may be proved one after the other: the step of the second may assume the first. -/
theorem ReachableVia.invariant_of {I J : σ → Prop} (hI : ∀ s, ReachableVia step C s₀ s → I s)
    (h₀ : J s₀) (hstep : ∀ i s s', C i s → I s → J s → step i s = .ok s' → J s')
    (h : ReachableVia step C s₀ s) : J s := by
  induction h with
  | init => exact h₀
  | step hr hC hs ih => exact hstep _ _ _ hC (hI _ hr) ih hs

/-- The condition may be weakened. -/
lemma ReachableVia.mono {D : ι → σ → Prop} (h : ReachableVia step C s₀ s)
    (hCD : ∀ i s, C i s → D i s) : ReachableVia step D s₀ s := by
  induction h with
  | init => exact .init
  | step _ hC hs ih => exact .step ih (hCD _ _ hC) hs

/-! ### Runs on given inputs -/

/-- The outcome of a list of inputs. -/
def run (step : ι → σ → Except ε σ) : List ι → σ → Except ε σ
  | [], s => .ok s
  | i :: is, s => step i s >>= run step is

/-- A run on inputs that meet the condition in any state. -/
lemma ReachableVia.of_run {is : List ι} {s' : σ} (h : ReachableVia step C s₀ s)
    (hC : ∀ i ∈ is, ∀ s, C i s) (hrun : run step is s = .ok s') : ReachableVia step C s₀ s' := by
  induction is generalizing s with
  | nil =>
    cases hrun
    exact h
  | cons i is ih =>
    obtain ⟨s₁, hi, hrest⟩ := bind_eq_ok.mp hrun
    exact ih (h.step (hC i (by simp) s) hi) (fun j hj => hC j (by simp [hj])) hrest

/-- What a run on given inputs leads to, seen through `view`. -/
lemma exists_of_run {α : Type v} {is : List ι} (view : σ → α) {a : α}
    (hC : ∀ i ∈ is, ∀ s, C i s) (hrun : (run step is s₀).map view = .ok a) :
    ∃ s, ReachableVia step C s₀ s ∧ view s = a := by
  cases h : run step is s₀ with
  | error e =>
    rw [h] at hrun
    cases hrun
  | ok s =>
    rw [h] at hrun
    exact ⟨s, .of_run .init hC h, Except.ok.inj hrun⟩

/-- The step function where the condition holds, and the fault `e` elsewhere. -/
def guarded (step : ι → σ → Except ε σ) (C : ι → σ → Prop) [∀ i s, Decidable (C i s)] (e : ε)
    (i : ι) (s : σ) : Except ε σ :=
  if C i s then step i s else .error e

lemma reachable_of_guarded [∀ i s, Decidable (C i s)] {e : ε}
    (h : Reachable (guarded step C e) s₀ s) : ReachableVia step C s₀ s := by
  induction h with
  | init => exact .init
  | @step i s₁ s₂ _ _ hstep ih =>
    by_cases hi : C i s₁
    · rw [guarded, if_pos hi] at hstep
      exact ih.step hi hstep
    · rw [guarded, if_neg hi] at hstep
      cases hstep

/-- What a run on given inputs leads to, if the condition holds at each of its steps. -/
lemma exists_of_guarded {α : Type v} [∀ i s, Decidable (C i s)] {is : List ι} {e : ε} (view : σ → α)
    {a : α} (hrun : (run (guarded step C e) is s₀).map view = .ok a) :
    ∃ s, ReachableVia step C s₀ s ∧ view s = a := by
  obtain ⟨s, hr, hview⟩ := exists_of_run (C := fun _ _ => True) view (fun _ _ _ => trivial) hrun
  exact ⟨s, reachable_of_guarded hr, hview⟩

/-! ### An abstract system in lockstep -/

/-- A concrete state together with the abstract state reached by the same inputs. The abstract
step may look at the concrete states before and after, for the choices the abstraction leaves
open. -/
inductive Lockstep (step : ι → σ → Except ε σ) (astep : ι → σ → σ → τ → τ) (s₀ : σ) (t₀ : τ) :
    σ → τ → Prop
  | init : Lockstep step astep s₀ t₀ s₀ t₀
  | step {i : ι} {s s' : σ} {t : τ} (h : Lockstep step astep s₀ t₀ s t)
      (hs : step i s = .ok s') : Lockstep step astep s₀ t₀ s' (astep i s s' t)

variable {astep : ι → σ → σ → τ → τ} {t₀ t : τ}

lemma Lockstep.reachable (h : Lockstep step astep s₀ t₀ s t) : Reachable step s₀ s := by
  induction h with
  | init => exact .init
  | step _ hs ih => exact .step ih trivial hs

/-- Every reached state comes with an abstract state. -/
lemma Lockstep.exists_of_reachable (astep : ι → σ → σ → τ → τ) (t₀ : τ) (h : Reachable step s₀ s) :
    ∃ t, Lockstep step astep s₀ t₀ s t := by
  induction h with
  | init => exact ⟨t₀, .init⟩
  | step _ _ hs ih =>
    obtain ⟨t, ht⟩ := ih
    exact ⟨_, ht.step hs⟩

/-- A relation between the states of both systems that every step keeps. -/
theorem Lockstep.invariant {I : σ → τ → Prop} (h₀ : I s₀ t₀)
    (hstep : ∀ i s s' t, Reachable step s₀ s → I s t → step i s = .ok s' → I s' (astep i s s' t))
    (h : Lockstep step astep s₀ t₀ s t) : I s t := by
  induction h with
  | init => exact h₀
  | step hr hs ih => exact hstep _ _ _ _ hr.reachable ih hs

/-- Functional refinement: if the abstraction `abs` commutes with every step out of a reachable
state, then it maps every reached state to the abstract state reached with it. -/
theorem Lockstep.refines (abs : σ → τ) (h₀ : abs s₀ = t₀)
    (hstep : ∀ i s s', Reachable step s₀ s → step i s = .ok s' → abs s' = astep i s s' (abs s))
    (h : Lockstep step astep s₀ t₀ s t) : abs s = t := by
  induction h with
  | init => exact h₀
  | step hr hs ih => rw [hstep _ _ _ hr.reachable hs, ih]

end Execution
