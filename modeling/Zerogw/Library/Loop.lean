import Zerogw.Library.Execution

/-!
# Loops over a stream of inputs

A loop takes one input in every round. A round leaves the loop with a result, goes on to the next
round, or fails. The loop ends with a result if and only if there is a round in which it is left.
-/

namespace Execution

universe u v w

variable {ι : Type u} {ρ σ : Type v} {ε : Type w}

/-- The rounds from the `k`th on; `endless` if they are not over after `fuel` of them. -/
def loop (endless : ε) (round : ι → σ → Except ε (ρ ⊕ σ)) (inputs : ℕ → ι) :
    ℕ → ℕ → σ → Except ε ρ
  | 0, _, _ => .error endless
  | fuel + 1, k, s => do
    match ← round (inputs k) s with
    | .inl r => .ok r
    | .inr s' => loop endless round inputs fuel (k + 1) s'

/-- The state before the `k`th round. -/
inductive Before (round : ι → σ → Except ε (ρ ⊕ σ)) (inputs : ℕ → ι) (s₀ : σ) : ℕ → σ → Prop
  | start : Before round inputs s₀ 0 s₀
  | next {k : ℕ} {s s' : σ} (h : Before round inputs s₀ k s)
      (hround : round (inputs k) s = .ok (.inr s')) : Before round inputs s₀ (k + 1) s'

variable {endless : ε} {round : ι → σ → Except ε (ρ ⊕ σ)} {inputs : ℕ → ι} {s₀ s : σ} {r : ρ}
  {k fuel : ℕ}

lemma loop_of_next {s' : σ} (h : round (inputs k) s = .ok (.inr s')) :
    loop endless round inputs (fuel + 1) k s = loop endless round inputs fuel (k + 1) s' := by
  rw [loop, h]
  rfl

lemma loop_of_left (h : round (inputs k) s = .ok (.inl r)) :
    loop endless round inputs (fuel + 1) k s = .ok r := by
  rw [loop, h]
  rfl

/-- The rounds that are over. -/
lemma Before.loop_eq (h : Before round inputs s₀ k s) (fuel : ℕ) :
    loop endless round inputs (fuel + k) 0 s₀ = loop endless round inputs fuel k s := by
  induction h generalizing fuel with
  | start => rfl
  | next _ hround ih => rw [← Nat.add_assoc, Nat.add_right_comm, ih, loop_of_next hround]

/-- A result comes from some round. -/
lemma exists_left (h : Before round inputs s₀ k s)
    (hloop : loop endless round inputs fuel k s = .ok r) :
    ∃ k s, Before round inputs s₀ k s ∧ round (inputs k) s = .ok (.inl r) := by
  induction fuel generalizing k s with
  | zero => cases hloop
  | succ fuel ih =>
    rw [loop] at hloop
    obtain ⟨next, hround, hrest⟩ := bind_eq_ok.mp hloop
    cases next with
    | inl r' =>
      cases hrest
      exact ⟨k, s, h, hround⟩
    | inr s' => exact ih (h.next hround) hrest

theorem loop_eq_ok_iff : (∃ fuel, loop endless round inputs fuel 0 s₀ = .ok r) ↔
    ∃ k s, Before round inputs s₀ k s ∧ round (inputs k) s = .ok (.inl r) := by
  constructor
  · rintro ⟨fuel, hloop⟩
    exact exists_left .start hloop
  · rintro ⟨k, s, hbefore, hround⟩
    exact ⟨1 + k, (hbefore.loop_eq 1).trans (loop_of_left hround)⟩

/-- A property of the state that every round passes on. -/
theorem Before.invariant {I : ℕ → σ → Prop} (h₀ : I 0 s₀)
    (hround : ∀ k s s', I k s → round (inputs k) s = .ok (.inr s') → I (k + 1) s')
    (h : Before round inputs s₀ k s) : I k s := by
  induction h with
  | start => exact h₀
  | next _ hnext ih => exact hround _ _ _ ih hnext

/-- The loop gets to round `k` if the rounds before it go on. -/
theorem Before.exists_of_rounds {I : ℕ → σ → Prop} (h₀ : I 0 s₀)
    (hround : ∀ j < k, ∀ s, I j s → ∃ s', round (inputs j) s = .ok (.inr s') ∧ I (j + 1) s') :
    ∃ s, Before round inputs s₀ k s ∧ I k s := by
  induction k with
  | zero => exact ⟨s₀, .start, h₀⟩
  | succ k ih =>
    obtain ⟨s, hbefore, hs⟩ := ih fun j hj => hround j (Nat.lt_succ_of_lt hj)
    obtain ⟨s', hnext, hs'⟩ := hround k (Nat.lt_succ_self k) s hs
    exact ⟨s', hbefore.next hnext, hs'⟩

end Execution
