import Mathlib.Logic.Function.Basic

/-!
# Tickets

Tickets are numbered as they come in. The ticket in hand is answered at once, put aside without an
answer, or sent to wait at a place. A ticket that waits is answered at its place, or forgotten when
another one takes the place or the place is cleared. So no ticket is answered twice.
-/

universe u v

/-- The tickets, and which of them waits where. -/
structure Desk (ι : Type u) (α : Type v) where
  next : Nat
  inHand : Option Nat
  waiting : ι → Option Nat
  answers : Nat → List α

namespace Desk

variable {ι : Type u} {α : Type v} {D D' : Desk ι α} {n : Nat} {p : ι} {a : α}

/-- A ticket has at most one answer, none while it is in hand or waits, and waits at one place. -/
structure Sound (D : Desk ι α) : Prop where
  once : ∀ n, (D.answers n).length ≤ 1
  waits : ∀ p n, D.waiting p = some n → D.answers n = []
  alone : ∀ p p' n, D.waiting p = some n → D.waiting p' = some n → p = p'
  held : ∀ n, D.inHand = some n → D.answers n = [] ∧ ∀ p, D.waiting p ≠ some n
  fresh : ∀ n, D.next ≤ n → D.answers n = [] ∧ D.inHand ≠ some n ∧ ∀ p, D.waiting p ≠ some n

/-! ### The ticket in hand -/

namespace Sound

variable (hD : D.Sound)

include hD

lemma lt_next_of_held (h : D.inHand = some n) : n < D.next := by
  by_contra hn
  exact (hD.fresh n (Nat.not_lt.mp hn)).2.1 h

lemma lt_next_of_waiting (h : D.waiting p = some n) : n < D.next := by
  by_contra hn
  exact (hD.fresh n (Nat.not_lt.mp hn)).2.2 p h

/-- A new ticket comes in. -/
lemma take : Sound { D with next := D.next + 1, inHand := some D.next } := by
  refine ⟨hD.once, hD.waits, hD.alone, ?_, fun n hn => ?_⟩
  · rintro n ⟨⟩
    exact ⟨(hD.fresh _ (Nat.le_refl _)).1, (hD.fresh _ (Nat.le_refl _)).2.2⟩
  · obtain ⟨hnone, -, hwaits⟩ := hD.fresh n (Nat.le_of_succ_le hn)
    refine ⟨hnone, ?_, hwaits⟩
    rintro ⟨⟩
    exact absurd hn (Nat.not_succ_le_self _)

/-- The ticket in hand is put aside. -/
lemma drop : Sound { D with inHand := none } := by
  refine ⟨hD.once, hD.waits, hD.alone, nofun, fun n hn => ?_⟩
  exact ⟨(hD.fresh n hn).1, nofun, (hD.fresh n hn).2.2⟩

/-- A ticket that has no answer, and neither is in hand nor waits, gets one. -/
lemma answered (a : α) (hnone : D.answers n = []) (hheld : D.inHand ≠ some n)
    (hwaits : ∀ p, D.waiting p ≠ some n) (hlt : n < D.next) :
    Sound { D with answers := Function.update D.answers n (D.answers n ++ [a]) } := by
  have hne : ∀ {n'}, n' ≠ n →
      Function.update D.answers n (D.answers n ++ [a]) n' = D.answers n' := fun hn' =>
    Function.update_of_ne hn' _ _
  refine ⟨fun n' => ?_, fun p n' hn' => ?_, hD.alone, fun n' hn' => ?_, fun n' hn' => ?_⟩
  · dsimp only
    by_cases hn' : n' = n
    · rw [hn', Function.update_self, hnone]
      exact Nat.le_refl _
    · rw [hne hn']
      exact hD.once n'
  · have : n' ≠ n := fun heq => hwaits p (heq ▸ hn')
    exact (hne this).trans (hD.waits p n' hn')
  · have : n' ≠ n := fun heq => hheld (heq ▸ hn')
    exact ⟨(hne this).trans (hD.held n' hn').1, (hD.held n' hn').2⟩
  · have : n' ≠ n := fun heq => absurd hlt (Nat.not_lt.mpr (heq ▸ hn'))
    obtain ⟨hnone', hheld', hwaits'⟩ := hD.fresh n' hn'
    exact ⟨(hne this).trans hnone', hheld', hwaits'⟩

end Sound

/-! ### Places -/

variable [DecidableEq ι]

/-- What can happen. -/
inductive Step (D : Desk ι α) : Desk ι α → Prop
  | stay : Step D D
  | take : Step D { D with next := D.next + 1, inHand := some D.next }
  | reply {n : Nat} (a : α) (h : D.inHand = some n) :
      Step D { D with
        inHand := none, answers := Function.update D.answers n (D.answers n ++ [a]) }
  | send {n : Nat} (p : ι) (h : D.inHand = some n) :
      Step D { D with inHand := none, waiting := Function.update D.waiting p (some n) }
  | answer {n : Nat} (p : ι) (a : α) (h : D.waiting p = some n) :
      Step D { D with
        waiting := Function.update D.waiting p none
        answers := Function.update D.answers n (D.answers n ++ [a]) }
  | clear (p : ι) : Step D { D with waiting := Function.update D.waiting p none }

/-- Nobody waits where the place has been cleared. -/
lemma waiting_of_update {p' : ι} (h : Function.update D.waiting p none p' = some n) :
    p' ≠ p ∧ D.waiting p' = some n := by
  by_cases hp : p' = p
  · subst hp
    simp at h
  · rw [Function.update_of_ne hp] at h
    exact ⟨hp, h⟩

namespace Sound

variable (hD : D.Sound)

include hD

/-- The place is cleared. -/
lemma clear (p : ι) : Sound { D with waiting := Function.update D.waiting p none } := by
  refine ⟨hD.once, fun p' n hn => hD.waits p' n (waiting_of_update hn).2, fun p' p'' n hn hn' =>
    hD.alone p' p'' n (waiting_of_update hn).2 (waiting_of_update hn').2, fun n hn => ?_,
    fun n hn => ?_⟩
  · exact ⟨(hD.held n hn).1, fun p' hp' => (hD.held n hn).2 p' (waiting_of_update hp').2⟩
  · obtain ⟨hnone, hheld, hwaits⟩ := hD.fresh n hn
    exact ⟨hnone, hheld, fun p' hp' => hwaits p' (waiting_of_update hp').2⟩

/-- The ticket in hand is sent to a place. -/
lemma send (p : ι) (h : D.inHand = some n) :
    Sound { D with inHand := none, waiting := Function.update D.waiting p (some n) } := by
  obtain ⟨hnone, hwaits⟩ := hD.held n h
  have hcases : ∀ {p' n'}, Function.update D.waiting p (some n) p' = some n' →
      p' = p ∧ n' = n ∨ p' ≠ p ∧ D.waiting p' = some n' := by
    intro p' n' hn'
    by_cases hp : p' = p
    · rw [hp, Function.update_self] at hn'
      exact Or.inl ⟨hp, (Option.some.inj hn').symm⟩
    · rw [Function.update_of_ne hp] at hn'
      exact Or.inr ⟨hp, hn'⟩
  refine ⟨hD.once, fun p' n' hn' => ?_, fun p' p'' n' hn' hn'' => ?_, nofun, fun n' hn' => ?_⟩
  · rcases hcases hn' with ⟨-, rfl⟩ | ⟨-, hw⟩
    · exact hnone
    · exact hD.waits p' n' hw
  · rcases hcases hn' with ⟨rfl, rfl⟩ | ⟨-, hw⟩
    · rcases hcases hn'' with ⟨rfl, -⟩ | ⟨-, hw'⟩
      · rfl
      · exact absurd hw' (hwaits _)
    · rcases hcases hn'' with ⟨-, rfl⟩ | ⟨-, hw'⟩
      · exact absurd hw (hwaits _)
      · exact hD.alone p' p'' n' hw hw'
  · obtain ⟨hnone', -, hwaits'⟩ := hD.fresh n' hn'
    refine ⟨hnone', nofun, fun p' hp' => ?_⟩
    rcases hcases hp' with ⟨-, rfl⟩ | ⟨-, hw⟩
    · exact absurd (hD.lt_next_of_held h) (Nat.not_lt.mpr hn')
    · exact hwaits' p' hw

end Sound

/-- Every step keeps the tickets sound. -/
theorem Step.sound (hD : D.Sound) (h : Step D D') : D'.Sound := by
  cases h with
  | stay => exact hD
  | take => exact hD.take
  | @reply n a h =>
    obtain ⟨hnone, hwaits⟩ := hD.held n h
    exact hD.drop.answered a hnone nofun hwaits (hD.lt_next_of_held h)
  | send p h => exact hD.send p h
  | @answer n p a h =>
    refine (hD.clear p).answered a (hD.waits p n h) (fun hheld => ?_) (fun p' hp' => ?_)
      (hD.lt_next_of_waiting h)
    · exact (hD.held n hheld).2 p h
    · obtain ⟨hne, hp'⟩ := waiting_of_update hp'
      exact hne (hD.alone p' p n hp' h)
  | clear p => exact hD.clear p

/-- Answers stay. -/
lemma Step.answers_prefix (h : Step D D') (n : Nat) : D.answers n <+: D'.answers n := by
  have hupdate : ∀ n' (a : α),
      D.answers n <+: Function.update D.answers n' (D.answers n' ++ [a]) n := by
    intro n' a
    by_cases hn : n = n'
    · rw [hn, Function.update_self]
      exact List.prefix_append _ _
    · have hsame := Function.update_of_ne hn (D.answers n' ++ [a]) D.answers
      exact ⟨[], (List.append_nil _).trans hsame.symm⟩
  cases h with
  | @reply n' a h => exact hupdate n' a
  | @answer n' p a h => exact hupdate n' a
  | _ => exact List.prefix_refl _

end Desk
