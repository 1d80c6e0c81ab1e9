import Zerogw.Library.Execution

/-!
# Multipart messages

The parts of a message arrive one after the other, each with a flag that says whether the message
goes on. A loop receives them round by round. If a round takes the parts of one message, whatever
follows them, then the loop handles message by message.
-/

namespace Multipart

open Execution

universe u

variable {ε β σ : Type u}

structure MsgPart (β : Type u) where
  data : β
  more : Bool
  deriving DecidableEq, Repr

/-- The parts of one message. -/
def parts : List β → List (MsgPart β)
  | [] => []
  | [d] => [⟨d, false⟩]
  | d :: rest => ⟨d, true⟩ :: parts rest

/-- A round takes parts, and leaves the others. -/
abbrev Receive (ε β σ : Type u) := List (MsgPart β) → Except ε (σ × List (MsgPart β))

/-! ### Rounds -/

/-- The round ends. -/
def ended (x : Except ε σ) : Receive ε β σ := fun ps => x.map fun s => (s, ps)

/-- The next part; the fault `starved` if there is none. -/
def recv (starved : ε) (k : β → Bool → Receive ε β σ) : Receive ε β σ
  | [] => .error starved
  | p :: ps => k p.data p.more ps

/-- The round ends after the rest of the message, which is dropped. -/
def skip (starved : ε) (x : Except ε σ) : Receive ε β σ
  | [] => .error starved
  | p :: ps => if p.more then skip starved x ps else ended x ps

/-- A part that must not be the last one. -/
def recvNext (starved : ε) (x : Except ε σ) (k : β → Receive ε β σ) : Receive ε β σ :=
  recv starved fun d more => if more then k d else ended x

/-- A part that must be the last one. -/
def recvLast (starved : ε) (x : Except ε σ) (k : β → Receive ε β σ) : Receive ε β σ :=
  recv starved fun d more => if more then skip starved x else k d

section

variable {starved : ε} {x : Except ε σ} {k : β → Receive ε β σ} {d d' : β} {m : List β}
  {rest : List (MsgPart β)}

lemma parts_cons_cons : parts (d :: d' :: m) = ⟨d, true⟩ :: parts (d' :: m) := rfl

lemma parts_append (ds : List β) (hm : m ≠ []) :
    parts (ds ++ m) = ds.map (⟨·, true⟩) ++ parts m := by
  induction ds with
  | nil => rfl
  | cons d ds ih =>
    obtain ⟨d', m', h⟩ := List.exists_cons_of_ne_nil (List.append_ne_nil_of_right_ne_nil ds hm)
    rw [List.cons_append, h, parts_cons_cons, ← h, ih, List.map_cons, List.cons_append]

@[simp] lemma recvNext_singleton : recvNext starved x k (parts [d] ++ rest) = ended x rest := rfl

@[simp] lemma recvNext_cons : recvNext starved x k (parts (d :: d' :: m) ++ rest)
    = k d (parts (d' :: m) ++ rest) := rfl

/-- The rest of a message is dropped. -/
@[simp] lemma skip_parts : skip starved x (parts (d :: m) ++ rest) = ended x rest := by
  induction m generalizing d with
  | nil => rfl
  | cons d' m ih =>
    rw [parts_cons_cons, List.cons_append, skip]
    exact ih

@[simp] lemma recvLast_singleton : recvLast starved x k (parts [d] ++ rest) = k d rest := rfl

@[simp] lemma recvLast_cons : recvLast starved x k (parts (d :: d' :: m) ++ rest)
    = ended x rest := skip_parts

end

/-- Both branches of a round are right. -/
lemma ite_ended {c : Prop} [Decidable c] {f f' : Receive ε β σ} {x x' : Except ε σ}
    {ps rest : List (MsgPart β)} (h : c → f ps = ended x rest) (h' : ¬ c → f' ps = ended x' rest) :
    (if c then f else f') ps = ended (if c then x else x') rest := by
  split_ifs with hc
  · exact h hc
  · exact h' hc

/-! ### Loops -/

/-- The loop, with the number of the round. It ends when no part is there. -/
def loop (body : Nat → σ → Receive ε β σ) : Nat → Nat → σ → List (MsgPart β) → Except ε σ
  | _, _, s, [] => .ok s
  | 0, _, s, _ => .ok s
  | fuel + 1, i, s, p :: ps => do
    let (s, ps) ← body i s (p :: ps)
    loop body fuel (i + 1) s ps

/-- All messages, one after the other. -/
def handleAll (handle : Nat → σ → List β → Except ε σ) : Nat → σ → List (List β) → Except ε σ
  | _, s, [] => .ok s
  | i, s, m :: ms => do
    let s ← handle i s m
    handleAll handle (i + 1) s ms

/-- A round that begins with the first part of message `m` handles `m` and takes its parts. -/
def TakesOne (body : Nat → σ → Receive ε β σ) (handle : Nat → σ → List β → Except ε σ)
    (m : List β) : Prop :=
  ∀ i s rest, body i s (parts m ++ rest) = ended (handle i s m) rest

/-- Every round takes one of the messages, and the loop handles them all in order, in at most as
many rounds as there are parts. -/
def TakesWhole (body : Nat → σ → Receive ε β σ) (handle : Nat → σ → List β → Except ε σ)
    (ms : List (List β)) : Prop :=
  (∀ m ∈ ms, TakesOne body handle m) ∧
    ∀ i s, loop body (ms.flatMap parts).length i s (ms.flatMap parts) = handleAll handle i s ms

variable {body : Nat → σ → Receive ε β σ} {handle : Nat → σ → List β → Except ε σ}
  {ms : List (List β)}

lemma length_parts (m : List β) : (parts m).length = m.length := by
  induction m with
  | nil => rfl
  | cons d m ih =>
    cases m with
    | nil => rfl
    | cons d' m => rw [parts_cons_cons, List.length_cons, List.length_cons, ih]

lemma loop_parts (hne : ∀ m ∈ ms, m ≠ []) (h : ∀ m ∈ ms, TakesOne body handle m) {fuel i : Nat}
    {s : σ} (hfuel : ms.length ≤ fuel) :
    loop body fuel i s (ms.flatMap parts) = handleAll handle i s ms := by
  induction ms generalizing fuel i s with
  | nil => cases fuel <;> rfl
  | cons m ms ih =>
    obtain ⟨d, m, rfl⟩ := List.exists_cons_of_ne_nil (hne m (by simp))
    obtain ⟨fuel, rfl⟩ := Nat.exists_eq_succ_of_ne_zero (Nat.one_le_iff_ne_zero.mp
      (Nat.le_trans (Nat.le_add_left 1 _) hfuel))
    obtain ⟨p, ps, hparts⟩ : ∃ p ps, parts (d :: m) = p :: ps := by
      cases m with
      | nil => exact ⟨_, _, rfl⟩
      | cons d' m => exact ⟨_, _, rfl⟩
    have hbody := h (d :: m) (by simp) i s (ms.flatMap parts)
    rw [List.flatMap_cons, hparts, List.cons_append, loop, ← List.cons_append, ← hparts, hbody,
      handleAll]
    cases handle i s (d :: m) with
    | error e => rfl
    | ok s' =>
      exact ih (fun m hm => hne m (by simp [hm])) (fun m hm => h m (by simp [hm]))
        (Nat.le_of_succ_le_succ hfuel)

/-- It is enough to look at the rounds. -/
theorem takesWhole_iff (hne : ∀ m ∈ ms, m ≠ []) :
    TakesWhole body handle ms ↔ ∀ m ∈ ms, TakesOne body handle m := by
  refine and_iff_left_of_imp fun h i s => loop_parts hne h ?_
  clear h
  induction ms with
  | nil => exact Nat.zero_le _
  | cons m ms ih =>
    have hm : 1 ≤ (parts m).length := by
      rw [length_parts]
      exact List.length_pos_iff.mpr (hne m (by simp))
    rw [List.flatMap_cons, List.length_append, List.length_cons, Nat.add_comm]
    exact Nat.add_le_add hm (ih fun m hm => hne m (by simp [hm]))

end Multipart
