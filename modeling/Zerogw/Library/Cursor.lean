import Zerogw.Library.Execution

/-!
# Pointers into a buffer

A pointer is what the buffer holds from there to its end. It can be moved forward and read; reading
at the end of the buffer is a fault. A string is read up to its terminator.
-/

namespace Cursor

open Execution

universe u

variable {ε β : Type u} {oob : ε} {stop : β → Bool} {s rest : List β} {c z : β}

/-- The element that a pointer points to; the fault `oob` behind the last one. -/
def deref (oob : ε) : List β → Except ε β
  | [] => .error oob
  | c :: _ => .ok c

/-- The next place that satisfies `stop`, from the pointer on. -/
def scan (oob : ε) (stop : β → Bool) : List β → Except ε (List β)
  | [] => .error oob
  | c :: p => if stop c then .ok (c :: p) else scan oob stop p

/-- What lies between a pointer and a later one. -/
def between (p q : List β) : List β := p.take (p.length - q.length)

@[simp] lemma deref_cons : deref oob (c :: s) = .ok c := rfl

lemma scan_cons_of_stop (h : stop c = true) : scan oob stop (c :: s) = .ok (c :: s) := if_pos h

lemma scan_cons_of_pass (h : stop c = false) : scan oob stop (c :: s) = scan oob stop s :=
  if_neg (by simp [h])

/-- A scan passes everything up to an element that stops it. -/
lemma scan_append (hs : ∀ c ∈ s, stop c = false) (hz : stop z = true) :
    scan oob stop (s ++ z :: rest) = .ok (z :: rest) := by
  induction s with
  | nil => exact scan_cons_of_stop hz
  | cons c s ih =>
    rw [List.cons_append, scan_cons_of_pass (hs c (by simp))]
    exact ih fun c hc => hs c (by simp [hc])

@[simp] lemma between_append : between (s ++ rest) rest = s := by
  rw [between, List.length_append, Nat.add_sub_cancel, List.take_left]

end Cursor
