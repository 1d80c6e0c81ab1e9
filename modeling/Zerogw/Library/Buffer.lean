import Zerogw.Library.Execution

/-!
# Buffers of a fixed size

An array that is filled from its start. Every store names an index, which may be any integer; a
store outside the array is a fault. What has been put together so far is a prefix of the contents.
-/

namespace Buffer

open Execution

universe u

variable {ε β : Type u} {oob : ε} {buf t cs : List β} {c : β} {i : Int}

/-- A store at index `i`. -/
def store (oob : ε) (i : Int) (c : β) (buf : List β) : Except ε (List β) :=
  if 0 ≤ i ∧ i < buf.length then .ok (buf.set i.toNat c) else .error oob

/-- Stores at consecutive indices. -/
def storeAll (oob : ε) (i : Int) : List β → List β → Except ε (List β)
  | [], buf => .ok buf
  | c :: cs, buf => store oob i c buf >>= storeAll oob (i + 1) cs

lemma store_of_outside (h : ¬ (0 ≤ i ∧ i < buf.length)) : store oob i c buf = .error oob := if_neg h

/-- A store behind what is there already. -/
lemma store_append (oob : ε) (c : β) (h : t <+: buf) (hlt : t.length < buf.length) :
    ∃ buf', store oob t.length c buf = .ok buf' ∧ t ++ [c] <+: buf' ∧ buf'.length = buf.length := by
  obtain ⟨rest, rfl⟩ := h
  cases rest with
  | nil => simp at hlt
  | cons d rest =>
    refine ⟨t ++ c :: rest, ?_, ⟨rest, by simp⟩, by simp⟩
    rw [store, if_pos ⟨by omega, by exact_mod_cast hlt⟩, Int.toNat_natCast,
      List.set_append_right _ _ le_rfl, Nat.sub_self, List.set_cons_zero]

lemma storeAll_append (oob : ε) (cs : List β) (h : t <+: buf)
    (hle : t.length + cs.length ≤ buf.length) :
    ∃ buf', storeAll oob t.length cs buf = .ok buf' ∧ t ++ cs <+: buf' ∧
      buf'.length = buf.length := by
  induction cs generalizing t buf with
  | nil => exact ⟨buf, rfl, by rwa [List.append_nil], rfl⟩
  | cons c cs ih =>
    rw [List.length_cons] at hle
    obtain ⟨buf₁, hstore, hpre, hlen⟩ := store_append oob c h (by omega)
    obtain ⟨buf', hall, hpre', hlen'⟩ := ih hpre (by simp; omega)
    refine ⟨buf', ?_, by simpa using hpre', hlen'.trans hlen⟩
    rw [storeAll, hstore, ok_bind]
    simpa using hall

/-- The first store of many lies outside. -/
lemma storeAll_of_outside (h : ¬ (0 ≤ i ∧ i < buf.length)) :
    storeAll oob i (c :: cs) buf = .error oob := by
  rw [storeAll, store_of_outside h]
  rfl

/-- The beginning of what is there. -/
lemma take_of_isPrefix (h : t <+: buf) {n : Nat} (hn : n ≤ t.length) :
    t.take n <+: buf ∧ (t.take n).length = n :=
  ⟨(List.take_prefix n t).trans h, List.length_take_of_le hn⟩

/-- What the buffer holds up to a place. -/
lemma take_length (h : t <+: buf) : buf.take t.length = t := (List.prefix_iff_eq_take.mp h).symm

end Buffer
