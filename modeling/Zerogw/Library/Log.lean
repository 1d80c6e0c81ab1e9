import Mathlib.Order.Lattice

/-!
# Numbered logs

Entries are numbered from one in the order they come in. An acknowledgement of a number covers all
entries up to it; the entries behind the acknowledged ones wait.
-/

/-- All entries, and how many of them have been acknowledged. -/
structure Log (α : Type*) where
  entries : List α
  acked : Nat
  acked_le : acked ≤ entries.length

namespace Log

variable {α : Type*} {L : Log α} {k : Nat} {a : α}

def empty : Log α := ⟨[], 0, le_rfl⟩

/-- New entries, the first of them first. -/
def append (as : List α) (L : Log α) : Log α where
  entries := L.entries ++ as
  acked := L.acked
  acked_le := by
    rw [List.length_append]
    exact Nat.le_add_right_of_le L.acked_le

/-- An acknowledgement of number `k`. It has no effect if there is no such entry, or if that entry
has been acknowledged before. -/
def ack (k : Nat) (L : Log α) : Log α where
  entries := L.entries
  acked := if k ≤ L.entries.length then max L.acked k else L.acked
  acked_le := by
    split_ifs with hk
    · exact max_le L.acked_le hk
    · exact L.acked_le

/-- The entries that have not been acknowledged. -/
def waiting (L : Log α) : List α := L.entries.drop L.acked

@[ext] lemma ext {L L' : Log α} (hentries : L.entries = L'.entries) (hacked : L.acked = L'.acked) :
    L = L' := by
  cases L
  cases L'
  cases hentries
  cases hacked
  rfl

@[simp] lemma entries_append (as : List α) : (L.append as).entries = L.entries ++ as := rfl

@[simp] lemma acked_append (as : List α) : (L.append as).acked = L.acked := rfl

@[simp] lemma entries_ack : (L.ack k).entries = L.entries := rfl

lemma length_waiting : L.waiting.length = L.entries.length - L.acked := List.length_drop

/-- New entries wait behind those that have been waiting. -/
lemma waiting_append (as : List α) : (L.append as).waiting = L.waiting ++ as :=
  List.drop_append_of_le_length L.acked_le

/-- An acknowledgement of a number that has no entry. -/
lemma ack_of_lt (hk : L.entries.length < k) : L.ack k = L :=
  ext rfl (if_neg (Nat.not_le.mpr hk))

/-- An acknowledgement that comes again, or late. -/
lemma ack_of_le (hk : k ≤ L.acked) : L.ack k = L :=
  ext rfl ((if_pos (hk.trans L.acked_le)).trans (max_eq_left hk))

lemma acked_ack (hlow : L.acked ≤ k) (hhigh : k ≤ L.entries.length) : (L.ack k).acked = k :=
  (if_pos hhigh).trans (max_eq_right hlow)

/-- The number of an entry that waits. -/
lemma getElem?_waiting (i : Nat) : L.waiting[i]? = L.entries[L.acked + i]? := List.getElem?_drop

end Log
