import Zerogw.Basic

/-!
# The sieve

A fixed array of slots (`sieve.c`). Objects are put into the first empty slot found by a circular
scan that starts behind the slot filled last, and are found again by the slot number that is part
of their id.
-/

namespace Zerogw

variable {α : Type*}

/-- `sieve_t`; `max` is the length of `items`. -/
structure Sieve (α : Type*) where
  index : Nat
  offset : Nat
  filled : Nat
  items : List (Option α)

namespace Sieve

def max (s : Sieve α) : Nat := s.items.length

/-- `sieve_prepare` -/
def prepare (size : Nat) : Sieve α := ⟨0, 0, 0, List.replicate size none⟩

/-- The first empty slot in `lo, lo + 1, …, hi - 1`. -/
def firstHole (items : List (Option α)) (lo hi : Nat) : Option Nat :=
  (List.range' lo (hi - lo)).find? fun k =>
    match items[k]? with
    | some none => true
    | _ => false

/-- `sieve_find_hole`: the allocation number, the slot, and the sieve with `item` in that slot;
`none` where the source returns -1. -/
def findHole (item : α) (s : Sieve α) : Option (Nat × Nat × Sieve α) :=
  match (firstHole s.items s.offset s.max).or (firstHole s.items 0 s.offset) with
  | none => none
  | some hole =>
    some (s.index, hole,
      { index := (s.index + 1) % 2 ^ 64, offset := hole + 1, filled := s.filled + 1,
        items := s.items.set hole (some item) })

/-- `sieve_full` -/
def full (s : Sieve α) : Bool := s.filled ≥ s.max

/-- `sieve_get`. The bound is compared with `>`, so the slot number `max` is let through to a read
behind the array. -/
def get (holeid : Nat) (s : Sieve α) : Except Fault (Option α) :=
  if holeid > s.max then .ok none
  else match s.items[holeid]? with
    | some slot => .ok slot
    | none => .error .outOfBounds

/-- `sieve_empty` -/
def clear (holeid : Nat) (s : Sieve α) : Except Fault (Sieve α) :=
  match s.items[holeid]? with
  | some (some _) => .ok { s with items := s.items.set holeid none, filled := s.filled - 1 }
  | some none => .error (.assertion .sieveEmpty)
  | none => .error .outOfBounds

/-- Slot `k` holds `a`. -/
def Holds (s : Sieve α) (k : Nat) (a : α) : Prop := s.items[k]? = some (some a)

lemma firstHole_some {items : List (Option α)} {lo hi k : Nat}
    (h : firstHole items lo hi = some k) : items[k]? = some none := by
  have hk := List.find?_some h
  revert hk
  cases hi : items[k]? with
  | none => simp
  | some slot => cases slot <;> simp

/-- A successful search fills one slot that was empty. -/
lemma findHole_some {item : α} {s s' : Sieve α} {index hole : Nat}
    (h : s.findHole item = some (index, hole, s')) :
    s.items[hole]? = some none ∧ s'.items = s.items.set hole (some item) := by
  unfold findHole at h
  split at h
  · cases h
  · rename_i k hk
    cases h
    refine ⟨?_, rfl⟩
    rcases Option.or_eq_some_iff.mp hk with hk | ⟨_, hk⟩
    · exact firstHole_some hk
    · exact firstHole_some hk

lemma holds_lt_max {s : Sieve α} {k : Nat} {a : α} (h : s.Holds k a) : k < s.max := by
  exact (List.getElem?_eq_some_iff.mp h).1

lemma findHole_lt_max {item : α} {s s' : Sieve α} {index hole : Nat}
    (h : s.findHole item = some (index, hole, s')) : hole < s.max := by
  exact (List.getElem?_eq_some_iff.mp (findHole_some h).1).1

lemma findHole_max {item : α} {s s' : Sieve α} {index hole : Nat}
    (h : s.findHole item = some (index, hole, s')) : s'.max = s.max := by
  simp [max, (findHole_some h).2]

/-- After a successful search the new object is in its slot and no other slot has changed. -/
lemma findHole_holds {item : α} {s s' : Sieve α} {index hole : Nat}
    (h : s.findHole item = some (index, hole, s')) (k : Nat) (a : α) :
    s'.Holds k a ↔ (k = hole ∧ a = item) ∨ s.Holds k a := by
  obtain ⟨hempty, hitems⟩ := findHole_some h
  have hlt := findHole_lt_max h
  simp only [Holds, hitems]
  by_cases hk : k = hole
  · subst hk
    rw [List.getElem?_set_self hlt, hempty]
    simp [eq_comm]
  · rw [List.getElem?_set_ne (Ne.symm hk)]
    simp [hk]

lemma Holds.unique {s : Sieve α} {k : Nat} {a b : α} (ha : s.Holds k a) (hb : s.Holds k b) :
    a = b :=
  Option.some.inj (Option.some.inj (ha.symm.trans hb))

lemma get_of_holds {s : Sieve α} {k : Nat} {a : α} (h : s.Holds k a) : s.get k = .ok (some a) := by
  have hlt := holds_lt_max h
  simp only [get, if_neg (show ¬ k > s.max by omega)]
  rw [show s.items[k]? = some (some a) from h]

lemma holds_of_get {s : Sieve α} {k : Nat} {a : α} (h : s.get k = .ok (some a)) : s.Holds k a := by
  unfold get at h
  split_ifs at h with hmax
  · cases h
  · split at h
    · rename_i slot hslot
      cases h
      exact hslot
    · cases h

lemma get_eq_error {s : Sieve α} {k : Nat} {f : Fault} (h : s.get k = .error f) :
    f = .outOfBounds := by
  unfold get at h
  split_ifs at h
  split at h <;> cases h
  rfl

/-- Below and above the slot number `max`, a lookup finds what is in the slot. -/
lemma get_eq_ok {s : Sieve α} {k : Nat} (h : k ≠ s.max) :
    ∃ o, s.get k = .ok o ∧ ∀ a, o = some a ↔ s.Holds k a := by
  rw [get]
  split_ifs with hmax
  · refine ⟨none, rfl, fun a => iff_of_false (by simp) fun hk => ?_⟩
    exact absurd (holds_lt_max hk) (Nat.not_lt.mpr hmax.le)
  · obtain ⟨slot, hslot⟩ := Option.ne_none_iff_exists'.mp
      (mt List.getElem?_eq_none_iff.mp (Nat.not_le.mpr (lt_of_le_of_ne (Nat.not_lt.mp hmax) h)))
    refine ⟨slot, by simp only [hslot], fun a => ?_⟩
    rw [Holds, hslot, Option.some_inj]

/-- At the slot number `max`, it reads behind the array. -/
lemma get_max (s : Sieve α) : s.get s.max = .error .outOfBounds := by
  rw [get, if_neg (Nat.lt_irrefl _)]
  have hnone : s.items[s.max]? = none := List.getElem?_eq_none_iff.mpr le_rfl
  simp only [hnone]

/-- Clearing an occupied slot succeeds and changes nothing else. -/
lemma clear_of_holds {s : Sieve α} {k : Nat} {a : α} (h : s.Holds k a) :
    ∃ s', s.clear k = .ok s' ∧ s'.max = s.max ∧
      ∀ j b, s'.Holds j b ↔ s.Holds j b ∧ j ≠ k := by
  refine ⟨_, by simp only [clear]; rw [show s.items[k]? = some (some a) from h], by simp [max], ?_⟩
  intro j b
  have hlt := holds_lt_max h
  simp only [Holds]
  by_cases hj : j = k
  · subst hj
    rw [List.getElem?_set_self hlt]
    simp
  · rw [List.getElem?_set_ne (Ne.symm hj)]
    simp [hj]

lemma clear_eq_ok {s s' : Sieve α} {k : Nat} (h : s.clear k = .ok s') :
    ∃ a, s.Holds k a ∧
      s' = { s with items := s.items.set k none, filled := s.filled - 1 } := by
  rw [clear] at h
  split at h
  · next a ha =>
    cases h
    exact ⟨a, ha, rfl⟩
  · cases h
  · cases h

/-! ### Occupied slots -/

/-- The number of slots that are not empty. -/
def occupied (s : Sieve α) : Nat := s.items.countP Option.isSome

lemma firstHole_eq_none {items : List (Option α)} {lo hi : Nat} :
    firstHole items lo hi = none ↔ ∀ k, lo ≤ k → k < hi → ¬ items[k]? = some none := by
  rw [firstHole, List.find?_eq_none]
  simp only [List.mem_range'_1]
  constructor
  · intro h k hlo hhi hk
    have hfalse := h k ⟨hlo, by omega⟩
    rw [hk] at hfalse
    exact hfalse rfl
  · rintro h k ⟨hlo, hhi⟩
    have hk := h k hlo (by omega)
    split
    · exact absurd ‹_› hk
    · simp

/-- The search fails exactly if every slot is occupied. -/
lemma findHole_eq_none {item : α} {s : Sieve α} :
    s.findHole item = none ↔ ∀ k : Nat, ¬ s.items[k]? = some none := by
  have hor : s.findHole item = none ↔
      (firstHole s.items s.offset s.max).or (firstHole s.items 0 s.offset) = none := by
    rw [findHole]
    split
    · exact iff_of_true rfl ‹_›
    · exact iff_of_false (by simp) (by simp [*])
  rw [hor, Option.or_eq_none_iff, firstHole_eq_none, firstHole_eq_none]
  constructor
  · rintro ⟨hhigh, hlow⟩ k hk
    have hlt : k < s.max := (List.getElem?_eq_some_iff.mp hk).1
    rcases Nat.lt_or_ge k s.offset with hlt' | hge
    · exact hlow k (Nat.zero_le k) hlt' hk
    · exact hhigh k hge hlt hk
  · exact fun h => ⟨fun k _ _ => h k, fun k _ _ => h k⟩

lemma occupied_lt_max {s : Sieve α} : s.occupied < s.max ↔ ∃ k : Nat, s.items[k]? = some none := by
  rw [occupied, max, lt_iff_le_and_ne, and_iff_right List.countP_le_length, Ne,
    List.countP_eq_length]
  simp only [List.getElem?_eq_some_iff, not_forall]
  constructor
  · rintro ⟨slot, hmem, hslot⟩
    obtain ⟨k, hk, rfl⟩ := List.getElem_of_mem hmem
    exact ⟨k, hk, by simpa using hslot⟩
  · rintro ⟨k, hk, hnone⟩
    exact ⟨none, hnone ▸ List.getElem_mem hk, by simp⟩

/-- A slot changes its contents. -/
lemma countP_set {items : List (Option α)} {k : Nat} {old : Option α}
    (hk : items[k]? = some old) (new : Option α) :
    (items.set k new).countP Option.isSome + (if old.isSome then 1 else 0)
      = items.countP Option.isSome + if new.isSome then 1 else 0 := by
  obtain ⟨hlt, hold⟩ := List.getElem?_eq_some_iff.mp hk
  have hsplit := List.take_append_drop k items
  rw [List.drop_eq_getElem_cons hlt, hold] at hsplit
  rw [List.set_eq_take_append_cons_drop, if_pos hlt]
  conv_rhs => rw [← hsplit]
  simp only [List.countP_append, List.countP_cons]
  omega

end Sieve

end Zerogw
