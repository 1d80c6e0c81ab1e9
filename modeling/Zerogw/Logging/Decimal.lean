import Zerogw.Logging.Basic

/-!
# Decimal digits

What the digits of a number are made of, and that they say which number it is.
-/

namespace Zerogw.Logging

variable {k : Nat}

lemma decimal_natCast (k : Nat) :
    decimal k = (Nat.toDigits 10 k).map fun c => UInt8.ofNat c.toNat := by
  rw [decimal, if_neg (Int.not_lt.mpr (Int.natCast_nonneg k)), List.nil_append, Int.natAbs_natCast]

lemma toNat_digit {d : Char} (hd : d.isDigit = true) :
    (UInt8.ofNat d.toNat).toNat = d.toNat ∧ 48 ≤ d.toNat ∧ d.toNat ≤ 57 := by
  rw [Char.isDigit, Bool.and_eq_true, decide_eq_true_eq, decide_eq_true_eq] at hd
  have hlow : 48 ≤ d.toNat := hd.1
  have hhigh : d.toNat ≤ 57 := hd.2
  exact ⟨UInt8.toNat_ofNat_of_lt' (lt_of_le_of_lt hhigh (by decide)), hlow, hhigh⟩

lemma isDigit_of_mem_decimal {b : UInt8} (hb : b ∈ decimal (k : Int)) : 48 ≤ b ∧ b ≤ 57 := by
  rw [decimal_natCast] at hb
  obtain ⟨d, hd, rfl⟩ := List.mem_map.mp hb
  obtain ⟨heq, hlow, hhigh⟩ :=
    toNat_digit (Nat.isDigit_of_mem_toDigits (by norm_num) (by norm_num) hd)
  rw [UInt8.le_iff_toNat_le, UInt8.le_iff_toNat_le, heq]
  exact ⟨hlow, hhigh⟩

lemma decimal_ne_nil (k : Nat) : decimal (k : Int) ≠ [] := by
  rw [decimal_natCast]
  exact mt List.map_eq_nil_iff.mp Nat.toDigits_ne_nil

/-- Digits are read from left to right. -/
lemma foldl_digits {ds : List Char} (hds : ∀ d ∈ ds, d.isDigit = true) (n : Nat) :
    (ds.map fun c => UInt8.ofNat c.toNat).foldl (fun (n : Int) b => 10 * n + (b.toNat - 48)) n =
      (Nat.ofDigitChars 10 ds n : Nat) := by
  induction ds generalizing n with
  | nil => rfl
  | cons d ds ih =>
    obtain ⟨heq, hlow, -⟩ := toNat_digit (hds d List.mem_cons_self)
    have hstep : (10 * (n : Int) + ((UInt8.ofNat d.toNat).toNat - 48)) =
        ((10 * n + (d.toNat - '0'.toNat) : Nat) : Int) := by
      rw [heq, Nat.cast_add, Nat.cast_mul, show '0'.toNat = 48 from rfl, Nat.cast_sub hlow]
      rfl
    rw [List.map_cons, List.foldl_cons, hstep, ih fun d hd => hds d (List.mem_cons_of_mem _ hd),
      Nat.ofDigitChars_cons]

lemma foldl_decimal (k : Nat) :
    (decimal (k : Int)).foldl (fun (n : Int) b => 10 * n + (b.toNat - 48)) 0 = k := by
  have hall : ∀ d ∈ Nat.toDigits 10 k, d.isDigit = true := fun d hd =>
    Nat.isDigit_of_mem_toDigits (by norm_num) (by norm_num) hd
  have hfold := foldl_digits hall 0
  rw [Nat.ofDigitChars_ten_toDigits] at hfold
  rw [decimal_natCast]
  exact hfold

end Zerogw.Logging
