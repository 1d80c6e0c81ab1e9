import Zerogw.Logging.Buffers

/-!
# Escaped user data

The loop of `logudata` shows the characters of a line as printable ones. It takes the digits of a
character from its value shifted and masked; characters are signed, so that the first digit of those
from 0x80 on is looked up in front of the table.
-/

namespace Zerogw.Logging

open Execution

variable {c : UInt8} {s rest buf2 : Bytes}

/-! ### Reading the log -/

/-- The value of a digit of `hexchar`. -/
def digitValue (c : UInt8) : Nat := if c < 58 then c.toNat - 48 else c.toNat - 87

/-- The characters that a line of the log stands for. -/
def unescape : Bytes → Bytes
  | 92 :: 120 :: high :: low :: rest =>
    UInt8.ofNat (16 * digitValue high + digitValue low) :: unescape rest
  | 92 :: 114 :: rest => 13 :: unescape rest
  | 92 :: 110 :: rest => 10 :: unescape rest
  | 92 :: c :: rest => c :: unescape rest
  | c :: rest => c :: unescape rest
  | [] => []

/-- Printable ASCII characters. -/
def Printable (c : UInt8) : Prop := 32 ≤ c ∧ c ≤ 126

/-! ### Characters below 0x80 -/

/-- The digit of `hexchar` with the value `n`. -/
def hexDigit (n : Nat) : UInt8 := UInt8.ofNat (if n < 10 then 48 + n else 87 + n)

/-- What is stored for a character below 0x80. -/
def escaped (c : UInt8) : Bytes :=
  if 32 ≤ c ∧ c ≤ 126 then if c = 92 then [92, 92] else if c = 34 then [92, 34] else [c]
  else if c = 13 then [92, 114]
  else if c = 10 then [92, 110]
  else [92, 120, hexDigit (c.toNat / 16), hexDigit (c.toNat % 16)]

lemma hexchar_eq {n : Nat} (h : n < 16) : hexchar n = .ok (hexDigit n) := by
  have hall : ∀ n : Fin 16, hexchar (n.val : Nat) = .ok (hexDigit n.val) := by
    intro n
    fin_cases n <;> rfl
  exact hall ⟨n, h⟩

/-- Nothing but sixteen digits is found. -/
lemma hexchar_of_neg {i : Int} (h : i < 0) : hexchar i = .error .outOfBounds := by
  rw [hexchar]
  split
  · exact if_neg (by omega)
  · rfl

lemma toChar_eq (c : UInt8) :
    toChar c = if c.toNat < 128 then (c.toNat : Int) else c.toNat - 256 := by
  show c.toBitVec.toInt = _
  rw [BitVec.toInt_eq_toNat_cond]
  show (if 2 * c.toNat < 2 ^ 8 then (c.toNat : Int) else c.toNat - (2 ^ 8 : Nat)) = _
  split_ifs <;> omega

/-- A character below 0x80 is stored without a fault. -/
lemma escape_of_lt (h : c.toNat < 128) : escape hexchar c = .ok (escaped c) := by
  have hchar : toChar c = c.toNat := by rw [toChar_eq, if_pos h]
  have hprint : isprint (toChar c) = true ↔ 32 ≤ c ∧ c ≤ 126 := by
    rw [hchar, isprint, decide_eq_true_iff, UInt8.le_iff_toNat_le, UInt8.le_iff_toNat_le]
    norm_cast
  have hhigh : toChar c >>> (4 : Nat) = (c.toNat / 16 : Nat) := by
    rw [hchar, Int.shiftRight_eq_div_pow]
    norm_cast
  have hlow : toChar c % 16 = (c.toNat % 16 : Nat) := by
    rw [hchar]
    norm_cast
  rw [escape, escaped]
  simp only [hprint, hhigh, hlow, hexchar_eq (show c.toNat / 16 < 16 by omega),
    hexchar_eq (show c.toNat % 16 < 16 by omega), ok_bind]
  split_ifs <;> rfl

/-- From 0x80 on, the table is left. -/
lemma escape_of_ge (h : 128 ≤ c.toNat) : escape hexchar c = .error .outOfBounds := by
  have hlt := c.toNat_lt
  have hneg : toChar c < 0 := by
    rw [toChar_eq, if_neg (by omega)]
    omega
  have hprint : ¬ isprint (toChar c) = true := by
    rw [isprint, decide_eq_true_iff]
    omega
  have hcr : c ≠ 13 := by
    rintro rfl
    exact absurd h (by decide)
  have hlf : c ≠ 10 := by
    rintro rfl
    exact absurd h (by decide)
  have hshift : toChar c >>> (4 : Nat) < 0 := by
    rw [Int.shiftRight_eq_div_pow]
    omega
  rw [escape, if_neg hprint, if_neg hcr, if_neg hlf, hexchar_of_neg hshift]
  rfl

/-! ### Reading back -/

lemma digitValue_hexDigit {n : Nat} (h : n < 16) : digitValue (hexDigit n) = n := by
  have hall : ∀ n : Fin 16, digitValue (hexDigit n.val) = n.val := by decide
  exact hall ⟨n, h⟩

lemma printable_hexDigit {n : Nat} (h : n < 16) : Printable (hexDigit n) := by
  have hall : ∀ n : Fin 16, 32 ≤ hexDigit n.val ∧ hexDigit n.val ≤ 126 := by decide
  exact hall ⟨n, h⟩

lemma printable_escaped (h : c.toNat < 128) {d : UInt8} (hd : d ∈ escaped c) : Printable d := by
  rw [escaped] at hd
  split_ifs at hd with hprint hback hquote hcr hlf
  · simp only [List.mem_cons, List.not_mem_nil, or_false, or_self] at hd
    exact hd ▸ ⟨by decide, by decide⟩
  · simp only [List.mem_cons, List.not_mem_nil, or_false] at hd
    rcases hd with rfl | rfl <;> exact ⟨by decide, by decide⟩
  · rw [List.mem_singleton.mp hd]
    exact hprint
  · simp only [List.mem_cons, List.not_mem_nil, or_false] at hd
    rcases hd with rfl | rfl <;> exact ⟨by decide, by decide⟩
  · simp only [List.mem_cons, List.not_mem_nil, or_false] at hd
    rcases hd with rfl | rfl <;> exact ⟨by decide, by decide⟩
  · simp only [List.mem_cons, List.not_mem_nil, or_false] at hd
    rcases hd with rfl | rfl | rfl | rfl
    · exact ⟨by decide, by decide⟩
    · exact ⟨by decide, by decide⟩
    · exact printable_hexDigit (by omega)
    · exact printable_hexDigit (Nat.mod_lt _ (by decide))

lemma unescape_cons (h : c ≠ 92) : unescape (c :: rest) = c :: unescape rest := by
  rw [unescape]
  all_goals
    intros
    exact absurd ‹_› h

/-- A character is read back, whatever follows. -/
lemma unescape_escaped (h : c.toNat < 128) : unescape (escaped c ++ rest) = c :: unescape rest := by
  rw [escaped]
  split_ifs with hprint hback hquote hcr hlf
  · rw [hback]
    rfl
  · rw [hquote]
    rfl
  · exact unescape_cons hback
  · rw [hcr]
    rfl
  · rw [hlf]
    rfl
  · have hvalue : 16 * digitValue (hexDigit (c.toNat / 16)) + digitValue (hexDigit (c.toNat % 16))
        = c.toNat := by
      rw [digitValue_hexDigit (by omega), digitValue_hexDigit (Nat.mod_lt _ (by decide))]
      omega
    show UInt8.ofNat (16 * digitValue _ + digitValue _) :: unescape rest = _
    rw [hvalue, UInt8.ofNat_toNat]

lemma unescape_flatMap (h : ∀ c ∈ s, c.toNat < 128) : unescape (s.flatMap escaped) = s := by
  induction s with
  | nil => rfl
  | cons c s ih =>
    rw [List.flatMap_cons, unescape_escaped (h c (by simp)), ih fun d hd => h d (by simp [hd])]

/-! ### The loop -/

/-- The loop finds all digits in the table, stores only printable characters, and what it stores can
be read back, if it has got to the end. -/
def EscapesSafely (s buf2 : Bytes) : Prop :=
  ∃ buf' cur, escapeLoop hexchar 0 s buf2 = .ok (buf', cur) ∧
    (∀ d ∈ buf'.take cur.toNat, Printable d) ∧
    (reached 0 s = s → unescape (buf'.take cur.toNat) = s)

/-- A character for which a digit is missing stops the loop. -/
lemma escapeLoop_of_ge {n : Nat} (h : ∃ c ∈ reached n s, 128 ≤ c.toNat) (r : Bytes × Int) :
    escapeLoop hexchar n s buf2 ≠ .ok r := by
  induction s generalizing n buf2 with
  | nil => simp [reached] at h
  | cons c s ih =>
    rw [reached] at h
    split_ifs at h with hlt
    · rw [escapeLoop, if_pos (by simp only [bufSize] at hlt ⊢; omega)]
      intro hloop
      obtain ⟨out, hescape, hrest⟩ := bind_eq_ok.mp hloop
      obtain ⟨buf₁, -, hrest⟩ := bind_eq_ok.mp hrest
      obtain ⟨d, hd, hge⟩ := h
      rcases List.mem_cons.mp hd with rfl | hd
      · rw [escape_of_ge hge] at hescape
        cases hescape
      · rw [length_of_escape hescape, ← Nat.cast_add] at hrest
        exact ih ⟨d, hd, hge⟩ hrest
    · simp at h

/-- User data is escaped safely and reversibly exactly if all characters that the loop gets to are
below 0x80. -/
theorem escapes_safely_iff (s buf2 : Bytes) (hbuf2 : buf2.length = bufSize) :
    EscapesSafely s buf2 ↔ ∀ c ∈ reached 0 s, c < 128 := by
  have hlt : ∀ c : UInt8, c < 128 ↔ c.toNat < 128 := fun c => UInt8.lt_iff_toNat_lt
  simp only [hlt]
  constructor
  · rintro ⟨buf', cur, hloop, -, -⟩
    by_contra hall
    simp only [not_forall, Nat.not_lt] at hall
    obtain ⟨c, hc, hge⟩ := hall
    exact escapeLoop_of_ge ⟨c, hc, hge⟩ _ hloop
  · intro hall
    obtain ⟨buf', t, hloop, hpre, ht, -, -⟩ :=
      escapeLoop_eq (List.nil_prefix (l := buf2)) hbuf2 (by decide) fun c hc =>
        escape_of_lt (hall c hc)
    rw [List.nil_append, List.length_nil] at ht
    subst ht
    refine ⟨buf', _, hloop, ?_, ?_⟩
    · intro d hd
      rw [Int.toNat_natCast, Buffer.take_length hpre] at hd
      obtain ⟨c, hc, hd⟩ := List.mem_flatMap.mp hd
      exact printable_escaped (hall c hc) hd
    · intro hend
      rw [Int.toNat_natCast, Buffer.take_length hpre, hend]
      rw [hend] at hall
      exact unescape_flatMap hall

theorem escapes_safely_quote : EscapesSafely (str "say \"hi\"") (List.replicate bufSize 0) ↔
    ∀ c ∈ reached 0 (str "say \"hi\""), c < 128 :=
  escapes_safely_iff (str "say \"hi\"") (List.replicate bufSize 0) List.length_replicate

/-- The first character of a letter in UTF-8. -/
theorem looks_in_front_of_table :
    escapeLoop hexchar 0 [195, 169] (List.replicate bufSize 0) = .error .outOfBounds ∧
      ¬ EscapesSafely [195, 169] (List.replicate bufSize 0) := by
  have hfault : escapeLoop hexchar 0 [195, 169] (List.replicate bufSize 0) =
      .error .outOfBounds := by
    rw [escapeLoop, if_pos (by decide), escape_of_ge (by decide)]
    rfl
  refine ⟨hfault, ?_⟩
  rintro ⟨buf', cur, hloop, -, -⟩
  rw [hfault] at hloop
  cases hloop

/-- What `logudata` writes for a line of characters below 0x80 is printable, and can be read back if
all of it is there. -/
theorem logudata_reads_back {level : Nat} {stamp msg buf : Bytes} (hstamp : stamp.length < bufSize)
    (hbuf : buf.length = bufSize) (hbuf2 : buf2.length = bufSize) (hcounted : Counted stamp msg)
    (hs : s = (stamp ++ msg).take (min (count stamp msg) 4094))
    (hlt : ∀ c ∈ reached 0 s, c.toNat < 128) :
    ∃ line, logudata hexchar level stamp msg buf buf2 = .ok ⟨line ++ [newline], level ≤ errLevel⟩ ∧
      (∀ d ∈ line, Printable d) ∧ (reached 0 s = s → unescape line = s) := by
  obtain ⟨buf', hprint, hpre, -⟩ := printLine_eq msg hstamp hbuf
  rw [(toInt_printed hstamp).1 hcounted] at hprint
  have hn := le_length_take (min_le_left (count stamp msg) 4094) clamp_lt
  have hline : buf'.take (min (count stamp msg : Int) 4094).toNat = s := by
    obtain ⟨hcut, hlen⟩ := Buffer.take_of_isPrefix hpre hn
    rw [min_natCast, Int.toNat_natCast, hs]
    rw [List.take_take, min_eq_left (Nat.le_sub_one_of_lt clamp_lt)] at hcut hlen
    rw [← hlen, Buffer.take_length hcut, hlen]
  have hlog := logudata_eq level hbuf2 hprint fun c hc =>
    escape_of_lt (hlt c (by rwa [hline] at hc))
  rw [hline] at hlog
  refine ⟨_, hlog.1, ?_, ?_⟩
  · intro d hd
    obtain ⟨c, hc, hd⟩ := List.mem_flatMap.mp hd
    exact printable_escaped (hlt c hc) hd
  · intro hend
    rw [hend] at hlt ⊢
    exact unescape_flatMap hlt

end Zerogw.Logging
