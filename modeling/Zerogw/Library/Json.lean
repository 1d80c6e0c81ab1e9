import Mathlib.Data.List.Forall2
import Mathlib.Data.List.Basic

/-!
# JSON texts

The grammar of JSON as a relation between a list of characters and a value. The value of a string is
a list of UTF-16 code units, and a number stands for itself. Behind the element of an array the text
goes on in one way only: a scan that counts brackets finds the end of the element.
-/

namespace Json

inductive Value where
  | null
  | bool (b : Bool)
  | number (text : List Char)
  | string (units : List Nat)
  | array (elements : List Value)
  | object (members : List (List Nat × Value))

/-! ### Words -/

def IsSpace (c : Char) : Prop := c = ' ' ∨ c = '\t' ∨ c = '\n' ∨ c = '\r'

def IsWs (l : List Char) : Prop := ∀ c ∈ l, IsSpace c

def IsDigit (c : Char) : Prop := '0' ≤ c ∧ c ≤ '9'

/-- One or more digits. -/
def IsDigits (l : List Char) : Prop := l ≠ [] ∧ ∀ c ∈ l, IsDigit c

/-- The part of a number in front of the point. -/
def IsInt (l : List Char) : Prop :=
  l = ['0'] ∨ IsDigits l ∧ l.head? ≠ some '0'

/-- The point and the digits behind it. -/
def IsFrac (l : List Char) : Prop := ∃ digits, l = '.' :: digits ∧ IsDigits digits

def IsExp (l : List Char) : Prop :=
  ∃ e sign digits, l = e :: (sign ++ digits) ∧ (e = 'e' ∨ e = 'E') ∧
    (sign = [] ∨ sign = ['+'] ∨ sign = ['-']) ∧ IsDigits digits

def IsNumber (l : List Char) : Prop :=
  ∃ sign int frac exp, l = sign ++ (int ++ (frac ++ exp)) ∧ (sign = [] ∨ sign = ['-']) ∧ IsInt int ∧
    (frac = [] ∨ IsFrac frac) ∧ (exp = [] ∨ IsExp exp)

/-! ### Strings -/

/-- The UTF-16 code units of a character. -/
def units (c : Char) : List Nat :=
  if c.toNat < 0x10000 then [c.toNat]
  else [0xD800 + (c.toNat - 0x10000) / 0x400, 0xDC00 + (c.toNat - 0x10000) % 0x400]

/-- A character that stands for itself in a string. -/
def Unescaped (c : Char) : Prop := 0x20 ≤ c.toNat ∧ c ≠ '"' ∧ c ≠ '\\'

instance (c : Char) : Decidable (Unescaped c) := inferInstanceAs (Decidable (_ ∧ _ ∧ _))

/-- What the character behind a backslash stands for. -/
def escape (c : Char) : Option Nat :=
  if c = '"' then some 0x22
  else if c = '\\' then some 0x5C
  else if c = '/' then some 0x2F
  else if c = 'b' then some 8
  else if c = 'f' then some 0xC
  else if c = 'n' then some 0xA
  else if c = 'r' then some 0xD
  else if c = 't' then some 9
  else none

def hexDigit (c : Char) : Option Nat :=
  if '0' ≤ c ∧ c ≤ '9' then some (c.toNat - 48)
  else if 'A' ≤ c ∧ c ≤ 'F' then some (c.toNat - 55)
  else if 'a' ≤ c ∧ c ≤ 'f' then some (c.toNat - 87)
  else none

/-- One character of a string, or one escape sequence. -/
inductive IsPiece : List Char → List Nat → Prop
  | char {c : Char} (h : Unescaped c) : IsPiece [c] (units c)
  | escape {c : Char} {u : Nat} (h : escape c = some u) : IsPiece ['\\', c] [u]
  | unicode {c₁ c₂ c₃ c₄ : Char} {d₁ d₂ d₃ d₄ : Nat} (h₁ : hexDigit c₁ = some d₁)
      (h₂ : hexDigit c₂ = some d₂) (h₃ : hexDigit c₃ = some d₃) (h₄ : hexDigit c₄ = some d₄) :
      IsPiece ['\\', 'u', c₁, c₂, c₃, c₄] [0x1000 * d₁ + 0x100 * d₂ + 0x10 * d₃ + d₄]

/-- What stands between the quotes of a string. -/
inductive IsContent : List Char → List Nat → Prop
  | nil : IsContent [] []
  | cons {p s : List Char} {u us : List Nat} (hp : IsPiece p u) (hs : IsContent s us) :
      IsContent (p ++ s) (u ++ us)

/-! ### The grammar -/

/-- The symbols of the grammar; a text is a value with white space around it. -/
inductive Symbol where
  | value
  | text
  | elements
  | members

/-- What a derivation from a symbol stands for. -/
@[reducible] def Symbol.Meaning : Symbol → Type
  | .value | .text => Value
  | .elements => List Value
  | .members => List (List Nat × Value)

/-- The name of a member, up to the colon. -/
def IsName (l : List Char) (u : List Nat) : Prop :=
  ∃ ws s ws', l = ws ++ '"' :: (s ++ '"' :: ws') ∧ IsWs ws ∧ IsContent s u ∧ IsWs ws'

inductive Derives : (k : Symbol) → List Char → k.Meaning → Prop
  | null : Derives .value "null".toList Value.null
  | false : Derives .value "false".toList (Value.bool Bool.false)
  | true : Derives .value "true".toList (Value.bool Bool.true)
  | number {l : List Char} (h : IsNumber l) : Derives .value l (Value.number l)
  | string {s : List Char} {u : List Nat} (h : IsContent s u) :
      Derives .value ('"' :: (s ++ ['"'])) (Value.string u)
  | emptyArray {ws : List Char} (h : IsWs ws) :
      Derives .value ('[' :: (ws ++ [']'])) (Value.array [])
  | array {l : List Char} {vs : List Value} (h : Derives .elements l vs) :
      Derives .value ('[' :: (l ++ [']'])) (Value.array vs)
  | emptyObject {ws : List Char} (h : IsWs ws) :
      Derives .value ('{' :: (ws ++ ['}'])) (Value.object [])
  | object {l : List Char} {ms : List (List Nat × Value)} (h : Derives .members l ms) :
      Derives .value ('{' :: (l ++ ['}'])) (Value.object ms)
  | text {ws t ws' : List Char} {v : Value} (hws : IsWs ws) (h : Derives .value t v)
      (hws' : IsWs ws') : Derives .text (ws ++ (t ++ ws')) v
  | element {t : List Char} {v : Value} (h : Derives .text t v) : Derives .elements t [v]
  | elements {t l : List Char} {v : Value} {vs : List Value} (h : Derives .text t v)
      (hl : Derives .elements l vs) : Derives .elements (t ++ ',' :: l) (v :: vs)
  | member {name t : List Char} {u : List Nat} {v : Value} (hname : IsName name u)
      (h : Derives .text t v) : Derives .members (name ++ ':' :: t) [(u, v)]
  | members {name t l : List Char} {u : List Nat} {v : Value} {ms : List (List Nat × Value)}
      (hname : IsName name u) (h : Derives .text t v) (hl : Derives .members l ms) :
      Derives .members (name ++ ':' :: (t ++ ',' :: l)) ((u, v) :: ms)

/-! ### The end of an element -/

/-- Where a scan is: outside of strings, in a string, or behind a backslash. -/
inductive Mode where
  | plain
  | quoted
  | escaped

/-- What follows an element, where `depth` brackets are open. -/
def behind : Mode → Nat → List Char → List Char
  | _, _, [] => []
  | .plain, depth, c :: l =>
    if c = '"' then behind .quoted depth l
    else if c = '[' ∨ c = '{' then behind .plain (depth + 1) l
    else if c = ']' ∨ c = '}' then if depth = 0 then c :: l else behind .plain (depth - 1) l
    else if c = ',' ∧ depth = 0 then c :: l
    else behind .plain depth l
  | .quoted, depth, c :: l =>
    if c = '"' then behind .plain depth l
    else if c = '\\' then behind .escaped depth l
    else behind .quoted depth l
  | .escaped, depth, _ :: l => behind .quoted depth l

variable {k : Symbol} {v : k.Meaning} {t l s p ws rest : List Char} {u : List Nat} {c d : Char}
  {depth : Nat}

/-- A character that the scan passes outside of strings. -/
def IsPlain (c : Char) : Prop :=
  c ≠ '"' ∧ c ≠ '[' ∧ c ≠ '{' ∧ c ≠ ']' ∧ c ≠ '}' ∧ c ≠ ','

instance (c : Char) : Decidable (IsPlain c) := inferInstanceAs (Decidable (_ ∧ _ ∧ _ ∧ _ ∧ _ ∧ _))

lemma behind_of_isPlain (hl : ∀ c ∈ l, IsPlain c) :
    behind .plain depth (l ++ rest) = behind .plain depth rest := by
  induction l with
  | nil => rfl
  | cons c l ih =>
    obtain ⟨⟨h₁, h₂, h₃, h₄, h₅, h₆⟩, hl⟩ := List.forall_mem_cons.mp hl
    rw [List.cons_append, behind, if_neg h₁, if_neg (not_or.mpr ⟨h₂, h₃⟩),
      if_neg (not_or.mpr ⟨h₄, h₅⟩), if_neg fun h => h₆ h.1, ih hl]

lemma IsWs.isPlain (h : IsWs ws) : ∀ c ∈ ws, IsPlain c := by
  intro c hc
  rcases h c hc with rfl | rfl | rfl | rfl <;> decide

lemma IsDigit.isPlain (h : IsDigit c) : IsPlain c := by
  refine ⟨?_, ?_, ?_, ?_, ?_, ?_⟩ <;> rintro rfl <;> exact absurd h (by rw [IsDigit]; decide)

lemma IsDigits.isPlain (h : IsDigits l) : ∀ c ∈ l, IsPlain c := fun c hc => (h.2 c hc).isPlain

lemma IsInt.isPlain (h : IsInt l) : ∀ c ∈ l, IsPlain c := by
  rcases h with rfl | ⟨h, -⟩
  · exact List.forall_mem_singleton.mpr (by decide)
  · exact h.isPlain

lemma IsFrac.isPlain (h : IsFrac l) : ∀ c ∈ l, IsPlain c := by
  obtain ⟨digits, rfl, hdigits⟩ := h
  exact List.forall_mem_cons.mpr ⟨by decide, hdigits.isPlain⟩

lemma IsExp.isPlain (h : IsExp l) : ∀ c ∈ l, IsPlain c := by
  obtain ⟨e, sign, digits, rfl, he, hsign, hdigits⟩ := h
  rw [List.forall_mem_cons, List.forall_mem_append]
  refine ⟨?_, ?_, hdigits.isPlain⟩
  · rcases he with rfl | rfl <;> decide
  · rcases hsign with rfl | rfl | rfl
    · exact List.forall_mem_nil _
    · exact List.forall_mem_singleton.mpr (by decide)
    · exact List.forall_mem_singleton.mpr (by decide)

lemma IsNumber.isPlain (h : IsNumber l) : ∀ c ∈ l, IsPlain c := by
  obtain ⟨sign, int, frac, exp, rfl, hsign, hint, hfrac, hexp⟩ := h
  rw [List.forall_mem_append, List.forall_mem_append, List.forall_mem_append]
  refine ⟨?_, hint.isPlain, ?_, ?_⟩
  · rcases hsign with rfl | rfl
    · exact List.forall_mem_nil _
    · exact List.forall_mem_singleton.mpr (by decide)
  · rcases hfrac with rfl | hfrac
    · exact List.forall_mem_nil _
    · exact hfrac.isPlain
  · rcases hexp with rfl | hexp
    · exact List.forall_mem_nil _
    · exact hexp.isPlain

/-- A hexadecimal digit does not end a string. -/
lemma unescaped_of_hexDigit {n : Nat} (h : hexDigit c = some n) : c ≠ '"' ∧ c ≠ '\\' := by
  constructor <;> rintro rfl <;> cases h

lemma behind_unescaped (hquote : c ≠ '"') (hbackslash : c ≠ '\\') :
    behind .quoted depth (c :: rest) = behind .quoted depth rest := by
  rw [behind, if_neg hquote, if_neg hbackslash]

lemma behind_of_isPiece (h : IsPiece p u) :
    behind .quoted depth (p ++ rest) = behind .quoted depth rest := by
  cases h with
  | char h => exact behind_unescaped h.2.1 h.2.2
  | escape h => rfl
  | unicode h₁ h₂ h₃ h₄ =>
    obtain ⟨hq₁, hb₁⟩ := unescaped_of_hexDigit h₁
    obtain ⟨hq₂, hb₂⟩ := unescaped_of_hexDigit h₂
    obtain ⟨hq₃, hb₃⟩ := unescaped_of_hexDigit h₃
    obtain ⟨hq₄, hb₄⟩ := unescaped_of_hexDigit h₄
    show behind .quoted depth (_ :: _ :: _ :: _ :: rest) = _
    rw [behind_unescaped hq₁ hb₁, behind_unescaped hq₂ hb₂, behind_unescaped hq₃ hb₃,
      behind_unescaped hq₄ hb₄]

/-- A string behind its first quote. -/
lemma behind_of_isContent (h : IsContent s u) :
    behind .quoted depth (s ++ '"' :: rest) = behind .plain depth rest := by
  induction h with
  | nil => rfl
  | cons hp _ ih => rw [List.append_assoc, behind_of_isPiece hp, ih]

lemma behind_of_isName (h : IsName l u) :
    behind .plain depth (l ++ rest) = behind .plain depth rest := by
  obtain ⟨ws, s, ws', rfl, hws, hs, hws'⟩ := h
  rw [List.append_assoc, behind_of_isPlain hws.isPlain, List.cons_append, List.append_assoc,
    List.cons_append]
  show behind .quoted depth _ = _
  rw [behind_of_isContent hs, behind_of_isPlain hws'.isPlain]

/-- How many brackets stand around what a symbol derives. -/
def Symbol.nesting : Symbol → Nat
  | .value | .text => 0
  | .elements | .members => 1

/-- A derivation is passed as a whole. -/
lemma Derives.behind_eq (h : Derives k t v) (depth : Nat) (rest : List Char) :
    behind .plain (depth + k.nesting) (t ++ rest) = behind .plain (depth + k.nesting) rest := by
  induction h generalizing rest depth with
  | null => rfl
  | false => rfl
  | true => rfl
  | number h => exact behind_of_isPlain h.isPlain
  | string h =>
    rw [List.cons_append, List.append_assoc]
    exact behind_of_isContent h
  | emptyArray h =>
    rw [List.cons_append, List.append_assoc]
    exact behind_of_isPlain h.isPlain
  | array h ih =>
    rw [List.cons_append, List.append_assoc]
    exact ih depth (']' :: rest)
  | emptyObject h =>
    rw [List.cons_append, List.append_assoc]
    exact behind_of_isPlain h.isPlain
  | object h ih =>
    rw [List.cons_append, List.append_assoc]
    exact ih depth ('}' :: rest)
  | text hws h hws' ih =>
    rw [List.append_assoc, behind_of_isPlain hws.isPlain, List.append_assoc]
    exact (ih depth _).trans (behind_of_isPlain hws'.isPlain)
  | element h ih => exact ih (depth + 1) rest
  | elements h hl ih ihl =>
    rw [List.append_assoc]
    exact (ih (depth + 1) _).trans (ihl depth rest)
  | member hname h ih =>
    rw [List.append_assoc, behind_of_isName hname]
    exact ih (depth + 1) rest
  | members hname h hl ih ihl =>
    rw [List.append_assoc, behind_of_isName hname, List.cons_append, List.append_assoc]
    exact (ih (depth + 1) _).trans (ihl depth rest)

/-- What ends an element. -/
def Ends (c : Char) : Prop := c = ',' ∨ c = ']'

lemma behind_of_ends (h : Ends c) : behind .plain 0 (c :: rest) = c :: rest := by
  rcases h with rfl | rfl <;> rfl

/-- An element ends in one place only. -/
theorem Derives.text_unique {t' rest' : List Char} {v v' : Value} (h : Derives .text t v)
    (h' : Derives .text t' v') (hc : Ends c) (hd : Ends d)
    (heq : t ++ c :: rest = t' ++ d :: rest') :
    t = t' ∧ c :: rest = d :: rest' := by
  have hrest : c :: rest = d :: rest' :=
    calc c :: rest = behind .plain 0 (t ++ c :: rest) :=
          ((h.behind_eq 0 _).trans (behind_of_ends hc)).symm
      _ = behind .plain 0 (t' ++ d :: rest') := by rw [heq]
      _ = d :: rest' := (h'.behind_eq 0 _).trans (behind_of_ends hd)
  rw [hrest] at heq
  exact ⟨List.append_cancel_right heq, hrest⟩

/-! ### Quotes without escapes -/

/-- A string that stands between quotes as it is. -/
def quote (m : List Char) : List Char := '"' :: (m ++ ['"'])

variable {m : List Char} {w us : List Nat} {x y : List Char}

lemma units_ne_nil : units c ≠ [] := by
  rw [units]
  split_ifs <;> exact List.cons_ne_nil _ _

/-- The code unit of a quote. -/
lemma eq_quote_of_mem_units (h : 0x22 ∈ units c) : c = '"' := by
  rw [units] at h
  split_ifs at h with hsmall
  · exact Char.toNat_inj.mp (List.mem_singleton.mp h).symm
  · rcases List.mem_cons.mp h with h | h
    · omega
    · have := List.mem_singleton.mp h
      omega

lemma mem_of_mem_flatMap_units (h : 0x22 ∈ m.flatMap units) : '"' ∈ m := by
  obtain ⟨c, hc, hu⟩ := List.mem_flatMap.mp h
  rwa [← eq_quote_of_mem_units hu]

lemma length_le_flatMap_units : m.length ≤ (m.flatMap units).length := by
  induction m with
  | nil => exact Nat.le_refl _
  | cons c m ih =>
    have hpos := List.length_pos_iff.mpr (units_ne_nil (c := c))
    rw [List.flatMap_cons, List.length_append, List.length_cons]
    omega

/-- A piece stands for itself, or it begins with a backslash and is longer than its value. -/
lemma IsPiece.cases (h : IsPiece p u) : (∃ c, p = [c] ∧ u = units c ∧ Unescaped c) ∨
    ∃ q n, p = '\\' :: q ∧ q ≠ [] ∧ u = [n] ∧ ('"' ∈ p → n = 0x22) := by
  cases h with
  | char h => exact Or.inl ⟨_, rfl, rfl, h⟩
  | @escape c n h =>
    refine Or.inr ⟨[c], n, rfl, List.cons_ne_nil _ _, rfl, fun hmem => ?_⟩
    have hc : c = '"' := by simpa [eq_comm] using hmem
    subst hc
    exact (Option.some.inj h).symm
  | unicode h₁ h₂ h₃ h₄ =>
    refine Or.inr ⟨_, _, rfl, List.cons_ne_nil _ _, rfl, fun hmem => ?_⟩
    have hq₁ := (unescaped_of_hexDigit h₁).1
    have hq₂ := (unescaped_of_hexDigit h₂).1
    have hq₃ := (unescaped_of_hexDigit h₃).1
    have hq₄ := (unescaped_of_hexDigit h₄).1
    simp [hq₁.symm, hq₂.symm, hq₃.symm, hq₄.symm] at hmem

lemma isContent_of_unescaped (hm : ∀ c ∈ m, Unescaped c) : IsContent m (m.flatMap units) := by
  induction m with
  | nil => exact .nil
  | cons c m ih =>
    obtain ⟨hc, hm⟩ := List.forall_mem_cons.mp hm
    exact .cons (.char hc) (ih hm)

/-- Two strings are cut from the same text at a quote. -/
lemma append_eq_append_quote {r : List Char} (h : p ++ r = m ++ '"' :: y) :
    (∃ m', m = p ++ m' ∧ r = m' ++ '"' :: y) ∨ ∃ q, p = m ++ '"' :: q := by
  rcases List.append_eq_append_iff.mp h with ⟨m', hm, hr⟩ | ⟨q, hp, hq⟩
  · exact Or.inl ⟨m', hm, hr⟩
  · cases q with
    | nil => exact Or.inl ⟨[], by rw [List.append_nil, hp, List.append_nil], hq.symm⟩
    | cons c q =>
      obtain ⟨rfl, -⟩ := List.cons.inj hq
      exact Or.inr ⟨q, hp⟩

/-- A backslash is not read as a quote. -/
lemma not_quote_of_backslash (hw : 0x22 ∉ w) : 0x22 :: us ≠ w ++ ('\\' :: m).flatMap units := by
  intro h
  cases w with
  | nil => exact absurd (List.cons.inj h).1 (by decide)
  | cons n w => exact hw ((List.cons.inj h).1 ▸ List.mem_cons_self)

/-- A character that stands for itself leaves the value as far behind the text as it was. -/
lemma exists_behind_char (hc : Unescaped c) (hw : 0x22 ∉ w)
    (hus : units c ++ us = (w ++ units c) ++ m.flatMap units) :
    ∃ w', w'.length = w.length ∧ us = w' ++ m.flatMap units ∧ 0x22 ∉ w' := by
  have hwhole : ∃ w', w ++ units c = units c ++ w' ∧ us = w' ++ m.flatMap units := by
    rcases List.append_eq_append_iff.mp hus with ⟨w', hw', hus'⟩ | ⟨w', hw', hus'⟩
    · exact ⟨w', hw', hus'⟩
    · have hlen := congrArg List.length hw'
      rw [List.length_append, List.length_append] at hlen
      have hwnil : w = [] := List.length_eq_zero_iff.mp (by omega)
      have hwnil' : w' = [] := List.length_eq_zero_iff.mp (by omega)
      subst hwnil hwnil'
      exact ⟨[], by rw [List.append_nil, List.nil_append], hus'.symm⟩
  obtain ⟨w', hw', hus'⟩ := hwhole
  have hlen := congrArg List.length hw'
  rw [List.length_append, List.length_append] at hlen
  refine ⟨w', by omega, hus', fun hmem => ?_⟩
  have hmem' : 0x22 ∈ w ++ units c := hw' ▸ List.mem_append_right _ hmem
  rcases List.mem_append.mp hmem' with h | h
  · exact hw h
  · exact hc.2.1 (eq_quote_of_mem_units h)

/-- An escape sequence leaves the value behind the text. -/
lemma exists_behind_escape {q : List Char} {n : Nat} (hq : q ≠ [])
    (hn : '"' ∈ '\\' :: q → n = 0x22) (hw : 0x22 ∉ w)
    (hus : n :: us = (w ++ ('\\' :: q).flatMap units) ++ m.flatMap units) :
    ∃ w', w' ≠ [] ∧ us = w' ++ m.flatMap units ∧ 0x22 ∉ w' := by
  have hlong : 2 ≤ (w ++ ('\\' :: q).flatMap units).length := by
    have hle := length_le_flatMap_units (m := '\\' :: q)
    have hpos := List.length_pos_iff.mpr hq
    rw [List.length_cons] at hle
    rw [List.length_append]
    omega
  cases hW : w ++ ('\\' :: q).flatMap units with
  | nil =>
    rw [hW] at hlong
    cases hlong
  | cons n' w' =>
    rw [hW, List.cons_append] at hus
    obtain ⟨rfl, htail⟩ := List.cons.inj hus
    refine ⟨w', ?_, htail, fun hmem => ?_⟩
    · rintro rfl
      rw [hW] at hlong
      exact absurd hlong (Nat.not_succ_le_self 1)
    · have hmem' : 0x22 ∈ w ++ ('\\' :: q).flatMap units := hW ▸ List.mem_cons_of_mem _ hmem
      rcases List.mem_append.mp hmem' with h | h
      · exact hw h
      · have hquote := hn (mem_of_mem_flatMap_units h)
        subst hquote
        exact not_quote_of_backslash hw hW.symm

/-- The content of a string whose value is the text itself. A value that is behind the text by the
units `w` never catches up. -/
lemma IsContent.eq_of_units (h : IsContent s us) (htext : s ++ '"' :: x = m ++ '"' :: y)
    (hus : us = w ++ m.flatMap units) (hw : 0x22 ∉ w) :
    w = [] ∧ s = m ∧ ∀ c ∈ m, Unescaped c := by
  induction h generalizing m w with
  | nil =>
    obtain ⟨hwnil, hm⟩ := List.append_eq_nil_iff.mp hus.symm
    have hlen := length_le_flatMap_units (m := m)
    rw [hm, List.length_nil, Nat.le_zero, List.length_eq_zero_iff] at hlen
    exact ⟨hwnil, hlen.symm, hlen ▸ List.forall_mem_nil _⟩
  | @cons p s u us hp hs ih =>
    rw [List.append_assoc] at htext
    rcases hp.cases with ⟨c, rfl, rfl, hc⟩ | ⟨q, n, rfl, hq, rfl, hn⟩
    · rcases append_eq_append_quote htext with ⟨m, rfl, htail⟩ | ⟨q, hquote⟩
      · rw [List.flatMap_append, List.flatMap_singleton, ← List.append_assoc] at hus
        obtain ⟨w', hlen, hus', hw'⟩ := exists_behind_char hc hw hus
        obtain ⟨rfl, rfl, hm⟩ := ih htail hus' hw'
        exact ⟨List.length_eq_zero_iff.mp hlen.symm, rfl, List.forall_mem_cons.mpr ⟨hc, hm⟩⟩
      · have hmem : '"' ∈ [c] := hquote ▸ List.mem_append_right _ List.mem_cons_self
        exact absurd (List.mem_singleton.mp hmem).symm hc.2.1
    · exfalso
      rcases append_eq_append_quote htext with ⟨m, rfl, htail⟩ | ⟨r, hr⟩
      · rw [List.flatMap_append, ← List.append_assoc, List.singleton_append] at hus
        obtain ⟨w', hne, hus', hw'⟩ := exists_behind_escape hq hn hw hus
        exact hne (ih htail hus' hw').1
      · have hquote := hn (hr ▸ List.mem_append_right _ List.mem_cons_self)
        subst hquote
        cases m with
        | nil => exact absurd (List.cons.inj hr).1 (by decide)
        | cons c m =>
          obtain ⟨rfl, -⟩ := List.cons.inj hr
          exact not_quote_of_backslash hw hus

/-! ### Quotes as elements -/

lemma Derives.of_string {t : List Char} {u : List Nat} (h : Derives .text t (Value.string u)) :
    ∃ ws s ws', t = ws ++ ('"' :: (s ++ '"' :: ws')) ∧ IsWs ws ∧ IsContent s u ∧ IsWs ws' := by
  cases h with
  | text hws h hws' =>
    cases h with
    | string hs => exact ⟨_, _, _, by simp, hws, hs, hws'⟩

lemma IsWs.nil : IsWs [] := List.forall_mem_nil _

/-- A text is quoted if no character of it needs to be escaped. -/
lemma derives_quote (hm : ∀ c ∈ m, Unescaped c) :
    Derives .text (quote m) (Value.string (m.flatMap units)) := by
  have h := Derives.text .nil (.string (isContent_of_unescaped hm)) .nil
  rwa [List.nil_append, List.append_nil] at h

lemma Ends.not_isSpace (h : Ends c) : ¬ IsSpace c := by
  rw [IsSpace]
  rcases h with rfl | rfl <;> decide

/-- Where an element with the value of a quoted text begins with the quoted text, no character of it
needs to be escaped. -/
theorem quote_unique {t rest' : List Char} (h : Derives .text t (Value.string (m.flatMap units)))
    (hc : Ends c) (heq : quote m ++ c :: rest = t ++ d :: rest') :
    (∀ c ∈ m, Unescaped c) ∧ c :: rest = d :: rest' := by
  obtain ⟨ws, s, ws', rfl, hws, hs, hws'⟩ := h.of_string
  cases ws with
  | cons a ws =>
    have ha : '"' = a := (List.cons.inj heq).1
    exact absurd (hws a List.mem_cons_self) (ha ▸ by rw [IsSpace]; decide)
  | nil =>
    have htext : s ++ '"' :: (ws' ++ d :: rest') = m ++ '"' :: (c :: rest) := by
      have htail : (m ++ ['"']) ++ c :: rest = (s ++ '"' :: ws') ++ d :: rest' :=
        (List.cons.inj heq).2
      rw [List.append_assoc, List.append_assoc] at htail
      exact htail.symm
    obtain ⟨-, rfl, hm⟩ := hs.eq_of_units (w := []) htext rfl List.not_mem_nil
    refine ⟨hm, ?_⟩
    have hrest := (List.cons.inj (List.append_cancel_left htext)).2
    cases ws' with
    | nil => exact hrest.symm
    | cons a ws' =>
      have ha : a = c := (List.cons.inj hrest).1
      subst ha
      exact absurd (hws' a List.mem_cons_self) (hc.not_isSpace)

/-! ### Arrays -/

/-- The elements of an array. -/
lemma Derives.of_elements {vs : List Value} (h : Derives .elements l vs) :
    ∃ t v, Derives .text t v ∧ (l = t ∧ vs = [v] ∨
      ∃ l' vs', l = t ++ ',' :: l' ∧ vs = v :: vs' ∧ Derives .elements l' vs') := by
  cases h with
  | element h => exact ⟨_, _, h, Or.inl ⟨rfl, rfl⟩⟩
  | elements h hl => exact ⟨_, _, h, Or.inr ⟨_, _, rfl, rfl, hl⟩⟩

lemma Derives.elements_ne_nil {vs : List Value} (h : Derives .elements l vs) : vs ≠ [] := by
  obtain ⟨t, v, -, ⟨-, rfl⟩ | ⟨l', vs', -, rfl, -⟩⟩ := h.of_elements
  · exact List.cons_ne_nil _ _
  · exact List.cons_ne_nil _ _

lemma Derives.of_array {vs : List Value} (h : Derives .text ('[' :: l) (Value.array vs)) :
    vs = [] ∨ ∃ l' ws', l = l' ++ ']' :: ws' ∧ Derives .elements l' vs := by
  generalize htext : '[' :: l = t at h
  cases h with
  | @text ws t ws' _ hws h hws' =>
    cases ws with
    | cons a ws =>
      have ha : '[' = a := (List.cons.inj htext).1
      exact absurd (hws a List.mem_cons_self) (ha ▸ by rw [IsSpace]; decide)
    | nil =>
      cases h with
      | emptyArray h => exact Or.inl rfl
      | array h =>
        have htail : l = (_ ++ [']']) ++ ws' := (List.cons.inj htext).2
        exact Or.inr ⟨_, ws', by rw [htail, List.append_assoc, List.singleton_append], h⟩

/-- What is put into an array: a text, or anything between quotes. -/
inductive Item : List Char → Value → Prop
  | text {t : List Char} {v : Value} (h : Derives .text t v) : Item t v
  | quoted (m : List Char) : Item (quote m) (Value.string (m.flatMap units))

/-- An item that begins where an element with its value begins is this element. -/
lemma Item.element_unique {t' rest' : List Char} {v : Value} (h : Item t v)
    (h' : Derives .text t' v)
    (hc : Ends c) (hd : Ends d) (heq : t ++ c :: rest = t' ++ d :: rest') :
    Derives .text t v ∧ c :: rest = d :: rest' := by
  cases h with
  | text h => exact ⟨h, (h.text_unique h' hc hd heq).2⟩
  | quoted m =>
    obtain ⟨hm, hrest⟩ := quote_unique h' hc heq
    exact ⟨derives_quote hm, hrest⟩

variable {ts : List (List Char)} {vs : List Value}

lemma intercalate_cons {t : List Char} (hts : ts ≠ []) :
    [','].intercalate (t :: ts) = t ++ ',' :: [','].intercalate ts := by
  cases ts with
  | nil => exact absurd rfl hts
  | cons => simp [List.intercalate]

lemma derives_elements (h : List.Forall₂ (Derives .text) ts vs) (hts : ts ≠ []) :
    Derives .elements ([','].intercalate ts) vs := by
  induction h with
  | nil => exact absurd rfl hts
  | @cons t v ts vs hv hvs ih =>
    cases hvs with
    | nil => simpa [List.intercalate] using Derives.element hv
    | cons =>
      rw [intercalate_cons (List.cons_ne_nil _ _)]
      exact Derives.elements hv (ih (List.cons_ne_nil _ _))

lemma texts_of_elements {rest' : List Char} (h : List.Forall₂ Item ts vs)
    (hl : Derives .elements l vs) (heq : [','].intercalate ts ++ ']' :: rest = l ++ ']' :: rest') :
    List.Forall₂ (Derives .text) ts vs := by
  induction h generalizing l with
  | nil => exact .nil
  | @cons t v ts vs hv hvs ih =>
    obtain ⟨t', v', ht', ⟨rfl, hvs'⟩ | ⟨l', vs', rfl, hvs', hl'⟩⟩ := hl.of_elements
    · obtain ⟨rfl, rfl⟩ := List.cons.inj hvs'
      cases hvs
      have heq' : t ++ ']' :: rest = l ++ ']' :: rest' := by simpa [List.intercalate] using heq
      exact .cons (hv.element_unique ht' (Or.inr rfl) (Or.inr rfl) heq').1 .nil
    · obtain ⟨rfl, rfl⟩ := List.cons.inj hvs'
      have hts : ts ≠ [] := by
        rintro rfl
        cases hvs
        exact hl'.elements_ne_nil rfl
      rw [intercalate_cons hts, List.append_assoc, List.append_assoc] at heq
      obtain ⟨htext, hrest⟩ := hv.element_unique ht' (Or.inl rfl) (Or.inl rfl) heq
      exact .cons htext (ih hl' (List.cons.inj hrest).2)

/-- Items between brackets, with commas between them, are the array of their values just if each
item is a text. -/
theorem array_iff (h : List.Forall₂ Item ts vs) :
    Derives .text ('[' :: ([','].intercalate ts ++ [']'])) (Value.array vs) ↔
      List.Forall₂ (Derives .text) ts vs := by
  constructor
  · intro harray
    rcases harray.of_array with rfl | ⟨l, ws', heq, hl⟩
    · cases h
      exact .nil
    · exact texts_of_elements h hl heq
  · intro htexts
    have hvalue : Derives .value ('[' :: ([','].intercalate ts ++ [']'])) (Value.array vs) := by
      cases ts with
      | nil =>
        cases h
        exact Derives.emptyArray .nil
      | cons => exact Derives.array (derives_elements htexts (List.cons_ne_nil _ _))
    have htext := Derives.text .nil hvalue .nil
    rwa [List.nil_append, List.append_nil] at htext

/-- A quoted text has its own value just if no character of it needs to be escaped. -/
theorem derives_quote_iff :
    Derives .text (quote m) (Value.string (m.flatMap units)) ↔ ∀ c ∈ m, Unescaped c := by
  constructor
  · intro h
    have heq : quote m ++ ',' :: [] = quote m ++ ',' :: [] := rfl
    exact (quote_unique h (Or.inl rfl) heq).1
  · exact derives_quote

end Json
