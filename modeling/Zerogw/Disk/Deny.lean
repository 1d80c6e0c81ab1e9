import Zerogw.Library.Cursor
import Zerogw.Disk.Mime

/-!
# The deny rules

`check_base` looks for the last component of a path from its end, and compares bytes there and at
the end. Here a path is a string in memory, and every byte that is read has to be one of the path or
its terminator.
-/

namespace Zerogw

namespace Disk

open Execution

variable {conf : StaticConf} {path mem front name rest value : Bytes} {z : UInt8} {n : Nat}

/-! ### The scan -/

/-- A byte of the string. -/
def byteAt (mem : Bytes) (i : Nat) : Except Fault UInt8 :=
  match mem[i]? with
  | some c => .ok c
  | none => .error .outOfBounds

/-- `!memcmp(mem + i, value, value_len)` -/
def sameAt (mem : Bytes) (i : Nat) (value : Bytes) : Except Fault Bool :=
  if i + value.length ≤ mem.length then .ok ((mem.drop i).take value.length = value)
  else .error .outOfBounds

/-- `strchrnul(mem, c)`, as an index. -/
def strchrnul (mem : Bytes) (c : UInt8) : Except Fault Nat := do
  let found ← Cursor.scan .outOfBounds (fun b => b = c ∨ b = 0) mem
  .ok (mem.length - found.length)

/-- The condition in the loop over the suffixes. -/
def endsWith (mem : Bytes) (pathend : Nat) (suffix : Bytes) : Except Fault Bool :=
  if pathend ≥ suffix.length then sameAt mem (pathend - suffix.length) suffix else .ok false

/-- The loop that moves `base` back to a slash or to the start of the path. -/
def findSlash (mem : Bytes) : Nat → Except Fault Nat
  | 0 => .ok 0
  | base + 1 => do
    if (← byteAt mem (base + 1)) = slash then .ok (base + 1) else findSlash mem base

/-- The condition in the loop over the prefixes. -/
def beginsWith (mem : Bytes) (base : Nat) (baselen : Int) (pre : Bytes) : Except Fault Bool :=
  if baselen ≥ pre.length then sameAt mem base pre else .ok false

/-- The rules of `check_base`: whether one of them denies the path that `mem` holds. -/
def denyScan (conf : StaticConf) (mem : Bytes) : Except Fault Bool := do
  let pathend ← strchrnul mem 63
  if ← conf.denySuffixes.anyM (endsWith mem pathend) then .ok true
  else
    -- the part right behind the slash
    let base := (← findSlash mem pathend) + 1
    conf.denyPrefixes.anyM (beginsWith mem base (pathend - base))

/-- What the rules say: the path without the query ends with one of the suffixes, or its last
component begins with one of the prefixes. -/
def Refused (conf : StaticConf) (path : Bytes) : Prop :=
  (∃ suffix ∈ conf.denySuffixes, suffix <:+ withoutQuery path) ∨
    ∃ pre ∈ conf.denyPrefixes, pre <+: afterLast slash (withoutQuery path)

instance : Decidable (Refused conf path) := inferInstanceAs (Decidable (_ ∨ _))

/-! ### Reading the path -/

/-- In memory, a question mark or the terminator follows the path without the query. -/
lemma exists_mem_eq (path : Bytes) :
    ∃ z rest, path ++ [0] = withoutQuery path ++ z :: rest ∧ (z = 63 ∨ z = 0) := by
  have hsplit : path = withoutQuery path ++ path.dropWhile (· ≠ 63) :=
    List.takeWhile_append_dropWhile.symm
  cases hquery : path.dropWhile (· ≠ 63) with
  | nil =>
    rw [hquery, List.append_nil] at hsplit
    exact ⟨0, [], by rw [← hsplit], Or.inr rfl⟩
  | cons z query =>
    refine ⟨z, query ++ [0], ?_, Or.inl ?_⟩
    · rw [hquery] at hsplit
      conv_lhs => rw [hsplit]
      rw [List.append_assoc, List.cons_append]
    · have hz := List.head?_dropWhile_not (fun b : UInt8 => decide (b ≠ 63)) path
      rw [hquery] at hz
      simpa using hz

lemma strchrnul_eq (hzero : 0 ∉ front) (hquery : 63 ∉ front) (hz : z = 63 ∨ z = 0) :
    strchrnul (front ++ z :: rest) 63 = .ok front.length := by
  have hpass : ∀ b ∈ front, decide (b = 63 ∨ b = 0) = false := by
    intro b hb
    rw [decide_eq_false_iff_not]
    rintro (rfl | rfl)
    · exact hquery hb
    · exact hzero hb
  rw [strchrnul, Cursor.scan_append hpass (decide_eq_true hz), ok_bind, List.length_append,
    Nat.add_sub_cancel]

/-- A comparison inside the string. -/
lemma sameAt_append (front name rest value : Bytes) (h : value.length ≤ name.length) :
    sameAt (front ++ (name ++ rest)) front.length value = .ok (decide (value <+: name)) := by
  have hroom : front.length + value.length ≤ (front ++ (name ++ rest)).length := by
    simp only [List.length_append]
    omega
  rw [sameAt, if_pos hroom, List.drop_left, List.take_append_of_le_length h]
  refine congrArg Except.ok (decide_eq_decide.mpr ?_)
  rw [List.prefix_iff_eq_take, eq_comm]

lemma endsWith_eq (front rest suffix : Bytes) :
    endsWith (front ++ rest) front.length suffix = .ok (decide (suffix <:+ front)) := by
  rw [endsWith]
  split_ifs with hle
  · have hsplit := List.take_append_drop (front.length - suffix.length) front
    have hlen : (front.take (front.length - suffix.length)).length
        = front.length - suffix.length := List.length_take_of_le (Nat.sub_le _ _)
    have hsame := sameAt_append (front.take (front.length - suffix.length))
      (front.drop (front.length - suffix.length)) rest suffix (by rw [List.length_drop]; omega)
    rw [← List.append_assoc, hsplit, hlen] at hsame
    rw [hsame]
    refine congrArg Except.ok (decide_eq_decide.mpr ?_)
    rw [List.suffix_iff_eq_drop, List.prefix_iff_eq_take,
      List.take_of_length_le (by rw [List.length_drop]; omega)]
  · rw [decide_eq_false fun h : suffix <:+ front => hle h.length_le]

/-- From a place in the last component, `base` is moved to the slash in front of it. -/
lemma findSlash_eq (front name rest : Bytes) (hname : slash ∉ name) (hz : z ≠ slash) {n : Nat}
    (hn : n ≤ name.length + 1) :
    findSlash (front ++ slash :: (name ++ z :: rest)) (front.length + n) = .ok front.length := by
  induction n with
  | zero =>
    cases front with
    | nil => rfl
    | cons c front =>
      rw [Nat.add_zero, List.length_cons, findSlash, byteAt]
      simp
  | succ n ih =>
    have hbyte : ∃ c, (front ++ slash :: (name ++ z :: rest))[front.length + (n + 1)]? = some c ∧
        c ≠ slash := by
      rw [List.getElem?_append_right (Nat.le_add_right _ _), Nat.add_sub_cancel_left,
        List.getElem?_cons_succ]
      rcases Nat.lt_or_ge n name.length with hlt | hge
      · rw [List.getElem?_append_left hlt, List.getElem?_eq_getElem hlt]
        exact ⟨_, rfl, fun h => hname (h ▸ List.getElem_mem hlt)⟩
      · obtain rfl : n = name.length := by omega
        exact ⟨z, by simp, hz⟩
    obtain ⟨c, hc, hne⟩ := hbyte
    rw [← Nat.add_assoc] at hc
    rw [← Nat.add_assoc, findSlash, byteAt, hc]
    show (if c = slash then _ else _) = _
    rw [if_neg hne]
    exact ih (by omega)

/-- The first rule that applies ends the loop. -/
lemma anyM_eq {rules : List Bytes} {f : Bytes → Except Fault Bool} {P : Bytes → Prop}
    [DecidablePred P] (h : ∀ r, f r = .ok (decide (P r))) :
    rules.anyM f = .ok (decide (∃ r ∈ rules, P r)) := by
  induction rules with
  | nil => simp [List.anyM]; rfl
  | cons r rules ih =>
    rw [List.anyM, h, ok_bind]
    by_cases hr : P r
    · simp [hr]; rfl
    · simp [hr, ih]

lemma beginsWith_eq (front name rest pre : Bytes) :
    beginsWith (front ++ (name ++ rest)) front.length name.length pre =
      .ok (decide (pre <+: name)) := by
  rw [beginsWith]
  split_ifs with hle
  · exact sameAt_append front name rest pre (by omega)
  · rw [decide_eq_false fun h : pre <+: name => hle (by exact_mod_cast h.length_le)]

/-- A path is split at its last slash. -/
lemma exists_afterLast {c : UInt8} {s : Bytes} (h : c ∈ s) :
    ∃ front, s = front ++ c :: afterLast c s ∧ c ∉ afterLast c s := by
  have hsplit : s.reverse = s.reverse.takeWhile (· ≠ c) ++ s.reverse.dropWhile (· ≠ c) :=
    List.takeWhile_append_dropWhile.symm
  cases hback : s.reverse.dropWhile (· ≠ c) with
  | nil =>
    have hall := List.dropWhile_eq_nil_iff.mp hback c (List.mem_reverse.mpr h)
    simp at hall
  | cons d back =>
    have hd := List.head?_dropWhile_not (fun b : UInt8 => decide (b ≠ c)) s.reverse
    rw [hback] at hd hsplit
    obtain rfl : d = c := by simpa using hd
    refine ⟨back.reverse, ?_, ?_⟩
    · conv_lhs => rw [← List.reverse_reverse s, hsplit]
      simp [afterLast]
    · rw [afterLast, List.mem_reverse]
      intro hmem
      simpa using List.mem_takeWhile_imp hmem

/-! ### The rules -/

lemma checkBase_eq_refused (hslash : path.head? = some slash) :
    checkBase conf path = .ok (!decide (Refused conf path)) := by
  obtain ⟨t, rfl⟩ := List.head?_eq_some_iff.mp hslash
  have hwhole : withoutQuery (slash :: t) = slash :: withoutQuery t :=
    List.takeWhile_cons_of_pos (by decide)
  have hbase : baseName (withoutQuery (slash :: t)) = afterLast slash (withoutQuery (slash :: t)) :=
    baseName_eq (by rw [hwhole]; rfl)
  rw [checkBase, hbase]
  by_cases hsuffix : ∃ suffix ∈ conf.denySuffixes, suffix <:+ withoutQuery (slash :: t)
  · have hrefused : Refused conf (slash :: t) := Or.inl hsuffix
    rw [decide_eq_true hrefused, if_pos (by simpa using hsuffix)]
    rfl
  · rw [if_neg (by simpa using hsuffix), if_neg (by rw [hwhole]; exact List.cons_ne_nil _ _)]
    refine congrArg (fun b => Except.ok (!b)) ?_
    rw [Bool.eq_iff_iff, decide_eq_true_iff, Refused, or_iff_right hsuffix]
    simp

/-- The scan reads no byte outside the string, and denies what the rules refuse. -/
lemma denyScan_eq (hslash : path.head? = some slash) (hstring : 0 ∉ path) :
    denyScan conf (path ++ [0]) = .ok (decide (Refused conf path)) := by
  obtain ⟨z, rest, hmem, hz⟩ := exists_mem_eq path
  have hsub : ∀ b ∈ withoutQuery path, b ∈ path := fun b hb => (List.takeWhile_prefix _).subset hb
  have hquery : (63 : UInt8) ∉ withoutQuery path := by
    intro h
    simpa using List.mem_takeWhile_imp h
  have hne : z ≠ slash := by
    rcases hz with rfl | rfl <;> decide
  have hslash' : slash ∈ withoutQuery path := by
    obtain ⟨t, rfl⟩ := List.head?_eq_some_iff.mp hslash
    rw [withoutQuery, List.takeWhile_cons_of_pos (by decide)]
    exact List.mem_cons_self
  obtain ⟨front, hsplit, hname⟩ := exists_afterLast hslash'
  have hlen : (withoutQuery path).length
      = front.length + ((afterLast slash (withoutQuery path)).length + 1) := by
    conv_lhs => rw [hsplit]
    simp
  rw [denyScan, hmem, strchrnul_eq (mt (hsub 0) hstring) hquery hz, ok_bind,
    anyM_eq (endsWith_eq (withoutQuery path) (z :: rest)), ok_bind]
  by_cases hsuffix : ∃ suffix ∈ conf.denySuffixes, suffix <:+ withoutQuery path
  · have hrefused : Refused conf path := Or.inl hsuffix
    rw [decide_eq_true hsuffix, decide_eq_true hrefused, if_pos rfl]
  · have hfind := findSlash_eq front (afterLast slash (withoutQuery path)) rest hname hne le_rfl
    have hbegins :=
      beginsWith_eq (front ++ [slash]) (afterLast slash (withoutQuery path)) (z :: rest)
    have hwhole : withoutQuery path ++ z :: rest
        = front ++ slash :: (afterLast slash (withoutQuery path) ++ z :: rest) := by
      conv_lhs => rw [hsplit]
      simp
    have hbaselen : ((withoutQuery path).length : Int) - (front.length + 1 : Nat)
        = (afterLast slash (withoutQuery path)).length := by
      rw [hlen]
      omega
    rw [← hwhole, ← hlen] at hfind
    rw [List.append_assoc, List.singleton_append, ← hwhole, List.length_append,
      List.length_singleton] at hbegins
    rw [decide_eq_false hsuffix, if_neg Bool.false_ne_true, hfind, ok_bind]
    show conf.denyPrefixes.anyM (beginsWith _ _ (_ - (front.length + 1 : Nat))) = _
    rw [hbaselen, anyM_eq hbegins]
    exact congrArg Except.ok (decide_eq_decide.mpr (or_iff_right hsuffix).symm)

/-- The deny rules are applied exactly: the scan refuses a path if and only if one of them says so,
reading nothing but the path, and then the reply of the disk thread is that the path is denied,
whatever there is in the file system. -/
theorem deny_rules_exact (conf : StaticConf) (path : Bytes) (hslash : path.head? = some slash)
    (hstring : 0 ∉ path) :
    denyScan conf (path ++ [0]) = .ok (decide (Refused conf path)) ∧
    (Refused conf path → ∀ fs gzipped ifModified,
      serve fs conf ⟨path, gzipped, ifModified⟩ = .ok .denied) := by
  refine ⟨denyScan_eq hslash hstring, ?_⟩
  intro hrefused fs gzipped ifModified
  rw [serve, checkBase_eq_refused hslash, decide_eq_true hrefused]
  rfl

/-- Paths with the suffix `.py` and hidden files. -/
def denyConf : StaticConf where
  root := str "/srv"
  stripDirs := 0
  indexFile := none
  singleUri := []
  restrictRoot := true
  restrictDirs := []
  denySuffixes := [str ".py"]
  denyPrefixes := [str "."]
  gzipEnabled := false

theorem deny_rules_hidden :
    denyScan denyConf (str "/test/.hidden?a/b" ++ [0])
      = .ok (decide (Refused denyConf (str "/test/.hidden?a/b"))) ∧
    (Refused denyConf (str "/test/.hidden?a/b") → ∀ fs gzipped ifModified,
      serve fs denyConf ⟨str "/test/.hidden?a/b", gzipped, ifModified⟩ = .ok .denied) :=
  deny_rules_exact denyConf (str "/test/.hidden?a/b") rfl (by decide)

end Disk

end Zerogw
