import Mathlib.Data.List.DropRight
import Zerogw.Library.Cursor
import Zerogw.Disk.Basic

/-!
# The header `Accept-Encoding`

The loop in `disk_request` that looks for `gzip` among the elements of the header. It compares only
as many characters as an element has, so that the beginning of the word is enough, and even an
element without any characters.
-/

namespace Zerogw

open Execution Cursor

namespace Disk

variable {header element : Bytes} {n : Nat}

/-! ### The loop -/

def comma : UInt8 := 44

/-- `while(start < end && isspace(*start)) ++start`, where `n` characters lie from `start` to `end`,
both included. -/
def trimFront : Bytes → Nat → Except Fault (Bytes × Nat)
  | start, n + 2 => do
    if isSpace (← deref .outOfBounds start) then trimFront start.tail (n + 1)
    else return (start, n + 2)
  | start, n => .ok (start, n)

/-- `while(end > start && isspace(*end)) --end` -/
def trimBack (start : Bytes) : Nat → Except Fault Nat
  | n + 2 => do
    if isSpace (← deref .outOfBounds (start.drop (n + 1))) then trimBack start (n + 1)
    else return n + 2
  | n => .ok n

/-- Whether `strncmp` finds two strings equal. -/
def strncmpEq : Bytes → Bytes → Nat → Except Fault Bool
  | _, _, 0 => .ok true
  | p, q, n + 1 => do
    let a ← deref .outOfBounds p
    let b ← deref .outOfBounds q
    if a ≠ b then return false
    else if a = 0 then return true
    else strncmpEq p.tail q.tail n

/-- The loop over the elements, from `next` on. -/
def findGzip : Nat → Bytes → Except Fault Bool
  | 0, _ => .error .endless
  | fuel + 1, next => do
    if (← deref .outOfBounds next) = 0 then return false
    let stop ← scan .outOfBounds (fun c => c = 0 || c = comma) next
    let behind := if (← deref .outOfBounds stop) ≠ 0 then stop.tail else stop
    let (start, n) ← trimFront next (next.length - stop.length)
    let n ← trimBack start n
    if n = 1 then findGzip fuel behind
    else if ← strncmpEq start (str "gzip" ++ [0]) n then return true
    else findGzip fuel behind

/-! ### What the header lists -/

/-- An element without the white space around it. -/
def trimmed (element : Bytes) : Bytes := (element.dropWhile isSpace).rdropWhile isSpace

/-- The header lists `gzip`. -/
def ListsGzip (header : Bytes) : Prop :=
  ∃ element ∈ header.splitOn comma, trimmed element = str "gzip"

/-- No element is empty or only the beginning of the word; the last one may be empty. -/
def NoFragment (header : Bytes) : Prop :=
  ∀ element ∈ elements header, element ≠ [] ∧ trimmed element ≠ str "gz" ∧
    trimmed element ≠ str "gzi"

/-! ### One element -/

/-- Take off the spaces in front, but leave one character. -/
def trimLeft (l : Bytes) : Bytes :=
  match l.dropWhile isSpace with
  | [] => l.drop (l.length - 1)
  | rest => rest

lemma trim_eq (element : Bytes) : trim element = (trimLeft (trimLeft element).reverse).reverse :=
  rfl

lemma trimLeft_suffix (l : Bytes) : trimLeft l <:+ l := by
  rw [trimLeft]
  split
  · exact List.drop_suffix _ _
  · exact List.dropWhile_suffix _

lemma trim_prefix (element : Bytes) : trim element <+: trimLeft element := by
  rw [trim_eq, ← List.reverse_suffix, List.reverse_reverse]
  exact trimLeft_suffix _

/-- A space in front of at least one more character is taken off. -/
lemma trimLeft_cons_cons (c d : UInt8) (l : Bytes) :
    trimLeft (c :: d :: l) = if isSpace c then trimLeft (d :: l) else c :: d :: l := by
  rw [trimLeft, List.dropWhile_cons]
  split_ifs with hc
  · rw [trimLeft]
    cases (d :: l).dropWhile isSpace with
    | nil => simp
    | cons => rfl
  · rfl

lemma trimLeft_singleton (c : UInt8) : trimLeft [c] = [c] := by
  rw [trimLeft, List.dropWhile_cons]
  split_ifs <;> rfl

lemma trimFront_append (word rest : Bytes) : trimFront (word ++ rest) word.length
    = .ok (trimLeft word ++ rest, (trimLeft word).length) := by
  induction word with
  | nil => rfl
  | cons c word ih =>
    cases word with
    | nil =>
      rw [trimLeft_singleton]
      rfl
    | cons d word =>
      rw [trimLeft_cons_cons]
      show (if isSpace c = true then _ else _) = _
      split_ifs with hc
      · exact ih
      · rfl

lemma trimBack_append (word rest : Bytes) : trimBack (word ++ rest) word.length
    = .ok (trimLeft word.reverse).length := by
  induction word using List.reverseRecOn generalizing rest with
  | nil => rfl
  | append_singleton word c ih =>
    cases hword : word.reverse with
    | nil =>
      rw [List.reverse_eq_nil_iff.mp hword, List.nil_append, List.reverse_singleton,
        trimLeft_singleton]
      rfl
    | cons d front =>
      have hlen : word.length = front.length + 1 := by
        rw [← List.length_reverse, hword, List.length_cons]
      have hlast : (word ++ [c] ++ rest).drop (front.length + 1) = c :: rest := by
        rw [List.append_assoc, List.drop_append_of_le_length hlen.ge, ← hlen, List.drop_length]
        rfl
      rw [List.length_append, hlen, List.length_singleton, trimBack, hlast, deref_cons, ok_bind,
        List.reverse_append, List.reverse_singleton, List.singleton_append, hword,
        trimLeft_cons_cons]
      split_ifs with hc
      · rw [← hword, ← ih, hlen, List.append_assoc]
      · rw [List.length_cons, List.length_cons]
        rfl

lemma strncmpEq_append {word : Bytes} (h0 : 0 ∉ word) (rest q : Bytes) :
    strncmpEq (word ++ rest) (q ++ [0]) word.length = .ok (word.isPrefixOf q) := by
  induction word generalizing q with
  | nil => rfl
  | cons a word ih =>
    obtain ⟨ha, h0⟩ := not_or.mp (mt List.mem_cons.mpr h0)
    cases q with
    | nil =>
      rw [List.length_cons, strncmpEq]
      show (if a ≠ 0 then _ else _) = _
      rw [if_pos (Ne.symm ha)]
      rfl
    | cons b q =>
      rw [List.length_cons, strncmpEq]
      show (if a ≠ b then _ else if a = 0 then _ else strncmpEq (word ++ rest) (q ++ [0]) _) = _
      by_cases hab : a = b
      · rw [if_neg (not_not.mpr hab), if_neg (Ne.symm ha), ih h0 q, hab,
          List.isPrefixOf_cons_cons_self]
      · rw [if_pos hab, List.isPrefixOf_cons_cons, beq_eq_false_iff_ne.mpr hab]
        rfl

lemma meansGzip_eq (element : Bytes) : meansGzip element =
    if (trim element).length = 1 then false else (trim element).isPrefixOf (str "gzip") := by
  rw [meansGzip]
  split
  · next c hc =>
    rw [hc]
    rfl
  · next hlong =>
    rw [if_neg]
    intro hone
    obtain ⟨c, hc⟩ := List.length_eq_one_iff.mp hone
    exact hlong c hc

/-! ### The whole header -/

lemma elements_eq (header : Bytes) : elements header =
    if (header.splitOn comma).getLast? = some [] then (header.splitOn comma).dropLast
    else header.splitOn comma := rfl

lemma elements_cons (hcomma : comma ∉ element) (rest : Bytes) :
    elements (element ++ comma :: rest) = element :: elements rest := by
  have hne := List.splitOn_ne_nil comma rest
  rw [elements_eq, elements_eq, List.splitOn_append_cons_self_of_not_mem hcomma,
    ← List.singleton_append, List.getLast?_append_of_ne_nil _ hne, List.singleton_append,
    List.dropLast_cons_of_ne_nil hne]
  split_ifs <;> rfl

/-- The last element. -/
lemma elements_singleton (hcomma : comma ∉ element) (hne : element ≠ []) :
    elements element = [element] := by
  rw [elements_eq, List.splitOn_eq_singleton hcomma, if_neg (by simpa using hne)]

/-- A header is an element, or begins with an element and a comma. -/
lemma header_cases (header : Bytes) : comma ∉ header ∨
    ∃ element rest, comma ∉ element ∧ header = element ++ comma :: rest := by
  by_cases h : comma ∈ header
  · obtain ⟨element, rest, rfl, hcomma⟩ := List.eq_append_cons_of_mem h
    exact Or.inr ⟨element, rest, hcomma, rfl⟩
  · exact Or.inl h

/-- One round of the loop. -/
lemma findGzip_element {fuel : Nat} {p : Bytes} {z : UInt8} (h0 : 0 ∉ element)
    (hcomma : comma ∉ element) (hz : z = 0 ∨ z = comma) (hne : element ≠ [] ∨ z ≠ 0) :
    findGzip (fuel + 1) (element ++ z :: p)
      = if meansGzip element then .ok true else findGzip fuel (if z ≠ 0 then p else z :: p) := by
  have hpass : ∀ c ∈ element, (decide (c = 0) || decide (c = comma)) = false := by
    intro c hc
    simp only [Bool.or_eq_false_iff, decide_eq_false_iff_not]
    exact ⟨ne_of_mem_of_not_mem hc h0, ne_of_mem_of_not_mem hc hcomma⟩
  have hstop : (decide (z = 0) || decide (z = comma)) = true := by simpa using hz
  have hstart : ∃ c q, element ++ z :: p = c :: q ∧ c ≠ 0 := by
    cases element with
    | nil => exact ⟨z, p, rfl, hne.resolve_left fun h => h rfl⟩
    | cons c element => exact ⟨c, _, rfl, ne_of_mem_of_not_mem List.mem_cons_self h0⟩
  obtain ⟨c, q, hcq, hc⟩ := hstart
  have hlen : (element ++ z :: p).length - (z :: p).length = element.length := by
    rw [List.length_append, Nat.add_sub_cancel]
  rw [findGzip, hcq, deref_cons, ok_bind, if_neg hc, ← hcq, scan_append hpass hstop, ok_bind,
    deref_cons, ok_bind, hlen, trimFront_append, ok_bind]
  dsimp only
  rw [trimBack_append, ok_bind, ← List.length_reverse, ← trim_eq]
  obtain ⟨more, hmore⟩ := trim_prefix element
  have hword : 0 ∉ trim element := by
    intro hmem
    apply h0
    apply (trimLeft_suffix element).subset
    rw [← hmore]
    exact List.mem_append_left _ hmem
  rw [← hmore, List.append_assoc, strncmpEq_append hword, ok_bind, meansGzip_eq]
  by_cases hone : (trim element).length = 1
  · rw [if_pos hone, if_pos hone, if_neg Bool.false_ne_true]
    rfl
  · rw [if_neg hone, if_neg hone]
    rfl

/-- The loop looks at the elements of the header one after the other, reads nothing behind its end,
and comes to an end. -/
lemma findGzip_eq (h0 : 0 ∉ header) {fuel : Nat} (hfuel : header.length < fuel) :
    findGzip fuel (header ++ [0]) = .ok ((elements header).any meansGzip) := by
  induction fuel generalizing header with
  | zero => exact absurd hfuel (Nat.not_lt_zero _)
  | succ fuel ih =>
    rcases header_cases header with hcomma | ⟨element, rest, hcomma, rfl⟩
    · by_cases hne : header = []
      · subst hne
        rfl
      · rw [findGzip_element h0 hcomma (Or.inl rfl) (Or.inl hne), elements_singleton hcomma hne]
        cases fuel with
        | zero => exact absurd (Nat.lt_one_iff.mp hfuel) (mt List.length_eq_zero_iff.mp hne)
        | succ fuel => cases h : meansGzip header <;> simp [h, findGzip]; rfl
    · rw [List.mem_append, List.mem_cons, not_or, not_or] at h0
      obtain ⟨h0, -, hrest⟩ := h0
      have hz : comma ≠ 0 := by decide
      rw [List.append_assoc, List.cons_append, findGzip_element h0 hcomma (Or.inr rfl) (Or.inr hz),
        if_pos hz, elements_cons hcomma, List.any_cons, ih hrest]
      · cases meansGzip element <;> rfl
      · rw [List.length_append, List.length_cons] at hfuel
        omega

/-! ### Which elements are accepted -/

lemma trimLeft_of_ne {l : Bytes} (h : l.dropWhile isSpace ≠ []) :
    trimLeft l = l.dropWhile isSpace := by
  rw [trimLeft]
  split
  · next hnil => exact absurd hnil h
  · rfl

/-- An element that is not blank is trimmed as it should be. -/
lemma trim_of_ne (h : trimmed element ≠ []) : trim element = trimmed element := by
  have hfront : element.dropWhile isSpace ≠ [] := by
    intro hnil
    rw [trimmed, hnil] at h
    exact h rfl
  rw [trim_eq, trimLeft_of_ne hfront, trimLeft_of_ne (mt List.reverse_eq_nil_iff.mpr h)]
  rfl

/-- One blank is left of a blank element. -/
lemma length_trim_of_blank (hne : element ≠ []) (h : trimmed element = []) :
    (trim element).length = 1 := by
  have hblank : element.dropWhile isSpace = [] := by
    rw [← List.dropWhile_idempotent, List.dropWhile_eq_nil_iff]
    exact List.rdropWhile_eq_nil_iff.mp h
  obtain ⟨front, c, rfl⟩ := (List.eq_nil_or_concat element).resolve_left hne
  have hleft : trimLeft (front.concat c) = [c] := by
    rw [trimLeft, hblank]
    simp
  rw [trim_eq, hleft, List.reverse_singleton, trimLeft_singleton]
  rfl

lemma meansGzip_iff : meansGzip element = true ↔ element = [] ∨
    trimmed element = str "gz" ∨ trimmed element = str "gzi" ∨ trimmed element = str "gzip" := by
  by_cases hne : element = []
  · subst hne
    exact iff_of_true rfl (Or.inl rfl)
  rw [or_iff_right hne, meansGzip_eq]
  by_cases hblank : trimmed element = []
  · rw [if_pos (length_trim_of_blank hne hblank), hblank]
    decide
  · have hprefix : trimmed element <+: str "gzip" ↔ trimmed element ∈ (str "gzip").inits :=
      (List.mem_inits _ _).symm
    rw [trim_of_ne hblank]
    constructor
    · intro h
      split_ifs at h with hone
      have hmem := hprefix.mp (List.isPrefixOf_iff_prefix.mp h)
      have hinits : (str "gzip").inits = [[], str "g", str "gz", str "gzi", str "gzip"] := by decide
      rw [hinits] at hmem
      rcases List.mem_cons.mp hmem with hnil | hmem
      · exact absurd hnil hblank
      rcases List.mem_cons.mp hmem with hg | hmem
      · exact absurd (congrArg List.length hg) hone
      · simpa using hmem
    · rintro (h | h | h) <;> rw [h] <;> rfl

/-! ### The elements -/

/-- A last element that is left out does not mean `gzip`. -/
lemma listsGzip_iff : ListsGzip header ↔ ∃ element ∈ elements header,
    trimmed element = str "gzip" := by
  rw [ListsGzip, elements_eq]
  split_ifs with hlast
  · obtain ⟨front, hfront⟩ := List.getLast?_eq_some_iff.mp hlast
    rw [hfront, List.dropLast_concat]
    constructor
    · rintro ⟨element, hmem, hgzip⟩
      rcases List.mem_append.mp hmem with hmem | hmem
      · exact ⟨element, hmem, hgzip⟩
      · rw [List.mem_singleton.mp hmem] at hgzip
        cases hgzip
    · rintro ⟨element, hmem, hgzip⟩
      exact ⟨element, List.mem_append_left _ hmem, hgzip⟩
  · rfl

/-- The loop says whether the header lists `gzip` if and only if it does, or has no fragments. -/
theorem gzip_listed_iff (h0 : 0 ∉ header) : ∃ gzipped,
    findGzip (header.length + 1) (header ++ [0]) = .ok gzipped ∧
      ((gzipped = true ↔ ListsGzip header) ↔ ListsGzip header ∨ NoFragment header) := by
  refine ⟨_, findGzip_eq h0 (Nat.lt_succ_self _), ?_⟩
  rw [List.any_eq_true]
  by_cases hlists : ListsGzip header
  · obtain ⟨element, hmem, hgzip⟩ := listsGzip_iff.mp hlists
    apply iff_of_true _ (Or.inl hlists)
    exact iff_of_true ⟨element, hmem, meansGzip_iff.mpr (Or.inr (Or.inr (Or.inr hgzip)))⟩ hlists
  · rw [iff_false_right hlists, or_iff_right hlists, NoFragment]
    constructor
    · intro hnone element hmem
      have hnot := mt meansGzip_iff.mpr fun h => hnone ⟨element, hmem, h⟩
      simp only [not_or] at hnot
      exact ⟨hnot.1, hnot.2.1, hnot.2.2.1⟩
    · rintro hfrag ⟨element, hmem, hmeans⟩
      obtain ⟨hne, hgz, hgzi⟩ := hfrag element hmem
      rcases meansGzip_iff.mp hmeans with h | h | h | h
      · exact hne h
      · exact hgz h
      · exact hgzi h
      · exact hlists (listsGzip_iff.mpr ⟨element, hmem, h⟩)

theorem gzip_listed_iff_two : ∃ gzipped,
    findGzip 14 (str "deflate, gzip" ++ [0]) = .ok gzipped ∧
      ((gzipped = true ↔ ListsGzip (str "deflate, gzip")) ↔
        ListsGzip (str "deflate, gzip") ∨ NoFragment (str "deflate, gzip")) := by
  have h0 : 0 ∉ str "deflate, gzip" := by decide
  exact gzip_listed_iff h0

/-- The beginning of the word is taken for it. -/
theorem fragment_accepted : findGzip 3 (str "gz" ++ [0]) = .ok true ∧ ¬ ListsGzip (str "gz") := by
  refine ⟨by decide, ?_⟩
  rintro ⟨element, hmem, hgzip⟩
  rw [show (str "gz").splitOn comma = [str "gz"] from rfl, List.mem_singleton] at hmem
  rw [hmem] at hgzip
  cases hgzip

end Disk

end Zerogw
