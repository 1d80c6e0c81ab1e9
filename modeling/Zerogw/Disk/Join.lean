import Mathlib.Data.List.TakeWhile
import Zerogw.Library.Execution
import Zerogw.Disk.Basic

/-!
# The buffer of `join_paths`

The path of a request is scanned for the directories to strip, and what is left is copied behind the
document root into a buffer of its own length. The scan may pass the end of the path, and the NUL
byte behind the result has no place in the buffer.
-/

namespace Zerogw

namespace Disk

variable {conf : StaticConf} {path : Bytes} {n : Nat}

/-! ### What is left of a path -/

/-- The path without its leading slashes and its first `n` components. -/
def dropComponents : Nat → Bytes → Bytes
  | 0, path => path.dropWhile (· = slash)
  | n + 1, path => dropComponents n ((path.dropWhile (· = slash)).dropWhile (· ≠ slash))

@[simp] lemma dropComponents_nil : dropComponents n [] = [] := by
  induction n with
  | zero => rfl
  | succ n ih => exact ih

/-- The scan between slashes goes on at the next slash. -/
lemma strip_false (n : Nat) (path : Bytes) : strip n false path =
    if path.dropWhile (· ≠ slash) = [] then .ok []
    else strip n true (path.dropWhile (· ≠ slash)) := by
  induction path with
  | nil => rfl
  | cons c path ih =>
    by_cases hc : c = slash
    · subst hc
      rw [List.dropWhile_cons_of_neg (by simp), if_neg (by simp), strip, if_pos rfl, strip,
        if_pos rfl]
    · rw [strip, if_neg hc, if_neg (by simp), ih, List.dropWhile_cons_of_pos (by simpa using hc)]

/-- A run of slashes is passed. -/
lemma strip_true (n : Nat) (path : Bytes) : strip (n + 1) true path =
    if n = 0 then .ok (path.dropWhile (· = slash))
    else if path.dropWhile (· = slash) = [] then .error .outOfBounds
    else strip n false (path.dropWhile (· = slash)) := by
  induction path with
  | nil =>
    rw [strip]
    simp
  | cons c path ih =>
    by_cases hc : c = slash
    · subst hc
      rw [strip, if_pos rfl, List.dropWhile_cons_of_pos (by simp)]
      exact ih
    · rw [strip, if_neg hc, if_pos rfl, List.dropWhile_cons_of_neg (by simpa using hc),
        if_neg (List.cons_ne_nil c path), Nat.add_sub_cancel, strip_false n path,
        strip_false n (c :: path), List.dropWhile_cons_of_pos (by simpa using hc)]
      simp only [Nat.add_eq_right]

/-- The last character stays if not all characters are dropped. -/
lemma getLast?_dropWhile {p : UInt8 → Bool} (h : path.dropWhile p ≠ []) :
    (path.dropWhile p).getLast? = path.getLast? := by
  obtain ⟨front, hfront⟩ := List.dropWhile_suffix p (l := path)
  conv_rhs => rw [← hfront]
  rw [List.getLast?_append_of_ne_nil _ h]

/-- All characters of a string that ends with `c` are dropped only if `c` is. -/
lemma getLast?_of_dropWhile {p : UInt8 → Bool} (h : path.dropWhile p = []) {c : UInt8}
    (hc : path.getLast? = some c) : p c = true :=
  List.dropWhile_eq_nil_iff.mp h c (List.mem_of_getLast? hc)

/-- The path ends with a slash and has fewer than `n` components. -/
def Overscanned (n : Nat) (path : Bytes) : Prop :=
  path.getLast? = some slash ∧ ∃ m < n, dropComponents m path = []

instance : Decidable (Overscanned n path) := inferInstanceAs (Decidable (_ ∧ _))

/-- The scan finds what is left, or passes the end of a path that ends with a slash and has too few
components. -/
lemma strip_eq (n : Nat) (hne : path ≠ []) : strip (n + 1) true path =
    if Overscanned n path then .error .outOfBounds else .ok (dropComponents n path) := by
  induction n generalizing path with
  | zero => rw [strip_true, if_pos rfl, if_neg (by simp [Overscanned]), dropComponents]
  | succ n ih =>
    rw [strip_true, if_neg n.succ_ne_zero]
    by_cases hs : path.dropWhile (· = slash) = []
    · obtain ⟨c, hc⟩ := Option.ne_none_iff_exists'.mp (mt List.getLast?_eq_none_iff.mp hne)
      have hslash : c = slash := of_decide_eq_true (getLast?_of_dropWhile hs hc)
      rw [if_pos hs, if_pos ⟨hslash ▸ hc, 0, Nat.succ_pos n, hs⟩]
    · have hlast := getLast?_dropWhile hs
      rw [if_neg hs, strip_false]
      by_cases ht : (path.dropWhile (· = slash)).dropWhile (· ≠ slash) = []
      · rw [if_pos ht, if_neg, dropComponents, ht, dropComponents_nil]
        rintro ⟨hslash, -⟩
        simpa using getLast?_of_dropWhile ht (hlast.trans hslash)
      · have hfew : (∃ m < n, dropComponents m
            ((path.dropWhile (· = slash)).dropWhile (· ≠ slash)) = []) ↔
            ∃ m < n + 1, dropComponents m path = [] := by
          constructor
          · rintro ⟨m, hm, hnil⟩
            exact ⟨m + 1, Nat.succ_lt_succ hm, hnil⟩
          · rintro ⟨_ | m, hm, hnil⟩
            · exact absurd hnil hs
            · exact ⟨m, Nat.lt_of_succ_lt_succ hm, hnil⟩
        rw [if_neg ht, ih ht]
        apply if_congr _ rfl rfl
        rw [Overscanned, Overscanned, getLast?_dropWhile ht, hlast, hfew]

/-! ### The buffer -/

/-- Bytes are written one behind the other, from a given index on. -/
abbrev Writes := List (UInt8 × Nat)

/-- The byte that the last write to an index has left there. -/
def contents (writes : Writes) (i : Nat) : Option UInt8 :=
  writes.foldl (fun old w => if w.2 = i then some w.1 else old) none

/-- `join_paths` up to the call of `realpath`: the declared length of `fullpath`, and what is
written there. -/
def joinWrites (conf : StaticConf) (path : Bytes) : Except Fault (Nat × Writes) := do
  let whole := withoutQuery path
  let rest ← strip (conf.stripDirs + 1) false path
  if rest.length + whole.length < path.length then throw .outOfBounds
  let kept := rest.take (rest.length + whole.length - path.length)
  let fulllen := conf.root.length + kept.length + 1
  let index := rest = [] ∨ whole.getLast? = some slash
  let file := if index then conf.indexFile.getD [] else []
  let fulllen := fulllen + file.length
  return (fulllen, conf.root.zipIdx ++ [(slash, conf.root.length)] ++
    kept.zipIdx (conf.root.length + 1) ++ file.zipIdx (conf.root.length + kept.length + 1) ++
    [(0, fulllen)])

/-- Where `joinPaths` gives a string, it is written byte by byte with a NUL byte behind it. -/
lemma joinWrites_eq : joinWrites conf path =
    (joinPaths conf path).map fun full => (full.length, (full ++ [0]).zipIdx) := by
  rw [joinWrites, joinPaths]
  cases strip (conf.stripDirs + 1) false path with
  | error f => rfl
  | ok rest =>
    simp only [Execution.ok_bind]
    by_cases hquery : rest.length + (withoutQuery path).length < path.length
    · simp only [if_pos hquery]
      rfl
    · simp only [if_neg hquery]
      generalize rest.take _ = kept
      generalize (if rest = [] ∨ (withoutQuery path).getLast? = some slash then
        conf.indexFile.getD [] else []) = file
      show Except.ok (_, _) = Except.ok (List.length _, List.zipIdx (_ ++ [0]))
      have hlen : conf.root.length + kept.length + 1 + file.length =
          (conf.root ++ slash :: kept ++ file).length := by
        simp only [List.length_append, List.length_cons]
        omega
      rw [hlen, List.zipIdx_append, List.zipIdx_append, List.zipIdx_append, List.zipIdx_cons]
      simp [Nat.add_assoc]

lemma contents_zipIdx (bytes : Bytes) (i : Nat) : contents bytes.zipIdx i = bytes[i]? := by
  induction bytes using List.reverseRecOn with
  | nil => rfl
  | append_singleton bytes b ih =>
    rw [List.zipIdx_append, contents, List.foldl_append]
    change (if 0 + bytes.length = i then some b else contents bytes.zipIdx i) = _
    rw [ih, Nat.zero_add]
    by_cases hi : bytes.length = i
    · subst hi
      simp
    · rw [if_neg hi]
      rcases Nat.lt_or_gt_of_ne hi with hi | hi
      · rw [List.getElem?_eq_none hi.le, List.getElem?_eq_none (by simpa using hi)]
      · rw [List.getElem?_append_left hi]

/-- The string that `realpath` is to be called with. -/
def joined (conf : StaticConf) (path : Bytes) : Bytes :=
  let rest := dropComponents conf.stripDirs path
  let index := rest = [] ∨ path.getLast? = some slash
  conf.root ++ slash :: rest ++ if index then conf.indexFile.getD [] else []

lemma withoutQuery_eq (hquery : 63 ∉ path) : withoutQuery path = path :=
  List.takeWhile_eq_self_iff.mpr fun _ hc => decide_eq_true (ne_of_mem_of_not_mem hc hquery)

/-- A path that begins with a slash begins with a run of slashes. -/
lemma strip_of_slash (hslash : path.head? = some slash) :
    strip n false path = strip n true path := by
  rcases path with _ | ⟨c, path⟩
  · cases hslash
  · cases Option.some.inj hslash
    rw [strip, if_pos rfl, strip, if_pos rfl]

lemma joinPaths_eq (hslash : path.head? = some slash) (hquery : 63 ∉ path) : joinPaths conf path =
    if Overscanned conf.stripDirs path then .error .outOfBounds else .ok (joined conf path) := by
  rw [joinPaths, withoutQuery_eq hquery, strip_of_slash hslash,
    strip_eq _ (by rintro rfl; cases hslash)]
  split_ifs with hover
  · rfl
  · simp only [Execution.ok_bind]
    rw [if_neg (by omega), Nat.add_sub_cancel, List.take_length]
    rfl

/-- No byte is written behind the end of the buffer. -/
def InBounds (fulllen : Nat) (writes : Writes) : Prop := ∀ w ∈ writes, w.2 < fulllen

/-- The writes leave a string with its NUL byte. -/
def Spells (writes : Writes) (s : Bytes) : Prop :=
  ∀ i ≤ s.length, contents writes i = (s ++ [0])[i]?

/-- The NUL byte is always written behind the buffer. Everything else is in its place unless the
scan passes the end of the path. -/
theorem join_paths_overruns (hslash : path.head? = some slash) (hquery : 63 ∉ path) :
    (¬ ∃ fulllen writes, joinWrites conf path = .ok (fulllen, writes) ∧
      InBounds fulllen writes ∧ Spells writes (joined conf path)) ∧
    ((∃ fulllen writes, joinWrites conf path = .ok (fulllen, writes ++ [(0, fulllen)]) ∧
      InBounds fulllen writes ∧ Spells (writes ++ [(0, fulllen)]) (joined conf path)) ↔
      ¬ Overscanned conf.stripDirs path) := by
  have hwrites : joinWrites conf path = if Overscanned conf.stripDirs path then .error .outOfBounds
      else .ok ((joined conf path).length, (joined conf path ++ [0]).zipIdx) := by
    rw [joinWrites_eq, joinPaths_eq hslash hquery]
    split_ifs <;> rfl
  have hlast : (joined conf path ++ [0]).zipIdx =
      (joined conf path).zipIdx ++ [(0, (joined conf path).length)] := by
    rw [List.zipIdx_append, Nat.zero_add]
    rfl
  rw [hwrites]
  constructor
  · rintro ⟨fulllen, writes, hok, hin, -⟩
    split_ifs at hok
    cases hok
    apply Nat.lt_irrefl (joined conf path).length
    apply hin (0, _)
    rw [hlast]
    exact List.mem_append_right _ (List.mem_singleton_self _)
  · constructor
    · rintro ⟨fulllen, writes, hok, -⟩ hover
      rw [if_pos hover] at hok
      cases hok
    · intro hover
      refine ⟨(joined conf path).length, (joined conf path).zipIdx, ?_, ?_, ?_⟩
      · rw [if_neg hover, hlast]
      · rintro ⟨b, i⟩ hb
        simpa using (List.mem_zipIdx hb).2.1
      · intro i _
        rw [← hlast, contents_zipIdx]

/-- A document root without anything else. -/
def plainRoot : StaticConf where
  root := str "/srv"
  stripDirs := 0
  indexFile := none
  singleUri := []
  restrictRoot := false
  restrictDirs := []
  denySuffixes := []
  denyPrefixes := []
  gzipEnabled := false

/-- `/srv/a` and its NUL byte are seven bytes. -/
theorem join_paths_overruns_a :
    (¬ ∃ fulllen writes, joinWrites plainRoot (str "/a") = .ok (fulllen, writes) ∧
      InBounds fulllen writes ∧ Spells writes (joined plainRoot (str "/a"))) ∧
    ((∃ fulllen writes, joinWrites plainRoot (str "/a") = .ok (fulllen, writes ++ [(0, fulllen)]) ∧
      InBounds fulllen writes ∧ Spells (writes ++ [(0, fulllen)]) (joined plainRoot (str "/a"))) ↔
      ¬ Overscanned plainRoot.stripDirs (str "/a")) :=
  join_paths_overruns (by decide) (by decide)

/-- For the root itself, a buffer of five bytes takes a sixth. -/
theorem terminator_out_of_bounds :
    ¬ ∃ fulllen writes, joinWrites plainRoot (str "/") = .ok (fulllen, writes) ∧
      InBounds fulllen writes ∧ Spells writes (joined plainRoot (str "/")) := by
  rintro ⟨fulllen, writes, hok, hin, -⟩
  have hwrites : joinWrites plainRoot (str "/") = .ok (5, (str "/srv/" ++ [0]).zipIdx) := by rfl
  cases hwrites.symm.trans hok
  exact absurd (hin (0, 5) (by decide)) (Nat.lt_irrefl 5)

end Disk

end Zerogw
