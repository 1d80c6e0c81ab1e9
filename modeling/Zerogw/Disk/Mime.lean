import Zerogw.Disk.Join

/-!
# Content types

`check_base` chooses the `Content-Type` of a file before `join_paths` says which file is served.
Both decide by themselves whether that is the index file: one looks whether the path ends with a
slash, the other also whether anything is left of the path.
-/

namespace Zerogw

namespace Disk

variable {conf : StaticConf} {path full key name : Bytes}

/-! ### The table of types -/

/-- A `char` that is converted to `size_t`. -/
def charToSize (c : UInt8) : UInt64 :=
  if c < 128 then c.toUInt64 else c.toUInt64 ||| 0xFFFFFFFFFFFFFF00

/-- The hash that `mime_add` and `mime_find` compute. -/
def mimeHash (key : Bytes) : UInt64 :=
  key.foldl (fun h c =>
    (h + ((h <<< 1) + (h <<< 4) + (h <<< 7) + (h <<< 8) + (h <<< 24))) ^^^ charToSize c) 0

/-- `mime_table_t`: the names and types in each cell. -/
structure MimeTable where
  entries : Nat → List (Bytes × Bytes)

namespace MimeTable

/-- `mime_new` -/
def new : MimeTable := ⟨fun _ => []⟩

/-- The cell of a name; `mime_new` makes 4096 of them. -/
def cell (key : Bytes) : Nat := (mimeHash key).toNat % 4096

/-- `mime_find` -/
def find (table : MimeTable) (key : Bytes) : Option Bytes :=
  ((table.entries (cell key)).find? (·.1 = key)).map Prod.snd

/-- `mime_add`, without the type that a name has already. -/
def add (table : MimeTable) (key value : Bytes) : MimeTable :=
  if (table.entries (cell key)).any (·.1 = key) then table
  else ⟨Function.update table.entries (cell key) (table.entries (cell key) ++ [(key, value)])⟩

/-- The table that `prepare_disk` fills with entries in their order. -/
def fill (types : List (Bytes × Bytes)) : MimeTable :=
  types.foldl (fun table entry => table.add entry.1 entry.2) new

/-- Only the first type of a name is kept. -/
lemma find_add (table : MimeTable) (key value k : Bytes) :
    (table.add key value).find k = (table.find k).or (if k = key then some value else none) := by
  rw [add]
  by_cases hany : (table.entries (cell key)).any (·.1 = key) = true
  · rw [if_pos hany]
    split_ifs with hk
    · subst hk
      obtain ⟨entry, hentry⟩ := Option.isSome_iff_exists.mp (List.find?_isSome.mpr
        (List.any_eq_true.mp hany))
      rw [find, hentry, Option.map_some, Option.some_or]
    · rw [Option.or_none]
  · rw [if_neg hany, find, find]
    dsimp only
    by_cases hcell : cell k = cell key
    · rw [hcell, Function.update_self, List.find?_append, Option.map_or, List.find?_singleton]
      congr 1
      by_cases hk : k = key
      · simp [hk]
      · simp [hk, Ne.symm hk]
    · have hk : k ≠ key := fun h => hcell (h ▸ rfl)
      rw [Function.update_of_ne hcell, if_neg hk, Option.or_none]

lemma find_foldl (types : List (Bytes × Bytes)) (table : MimeTable) (key : Bytes) :
    (types.foldl (fun table entry => table.add entry.1 entry.2) table).find key
      = (table.find key).or (types.lookup key) := by
  induction types generalizing table with
  | nil => rw [List.foldl_nil, List.lookup_nil, Option.or_none]
  | cons entry types ih =>
    rw [List.foldl_cons, ih, find_add, Option.or_assoc, List.lookup_cons]
    by_cases hkey : key = entry.1
    · simp [hkey]
    · rw [if_neg hkey, Option.none_or, beq_eq_false_iff_ne.mpr hkey]

/-- The first entry for a name counts. -/
lemma find_fill (types : List (Bytes × Bytes)) (key : Bytes) :
    (fill types).find key = types.lookup key := by
  rw [fill, find_foldl]
  rfl

end MimeTable

/-- `mime-types` of the server: the entries of `extra`, then those of the file. -/
structure MimeTypes where
  types : List (Bytes × Bytes)
  noExtension : Bytes
  defaultType : Bytes

/-! ### `check_base` -/

def dot : UInt8 := 46

/-- The loop that looks for an extension, backwards from the end of the path to `base`; the text
between is `behind`. There is none if the loop ends at `base`. -/
def scanExt : Bytes → Bytes → Option Bytes
  | [], _ => none
  | [_], _ => none
  | c :: front, behind => if c = dot then some behind else scanExt front (c :: behind)

/-- The text behind the last `c`, or everything if there is none. -/
def afterLast (c : UInt8) (s : Bytes) : Bytes := (s.reverse.takeWhile (· ≠ c)).reverse

/-- `ext` and `ext0` in `check_base`: the text to look up, if `ext` is not `NULL`. For an index file
without a dot, `ext` is never set. -/
def extensionOf (conf : StaticConf) (path : Bytes) : Except Fault (Option Bytes) :=
  let whole := withoutQuery path
  let base := baseName whole
  if (base = [] ∧ 63 ∉ path) ∨ whole.getLast? = some slash then
    match conf.indexFile with
    | some file => if dot ∈ file then .ok (some (afterLast dot file)) else .error .uninitialised
    | none => .ok none
  else .ok (scanExt base.reverse [])

/-- `check_base`: the content type, or nothing if the path is denied. -/
def checkBaseMime (conf : StaticConf) (dirIndex : Bool) (mimes : MimeTypes) (path : Bytes) :
    Except Fault (Option Bytes) := do
  if !(← checkBase conf path) then return none
  let whole := withoutQuery path
  if ((baseName whole = [] ∧ 63 ∉ path) ∨ whole.getLast? = some slash) ∧
      conf.indexFile = none ∧ dirIndex then
    return some (str "text/html")
  match ← extensionOf conf path with
  | none => return some mimes.noExtension
  | some ext => return some (((MimeTable.fill mimes.types).find ext).getD mimes.defaultType)

/-! ### What is served -/

/-- The extension of a file: what is behind the last dot, if that is not the first character. -/
def extension (name : Bytes) : Option Bytes :=
  if dot ∈ name.drop 1 then some (afterLast dot name) else none

/-- The type for an extension. -/
def MimeTypes.typeFor (mimes : MimeTypes) : Option Bytes → Bytes
  | none => mimes.noExtension
  | some ext => (mimes.types.lookup ext).getD mimes.defaultType

/-- Whatever the types are, `check_base` finds the type of the file that `join_paths` leads to. -/
def DescribesFile (conf : StaticConf) (path : Bytes) : Prop :=
  ∀ mimes, ∃ mime, checkBaseMime conf false mimes path = .ok (some mime) ∧
    ∀ full, joinPaths conf path = .ok full → mime = mimes.typeFor (extension (afterLast slash full))

/-- The path has no more components than `strip-dirs` takes away. -/
def UsedUp (conf : StaticConf) (path : Bytes) : Prop :=
  63 ∉ path ∧ dropComponents conf.stripDirs path = []

instance : Decidable (UsedUp conf path) := inferInstanceAs (Decidable (_ ∧ _))

/-- For a path to a directory, the index file has a dot, and if there is a file to serve then the
last dot is in the name of the index file and not its first character. For other paths that are used
up, the index file has the extension of the path. -/
def SameExtension (conf : StaticConf) (path : Bytes) : Prop :=
  if (withoutQuery path).getLast? = some slash then
    ∀ file ∈ conf.indexFile, dot ∈ file ∧ ((∃ full, joinPaths conf path = .ok full) →
      extension (afterLast slash file) = some (afterLast dot file))
  else UsedUp conf path → extension (afterLast slash path)
    = extension (afterLast slash (conf.indexFile.getD []))

/-! ### Last components -/

lemma afterLast_append (c : UInt8) (front back : Bytes) :
    afterLast c (front ++ c :: back) = afterLast c back := by
  rw [afterLast, afterLast, List.reverse_append, List.reverse_cons, List.append_assoc,
    List.takeWhile_append]
  split_ifs with h
  · rw [List.singleton_append, List.takeWhile_cons_of_neg (by simp), List.append_nil,
      (List.takeWhile_prefix _).eq_of_length h]
  · rfl

lemma afterLast_concat {c b : UInt8} (hb : b ≠ c) (s : Bytes) :
    afterLast c (s ++ [b]) = afterLast c s ++ [b] := by
  rw [afterLast, List.reverse_append, List.reverse_singleton, List.singleton_append,
    List.takeWhile_cons_of_pos (by simpa using hb), List.reverse_cons, afterLast]

/-- Nothing is behind the last character. -/
lemma afterLast_of_getLast? {c : UInt8} {s : Bytes} (h : s.getLast? = some c) (back : Bytes) :
    afterLast c (s ++ back) = afterLast c back := by
  obtain ⟨front, rfl⟩ := List.getLast?_eq_some_iff.mp h
  rw [List.append_assoc, List.singleton_append, afterLast_append]

/-- The path begins with a slash. -/
lemma baseName_eq (hslash : path.head? = some slash) : baseName path = afterLast slash path := by
  obtain ⟨t, rfl⟩ := List.head?_eq_some_iff.mp hslash
  rw [← List.nil_append (slash :: t), afterLast_append]
  rfl

/-- One more character at the end of a name. -/
lemma extension_concat (hne : name ≠ []) (c : UInt8) : extension (name ++ [c]) =
    if c = dot then some [] else (extension name).map (· ++ [c]) := by
  have hmem : dot ∈ (name ++ [c]).drop 1 ↔ dot ∈ name.drop 1 ∨ dot = c := by
    rw [List.drop_append_of_le_length (List.length_pos_iff.mpr hne), List.mem_append,
      List.mem_singleton]
  by_cases hc : c = dot
  · rw [extension, if_pos (hmem.mpr (Or.inr hc.symm)), if_pos hc, hc, afterLast_append]
    rfl
  · rw [extension, if_neg hc, afterLast_concat hc, extension]
    by_cases hdot : dot ∈ name.drop 1
    · rw [if_pos (hmem.mpr (Or.inl hdot)), if_pos hdot, Option.map_some]
    · rw [if_neg (mt hmem.mp (not_or.mpr ⟨hdot, Ne.symm hc⟩)), if_neg hdot, Option.map_none]

/-- The loop finds the extension of a name. -/
lemma scanExt_eq (name behind : Bytes) : scanExt name.reverse behind
    = (extension name).map (· ++ behind) := by
  induction name using List.reverseRecOn generalizing behind with
  | nil => rfl
  | append_singleton name c ih =>
    rw [List.reverse_append, List.reverse_singleton, List.singleton_append]
    cases hname : name.reverse with
    | nil =>
      rw [List.reverse_eq_nil_iff.mp hname]
      rfl
    | cons c' front =>
      have hne : name ≠ [] := by
        rintro rfl
        cases hname
      rw [extension_concat hne, scanExt]
      · by_cases hc : c = dot
        · rw [if_pos hc, if_pos hc]
          rfl
        · rw [if_neg hc, if_neg hc, ← hname, ih, Option.map_map]
          congr 1
          funext ext
          simp
      · exact List.cons_ne_nil _ _

/-! ### The file that is served -/

/-- What is left of a path follows a slash. -/
lemma dropComponents_spec (n : Nat) (hslash : path.head? = some slash) :
    dropComponents n path = [] ∨
      ∃ front, path = front ++ dropComponents n path ∧ front.getLast? = some slash := by
  induction n generalizing path with
  | zero =>
    refine Or.inr ⟨path.takeWhile (· = slash), (List.takeWhile_append_dropWhile).symm, ?_⟩
    obtain ⟨t, rfl⟩ := List.head?_eq_some_iff.mp hslash
    rw [List.takeWhile_cons_of_pos (by simp)]
    obtain ⟨c, hc⟩ := Option.ne_none_iff_exists'.mp
      (mt List.getLast?_eq_none_iff.mp (List.cons_ne_nil slash (t.takeWhile (· = slash))))
    rw [hc]
    rcases List.mem_cons.mp (List.mem_of_getLast? hc) with rfl | hmem
    · rfl
    · have hall := List.mem_takeWhile_imp hmem
      exact congrArg some (of_decide_eq_true hall)
  | succ n ih =>
    rw [dropComponents]
    generalize ht : (path.dropWhile (· = slash)).dropWhile (· ≠ slash) = t
    obtain ⟨pre, hpre⟩ : t <:+ path := by
      rw [← ht]
      exact (List.dropWhile_suffix _).trans (List.dropWhile_suffix _)
    cases t with
    | nil => exact Or.inl dropComponents_nil
    | cons c t =>
      have hc : c = slash := by
        have hhead := List.head?_dropWhile_not (· ≠ slash) (path.dropWhile (· = slash))
        rw [ht] at hhead
        simpa using hhead
      have hhead : (c :: t).head? = some slash := congrArg some hc
      rcases ih hhead with hnil | ⟨front, hfront, hlast⟩
      · exact Or.inl hnil
      · refine Or.inr ⟨pre ++ front, ?_, ?_⟩
        · rw [List.append_assoc, ← hfront, hpre]
        · rw [List.getLast?_append, hlast]
          rfl

/-- The path that `join_paths` builds. -/
lemma joinPaths_eq_ok (hslash : path.head? = some slash) (h : joinPaths conf path = .ok full) :
    ∃ kept, full = conf.root ++ slash :: kept ++
        (if dropComponents conf.stripDirs path = [] ∨ (withoutQuery path).getLast? = some slash
          then conf.indexFile.getD [] else []) ∧
      (dropComponents conf.stripDirs path = [] → kept = [] ∧ 63 ∉ path) ∧
      (dropComponents conf.stripDirs path ≠ [] → ∃ front, withoutQuery path = front ++ kept ∧
        front.getLast? = some slash) := by
  have hprefix : withoutQuery path <+: path := List.takeWhile_prefix _
  rw [joinPaths, strip_of_slash hslash, strip_eq _ (by rintro rfl; cases hslash)] at h
  by_cases hover : Overscanned conf.stripDirs path
  · rw [if_pos hover] at h
    cases h
  rw [if_neg hover, Execution.ok_bind] at h
  by_cases hquery : (dropComponents conf.stripDirs path).length + (withoutQuery path).length
      < path.length
  · rw [if_pos hquery] at h
    cases h
  rw [if_neg hquery] at h
  cases h
  refine ⟨_, rfl, fun hnil => ?_, fun hne => ?_⟩
  · rw [hnil, List.length_nil, Nat.zero_add] at hquery
    refine ⟨by rw [hnil, List.take_nil], fun hmem => ?_⟩
    have hwhole := hprefix.eq_of_length_le (Nat.not_lt.mp hquery)
    rw [← hwhole] at hmem
    simpa using List.mem_takeWhile_imp hmem
  · rcases dropComponents_spec conf.stripDirs hslash with hnil | ⟨front, hfront, hlast⟩
    · exact absurd hnil hne
    · refine ⟨front, ?_, hlast⟩
      have hlen : front.length + (dropComponents conf.stripDirs path).length = path.length := by
        rw [← List.length_append, ← hfront]
      calc withoutQuery path = path.take (withoutQuery path).length :=
            List.prefix_iff_eq_take.mp hprefix
        _ = (front ++ dropComponents conf.stripDirs path).take (withoutQuery path).length := by
            rw [← hfront]
        _ = front ++ (dropComponents conf.stripDirs path).take
              ((withoutQuery path).length - front.length) := by
            rw [List.take_append, List.take_of_length_le (by omega)]
        _ = _ := by
            congr 2
            omega

/-- The name of the file that is served. -/
lemma afterLast_joined (hslash : path.head? = some slash) (h : joinPaths conf path = .ok full) :
    afterLast slash full =
      if (withoutQuery path).getLast? = some slash ∨ UsedUp conf path
      then afterLast slash (conf.indexFile.getD []) else afterLast slash (withoutQuery path) := by
  obtain ⟨kept, rfl, hnil, hne⟩ := joinPaths_eq_ok hslash h
  rw [List.append_assoc, List.cons_append, afterLast_append]
  by_cases hused : dropComponents conf.stripDirs path = []
  · obtain ⟨rfl, hquery⟩ := hnil hused
    rw [if_pos (Or.inl hused), if_pos (Or.inr ⟨hquery, hused⟩)]
    rfl
  · obtain ⟨front, hwhole, hfront⟩ := hne hused
    have hmore : ¬ UsedUp conf path := fun h => hused h.2
    simp only [hused, hmore, false_or, or_false]
    split_ifs with hlast
    · rw [hwhole, List.getLast?_append] at hlast
      rcases List.eq_nil_or_concat kept with rfl | ⟨kept, c, rfl⟩
      · rfl
      · apply afterLast_of_getLast?
        simpa using hlast
    · rw [List.append_nil, hwhole, afterLast_of_getLast? hfront]

/-! ### The type that is chosen -/

lemma getLast?_of_afterLast {c : UInt8} {s : Bytes} (hne : s ≠ []) (h : afterLast c s = []) :
    s.getLast? = some c := by
  obtain ⟨s, b, rfl⟩ := (List.eq_nil_or_concat s).resolve_left hne
  by_cases hb : b = c
  · rw [hb, List.concat_eq_append, List.getLast?_concat]
  · rw [List.concat_eq_append, afterLast_concat hb] at h
    cases List.append_eq_nil_iff.mp h |>.2

lemma extensionOf_eq (hslash : path.head? = some slash) : extensionOf conf path =
    if (withoutQuery path).getLast? = some slash then
      match conf.indexFile with
      | some file => if dot ∈ file then .ok (some (afterLast dot file)) else .error .uninitialised
      | none => .ok none
    else .ok (extension (afterLast slash (withoutQuery path))) := by
  obtain ⟨t, rfl⟩ := List.head?_eq_some_iff.mp hslash
  have hwhole : withoutQuery (slash :: t) = slash :: withoutQuery t :=
    List.takeWhile_cons_of_pos (by decide)
  have hbase : baseName (withoutQuery (slash :: t)) = afterLast slash (withoutQuery (slash :: t)) :=
    baseName_eq (by rw [hwhole]; rfl)
  have hdir : (baseName (withoutQuery (slash :: t)) = [] ∧ 63 ∉ slash :: t) ∨
      (withoutQuery (slash :: t)).getLast? = some slash ↔
      (withoutQuery (slash :: t)).getLast? = some slash := by
    refine or_iff_right_of_imp fun h => getLast?_of_afterLast ?_ (hbase ▸ h.1)
    rw [hwhole]
    exact List.cons_ne_nil _ _
  rw [extensionOf, if_congr hdir rfl rfl, hbase, scanExt_eq]
  simp

lemma checkBaseMime_eq (hdeny : checkBase conf path = .ok true) (mimes : MimeTypes) :
    checkBaseMime conf false mimes path
      = (extensionOf conf path).map fun ext => some (mimes.typeFor ext) := by
  rw [checkBaseMime, hdeny]
  simp only [Execution.ok_bind, Bool.not_true, Bool.false_eq_true, if_false, and_false]
  cases extensionOf conf path with
  | error f => rfl
  | ok ext =>
    cases ext with
    | none => rfl
    | some ext =>
      rw [Execution.ok_bind]
      dsimp only
      rw [MimeTable.find_fill]
      rfl

/-- Two extensions with the same type in every table are the same. -/
lemma typeFor_injective {ext ext' : Option Bytes} :
    (∀ mimes : MimeTypes, mimes.typeFor ext = mimes.typeFor ext') ↔ ext = ext' := by
  refine ⟨fun h => ?_, fun h mimes => by rw [h]⟩
  cases ext with
  | none =>
    cases ext' with
    | none => rfl
    | some e' => cases h ⟨[], str "n", str "d"⟩
  | some e =>
    cases ext' with
    | none => cases h ⟨[], str "n", str "d"⟩
    | some e' =>
      by_contra hne
      have hlookup := h ⟨[(e, str "e")], str "n", str "d"⟩
      have hneq : (e' == e) = false := by
        simpa using fun h => hne (congrArg some h.symm)
      rw [MimeTypes.typeFor, MimeTypes.typeFor, List.lookup_cons_self, List.lookup_cons,
        hneq] at hlookup
      cases hlookup

lemma describesFile_of_ok (hdeny : checkBase conf path = .ok true) {ext : Option Bytes}
    (hext : extensionOf conf path = .ok ext) : DescribesFile conf path ↔
      ∀ full, joinPaths conf path = .ok full → ext = extension (afterLast slash full) := by
  constructor
  · intro h full hfull
    refine typeFor_injective.mp fun mimes => ?_
    obtain ⟨mime, hmime, hsame⟩ := h mimes
    rw [checkBaseMime_eq hdeny, hext] at hmime
    cases hmime
    exact hsame full hfull
  · intro h mimes
    refine ⟨mimes.typeFor ext, ?_, fun full hfull => by rw [h full hfull]⟩
    rw [checkBaseMime_eq hdeny, hext]
    rfl

lemma not_describesFile (hdeny : checkBase conf path = .ok true) {f : Fault}
    (hext : extensionOf conf path = .error f) : ¬ DescribesFile conf path := by
  intro h
  obtain ⟨mime, hmime, -⟩ := h ⟨[], [], []⟩
  rw [checkBaseMime_eq hdeny, hext] at hmime
  cases hmime

/-- `check_base` finds the type of the file that is served if and only if the extensions agree. -/
theorem content_type_iff (hslash : path.head? = some slash)
    (hdeny : checkBase conf path = .ok true) :
    DescribesFile conf path ↔ SameExtension conf path := by
  have hext : extensionOf conf path = _ := extensionOf_eq hslash
  have hjoin : ∀ full, joinPaths conf path = .ok full → _ := fun _ => afterLast_joined hslash
  rw [SameExtension]
  by_cases hdir : (withoutQuery path).getLast? = some slash
  · simp only [if_pos hdir, if_pos (Or.inl hdir)] at hext hjoin ⊢
    cases hindex : conf.indexFile with
    | none =>
      rw [hindex] at hext hjoin
      rw [describesFile_of_ok hdeny hext]
      refine iff_of_true (fun full hfull => ?_) fun file hfile => by cases hfile
      rw [hjoin full hfull]
      rfl
    | some file =>
      rw [hindex] at hext hjoin
      by_cases hdot : dot ∈ file
      · rw [describesFile_of_ok hdeny (hext.trans (if_pos hdot))]
        constructor
        · intro h file' hfile
          cases hfile
          exact ⟨hdot, fun ⟨full, hfull⟩ => by rw [h full hfull, hjoin full hfull]; rfl⟩
        · intro h full hfull
          rw [hjoin full hfull, ← (h file rfl).2 ⟨full, hfull⟩]
          rfl
      · exact iff_of_false (not_describesFile hdeny (hext.trans (if_neg hdot)))
          fun h => hdot (h file rfl).1
  · simp only [if_neg hdir, or_iff_right hdir] at hext hjoin ⊢
    rw [describesFile_of_ok hdeny hext]
    constructor
    · intro h hused
      rw [withoutQuery_eq hused.1] at hdir h
      have hbuilt : joinPaths conf path = _ := joinPaths_eq hslash hused.1
      rw [if_neg fun hover => hdir hover.1] at hbuilt
      rw [h _ hbuilt, hjoin _ hbuilt, if_pos hused]
    · intro h full hfull
      rw [hjoin full hfull]
      split_ifs with hused
      · rw [withoutQuery_eq hused.1]
        exact h hused
      · rfl

theorem content_type_iff_page : DescribesFile plainRoot (str "/page.html") ↔
    SameExtension plainRoot (str "/page.html") :=
  content_type_iff (by decide) (by decide)

/-- With the default index file `ext` is read without a value; and a path that is used up leads to
the index file, whose type is that of the path. -/
theorem index_type_wrong : ¬ DescribesFile { plainRoot with indexFile := some [] } (str "/") ∧
    ¬ DescribesFile { plainRoot with stripDirs := 1, indexFile := some (str "index.html") }
      (str "/a.css") := by
  constructor
  · exact not_describesFile rfl rfl
  · have hext : extensionOf { plainRoot with
        stripDirs := 1, indexFile := some (str "index.html") } (str "/a.css")
        = .ok (some (str "css")) := rfl
    intro h
    exact absurd ((describesFile_of_ok rfl hext).mp h (str "/srv/index.html") rfl) (by decide)

end Disk

end Zerogw
