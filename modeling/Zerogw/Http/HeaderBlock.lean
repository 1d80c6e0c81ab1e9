import Zerogw.Library.Cursor
import Zerogw.Http.Basic

/-!
# Header blocks

A backend or a disk thread sends its headers in one frame, every name and every value followed by a
NUL byte. `http_process` and `disk_process` read the frame with the same loops. The length of the
frame is kept in an `int`.
-/

namespace Zerogw

open Execution Cursor

namespace Http

variable {data behind rest rest' word name value visible : Bytes}
  {pairs pairs' : List (Bytes × Bytes)}
  {n : Nat}

/-! ### The loops -/

/-- `for(; cur < end; ++cur)` up to a NUL byte, where `n` bytes lie before `end`. -/
def toNul : Bytes → Nat → Except Fault (Bytes × Nat)
  | cur, 0 => .ok (cur, 0)
  | cur, n + 1 => do
    if (← deref .outOfBounds cur) = 0 then return (cur, n + 1) else toNul cur.tail n

/-- A string, as `ws_add_header` reads it. -/
def cString (p : Bytes) : Except Fault Bytes := do
  let stop ← scan .outOfBounds (fun c => c = 0) p
  return between p stop

/-- A pointer into a frame, and how many bytes lie between it and `end`. -/
abbrev Place := Bytes × Nat

/-- The nested loops; `added` are the headers so far. Says in the end whether there is a warning. -/
def headerLoop : Nat → Place → Option Bytes → Place → List (Bytes × Bytes) →
    Except Fault (List (Bytes × Bytes) × Bool)
  | 0, _, _, _, _ => .error .endless
  | fuel + 1, name, value, cur, added =>
    if cur.2 = 0 then .ok (added, name.2 != 0)
    else do
      let cur ← toNul cur.1 cur.2
      let value := if 0 < cur.2 then some cur.1.tail else value
      let cur := if 0 < cur.2 then (cur.1.tail, cur.2 - 1) else cur
      let cur ← toNul cur.1 cur.2
      if 0 < cur.2 then
        let some value := value | throw .nullPointer
        let line := (← cString name.1, ← cString value)
        headerLoop fuel (cur.1.tail, cur.2 - 1) (some value) (cur.1.tail, cur.2 - 1)
          (added ++ [line])
      else headerLoop fuel name value (cur.1.tail, cur.2 - 1) added

/-- The headers that are added for a frame, and whether there is a warning. -/
def readHeaders (data : Bytes) : Except Fault (List (Bytes × Bytes) × Bool) :=
  let dlen := toInt data.length
  headerLoop (data.length + 1) (data, dlen.toNat) none (data, dlen.toNat) []

/-! ### The format -/

/-- `name NUL value NUL`, pair after pair. -/
def encodePairs (pairs : List (Bytes × Bytes)) : Bytes :=
  pairs.flatMap fun p => p.1 ++ 0 :: (p.2 ++ [0])

def NulFree (pairs : List (Bytes × Bytes)) : Prop := ∀ p ∈ pairs, 0 ∉ p.1 ∧ 0 ∉ p.2

/-- A string is cut into complete pairs; what is left does not contain another one. -/
structure CutInto (data : Bytes) (pairs : List (Bytes × Bytes)) (rest : Bytes) : Prop where
  eq : data = encodePairs pairs ++ rest
  nulFree : NulFree pairs
  incomplete : rest.count 0 < 2

lemma encodePairs_cons (p : Bytes × Bytes) (pairs : List (Bytes × Bytes)) :
    encodePairs (p :: pairs) = p.1 ++ 0 :: (p.2 ++ 0 :: encodePairs pairs) := by
  simp [encodePairs]

/-- What follows a NUL byte. -/
lemma eq_append_of_count (h : 0 < data.count 0) :
    ∃ word rest, data = word ++ 0 :: rest ∧ 0 ∉ word ∧ rest.count 0 + 1 = data.count 0 := by
  obtain ⟨word, rest, rfl, hword⟩ := List.eq_append_cons_of_mem (List.count_pos_iff.mp h)
  refine ⟨word, rest, rfl, hword, ?_⟩
  rw [List.count_append, List.count_cons_self, List.count_eq_zero_of_not_mem hword, Nat.zero_add]

/-- Every string can be cut. -/
lemma exists_cut (data : Bytes) : ∃ pairs rest, CutInto data pairs rest := by
  induction hn : data.length using Nat.strong_induction_on generalizing data with
  | _ n ih =>
    subst hn
    by_cases hcount : data.count 0 < 2
    · exact ⟨[], data, rfl, by simp [NulFree], hcount⟩
    · have hpos : 0 < data.count 0 := by omega
      obtain ⟨name, tail, rfl, hname, htail⟩ := eq_append_of_count hpos
      have hpos' : 0 < tail.count 0 := by omega
      obtain ⟨value, more, rfl, hvalue, -⟩ := eq_append_of_count hpos'
      obtain ⟨pairs, rest, hcut⟩ := ih more.length (by simp; omega) more rfl
      refine ⟨(name, value) :: pairs, rest, ?_, ?_, hcut.incomplete⟩
      · rw [encodePairs_cons, hcut.eq]
        simp
      · rw [NulFree, List.forall_mem_cons]
        exact ⟨⟨hname, hvalue⟩, hcut.nulFree⟩

/-- The pairs are those that the response is made of. -/
lemma headerLines_append (hword : 0 ∉ word) (name : Option Bytes) (read rest : Bytes) :
    headerLines name read (word ++ rest) = headerLines name (read ++ word) rest := by
  induction word generalizing read with
  | nil => rw [List.nil_append, List.append_nil]
  | cons c word ih =>
    obtain ⟨hc, hword⟩ := not_or.mp (mt List.mem_cons.mpr hword)
    rw [List.append_cons read, ← ih hword]
    cases name <;> exact if_neg (Ne.symm hc)

lemma headerLines_of_incomplete (h : rest.count 0 < 2) : headerLines none [] rest = [] := by
  by_cases hcount : 0 < rest.count 0
  · obtain ⟨word, tail, rfl, hword, htail⟩ := eq_append_of_count hcount
    have hnone : 0 ∉ tail := List.count_eq_zero.mp (by omega)
    rw [headerLines_append hword, headerLines, if_pos rfl, ← List.append_nil tail,
      headerLines_append hnone]
    rfl
  · rw [← List.append_nil rest, headerLines_append (List.count_eq_zero.mp (by omega))]
    rfl

lemma CutInto.headerLines_eq (h : CutInto data pairs rest) : headerLines none [] data = pairs := by
  rw [h.eq]
  induction pairs generalizing data with
  | nil => exact headerLines_of_incomplete h.incomplete
  | cons p pairs ih =>
    obtain ⟨hp, hfree⟩ := List.forall_mem_cons.mp h.nulFree
    rw [encodePairs_cons, List.append_assoc, headerLines_append hp.1, List.cons_append, headerLines,
      if_pos rfl, List.append_assoc, headerLines_append hp.2, List.cons_append, headerLines,
      if_pos rfl]
    exact congrArg (p :: ·) (ih ⟨rfl, hfree, h.incomplete⟩)

lemma CutInto.unique (h : CutInto data pairs rest) (h' : CutInto data pairs' rest') :
    pairs = pairs' ∧ rest = rest' := by
  have hpairs : pairs = pairs' := by rw [← h.headerLines_eq, h'.headerLines_eq]
  subst hpairs
  exact ⟨rfl, List.append_cancel_left (h.eq.symm.trans h'.eq)⟩

/-! ### Rounds of the loops -/

lemma toNul_append (hword : 0 ∉ word) (p : Bytes) :
    toNul (word ++ p) (word.length + n) = toNul p n := by
  induction word with
  | nil => rw [List.nil_append, List.length_nil, Nat.zero_add]
  | cons c word ih =>
    obtain ⟨hc, hword⟩ := not_or.mp (mt List.mem_cons.mpr hword)
    rw [List.length_cons, Nat.add_right_comm, List.cons_append, toNul, deref_cons, ok_bind,
      if_neg (Ne.symm hc)]
    exact ih hword

lemma toNul_nul (p : Bytes) : toNul (0 :: p) (n + 1) = .ok (0 :: p, n + 1) := rfl

/-- The loop stops at `end`. -/
lemma toNul_end (hword : 0 ∉ word) (p : Bytes) : toNul (word ++ p) word.length = .ok (p, 0) :=
  toNul_append (n := 0) hword p

lemma cString_append (hword : 0 ∉ word) (p : Bytes) : cString (word ++ 0 :: p) = .ok word := by
  have hpass : ∀ c ∈ word, decide (c = 0) = false := fun c hc =>
    decide_eq_false (ne_of_mem_of_not_mem hc hword)
  rw [cString, scan_append hpass (decide_eq_true rfl), ok_bind, between_append]
  rfl

/-- A round that reads a pair. -/
lemma headerLoop_pair (hname : 0 ∉ name) (hvalue : 0 ∉ value) (fuel : Nat) (p : Bytes)
    (old : Option Bytes) (added : List (Bytes × Bytes)) :
    let start := (name ++ 0 :: (value ++ 0 :: p), name.length + (value.length + (n + 1) + 1))
    headerLoop (fuel + 1) start old start added =
      headerLoop fuel (p, n) (some (value ++ 0 :: p)) (p, n) (added ++ [(name, value)]) := by
  intro start
  have hleft : start.2 ≠ 0 := Nat.ne_of_gt (Nat.add_pos_right _ (Nat.succ_pos _))
  rw [headerLoop, if_neg hleft, toNul_append hname, toNul_nul, ok_bind]
  dsimp only
  rw [if_pos (Nat.succ_pos _), if_pos (Nat.succ_pos _), List.tail_cons, Nat.add_sub_cancel,
    toNul_append hvalue, toNul_nul, ok_bind]
  dsimp only
  rw [if_pos (Nat.succ_pos _), cString_append hname, ok_bind, cString_append hvalue, ok_bind]
  rfl

/-- A round that does not get to the end of a value. -/
lemma headerLoop_rest (hrest : rest.count 0 < 2) (hne : rest ≠ []) (fuel : Nat)
    (old : Option Bytes) (added : List (Bytes × Bytes)) :
    headerLoop (fuel + 2) (rest ++ behind, rest.length) old (rest ++ behind, rest.length) added =
      .ok (added, true) := by
  have hleft : rest.length ≠ 0 := mt List.length_eq_zero_iff.mp hne
  rw [headerLoop, if_neg hleft]
  by_cases hcount : 0 < rest.count 0
  · obtain ⟨word, tail, rfl, hword, htail⟩ := eq_append_of_count hcount
    have hnone : 0 ∉ tail := List.count_eq_zero.mp (by omega)
    rw [List.length_append, List.length_cons, List.append_assoc, toNul_append hword,
      List.cons_append, toNul_nul, ok_bind]
    dsimp only
    rw [if_pos (Nat.succ_pos _), if_pos (Nat.succ_pos _), List.tail_cons, Nat.add_sub_cancel,
      toNul_end hnone]
    show Except.ok (added, word.length + (tail.length + 1) != 0) = _
    simp
  · rw [toNul_end (List.count_eq_zero.mp (by omega))]
    show Except.ok (added, _ != 0) = _
    rw [bne_iff_ne.mpr hleft]

/-- The loops read what lies before `end`. -/
lemma headerLoop_cut (h : CutInto data pairs rest) {fuel : Nat} (hfuel : data.length < fuel)
    (old : Option Bytes) (added : List (Bytes × Bytes)) (behind : Bytes) :
    headerLoop fuel (data ++ behind, data.length) old (data ++ behind, data.length) added =
      .ok (added ++ pairs, !rest.isEmpty) := by
  induction pairs generalizing data fuel old added with
  | nil =>
    have hdata : data = rest := h.eq
    subst hdata
    rw [List.append_nil]
    by_cases hne : data = []
    · subst hne
      cases fuel with
      | zero => exact absurd hfuel (Nat.not_lt_zero _)
      | succ fuel => rfl
    · have hpos := List.length_pos_iff.mpr hne
      obtain ⟨k, rfl⟩ : ∃ k, fuel = k + 2 := ⟨fuel - 2, by omega⟩
      rw [headerLoop_rest h.incomplete hne, List.isEmpty_eq_false_iff.mpr hne]
      rfl
  | cons p pairs ih =>
    obtain ⟨name, value⟩ := p
    obtain ⟨⟨hname, hvalue⟩, hfree⟩ := List.forall_mem_cons.mp h.nulFree
    have hdata : data = name ++ 0 :: (value ++ 0 :: (encodePairs pairs ++ rest)) := by
      rw [h.eq, encodePairs_cons]
      simp
    subst hdata
    rw [List.length_append, List.length_cons, List.length_append, List.length_cons] at hfuel
    cases fuel with
    | zero => exact absurd hfuel (Nat.not_lt_zero _)
    | succ fuel =>
      have hfuel' : (encodePairs pairs ++ rest).length < fuel := by omega
      have hmore := ih ⟨rfl, hfree, h.incomplete⟩ hfuel'
        (some (value ++ 0 :: (encodePairs pairs ++ rest ++ behind))) (added ++ [(name, value)])
      rw [List.append_assoc added, List.singleton_append] at hmore
      rw [← hmore, List.length_append, List.length_cons, List.length_append, List.length_cons,
        List.append_assoc, List.cons_append, List.append_assoc, List.cons_append]
      exact headerLoop_pair hname hvalue fuel _ old added

/-- How many bytes are looked at. -/
lemma toInt_length_le (data : Bytes) : toInt data.length ≤ data.length := by
  by_cases hsmall : data.length < 2 ^ 31
  · rw [toInt_of_isInt ⟨by omega, by omega⟩]
  · have := (isInt_toInt data.length).2
    omega

/-- Only the bytes before `end` are looked at. -/
lemma readHeaders_eq (h : CutInto (data.take (toInt data.length).toNat) pairs rest) :
    readHeaders data = .ok (pairs, !rest.isEmpty) := by
  have hle : (toInt data.length).toNat ≤ data.length := by
    have := toInt_length_le data
    omega
  have hlen : (data.take (toInt data.length).toNat).length = (toInt data.length).toNat :=
    List.length_take_of_le hle
  have hfuel : (data.take (toInt data.length).toNat).length < data.length + 1 := by omega
  have hrun := headerLoop_cut h hfuel none []
  have hwhole := hrun (data.drop (toInt data.length).toNat)
  rw [List.take_append_drop, hlen] at hwhole
  exact hwhole

/-- A frame is read as its format says if and only if its length fits an `int`, or the part that is
looked at ends behind the last pair. -/
lemma readHeaders_iff (h : CutInto data pairs rest) :
    readHeaders data = .ok (pairs, !rest.isEmpty) ↔
      data.length < 2 ^ 31 ∨ (encodePairs pairs).length < toInt data.length := by
  constructor
  · intro hread
    by_contra hlong
    obtain ⟨hlarge, hshort⟩ := not_or.mp hlong
    obtain ⟨pairs', rest', hcut⟩ := exists_cut (data.take (toInt data.length).toNat)
    rw [readHeaders_eq hcut] at hread
    obtain ⟨rfl, hrest⟩ := Prod.mk.inj (Except.ok.inj hread)
    have hlen := congrArg List.length hcut.eq
    have hwhole := congrArg List.length h.eq
    have hint := (isInt_toInt data.length).2
    rw [List.length_take, List.length_append] at hlen
    rw [List.length_append] at hwhole
    have hnil : rest' = [] := List.length_eq_zero_iff.mp (by omega)
    have hnil' : rest = [] := by
      rw [hnil, List.isEmpty_nil] at hrest
      simpa using hrest.symm
    rw [hnil', List.length_nil] at hwhole
    omega
  · rintro (hsmall | hbehind)
    · apply readHeaders_eq
      rwa [toInt_of_isInt ⟨by omega, by omega⟩, Int.toNat_natCast, List.take_length]
    · have hle := toInt_length_le data
      obtain ⟨k, hk⟩ : ∃ k, (toInt data.length).toNat = (encodePairs pairs).length + (k + 1) :=
        ⟨(toInt data.length).toNat - (encodePairs pairs).length - 1, by omega⟩
      have htake : data.take (toInt data.length).toNat
          = encodePairs pairs ++ rest.take (k + 1) := by
        rw [hk, h.eq, List.take_length_add_append]
      have hcount := (List.take_sublist (k + 1) rest).count_le 0
      rw [readHeaders_eq ⟨htake, h.nulFree, hcount.trans_lt h.incomplete⟩]
      cases rest <;> rfl

/-- The loops read nothing behind the frame, and come to an end. -/
lemma exists_readHeaders (data : Bytes) : ∃ pairs warn, readHeaders data = .ok (pairs, warn) := by
  obtain ⟨pairs, rest, hcut⟩ := exists_cut (data.take (toInt data.length).toNat)
  exact ⟨pairs, _, readHeaders_eq hcut⟩

/-- Pairs come back if and only if their length fits an `int`. -/
lemma readHeaders_encodePairs_iff (hfree : NulFree pairs) :
    readHeaders (encodePairs pairs) = .ok (pairs, false) ↔ (encodePairs pairs).length < 2 ^ 31 := by
  have hcut : CutInto (encodePairs pairs) pairs [] :=
    ⟨(List.append_nil _).symm, hfree, by decide⟩
  have hle := toInt_length_le (encodePairs pairs)
  exact (readHeaders_iff hcut).trans (or_iff_left (not_lt.mpr hle))

/-- What is added has been looked at. -/
lemma length_of_readHeaders {warn : Bool} (h : readHeaders data = .ok (pairs, warn)) :
    (encodePairs pairs).length < 2 ^ 31 := by
  obtain ⟨pairs', rest', hcut⟩ := exists_cut (data.take (toInt data.length).toNat)
  rw [readHeaders_eq hcut] at h
  obtain ⟨rfl, -⟩ := Prod.mk.inj (Except.ok.inj h)
  have hlen := congrArg List.length hcut.eq
  have hint := (isInt_toInt data.length).2
  rw [List.length_take, List.length_append] at hlen
  omega

/-! ### The block that a disk thread sends -/

/-- `content_type` -/
def contentType : Bytes := str "Content-Type" ++ [0]
/-- `last_modified` -/
def lastModified : Bytes := str "Last-Modified" ++ [0]
/-- `gzip_encoding` -/
def gzipEncoding : Bytes := str "Content-Encoding" ++ 0 :: (str "gzip" ++ [0])

/-- `memcpy(data, source, n); data += n`, in a message of `size` bytes. -/
def copy (size : Nat) (source : Bytes) (n : Int) (written : Bytes) : Except Fault Bytes :=
  if source.length < toSize n ∨ size < written.length + toSize n then .error .outOfBounds
  else .ok (written ++ source.take (toSize n))

/-- The size of the message that `disk_loop` allocates for the headers. -/
def headersSize (mime lastmod : Bytes) (gz : Bool) : Int :=
  let mimelen := toInt (mime.length + 1 : Nat)
  let modlen := toInt (lastmod.length + 1 : Nat)
  let totsize := toInt (contentType.length + mimelen + lastModified.length + modlen)
  if gz then toInt (totsize + gzipEncoding.length) else totsize

/-- What is copied into the message. -/
def writeHeaders (mime lastmod : Bytes) (gz : Bool) : Except Fault Bytes := do
  let size := toSize (headersSize mime lastmod gz)
  let data ← copy size contentType contentType.length []
  let data ← copy size (mime ++ [0]) (toInt (mime.length + 1 : Nat)) data
  let data ← copy size lastModified lastModified.length data
  let data ← copy size (lastmod ++ [0]) (toInt (lastmod.length + 1 : Nat)) data
  if gz then copy size gzipEncoding gzipEncoding.length data else return data

/-- The headers of a file. -/
def fileHeaders (mime lastmod : Bytes) (gz : Bool) : List (Bytes × Bytes) :=
  (str "Content-Type", mime) :: (str "Last-Modified", lastmod) ::
    if gz then [(str "Content-Encoding", str "gzip")] else []

/-- The message is filled up, and its receiver reads the headers of the file. -/
def Transmitted (mime lastmod : Bytes) (gz : Bool) : Prop :=
  ∃ block, writeHeaders mime lastmod gz = .ok block ∧
    block.length = toSize (headersSize mime lastmod gz) ∧
    readHeaders block = .ok (fileHeaders mime lastmod gz, false)

variable {mime lastmod : Bytes} {gz : Bool}

lemma toSize_natCast {n : Nat} (h : n < 2 ^ 64) : toSize n = n := by
  rw [toSize]
  omega

lemma copy_all {size : Nat} {source written : Bytes} (h : written.length + source.length ≤ size)
    (hsize : size < 2 ^ 64) : copy size source source.length written = .ok (written ++ source) := by
  rw [copy, toSize_natCast (by omega), if_neg (by omega), List.take_length]

lemma encodePairs_fileHeaders : encodePairs (fileHeaders mime lastmod gz) =
    contentType ++ (mime ++ [0]) ++ lastModified ++ (lastmod ++ [0]) ++
      (if gz then gzipEncoding else []) := by
  cases gz <;> simp [fileHeaders, encodePairs, contentType, lastModified, gzipEncoding]

lemma length_fileHeaders : (encodePairs (fileHeaders mime lastmod gz)).length =
    contentType.length + (mime.length + 1) + lastModified.length + (lastmod.length + 1) +
      if gz then gzipEncoding.length else 0 := by
  rw [encodePairs_fileHeaders]
  cases gz <;> simp <;> omega

lemma nulFree_fileHeaders (hmime : 0 ∉ mime) (hlast : 0 ∉ lastmod) :
    NulFree (fileHeaders mime lastmod gz) := by
  rw [fileHeaders, NulFree, List.forall_mem_cons, List.forall_mem_cons]
  have htype : 0 ∉ str "Content-Type" := by decide
  have hmodified : 0 ∉ str "Last-Modified" := by decide
  refine ⟨⟨htype, hmime⟩, ⟨hmodified, hlast⟩, ?_⟩
  cases gz <;> decide

/-- Sizes that fit an `int` are exact. -/
lemma toInt_natCast {n : Nat} (h : n < 2 ^ 31) : toInt n = n := toInt_of_isInt ⟨by omega, by omega⟩

lemma headersSize_eq (h : (encodePairs (fileHeaders mime lastmod gz)).length < 2 ^ 31) :
    headersSize mime lastmod gz = (encodePairs (fileHeaders mime lastmod gz)).length := by
  rw [length_fileHeaders] at h ⊢
  have hmime : toInt (mime.length + 1 : Nat) = (mime.length + 1 : Nat) := toInt_natCast (by omega)
  have hlast : toInt (lastmod.length + 1 : Nat) = (lastmod.length + 1 : Nat) :=
    toInt_natCast (by omega)
  rw [headersSize, hmime, hlast, ← Int.natCast_add, ← Int.natCast_add, ← Int.natCast_add,
    toInt_natCast (by omega)]
  cases gz with
  | false => rfl
  | true =>
    rw [if_pos rfl, if_pos rfl, ← Int.natCast_add]
    rw [if_pos rfl] at h
    exact toInt_natCast h

lemma writeHeaders_eq (h : (encodePairs (fileHeaders mime lastmod gz)).length < 2 ^ 31) :
    writeHeaders mime lastmod gz = .ok (encodePairs (fileHeaders mime lastmod gz)) := by
  have hsize : (encodePairs (fileHeaders mime lastmod gz)).length = _ := length_fileHeaders
  rw [writeHeaders, headersSize_eq h, toSize_natCast (by omega)]
  generalize (encodePairs (fileHeaders mime lastmod gz)).length = size at h hsize
  have hmime : toInt (mime.length + 1 : Nat) = (mime ++ [0]).length := by
    rw [List.length_append, List.length_singleton]
    exact toInt_natCast (by omega)
  have hlast : toInt (lastmod.length + 1 : Nat) = (lastmod ++ [0]).length := by
    rw [List.length_append, List.length_singleton]
    exact toInt_natCast (by omega)
  have hall : ∀ written source : Bytes, written.length + source.length ≤ size →
      copy size source source.length written = .ok (written ++ source) :=
    fun _ _ hle => copy_all hle (by omega)
  rw [encodePairs_fileHeaders, hmime, hlast, hall _ _ (by simp; omega), ok_bind,
    hall _ _ (by simp; omega), ok_bind, hall _ _ (by simp; omega), ok_bind,
    hall _ _ (by simp; omega), ok_bind]
  cases gz with
  | false => simp [pure, Except.pure]
  | true =>
    rw [if_pos rfl] at hsize
    rw [if_pos rfl, hall _ _ (by simp; omega)]
    simp

lemma transmitted_iff (hmime : 0 ∉ mime) (hlast : 0 ∉ lastmod) : Transmitted mime lastmod gz ↔
    (encodePairs (fileHeaders mime lastmod gz)).length < 2 ^ 31 := by
  constructor
  · rintro ⟨block, -, -, hread⟩
    exact length_of_readHeaders hread
  · intro h
    refine ⟨_, writeHeaders_eq h, ?_, ?_⟩
    · rw [headersSize_eq h, toSize_natCast (by omega)]
    · exact (readHeaders_encodePairs_iff (nulFree_fileHeaders hmime hlast)).mpr h

/-- A frame is read as its format says unless its length does not fit an `int` and the bytes that
are looked at end within the pairs. Pairs come back, and the headers of a file arrive, if and only
if the length of their block fits an `int`. -/
theorem headers_read_iff (data : Bytes) (hfree : NulFree pairs) (hmime : 0 ∉ mime)
    (hlast : 0 ∉ lastmod) (gz : Bool) :
    (∃ read rest, CutInto data read rest ∧ (∃ result, readHeaders data = .ok result) ∧
      (readHeaders data = .ok (read, !rest.isEmpty) ↔
        data.length < 2 ^ 31 ∨ (encodePairs read).length < toInt data.length)) ∧
    (readHeaders (encodePairs pairs) = .ok (pairs, false) ↔ (encodePairs pairs).length < 2 ^ 31) ∧
    (Transmitted mime lastmod gz ↔
      (encodePairs (fileHeaders mime lastmod gz)).length < 2 ^ 31) := by
  refine ⟨?_, readHeaders_encodePairs_iff hfree, transmitted_iff hmime hlast⟩
  obtain ⟨read, rest, hcut⟩ := exists_cut data
  obtain ⟨added, warn, hread⟩ := exists_readHeaders data
  exact ⟨read, rest, hcut, ⟨_, hread⟩, readHeaders_iff hcut⟩

theorem headers_read_iff_page :
    let data := str "Server" ++ 0 :: (str "zerogw" ++ 0 :: str "X")
    let pairs := [(str "E-tag", str "immortal"), ([], [])]
    let mime := str "text/html"
    let lastmod := str "Thu, 01 Jan 1970 00:00:00 GMT"
    (∃ read rest, CutInto data read rest ∧ (∃ result, readHeaders data = .ok result) ∧
      (readHeaders data = .ok (read, !rest.isEmpty) ↔
        data.length < 2 ^ 31 ∨ (encodePairs read).length < toInt data.length)) ∧
    (readHeaders (encodePairs pairs) = .ok (pairs, false) ↔ (encodePairs pairs).length < 2 ^ 31) ∧
    (Transmitted mime lastmod true ↔
      (encodePairs (fileHeaders mime lastmod true)).length < 2 ^ 31) := by
  apply headers_read_iff
  · rw [NulFree]
    decide
  · decide
  · decide

/-- A header with a name of `n` characters. -/
def longHeader (n : Nat) : Bytes × Bytes := (List.replicate n 97, [])

lemma length_longHeader (n : Nat) : (encodePairs [longHeader n]).length = n + 2 := by
  rw [encodePairs_cons, longHeader, List.length_append, List.length_replicate]
  rfl

/-- A header is lost, without a warning, if the length of its frame does not fit an `int`. -/
theorem long_header_lost :
    CutInto (encodePairs [longHeader (2 ^ 31)]) [longHeader (2 ^ 31)] [] ∧
      readHeaders (encodePairs [longHeader (2 ^ 31)]) = .ok ([], false) := by
  constructor
  · refine ⟨(List.append_nil _).symm, ?_, by decide⟩
    intro p hp
    rw [List.mem_singleton.mp hp]
    refine ⟨?_, List.not_mem_nil⟩
    intro h
    cases List.eq_of_mem_replicate h
  · have hcut : CutInto ((encodePairs [longHeader (2 ^ 31)]).take
        (toInt (encodePairs [longHeader (2 ^ 31)]).length).toNat) [] [] := by
      rw [length_longHeader]
      exact ⟨rfl, by simp [NulFree], by decide⟩
    exact readHeaders_eq hcut

end Http

end Zerogw
