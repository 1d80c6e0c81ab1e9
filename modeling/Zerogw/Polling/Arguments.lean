import Mathlib.Data.List.TakeWhile
import Zerogw.Library.Cursor
import Zerogw.Polling.Basic

/-!
# The arguments of a comet request

`parse_uri` takes the query of a URI apart and hands every parameter to `add_line`. The name of a
parameter is read up to the next `=`, even if that belongs to another parameter.
-/

namespace Zerogw

open Execution Cursor

/-! ### Parameters -/

/-- `parse_format` -/
def parseFormat (name : Bytes) : Format := if name = str "jsonlist" then .jsonlist else .single

/-- `strtol` with base ten, and what is behind the number; all of the string if there is none. -/
def strtol (s : Bytes) : Int × Bytes :=
  let body := s.dropWhile fun b => b = 32 ∨ 9 ≤ b ∧ b ≤ 13
  let digits := if body.head? = some 45 ∨ body.head? = some 43 then body.tail else body
  let read := digits.takeWhile fun b => 48 ≤ b ∧ b ≤ 57
  let n : Int := read.foldl (fun n b => 10 * n + (b.toNat - 48)) 0
  if read = [] then (0, s)
  else if body.head? = some 45 then (max (-n) (-2 ^ 63), digits.drop read.length)
  else (min n (2 ^ 63 - 1), digits.drop read.length)

/-- The value of an upper-case hexadecimal digit. -/
def hexValue (c : UInt8) : Option UInt8 :=
  if 48 ≤ c ∧ c ≤ 57 then some (c - 48)
  else if 65 ≤ c ∧ c ≤ 70 then some (c - 55)
  else none

/-- The loop that reads two digits for each byte. -/
def readHex : Bytes → Option Bytes
  | c :: d :: value => do
    let c ← hexValue c
    let d ← hexValue d
    let rest ← readHex value
    return (c <<< 4 ||| d) :: rest
  | _ => some []

/-- The loop that applies the digest of the random part of an id to the other part. -/
def unmask (cfg : Config) (uid : Bytes) : Bytes :=
  let mask := cfg.md5 (uid.drop (uidLen - uidNRandom) ++ cfg.randomData)
  uid.mapIdx fun i b => if i < uidLen - uidNRandom then b ^^^ (mask[i % 16]?).getD 0 else b

/-- The parameter `id`. -/
def readId (cfg : Config) (value : Bytes) : Option Bytes :=
  if value.length ≠ uidLen * 2 then none else (readHex value).map (unmask cfg)

/-- Two digits in front. -/
lemma readHex_cons_cons {c d : UInt8} {value uid : Bytes} : readHex (c :: d :: value) = some uid ↔
    ∃ c' d' rest, hexValue c = some c' ∧ hexValue d = some d' ∧ readHex value = some rest ∧
      uid = (c' <<< 4 ||| d') :: rest := by
  simp only [readHex, Option.bind_eq_bind, Option.bind_eq_some_iff]
  constructor
  · rintro ⟨c', hc, d', hd, rest, hrest, huid⟩
    exact ⟨c', d', rest, hc, hd, hrest, (Option.some.inj huid).symm⟩
  · rintro ⟨c', d', rest, hc, hd, hrest, rfl⟩
    exact ⟨c', hc, d', hd, rest, hrest, rfl⟩

lemma length_readHex {value uid : Bytes} (h : readHex value = some uid) :
    uid.length = value.length / 2 := by
  induction value using readHex.induct generalizing uid with
  | case1 c d value ih =>
    obtain ⟨c', d', rest, -, -, hrest, rfl⟩ := readHex_cons_cons.mp h
    rw [List.length_cons, ih hrest, List.length_cons, List.length_cons]
    omega
  | case2 value hshort =>
    match value with
    | [] =>
      cases h
      rfl
    | [c] =>
      cases h
      simp
    | c :: d :: value => exact absurd rfl (hshort c d value)

lemma length_readId {cfg : Config} {value uid : Bytes} (h : readId cfg value = some uid) :
    uid.length = uidLen := by
  rw [readId] at h
  split_ifs at h with hlen
  obtain ⟨bytes, hbytes, rfl⟩ := Option.map_eq_some_iff.mp h
  rw [unmask, List.length_mapIdx, length_readHex hbytes, not_not.mp hlen]
  rfl

lemma toSize_lt (i : Int) : toSize i < 2 ^ 64 := by
  rw [toSize]
  omega

/-- The actions that a query can name. -/
def Action.Parsed (action : Action) : Prop :=
  action = .unknown ∨ action = .connect ∨ action = .close

lemma Action.parsed_unknown : Action.unknown.Parsed := Or.inl rfl
lemma Action.parsed_connect : Action.connect.Parsed := Or.inr (Or.inl rfl)
lemma Action.parsed_close : Action.close.Parsed := Or.inr (Or.inr rfl)

/-- `add_line`; a value may be empty. Nothing depends on `timeout`, which is left out. -/
def addLine (cfg : Config) (name value : Bytes) (args : CometArgs) : Option CometArgs :=
  if name = str "id" then
    match h : readId cfg value with
    | none => none
    | some uid => some { args with uid := uid, uid_length := length_readId h }
  else if name = str "action" then
    if value = str "CONNECT" then
      some { args with action := .connect, action_parsed := Action.parsed_connect }
    else if value = str "CLOSE" then
      some { args with action := .close, action_parsed := Action.parsed_close }
    else none
  else if name = str "ack" then
    if (strtol value).2 = [] then some { args with
      lastMessage := toSize (strtol value).1
      lastMessage_lt := toSize_lt _ }
    else none
  else if name = str "limit" then some { args with
    limit := toInt (strtol value).1
    limit_isInt := isInt_toInt _ }
  else if name = str "infmt" then some { args with inFormat := parseFormat value }
  else if name = str "outfmt" then some { args with outFormat := parseFormat value }
  else some args

lemma isInt_neg_one : IsInt (-1) := by
  rw [IsInt]
  omega

/-- All bytes are zero, and `limit` and `timeout` are -1. -/
def CometArgs.start : CometArgs where
  action := .unknown
  uid := List.replicate uidLen 0
  lastMessage := 0
  inFormat := .single
  outFormat := .single
  limit := -1
  action_parsed := Action.parsed_unknown
  uid_length := List.length_replicate
  lastMessage_lt := Nat.two_pow_pos 64
  limit_isInt := isInt_neg_one

/-! ### The loop of `parse_uri` -/

def question : UInt8 := 63
def equals : UInt8 := 61
def amp : UInt8 := 38

variable {σ : Type}

/-- `while(*c++)`, where `add` is called for each parameter and may refuse it. A parameter without
`=` has no value. -/
def parseLoop (add : Bytes → Bytes → σ → Option σ) : Nat → Bytes → σ → Except Fault (Option σ)
  | 0, _, _ => .error .endless
  | fuel + 1, c, s => do
    if (← deref .outOfBounds c) = 0 then return some s
    let name := c.tail
    let c ← scan .outOfBounds (fun b => b = 0 || b = equals) name
    let nameEnd := c
    if (← deref .outOfBounds c) = 0 then return add (between name nameEnd) [] s
    let value := c.tail
    let c ← scan .outOfBounds (fun b => b = 0 || b = amp) value
    match add (between name nameEnd) (between value c) s with
    | none => return none
    | some s => parseLoop add fuel c s

/-- `parse_uri` with any function in the place of `add_line`. -/
def parseUri (add : Bytes → Bytes → σ → Option σ) (uri : Bytes) (s : σ) :
    Except Fault (Option σ) := do
  let c ← scan .outOfBounds (fun b => b = 0 || b = question) (uri ++ [0])
  parseLoop add (uri.length + 1) c s

/-- The arguments of a request; `none` if a parameter is refused. -/
def parseArgs (cfg : Config) (uri : Bytes) : Except Fault (Option CometArgs) :=
  parseUri (addLine cfg) uri .start

/-! ### Query strings -/

/-- The text behind the first question mark. -/
def query (uri : Bytes) : Option Bytes :=
  match uri.dropWhile (· ≠ question) with
  | [] => none
  | _ :: q => some q

/-- The parts of the query between ampersands. -/
def pieces (uri : Bytes) : List Bytes :=
  match query uri with
  | none => []
  | some q => q.splitOn amp

/-- A part of the query, split at its first `=`. -/
def parameter (piece : Bytes) : Bytes × Bytes :=
  (piece.takeWhile (· ≠ equals), (piece.dropWhile (· ≠ equals)).tail)

def parameters (uri : Bytes) : List (Bytes × Bytes) := (pieces uri).map parameter

/-- What the loop reads from a query. -/
inductive Scans : Bytes → List (Bytes × Bytes) → Prop
  | name {q : Bytes} (hq : equals ∉ q) : Scans q [(q, [])]
  | value {name value : Bytes} (hname : equals ∉ name) (hvalue : amp ∉ value) :
      Scans (name ++ equals :: value) [(name, value)]
  | more {name value q : Bytes} {l : List (Bytes × Bytes)} (hname : equals ∉ name)
      (hvalue : amp ∉ value) (h : Scans q l) :
      Scans (name ++ equals :: (value ++ amp :: q)) ((name, value) :: l)

variable {uri q t name value : Bytes} {l : List (Bytes × Bytes)}
  {add : Bytes → Bytes → σ → Option σ}

lemma exists_scans (q : Bytes) : ∃ l, Scans q l := by
  induction hn : q.length using Nat.strong_induction_on generalizing q with
  | _ n ih =>
    subst hn
    by_cases hq : equals ∈ q
    · obtain ⟨name, rest, rfl, hname⟩ := List.eq_append_cons_of_mem hq
      by_cases hrest : amp ∈ rest
      · obtain ⟨value, more, rfl, hvalue⟩ := List.eq_append_cons_of_mem hrest
        obtain ⟨l, hl⟩ := ih more.length (by simp; omega) more rfl
        exact ⟨_, .more hname hvalue hl⟩
      · exact ⟨_, .value hname hrest⟩
    · exact ⟨_, .name hq⟩

lemma parameter_of_not_mem (h : equals ∉ q) : parameter q = (q, []) := by
  have hpass : ∀ b ∈ q, decide (b ≠ equals) = true := fun b hb =>
    decide_eq_true (ne_of_mem_of_not_mem hb h)
  rw [parameter, List.takeWhile_eq_self_iff.mpr hpass, List.dropWhile_eq_nil_iff.mpr hpass]
  rfl

lemma parameter_append (hname : equals ∉ name) (value : Bytes) :
    parameter (name ++ equals :: value) = (name, value) := by
  have hpass : ∀ b ∈ name, decide (b ≠ equals) = true := fun b hb =>
    decide_eq_true (ne_of_mem_of_not_mem hb hname)
  rw [parameter, List.takeWhile_append_of_pos hpass, List.dropWhile_append_of_pos hpass,
    List.takeWhile_cons_of_neg (by simp), List.dropWhile_cons_of_neg (by simp), List.append_nil]
  rfl

/-- A name that goes beyond an ampersand. -/
lemma hidden_of_amp (hname : equals ∉ name) (hamp : amp ∈ name) (t value : Bytes)
    (l : List (Bytes × Bytes)) :
    (name, value) :: l ≠ ((name ++ t).splitOn amp).map parameter ∧
      ¬ ∀ piece ∈ ((name ++ t).splitOn amp).dropLast, equals ∈ piece := by
  obtain ⟨first, rest, rfl, hfirst⟩ := List.eq_append_cons_of_mem hamp
  have hnone : equals ∉ first := fun h => hname (List.mem_append_left _ h)
  rw [List.append_assoc, List.cons_append, List.splitOn_append_cons_self_of_not_mem hfirst]
  constructor
  · intro heq
    rw [List.map_cons, parameter_of_not_mem hnone] at heq
    have hlen := congrArg (fun p => p.1.length) (List.cons.inj heq).1
    simp at hlen
  · intro hall
    apply hnone
    apply hall
    rw [List.dropLast_cons_of_ne_nil (List.splitOn_ne_nil _ _)]
    exact List.mem_cons_self

lemma amp_not_mem (hname : amp ∉ name) (hvalue : amp ∉ value) : amp ∉ name ++ equals :: value := by
  have hne : amp ≠ equals := by decide
  rw [List.mem_append, List.mem_cons]
  exact not_or.mpr ⟨hname, not_or.mpr ⟨hne, hvalue⟩⟩

/-- The loop reads the parameters of a query if and only if every part of it but the last has a
`=`. -/
lemma Scans.eq_iff (h : Scans q l) : l = (q.splitOn amp).map parameter ↔
    ∀ piece ∈ (q.splitOn amp).dropLast, equals ∈ piece := by
  induction h with
  | @name q hq =>
    by_cases hamp : amp ∈ q
    · have hhidden := hidden_of_amp hq hamp [] [] []
      rw [List.append_nil] at hhidden
      exact iff_of_false hhidden.1 hhidden.2
    · rw [List.splitOn_eq_singleton hamp, List.map_singleton, parameter_of_not_mem hq]
      exact iff_of_true rfl (List.forall_mem_nil _)
  | @value name value hname hvalue =>
    by_cases hamp : amp ∈ name
    · have hhidden := hidden_of_amp hname hamp (equals :: value) value []
      exact iff_of_false hhidden.1 hhidden.2
    · have hnone := amp_not_mem hamp hvalue
      rw [List.splitOn_eq_singleton hnone, List.map_singleton, parameter_append hname]
      exact iff_of_true rfl (List.forall_mem_nil _)
  | @more name value q l hname hvalue h ih =>
    by_cases hamp : amp ∈ name
    · have hhidden := hidden_of_amp hname hamp (equals :: (value ++ amp :: q)) value l
      exact iff_of_false hhidden.1 hhidden.2
    · have hnone := amp_not_mem hamp hvalue
      rw [← List.cons_append, ← List.append_assoc, List.splitOn_append_cons_self_of_not_mem hnone,
        List.map_cons, parameter_append hname, List.cons_inj_right, ih,
        List.dropLast_cons_of_ne_nil (List.splitOn_ne_nil _ _), List.forall_mem_cons]
      exact (and_iff_right (by simp)).symm

/-! ### The loop reads the query -/

/-- The scan stops at a separator or at the end of the URI. -/
lemma scan_word {word rest : Bytes} {stop z : UInt8} (h0 : 0 ∉ word) (hstop : stop ∉ word)
    (hz : z = 0 ∨ z = stop) :
    scan (Fault.outOfBounds) (fun b => b = 0 || b = stop) (word ++ z :: rest) =
      .ok (z :: rest) := by
  apply scan_append
  · intro b hb
    rw [decide_eq_false (ne_of_mem_of_not_mem hb h0),
      decide_eq_false (ne_of_mem_of_not_mem hb hstop)]
    rfl
  · simpa using hz

lemma parseLoop_end {fuel : Nat} {s : σ} : parseLoop add (fuel + 1) [0] s = .ok (some s) := rfl

/-- A round that reads a value. -/
lemma parseLoop_round {rest : Bytes} {sep z : UInt8} (hsep : sep ≠ 0) (h0name : 0 ∉ name)
    (hname : equals ∉ name) (h0value : 0 ∉ value) (hvalue : amp ∉ value) (hz : z = 0 ∨ z = amp)
    (fuel : Nat) (s : σ) :
    parseLoop add (fuel + 1) (sep :: (name ++ equals :: (value ++ z :: rest))) s =
      match add name value s with
      | none => .ok none
      | some s => parseLoop add fuel (z :: rest) s := by
  have hequals : equals ≠ 0 := by decide
  rw [parseLoop, deref_cons, ok_bind, if_neg hsep]
  dsimp only [List.tail_cons]
  rw [scan_word h0name hname (Or.inr rfl), ok_bind, deref_cons, ok_bind, if_neg hequals]
  dsimp only [List.tail_cons]
  rw [scan_word h0value hvalue hz, ok_bind, between_append, between_append]
  cases add name value s <;> rfl

/-- The loop calls `add` for what it reads. -/
lemma Scans.parseLoop_eq (h : Scans q l) (h0 : 0 ∉ q) {fuel : Nat} (hfuel : q.length < fuel)
    {sep : UInt8} (hsep : sep ≠ 0) (s : σ) : parseLoop add fuel (sep :: (q ++ [0])) s =
      .ok (l.foldlM (fun s p => add p.1 p.2 s) s) := by
  induction h generalizing fuel sep s with
  | @name q hq =>
    obtain ⟨fuel, rfl⟩ := Nat.exists_eq_add_of_lt hfuel
    rw [parseLoop, deref_cons, ok_bind, if_neg hsep]
    dsimp only [List.tail_cons]
    rw [scan_word h0 hq (Or.inl rfl), ok_bind, deref_cons, ok_bind, if_pos rfl, between_append,
      List.foldlM_cons]
    cases add q [] s <;> rfl
  | @value name value hname hvalue =>
    rw [List.mem_append, List.mem_cons, not_or, not_or] at h0
    rw [List.length_append, List.length_cons] at hfuel
    obtain ⟨fuel, rfl⟩ : ∃ k, fuel = k + 2 := ⟨fuel - 2, by omega⟩
    rw [List.append_assoc, List.cons_append,
      parseLoop_round hsep h0.1 hname h0.2.2 hvalue (Or.inl rfl), List.foldlM_cons]
    cases add name value s <;> rfl
  | @more name value q l hname hvalue h ih =>
    rw [List.mem_append, List.mem_cons, List.mem_append, List.mem_cons, not_or, not_or, not_or,
      not_or] at h0
    obtain ⟨h0name, -, h0value, -, h0⟩ := h0
    rw [List.length_append, List.length_cons, List.length_append, List.length_cons] at hfuel
    obtain ⟨fuel, rfl⟩ : ∃ k, fuel = k + 1 := ⟨fuel - 1, by omega⟩
    rw [List.append_assoc, List.cons_append, List.append_assoc, List.cons_append,
      parseLoop_round hsep h0name hname h0value hvalue (Or.inr rfl), List.foldlM_cons]
    cases add name value s with
    | none => rfl
    | some s =>
      have hamp : amp ≠ 0 := by decide
      exact ih h0 (by omega) hamp s

/-- The scan for the query. -/
lemma query_cases (uri : Bytes) : question ∉ uri ∧ query uri = none ∨
    ∃ path q, question ∉ path ∧ uri = path ++ question :: q ∧ query uri = some q := by
  have hpass : ∀ path : Bytes, question ∉ path → ∀ b ∈ path, decide (b ≠ question) = true :=
    fun path hpath b hb => decide_eq_true (ne_of_mem_of_not_mem hb hpath)
  by_cases h : question ∈ uri
  · obtain ⟨path, q, rfl, hpath⟩ := List.eq_append_cons_of_mem h
    refine Or.inr ⟨path, q, hpath, rfl, ?_⟩
    rw [query, List.dropWhile_append_of_pos (hpass path hpath),
      List.dropWhile_cons_of_neg (by simp)]
  · refine Or.inl ⟨h, ?_⟩
    rw [query, List.dropWhile_eq_nil_iff.mpr (hpass uri h)]

/-- What is read from a URI. -/
lemma parseUri_of_no_query (h0 : 0 ∉ uri) (h : question ∉ uri) (s : σ) :
    parseUri add uri s = .ok (some s) := by
  rw [parseUri, scan_word h0 h (Or.inl rfl), ok_bind]
  exact parseLoop_end

lemma Scans.parseUri_eq {path : Bytes} (h : Scans q l) (h0 : 0 ∉ path ++ question :: q)
    (hpath : question ∉ path) (s : σ) : parseUri add (path ++ question :: q) s =
      .ok (l.foldlM (fun s p => add p.1 p.2 s) s) := by
  rw [List.mem_append, List.mem_cons, not_or, not_or] at h0
  have hquestion : question ≠ 0 := by decide
  rw [parseUri, List.append_assoc, List.cons_append, scan_word h0.1 hpath (Or.inr rfl), ok_bind]
  apply h.parseLoop_eq h0.2.2 _ hquestion
  rw [List.length_append, List.length_cons]
  omega

/-- Calls that are all recorded. -/
def record (name value : Bytes) (calls : List (Bytes × Bytes)) : Option (List (Bytes × Bytes)) :=
  some (calls ++ [(name, value)])

lemma foldlM_record (l calls : List (Bytes × Bytes)) :
    l.foldlM (fun s p => record p.1 p.2 s) calls = some (calls ++ l) := by
  induction l generalizing calls with
  | nil =>
    rw [List.append_nil]
    rfl
  | cons p l ih =>
    rw [List.foldlM_cons, List.append_cons calls p l, ← ih]
    rfl

/-- `parse_uri` ends, reads nothing behind the URI, and calls `add_line` on some list of parameters
until one is refused; they are the parameters of the query if and only if every part of the query
but the last has a `=`. -/
theorem parse_uri_iff (h0 : 0 ∉ uri) :
    (∃ calls : List (Bytes × Bytes), ∀ (σ : Type) (add : Bytes → Bytes → σ → Option σ) (s : σ),
      parseUri add uri s = .ok (calls.foldlM (fun s p => add p.1 p.2 s) s)) ∧
    ((∀ (σ : Type) (add : Bytes → Bytes → σ → Option σ) (s : σ),
      parseUri add uri s = .ok ((parameters uri).foldlM (fun s p => add p.1 p.2 s) s)) ↔
        ∀ piece ∈ (pieces uri).dropLast, equals ∈ piece) := by
  rcases query_cases uri with ⟨hnone, hquery⟩ | ⟨path, q, hpath, rfl, hquery⟩
  · have hpieces : pieces uri = [] := by rw [pieces, hquery]
    have hcalls : parameters uri = [] := by rw [parameters, hpieces, List.map_nil]
    refine ⟨⟨[], fun σ add s => parseUri_of_no_query h0 hnone s⟩, ?_⟩
    rw [hpieces, hcalls]
    exact iff_of_true (fun σ add s => parseUri_of_no_query h0 hnone s) (List.forall_mem_nil _)
  · obtain ⟨l, hl⟩ := exists_scans q
    have hpieces : pieces (path ++ question :: q) = q.splitOn amp := by rw [pieces, hquery]
    refine ⟨⟨l, fun σ add s => hl.parseUri_eq h0 hpath s⟩, ?_⟩
    rw [hpieces, ← hl.eq_iff, parameters, hpieces]
    constructor
    · intro hall
      have hrecord := hall _ record []
      rw [hl.parseUri_eq h0 hpath, foldlM_record, foldlM_record] at hrecord
      exact Option.some.inj (Except.ok.inj hrecord)
    · intro heq σ add s
      rw [hl.parseUri_eq h0 hpath, heq]

theorem parse_uri_iff_poll :
    let uri := str "/chat?action=CONNECT&x=1"
    (∃ calls : List (Bytes × Bytes), ∀ (σ : Type) (add : Bytes → Bytes → σ → Option σ) (s : σ),
      parseUri add uri s = .ok (calls.foldlM (fun s p => add p.1 p.2 s) s)) ∧
    ((∀ (σ : Type) (add : Bytes → Bytes → σ → Option σ) (s : σ),
      parseUri add uri s = .ok ((parameters uri).foldlM (fun s p => add p.1 p.2 s) s)) ↔
        ∀ piece ∈ (pieces uri).dropLast, equals ∈ piece) :=
  parse_uri_iff (by decide)

/-- A parameter without a value hides the one behind it. -/
theorem valueless_hides : parseUri record (str "/chat?rnd&ack=5") [] =
      .ok (some [(str "rnd&ack", str "5")]) ∧
    parameters (str "/chat?rnd&ack=5") = [(str "rnd", []), (str "ack", str "5")] := by
  decide

end Zerogw
