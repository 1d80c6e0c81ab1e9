import Zerogw.Library.Loop
import Zerogw.Basic

/-!
# Reading a file

The loop in `get_file` that reads a file into a message. An error other than `EINTR` and `EAGAIN`
does not end the loop: the value -1 that `read` returns is added to the position and taken off the
rest.
-/

namespace Zerogw

open Execution

namespace Disk

/-- What a call of `read` leads to. There may be more bytes in the file than it is asked for, and
there are none at the end. -/
inductive ReadResult where
  | data (bytes : Bytes)
  | eintr
  | eagain
  | failed

/-- The value that `read` returns when it is asked for `n` bytes. -/
def ReadResult.value (n : Nat) : ReadResult → Int
  | .data bytes => (bytes.take n).length
  | _ => -1

/-- The variables of the loop. `pos` is the place in the message that `data` points to, `got` are
the bytes that have been read. -/
structure Reading where
  toRead : Nat
  pos : Int
  buffer : List (Option UInt8)
  closed : Bool
  got : Bytes

/-- What `read` writes. -/
def store (pos : Int) (bytes : Bytes) (buffer : List (Option UInt8)) :
    Except Fault (List (Option UInt8)) :=
  if bytes = [] then .ok buffer
  else if 0 ≤ pos ∧ pos + bytes.length ≤ buffer.length then
    .ok (buffer.take pos.toNat ++ bytes.map some ++ buffer.drop (pos.toNat + bytes.length))
  else .error .outOfBounds

/-- One round of `while(to_read)`, or what follows the loop. The result is what `get_file`
returns. -/
def readRound (result : ReadResult) (s : Reading) : Except Fault ((Int × Reading) ⊕ Reading) :=
  if s.toRead = 0 then .ok (.inl (0, { s with closed := true }))
  else match result with
    | .eintr | .eagain => .ok (.inl (-1, { s with closed := true }))
    | .failed => .ok (.inr { s with pos := s.pos - 1, toRead := toSize (s.toRead + 1) })
    | .data bytes => do
      let bytes := bytes.take s.toRead
      let buffer ← store s.pos bytes s.buffer
      return .inr { s with
        pos := s.pos + bytes.length
        toRead := toSize (s.toRead - bytes.length)
        buffer := buffer
        got := s.got ++ bytes }

def startReading (size : Nat) : Reading := ⟨size, 0, List.replicate size none, false, []⟩

/-- `get_file` from the first call of `read` on. -/
def readAll (results : ℕ → ReadResult) (fuel size : ℕ) : Except Fault (Int × Reading) :=
  loop .endless readRound results fuel 0 (startReading size)

/-- The loop ends, it writes only into the message, the file is closed, and the result is zero only
if the message is filled with as many bytes, in the order in which they were read. -/
def AllOrNothing (results : ℕ → ReadResult) (size : ℕ) : Prop :=
  ∃ rc s, (∃ fuel, readAll results fuel size = .ok (rc, s)) ∧ s.closed = true ∧
    (rc = 0 ∧ s.got.length = size ∧ s.buffer = s.got.map some ∨ rc = -1)

/-! ### Results of `read` -/

/-- The sum of the values that the first `k` calls return. -/
def returned (results : ℕ → ReadResult) (size : ℕ) : ℕ → ℤ
  | 0 => 0
  | k + 1 =>
    let before := returned results size k
    before + (results k).value (toSize (size - before))

/-- How much the `k`th call is asked for. -/
def asked (results : ℕ → ReadResult) (size k : ℕ) : ℕ := toSize (size - returned results size k)

/-- The `k`th call is not interrupted, something is left to be read before it, and bytes arrive only
if no more calls have failed than bytes have arrived. -/
structure Proceeds (results : ℕ → ReadResult) (size k : ℕ) : Prop where
  eintr : results k ≠ .eintr
  eagain : results k ≠ .eagain
  unread : asked results size k ≠ 0
  placed : 0 < (results k).value (asked results size k) → 0 ≤ returned results size k

/-- A call is interrupted before the end, and the calls before it proceed. -/
structure Interrupted (results : ℕ → ReadResult) (size k : ℕ) : Prop where
  interrupt : results k = .eintr ∨ results k = .eagain
  unread : asked results size k ≠ 0
  before : ∀ j < k, Proceeds results size j

/-- Nothing is left to be read after `k` calls, none of which has failed. -/
structure Completed (results : ℕ → ReadResult) (size k : ℕ) : Prop where
  data : ∀ j < k, ∃ bytes, results j = .data bytes
  finished : asked results size k = 0

variable {results : ℕ → ReadResult} {size k : ℕ} {s s' : Reading} {result : ReadResult} {pos : Int}
  {bytes : Bytes} {buffer buffer' : List (Option UInt8)} {rc : Int}

/-! ### One round -/

/-- Sums are formed before the conversion. -/
lemma toSize_add (i j : Int) : toSize (toSize i + j) = toSize (i + j) := by
  have hi : ((toSize i : Nat) : Int) = i % 2 ^ 64 :=
    Int.toNat_of_nonneg (Int.emod_nonneg i (by norm_num))
  rw [toSize, hi, Int.emod_add_emod, toSize]

lemma asked_succ : asked results size (k + 1) =
    toSize (asked results size k - (results k).value (asked results size k)) := by
  rw [sub_eq_add_neg, asked, asked, toSize_add]
  exact congrArg toSize (sub_add_eq_sub_sub _ _ _)

lemma store_eq_ok (h : store pos bytes buffer = .ok buffer') : bytes = [] ∧ buffer' = buffer ∨
    bytes ≠ [] ∧ 0 ≤ pos ∧ pos + bytes.length ≤ buffer.length ∧
      buffer' = buffer.take pos.toNat ++ bytes.map some ++
        buffer.drop (pos.toNat + bytes.length) := by
  rw [store] at h
  by_cases hnil : bytes = []
  · rw [if_pos hnil] at h
    exact Or.inl ⟨hnil, (Except.ok.inj h).symm⟩
  · rw [if_neg hnil] at h
    split_ifs at h with hplace
    exact Or.inr ⟨hnil, hplace.1, hplace.2, (Except.ok.inj h).symm⟩

lemma length_store (h : store pos bytes buffer = .ok buffer') : buffer'.length = buffer.length := by
  rcases store_eq_ok h with ⟨-, rfl⟩ | ⟨-, hpos, hend, rfl⟩
  · rfl
  · simp
    omega

/-- The last place is not reached. -/
lemma getLast?_store (h : store pos bytes buffer = .ok buffer')
    (hend : pos + bytes.length < buffer.length) : buffer'.getLast? = buffer.getLast? := by
  rcases store_eq_ok h with ⟨-, rfl⟩ | ⟨-, hpos, -, rfl⟩
  · rfl
  · have hne : buffer.drop (pos.toNat + bytes.length) ≠ [] := by
      rw [Ne, List.drop_eq_nil_iff]
      omega
    rw [List.getLast?_append_of_ne_nil _ hne, List.getLast?_drop, if_neg (by omega)]

/-- Bytes are put behind those that are already there. -/
lemma store_behind {n : Nat} {got : Bytes} (h : store got.length bytes
    (got.map some ++ List.replicate n none) = .ok buffer') :
    buffer' = (got ++ bytes).map some ++ List.replicate (n - bytes.length) none := by
  rcases store_eq_ok h with ⟨rfl, rfl⟩ | ⟨-, -, -, rfl⟩
  · rw [List.append_nil, List.length_nil, Nat.sub_zero]
  · have htake : (got.map some ++ List.replicate n none).take got.length = got.map some :=
      List.take_left' (List.length_map some)
    have hdrop : (got.map some ++ List.replicate n none).drop (got.length + bytes.length) =
        List.replicate (n - bytes.length) none := by
      have hgot : got.length = (got.map some).length := (List.length_map some).symm
      rw [hgot, List.drop_length_add_append, List.drop_replicate]
    rw [Int.toNat_natCast, htake, hdrop, List.map_append]

/-- A round that goes on. -/
lemma readRound_next (h : readRound result s = .ok (.inr s')) : s.toRead ≠ 0 ∧
    (result = .failed ∧ s' = { s with pos := s.pos - 1, toRead := toSize (s.toRead + 1) } ∨
      ∃ bytes buffer, result = .data bytes ∧
        store s.pos (bytes.take s.toRead) s.buffer = .ok buffer ∧
        s' = { s with
          pos := s.pos + (bytes.take s.toRead).length
          toRead := toSize (s.toRead - (bytes.take s.toRead).length)
          buffer := buffer
          got := s.got ++ bytes.take s.toRead }) := by
  unfold readRound at h
  by_cases hleft : s.toRead = 0
  · rw [if_pos hleft] at h
    cases h
  rw [if_neg hleft] at h
  refine ⟨hleft, ?_⟩
  cases result with
  | eintr => cases h
  | eagain => cases h
  | failed => exact Or.inl ⟨rfl, by cases h; rfl⟩
  | data bytes =>
    obtain ⟨buffer, hstore, hnext⟩ := bind_eq_ok.mp h
    exact Or.inr ⟨bytes, buffer, rfl, hstore, by cases hnext; rfl⟩

/-- A round that leaves the loop. -/
lemma readRound_left (h : readRound result s = .ok (.inl (rc, s'))) :
    s' = { s with closed := true } ∧ (s.toRead = 0 ∧ rc = 0 ∨
      s.toRead ≠ 0 ∧ (result = .eintr ∨ result = .eagain) ∧ rc = -1) := by
  unfold readRound at h
  by_cases hleft : s.toRead = 0
  · rw [if_pos hleft] at h
    cases h
    exact ⟨rfl, Or.inl ⟨hleft, rfl⟩⟩
  · rw [if_neg hleft] at h
    cases result with
    | eintr =>
      cases h
      exact ⟨rfl, Or.inr ⟨hleft, Or.inl rfl, rfl⟩⟩
    | eagain =>
      cases h
      exact ⟨rfl, Or.inr ⟨hleft, Or.inr rfl, rfl⟩⟩
    | failed => cases h
    | data bytes =>
      obtain ⟨buffer, -, hnext⟩ := bind_eq_ok.mp h
      cases hnext

/-- A call that proceeds does not end the loop, and what it stores is stored within the message. -/
lemma exists_readRound_next (hleft : s.toRead ≠ 0) (heintr : result ≠ .eintr)
    (heagain : result ≠ .eagain) (hplace : 0 < result.value s.toRead →
      0 ≤ s.pos ∧ s.pos + s.toRead ≤ s.buffer.length) :
    ∃ s', readRound result s = .ok (.inr s') := by
  unfold readRound
  rw [if_neg hleft]
  cases result with
  | eintr => exact absurd rfl heintr
  | eagain => exact absurd rfl heagain
  | failed => exact ⟨_, rfl⟩
  | data bytes =>
    have hstore : ∃ buffer, store s.pos (bytes.take s.toRead) s.buffer = .ok buffer := by
      rw [store]
      by_cases hnil : bytes.take s.toRead = []
      · exact ⟨_, if_pos hnil⟩
      · have hpos := hplace (Int.natCast_pos.mpr (List.length_pos_iff.mpr hnil))
        have hle := List.length_take_le s.toRead bytes
        exact ⟨_, (if_neg hnil).trans (if_pos ⟨hpos.1, by omega⟩)⟩
    obtain ⟨buffer, hstore⟩ := hstore
    dsimp only
    rw [hstore]
    exact ⟨_, rfl⟩

/-! ### The state before a round -/

/-- As long as no call has failed, the message holds what has been read. Afterwards there are fewer
places than bytes, and the last place is written last. -/
structure Progress (results : ℕ → ReadResult) (size k : ℕ) (s : Reading) : Prop where
  toRead : s.toRead = asked results size k
  pos : s.pos = returned results size k
  lower : (size : ℤ) - 2 ^ 64 ≤ s.pos
  upper : s.pos ≤ size
  length : s.buffer.length = size
  clean : (∀ j < k, ∃ bytes, results j = .data bytes) →
    s.pos = s.got.length ∧ s.buffer = s.got.map some ++ List.replicate (size - s.got.length) none
  dirty : (∃ j < k, results j = .failed) →
    s.pos < s.got.length ∧ (s.pos = size ∨ s.buffer.getLast? = some none)
  before : ∀ j < k, Proceeds results size j

lemma Progress.start (hsize : size < 2 ^ 63) : Progress results size 0 (startReading size) where
  toRead := by
    show size = toSize (size - 0)
    rw [toSize]
    omega
  pos := rfl
  lower := by
    show (size : ℤ) - 2 ^ 64 ≤ 0
    omega
  upper := Int.natCast_nonneg size
  length := List.length_replicate
  clean _ := ⟨rfl, rfl⟩
  dirty := by
    rintro ⟨j, hj, -⟩
    exact absurd hj (Nat.not_lt_zero j)
  before j hj := absurd hj (Nat.not_lt_zero j)

/-- As long as something is left, it is what lies behind the position. -/
lemma Progress.left (h : Progress results size k s) (hleft : s.toRead ≠ 0) :
    (s.toRead : ℤ) = size - s.pos := by
  have hasked : s.toRead = toSize (size - s.pos) := by rw [h.toRead, asked, h.pos]
  have := h.lower
  have := h.upper
  rw [toSize] at hasked
  omega

lemma Proceeds.cases (h : Proceeds results size k) :
    results k = .failed ∨ ∃ bytes, results k = .data bytes := by
  cases hk : results k with
  | eintr => exact absurd hk h.eintr
  | eagain => exact absurd hk h.eagain
  | failed => exact Or.inl rfl
  | data bytes => exact Or.inr ⟨bytes, rfl⟩

lemma Progress.cases (h : Progress results size k s) :
    (∃ j < k, results j = .failed) ∨ ∀ j < k, ∃ bytes, results j = .data bytes := by
  by_cases hdirty : ∃ j < k, results j = .failed
  · exact Or.inl hdirty
  · refine Or.inr fun j hj => ?_
    exact (h.before j hj).cases.resolve_left fun hfailed => hdirty ⟨j, hj, hfailed⟩

/-- As long as something is left, the last place is not written. -/
lemma Progress.unfilled (h : Progress results size k s) (hleft : s.toRead ≠ 0) :
    s.pos ≤ s.got.length ∧ s.buffer.getLast? = some none := by
  have hrest := h.left hleft
  rcases h.cases with hdirty | hclean
  · obtain ⟨hgot, hlast⟩ := h.dirty hdirty
    exact ⟨hgot.le, hlast.resolve_left (by omega)⟩
  · obtain ⟨hpos, hbuffer⟩ := h.clean hclean
    refine ⟨hpos.le, ?_⟩
    rw [hbuffer, List.getLast?_append, List.getLast?_replicate, if_neg (by omega)]
    rfl

lemma Progress.before_succ (h : Progress results size k s) (hk : Proceeds results size k) :
    ∀ j < k + 1, Proceeds results size j := by
  intro j hj
  rcases Nat.lt_succ_iff_lt_or_eq.mp hj with hj | rfl
  · exact h.before j hj
  · exact hk

/-- A failed call. -/
lemma Progress.failed (h : Progress results size k s) (hk : Proceeds results size k)
    (hfailed : results k = .failed) :
    Progress results size (k + 1) { s with pos := s.pos - 1, toRead := toSize (s.toRead + 1) } := by
  have hleft : s.toRead ≠ 0 := h.toRead ▸ hk.unread
  have hrest := h.left hleft
  refine ⟨?_, ?_, ?_, ?_, h.length, ?_, ?_, ?_⟩
  · rw [asked_succ, hfailed, h.toRead]
    rfl
  · rw [returned, hfailed, h.pos]
    rfl
  · have := h.lower
    have : s.toRead < 2 ^ 64 := by
      rw [h.toRead, asked, toSize]
      omega
    show (size : ℤ) - 2 ^ 64 ≤ s.pos - 1
    omega
  · have := h.upper
    show s.pos - 1 ≤ size
    omega
  · intro hdata
    obtain ⟨bytes, hbytes⟩ := hdata k (Nat.lt_succ_self k)
    rw [hfailed] at hbytes
    cases hbytes
  · intro _
    obtain ⟨hpos, hlast⟩ := h.unfilled hleft
    exact ⟨Int.sub_one_lt_of_le hpos, Or.inr hlast⟩
  · exact h.before_succ hk

/-- A call that returns bytes. -/
lemma Progress.data (h : Progress results size k s) (hk : Proceeds results size k)
    (hdata : results k = .data bytes)
    (hstore : store s.pos (bytes.take s.toRead) s.buffer = .ok buffer) :
    Progress results size (k + 1) { s with
      pos := s.pos + (bytes.take s.toRead).length
      toRead := toSize (s.toRead - (bytes.take s.toRead).length)
      buffer := buffer
      got := s.got ++ bytes.take s.toRead } := by
  have hleft : s.toRead ≠ 0 := h.toRead ▸ hk.unread
  have hrest := h.left hleft
  have hle := List.length_take_le s.toRead bytes
  have hvalue : (results k).value s.toRead = (bytes.take s.toRead).length := by
    rw [hdata]
    rfl
  obtain ⟨hpos, hlast⟩ := h.unfilled hleft
  generalize bytes.take s.toRead = chunk at *
  refine ⟨?_, ?_, ?_, ?_, ?_, ?_, ?_, ?_⟩
  · rw [asked_succ, ← h.toRead, hvalue]
  · rw [returned]
    dsimp only
    rw [← asked, ← h.toRead, hvalue, h.pos]
  · have := h.lower
    show (size : ℤ) - 2 ^ 64 ≤ s.pos + chunk.length
    omega
  · show s.pos + chunk.length ≤ size
    omega
  · exact (length_store hstore).trans h.length
  · intro hclean
    obtain ⟨hgot, hbuffer⟩ := h.clean fun j hj => hclean j (Nat.lt_succ_of_lt hj)
    rw [hgot, hbuffer] at hstore
    refine ⟨?_, ?_⟩
    · show s.pos + chunk.length = ((s.got ++ chunk).length : ℤ)
      rw [hgot, List.length_append, Int.natCast_add]
    · rw [store_behind hstore, List.length_append, Nat.sub_add_eq]
  · rintro ⟨j, hj, hfailed⟩
    have hjk : j ≠ k := by
      rintro rfl
      rw [hdata] at hfailed
      cases hfailed
    obtain ⟨hgot, -⟩ := h.dirty ⟨j, lt_of_le_of_ne (Nat.le_of_lt_succ hj) hjk, hfailed⟩
    constructor
    · show s.pos + chunk.length < ((s.got ++ chunk).length : ℤ)
      rw [List.length_append, Int.natCast_add]
      exact Int.add_lt_add_right hgot _
    · by_cases hfull : s.pos + chunk.length = size
      · exact Or.inl hfull
      · apply Or.inr
        rw [← hlast]
        apply getLast?_store hstore
        rw [h.length]
        omega
  · exact h.before_succ hk

/-! ### The whole loop -/

lemma Progress.next (h : Progress results size k s)
    (hround : readRound (results k) s = .ok (.inr s')) (hk : Proceeds results size k) :
    Progress results size (k + 1) s' := by
  obtain ⟨-, ⟨hfailed, rfl⟩ | ⟨bytes, buffer, hdata, hstore, rfl⟩⟩ := readRound_next hround
  · exact h.failed hk hfailed
  · exact h.data hk hdata hstore

/-- A round that goes on has a call that proceeds. -/
lemma Progress.proceeds (h : Progress results size k s)
    (hround : readRound (results k) s = .ok (.inr s')) : Proceeds results size k := by
  obtain ⟨hleft, ⟨hfailed, -⟩ | ⟨bytes, buffer, hdata, hstore, -⟩⟩ := readRound_next hround
  · refine ⟨by simp [hfailed], by simp [hfailed], h.toRead ▸ hleft, fun hvalue => ?_⟩
    rw [hfailed] at hvalue
    exact absurd (show (0 : ℤ) < -1 from hvalue) (by decide)
  · refine ⟨by simp [hdata], by simp [hdata], h.toRead ▸ hleft, fun hvalue => ?_⟩
    rw [hdata, ← h.toRead] at hvalue
    rw [← h.pos]
    rcases store_eq_ok hstore with ⟨hnil, -⟩ | ⟨-, hpos, -⟩
    · rw [ReadResult.value, hnil] at hvalue
      exact absurd hvalue (by decide)
    · exact hpos

lemma progress_of_before (hsize : size < 2 ^ 63)
    (h : Before readRound results (startReading size) k s) : Progress results size k s :=
  h.invariant (I := Progress results size) (.start hsize) fun _ _ _ hs hround =>
    hs.next hround (hs.proceeds hround)

/-- The loop gets to the `k`th call if the calls before it proceed. -/
lemma exists_before (hsize : size < 2 ^ 63) (h : ∀ j < k, Proceeds results size j) :
    ∃ s, Before readRound results (startReading size) k s ∧ Progress results size k s := by
  apply Before.exists_of_rounds (I := Progress results size) (.start hsize)
  intro j hj s hs
  have hleft : s.toRead ≠ 0 := hs.toRead ▸ (h j hj).unread
  have hrest := hs.left hleft
  obtain ⟨s', hround⟩ := exists_readRound_next hleft (h j hj).eintr (h j hj).eagain fun hvalue => by
    rw [hs.pos, hs.length, ← hs.pos]
    refine ⟨?_, by omega⟩
    rw [hs.pos]
    apply (h j hj).placed
    rwa [← hs.toRead]
  exact ⟨s', hround, hs.next hround (h j hj)⟩

lemma returned_nonneg (hdata : ∀ j < k, ∃ bytes, results j = .data bytes) :
    0 ≤ returned results size k := by
  induction k with
  | zero => exact le_refl 0
  | succ k ih =>
    obtain ⟨bytes, hbytes⟩ := hdata k (Nat.lt_succ_self k)
    rw [returned, hbytes]
    exact Int.add_nonneg (ih fun j hj => hdata j (Nat.lt_succ_of_lt hj)) (Int.natCast_nonneg _)

/-- Calls of which none fails proceed until nothing is left. -/
lemma proceeds_of_data (hdata : ∀ j < k, ∃ bytes, results j = .data bytes)
    (hunread : ∀ j < k, asked results size j ≠ 0) : ∀ j < k, Proceeds results size j := by
  intro j hj
  obtain ⟨bytes, hbytes⟩ := hdata j hj
  refine ⟨by simp [hbytes], by simp [hbytes], hunread j hj, fun _ => ?_⟩
  exact returned_nonneg fun i hi => hdata i (hi.trans hj)

/-- If the loop ends because nothing is left, the message is filled if and only if no call has
failed. -/
lemma Progress.filled_iff (hsize : size < 2 ^ 63) (h : Progress results size k s)
    (hleft : s.toRead = 0) :
    s.got.length = size ∧ s.buffer = s.got.map some ↔
      ∀ j < k, ∃ bytes, results j = .data bytes := by
  constructor
  · rintro ⟨hlen, hbuffer⟩
    apply h.cases.resolve_left
    intro hdirty
    obtain ⟨hgot, hfull | hlast⟩ := h.dirty hdirty
    · omega
    · rw [hbuffer, List.getLast?_map] at hlast
      cases hget : s.got.getLast? <;> rw [hget] at hlast <;> cases hlast
  · intro hclean
    obtain ⟨hpos, hbuffer⟩ := h.clean hclean
    have hlen : s.got.length = size := by
      have hasked : toSize (size - s.pos) = 0 := by rw [h.pos, ← asked, ← h.toRead, hleft]
      have := h.upper
      rw [toSize] at hasked
      omega
    rw [hlen, Nat.sub_self, List.replicate_zero, List.append_nil] at hbuffer
    exact ⟨hlen, hbuffer⟩

/-- Reading a file is all or nothing if and only if a call is interrupted before bytes arrive at a
wrong place, or everything has been read without a failure. -/
theorem all_or_nothing_iff (results : ℕ → ReadResult) (hsize : size < 2 ^ 63) :
    AllOrNothing results size ↔
      ∃ k, Interrupted results size k ∨ Completed results size k := by
  constructor
  · rintro ⟨rc, s, hrun, -, hres⟩
    obtain ⟨k, t, hbefore, hround⟩ := loop_eq_ok_iff.mp hrun
    have ht := progress_of_before hsize hbefore
    refine ⟨k, ?_⟩
    obtain ⟨rfl, ⟨hleft, rfl⟩ | ⟨hleft, hinterrupt, rfl⟩⟩ := readRound_left hround
    · obtain ⟨-, hfilled⟩ := hres.resolve_right (by decide)
      exact Or.inr ⟨(ht.filled_iff hsize hleft).mp hfilled, ht.toRead ▸ hleft⟩
    · exact Or.inl ⟨hinterrupt, ht.toRead ▸ hleft, ht.before⟩
  · rintro ⟨k, hk | hk⟩
    · obtain ⟨s, hbefore, hs⟩ := exists_before hsize hk.before
      have hleft : s.toRead ≠ 0 := hs.toRead ▸ hk.unread
      refine ⟨-1, { s with closed := true }, loop_eq_ok_iff.mpr ⟨k, s, hbefore, ?_⟩, rfl,
        Or.inr rfl⟩
      unfold readRound
      rw [if_neg hleft]
      rcases hk.interrupt with h | h <;> rw [h]
    · have hfinished : ∃ k, asked results size k = 0 := ⟨k, hk.finished⟩
      have hfirst := fun j (hj : j < Nat.find hfinished) => Nat.find_min hfinished hj
      have hdata : ∀ j < Nat.find hfinished, ∃ bytes, results j = .data bytes := fun j hj =>
        hk.data j (hj.trans_le (Nat.find_min' hfinished hk.finished))
      obtain ⟨s, hbefore, hs⟩ := exists_before hsize (proceeds_of_data hdata hfirst)
      have hleft : s.toRead = 0 := hs.toRead.trans (Nat.find_spec hfinished)
      refine ⟨0, { s with closed := true }, loop_eq_ok_iff.mpr ⟨_, s, hbefore, ?_⟩, rfl,
        Or.inl ⟨rfl, (hs.filled_iff hsize hleft).mpr hdata⟩⟩
      unfold readRound
      rw [if_pos hleft]

theorem all_or_nothing_iff_index : AllOrNothing (fun _ => .data (str "index")) 5 ↔
    ∃ k, Interrupted (fun _ => .data (str "index")) 5 k ∨
      Completed (fun _ => .data (str "index")) 5 k :=
  all_or_nothing_iff (fun _ => .data (str "index")) (by norm_num)

/-- A byte is put in front of the message after a failure. -/
example : readAll (fun k => if k = 0 then .failed else .data (str "index")) 2 5 =
    .error .outOfBounds := rfl

/-- The end of a file that has become shorter is read again and again. -/
theorem short_file_endless : ¬ AllOrNothing (fun _ => .data []) 1 := by
  rintro ⟨rc, s, hrun, -⟩
  obtain ⟨k, t, hbefore, hround⟩ := loop_eq_ok_iff.mp hrun
  have ht : t = startReading 1 := by
    apply hbefore.invariant (I := fun _ t => t = startReading 1) rfl
    rintro k s s' rfl hnext
    exact (Sum.inr.inj (Except.ok.inj hnext)).symm
  rw [ht] at hround
  cases hround

end Disk

end Zerogw
