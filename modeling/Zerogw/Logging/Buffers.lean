import Mathlib.Data.List.TakeWhile
import Zerogw.Logging.Basic

/-!
# Log lines stay inside their buffers

The texts are cut to the size of the buffer by the functions that print them, but the sum of their
lengths is not. Clamped, it is the place of the newline; whatever is added to it behind the clamp
may lead outside.
-/

namespace Zerogw.Logging

open Execution

variable {stamp msg text error buf buf2 t : Bytes} {idx tm timeout : Int} {tt : WarnTimes}
  {level size : Nat}

/-! ### Printing -/

lemma snprintf_append (text : Bytes) {size : Nat} (h : t <+: buf) (hpos : 0 < size)
    (hle : t.length + size ≤ buf.length) :
    ∃ buf', snprintf t.length size text buf = .ok (buf', printed text) ∧
      t ++ text.take (size - 1) <+: buf' ∧ buf'.length = buf.length := by
  have hcut : (text.take (size - 1)).length ≤ size - 1 := List.length_take_le _ _
  obtain ⟨buf', hall, hpre, hlen⟩ := Buffer.storeAll_append Fault.outOfBounds
    (text.take (size - 1) ++ [0]) h
      (by simp only [List.length_append, List.length_singleton]; omega)
  refine ⟨buf', ?_, ?_, hlen⟩
  · rw [snprintf, if_neg hpos.ne', hall]
    rfl
  · exact (List.prefix_append _ [0]).trans (by rwa [List.append_assoc])

/-- The sum of the lengths of the two texts is an `int`. Where the second length is none, it is
-1. -/
def Counted (stamp msg : Bytes) : Prop :=
  if msg.length < 2 ^ 31 then stamp.length + msg.length < 2 ^ 31 else stamp ≠ []

/-- The sum, where it is right. -/
def count (stamp msg : Bytes) : Nat :=
  if msg.length < 2 ^ 31 then stamp.length + msg.length else stamp.length - 1

lemma count_le (stamp msg : Bytes) : count stamp msg ≤ stamp.length + msg.length := by
  rw [count]
  split_ifs <;> omega

/-- The place behind the two texts. -/
lemma toInt_printed (hstamp : stamp.length < bufSize) :
    (Counted stamp msg → toInt (stamp.length + printed msg) = count stamp msg) ∧
    (¬ Counted stamp msg → toInt (stamp.length + printed msg) < 0) := by
  have hempty : stamp = [] ↔ stamp.length = 0 := List.length_eq_zero_iff.symm
  simp only [Counted, printed, count, toInt, Int.bmod, bufSize, Ne, hempty] at *
  constructor
  · intro h
    split_ifs at h ⊢ <;> omega
  · intro h
    split_ifs at h ⊢ <;> omega

lemma toSize_rest {n : Nat} (h : n ≤ bufSize) : toSize (bufSize - n) = bufSize - n := by
  simp only [toSize, bufSize] at *
  omega

/-- After the message, the buffer begins with as much of the two texts as fits. -/
lemma printLine_eq (msg : Bytes) (hstamp : stamp.length < bufSize) (hbuf : buf.length = bufSize) :
    ∃ buf', printLine stamp msg buf = .ok (buf', toInt (stamp.length + printed msg)) ∧
      (stamp ++ msg).take (bufSize - 1) <+: buf' ∧ buf'.length = bufSize := by
  obtain ⟨buf₁, hfirst, hpre₁, hlen₁⟩ := snprintf_append stamp
    (List.nil_prefix (l := buf)) (show 0 < bufSize by decide) (by simp [hbuf])
  have hwhole : stamp.take (bufSize - 1) = stamp := List.take_of_length_le (by omega)
  rw [List.nil_append, hwhole] at hpre₁
  obtain ⟨buf₂, hsecond, hpre₂, hlen₂⟩ := snprintf_append msg hpre₁
    (show 0 < bufSize - stamp.length by omega) (by omega)
  have hprinted : printed stamp = stamp.length := if_pos (by simp only [bufSize] at hstamp; omega)
  refine ⟨buf₂, ?_, ?_, by omega⟩
  · rw [printLine]
    show (snprintf ((([] : Bytes).length : Nat) : Int) bufSize stamp buf >>= _) = _
    rw [hfirst, ok_bind, hprinted]
    show (snprintf stamp.length (toSize (bufSize - stamp.length)) msg buf₁ >>= _) = _
    rw [toSize_rest hstamp.le, hsecond]
    rfl
  · rw [List.take_append, List.take_of_length_le (by omega),
      show bufSize - 1 - stamp.length = bufSize - stamp.length - 1 by omega]
    exact hpre₂

/-- What `write` is called with: at most a buffer, with the newline at its end. -/
def IsLine (line : Bytes) : Prop := line.length ≤ bufSize ∧ line.getLast? = some newline

lemma writeLine_append (h : t <+: buf) (hlt : t.length < buf.length) (hbuf : buf.length = bufSize) :
    writeLine t.length buf = .ok (t ++ [newline]) := by
  obtain ⟨buf', hstore, hpre, hlen⟩ :=
    Buffer.store_append Fault.outOfBounds newline h hlt
  have hsize : toSize ((t.length : Int) + 1) = (t ++ [newline]).length := by
    simp only [toSize, List.length_append, List.length_singleton, bufSize] at *
    omega
  rw [writeLine, hstore, ok_bind, hsize, if_pos hpre.length_le, Buffer.take_length hpre]

lemma isLine_append (h : t.length < bufSize) : IsLine (t ++ [newline]) :=
  ⟨by simpa using h, List.getLast?_concat⟩

/-- The newline and `write`, at a place where the buffer is filled. -/
lemma writeLine_take {n : Nat} (h : t <+: buf) (hbuf : buf.length = bufSize) (hn : n ≤ t.length)
    (hlt : n < bufSize) : writeLine n buf = .ok (t.take n ++ [newline]) := by
  obtain ⟨hpre, hlen⟩ := Buffer.take_of_isPrefix h hn
  have hline := writeLine_append hpre (by omega) hbuf
  rwa [hlen] at hline

lemma writeLine_of_outside (h : ¬ (0 ≤ idx ∧ idx < buf.length)) :
    writeLine idx buf = .error .outOfBounds := by
  rw [writeLine, Buffer.store_of_outside h]
  rfl

/-! ### The functions -/

/-- Nothing is stored outside the arrays, and what is written is a line. -/
def Stays (r : Except Fault Logged) : Prop := Ends (fun _ => False) (fun l => IsLine l.line) r

lemma min_natCast (n : Nat) : min (n : Int) 4094 = (min n 4094 : Nat) := by
  omega

/-- The two texts, cut to the size of the buffer. -/
lemma le_length_take {n : Nat} (hn : n ≤ count stamp msg) (hlt : n < bufSize) :
    n ≤ ((stamp ++ msg).take (bufSize - 1)).length := by
  have hcount := count_le stamp msg
  rw [List.length_take, List.length_append]
  omega

/-- The place of the newline in a message that is not too long for an `int`. -/
lemma clamp_lt : min (count stamp msg) 4094 < bufSize :=
  (min_le_right _ _).trans_lt (by decide)

/-- The newline goes behind what is there, or at the end of the buffer. -/
lemma writeLine_min {n : Nat} (hpre : t <+: buf) (hbuf : buf.length = bufSize)
    (hn : min n 4094 ≤ t.length) :
    writeLine (min (n : Int) 4094) buf = .ok (t.take (min n 4094) ++ [newline]) := by
  rw [min_natCast]
  exact writeLine_take hpre hbuf hn ((min_le_right _ _).trans_lt (by decide))

/-- A line that is cut where the newline goes. -/
lemma isLine_take {n : Nat} (h : n < bufSize) : IsLine (t.take n ++ [newline]) :=
  isLine_append ((List.length_take_le _ _).trans_lt h)

/-- What `logmsg` writes. -/
lemma logmsg_eq (hstamp : stamp.length < bufSize) (hbuf : buf.length = bufSize)
    (h : Counted stamp msg) : logmsg level stamp msg buf =
      .ok ⟨(stamp ++ msg).take (min (count stamp msg) 4094) ++ [newline], level ≤ errLevel⟩ := by
  obtain ⟨buf', hprint, hpre, hlen⟩ := printLine_eq msg hstamp hbuf
  rw [(toInt_printed hstamp).1 h] at hprint
  have hline := writeLine_min hpre hlen (le_length_take (min_le_left _ 4094) clamp_lt)
  rw [List.take_take, min_eq_left (Nat.le_sub_one_of_lt clamp_lt)] at hline
  rw [logmsg, hprint, ok_bind]
  show (writeLine (min (count stamp msg : Int) 4094) buf' >>= _) = _
  rw [hline]
  rfl

lemma logmsg_stays_iff (hstamp : stamp.length < bufSize) (hbuf : buf.length = bufSize) :
    Stays (logmsg level stamp msg buf) ↔ Counted stamp msg := by
  constructor
  · intro hstays
    by_contra h
    obtain ⟨buf', hprint, -, -⟩ := printLine_eq msg hstamp hbuf
    have hneg := (toInt_printed hstamp).2 h
    rw [logmsg, hprint, ok_bind] at hstays
    dsimp only at hstays
    rw [writeLine_of_outside (by omega)] at hstays
    exact hstays
  · intro h
    rw [logmsg_eq hstamp hbuf h]
    exact isLine_take clamp_lt

/-! `logstd` -/

/-- A string in a buffer ends at the first terminator behind its start. -/
lemma strlen_append {s : Bytes} (rest : Bytes) (hs : ∀ c ∈ s, c ≠ 0) :
    strlen t.length (t ++ (s ++ 0 :: rest)) = .ok s.length := by
  have hfind : (s ++ 0 :: rest).findIdx? (· = 0) = some s.length := by
    induction s with
    | nil => rfl
    | cons c s ih =>
      rw [List.cons_append, List.findIdx?_cons, if_neg (by simpa using hs c (by simp)),
        ih fun c hc => hs c (by simp [hc])]
      rfl
  rw [strlen, Int.toNat_natCast, List.drop_left, hfind]

/-- The colon and the text of the error go behind a message that leaves room for them. -/
lemma printError_eq (error : Bytes) {n : Nat} (hpre : t <+: buf) (hbuf : buf.length = bufSize)
    (hn : min n 4094 ≤ t.length) : ∃ buf' t' m, printError error n buf = .ok (buf', (m : Nat)) ∧
      t' <+: buf' ∧ buf'.length = bufSize ∧ min m 4094 ≤ t'.length := by
  rw [printError]
  split_ifs with hroom
  · have hfits : n + 2 < bufSize := by
      simp only [bufSize]
      omega
    obtain ⟨hpre₀, hlen₀⟩ := Buffer.take_of_isPrefix hpre (n := n) (by omega)
    obtain ⟨buf₁, hcolon, hpre₁, hlen₁⟩ :=
      Buffer.store_append Fault.outOfBounds 58 hpre₀ (by omega)
    have ht₁ : (t.take n ++ [58]).length = n + 1 := by simp [hlen₀]
    obtain ⟨buf₂, hblank, hpre₂, hlen₂⟩ :=
      Buffer.store_append Fault.outOfBounds 32 hpre₁ (by omega)
    have ht₂ : (t.take n ++ [58] ++ [32]).length = n + 2 := by simp [hlen₀]
    set e := (error.takeWhile (· ≠ 0)).take (bufSize - (n + 2) - 1) with he
    have helen : e.length ≤ bufSize - (n + 2) - 1 := List.length_take_le _ _
    have hend : (e ++ [0]).length = e.length + 1 := by simp
    obtain ⟨buf₃, hstore, hpre₃, hlen₃⟩ :=
      Buffer.storeAll_append Fault.outOfBounds (e ++ [0]) hpre₂
        (by omega)
    refine ⟨buf₃, t.take n ++ [58] ++ [32] ++ e, n + 2 + e.length, ?_, ?_, by omega, ?_⟩
    · have hzero : ∀ c ∈ e, c ≠ 0 := fun c hc => by
        simpa using List.mem_takeWhile_imp (List.mem_of_mem_take hc)
      obtain ⟨rest, hrest⟩ := hpre₃
      have hstrlen := strlen_append (t := t.take n ++ [58] ++ [32]) rest hzero
      rw [hlen₀] at hcolon
      rw [ht₁] at hblank
      rw [ht₂] at hstore hstrlen
      rw [hcolon, ok_bind]
      show (Buffer.store _ ((n + 1 : Nat) : Int) 32 buf₁ >>= _) = _
      rw [hblank, ok_bind]
      show (strerrorR ((n + 2 : Nat) : Int) (toSize (bufSize - (n + 2 : Nat))) error buf₂ >>= _) = _
      have hsplit : t.take n ++ [58] ++ [32] ++ (e ++ [0]) ++ rest
          = t.take n ++ [58] ++ [32] ++ (e ++ 0 :: rest) := by simp
      rw [toSize_rest hfits.le, strerrorR, hstore, ok_bind, ← hrest, hsplit]
      show (strlen ((n + 2 : Nat) : Int) _ >>= _) = _
      rw [hstrlen, Nat.cast_add]
      rfl
    · exact (List.prefix_append _ [0]).trans (by simpa using hpre₃)
    · rw [List.length_append, ht₂]
      exact min_le_left _ _
  · exact ⟨buf, t, n, rfl, hpre, hbuf, hn⟩

/-- What `logstd` writes is a line. -/
lemma logstd_eq (hstamp : stamp.length < bufSize) (hbuf : buf.length = bufSize)
    (h : Counted stamp msg) : ∃ line,
      logstd level stamp msg error buf = .ok ⟨line, level ≤ errLevel⟩ ∧
      IsLine line := by
  obtain ⟨buf₁, hprint, hpre₁, hlen₁⟩ := printLine_eq msg hstamp hbuf
  rw [(toInt_printed hstamp).1 h] at hprint
  obtain ⟨buf₂, t, m, herror, hpre₂, hlen₂, hm⟩ :=
    printError_eq error hpre₁ hlen₁ (le_length_take (min_le_left _ 4094) clamp_lt)
  refine ⟨t.take (min m 4094) ++ [newline], ?_,
    isLine_take ((min_le_right _ _).trans_lt (by decide))⟩
  rw [logstd, hprint, ok_bind]
  show (printError error (count stamp msg : Nat) buf₁ >>= _) = _
  rw [herror, ok_bind]
  show (writeLine (min (m : Int) 4094) buf₂ >>= _) = _
  rw [writeLine_min hpre₂ hlen₂ hm]
  rfl

lemma logstd_stays_iff (hstamp : stamp.length < bufSize) (hbuf : buf.length = bufSize) :
    Stays (logstd level stamp msg error buf) ↔ Counted stamp msg := by
  constructor
  · intro hstays
    by_contra h
    obtain ⟨buf', hprint, -, -⟩ := printLine_eq msg hstamp hbuf
    have hneg := (toInt_printed hstamp).2 h
    have hcolon : printError error (toInt (stamp.length + printed msg)) buf' =
        .error .outOfBounds := by
      rw [printError, if_pos (by omega), Buffer.store_of_outside (by omega)]
      rfl
    rw [logstd, hprint, ok_bind] at hstays
    dsimp only at hstays
    rw [hcolon] at hstays
    exact hstays
  · intro h
    obtain ⟨line, hlog, hline⟩ := logstd_eq hstamp hbuf h
    rw [hlog]
    exact hline

/-! `timedwarn` -/

/-- The length of what `printRepeated` adds. -/
def added (tt : WarnTimes) (tm timeout : Int) : Nat :=
  if tt.lastcall > tm - timeout then (repeated tt.counter).length else 0

/-- A warning is not due, or there is room for it. -/
def WarnFits (tt : WarnTimes) (tm timeout : Int) (stamp msg : Bytes) : Prop :=
  tt.lastprint < tm - timeout →
    Counted stamp msg ∧ min (count stamp msg) 4094 + added tt.counted tm timeout < bufSize

lemma decimal_length {n : Int} (h : n.natAbs < 10 ^ 20) : (decimal n).length ≤ 21 := by
  have hdigits := (Nat.length_toDigits_le_iff (b := 10) (k := 20) (by decide) (by decide)).mpr h
  rw [decimal, List.length_append, List.length_map]
  split_ifs
  · rw [List.length_singleton]
    omega
  · rw [List.length_nil]
    omega

lemma printed_repeated (tt : WarnTimes) :
    printed (repeated tt.counted.counter) = (repeated tt.counted.counter).length := by
  have hlong : tt.counted.counter.natAbs < 10 ^ 20 := by
    show ((tt.counter + 1).bmod (2 ^ 64)).natAbs < _
    have hle := Int.le_bmod (x := tt.counter + 1) (m := 2 ^ 64) (by norm_num)
    have hlt := Int.bmod_lt (x := tt.counter + 1) (m := 2 ^ 64) (by norm_num)
    omega
  have hdecimal := decimal_length hlong
  have htext : (str " (repeated ").length = 11 ∧ (str " times)").length = 7 := by decide
  refine if_pos ?_
  rw [repeated, List.length_append, List.length_append, htext.1, htext.2]
  omega

/-- The number of repetitions goes behind the message as far as there is room, but its length is
added as a whole. -/
lemma printRepeated_eq (tt : WarnTimes) (tm timeout : Int) {n : Nat} (hpre : t <+: buf)
    (hbuf : buf.length = bufSize)
    (hn : n ≤ t.length) (hlt : n < bufSize) :
    ∃ buf' t', printRepeated tt.counted tm timeout n buf =
        .ok (buf', (n + added tt.counted tm timeout : Nat)) ∧
      t' <+: buf' ∧ buf'.length = bufSize ∧
      (n + added tt.counted tm timeout < bufSize →
        n + added tt.counted tm timeout ≤ t'.length) := by
  rw [printRepeated, added]
  split_ifs with hrepeated
  · obtain ⟨hpre₀, hlen₀⟩ := Buffer.take_of_isPrefix hpre hn
    obtain ⟨buf₁, hprint, hpre₁, hlen₁⟩ := snprintf_append (repeated tt.counted.counter)
      hpre₀ (show 0 < bufSize - n by omega) (by omega)
    refine ⟨buf₁, _, ?_, hpre₁, by omega, fun hroom => ?_⟩
    · rw [hlen₀, printed_repeated] at hprint
      rw [toSize_rest hlt.le, hprint, ok_bind, Nat.cast_add]
    · rw [List.length_append, hlen₀, List.length_take]
      omega
  · exact ⟨buf, t, rfl, hpre, hbuf, fun _ => hn⟩

/-- Nothing is stored at a negative place. -/
lemma printRepeated_of_neg (hint : -2 ^ 31 ≤ idx) (h : idx < 0) :
    (printRepeated tt tm timeout idx buf >>= fun r => writeLine r.2 r.1) = .error .outOfBounds := by
  rw [printRepeated]
  split_ifs
  · have hsize : toSize (bufSize - idx) ≠ 0 := by
      simp only [toSize, bufSize]
      omega
    obtain ⟨c, cs, hcons⟩ := List.exists_cons_of_ne_nil
      (l := (repeated tt.counter).take (toSize (bufSize - idx) - 1) ++ [0]) (by simp)
    rw [snprintf, if_neg hsize, hcons, Buffer.storeAll_of_outside (by omega)]
    rfl
  · exact writeLine_of_outside (by omega)

/-- What `timedwarn` does, if the warning is due, with the place behind the message. -/
lemma timedwarn_due (hdue : tt.lastprint < tm - timeout) {buf' : Bytes}
    (hprint : printLine stamp msg buf = .ok (buf', idx)) :
    timedwarn tt tm timeout stamp msg buf =
      (printRepeated tt.counted tm timeout (min idx 4094) buf' >>= fun r =>
        writeLine r.2 r.1).map fun line => (some line, ⟨tm, tm, 0⟩) := by
  have hdue' : tt.counted.lastprint < tm - timeout := hdue
  simp only [timedwarn, if_pos hdue', hprint, ok_bind]
  cases printRepeated tt.counted tm timeout (min idx 4094) buf' with
  | error e => rfl
  | ok r =>
    simp only [ok_bind]
    cases writeLine r.2 r.1 with
    | error e => rfl
    | ok line => rfl

lemma timedwarn_stays_iff (hstamp : stamp.length < bufSize) (hbuf : buf.length = bufSize) :
    Ends (fun _ => False) (fun r => ∀ line ∈ r.1, IsLine line)
      (timedwarn tt tm timeout stamp msg buf) ↔ WarnFits tt tm timeout stamp msg := by
  by_cases hdue : tt.lastprint < tm - timeout
  · obtain ⟨buf₁, hprint, hpre₁, hlen₁⟩ := printLine_eq msg hstamp hbuf
    rw [timedwarn_due hdue hprint, WarnFits, imp_iff_right hdue]
    by_cases hcounted : Counted stamp msg
    · rw [and_iff_right hcounted, (toInt_printed hstamp).1 hcounted, min_natCast]
      obtain ⟨buf₂, t, hrepeated, hpre₂, hlen₂, hroom⟩ := printRepeated_eq tt tm timeout
        hpre₁ hlen₁ (le_length_take (min_le_left _ 4094) clamp_lt) clamp_lt
      rw [hrepeated, ok_bind]
      dsimp only
      by_cases hlt : min (count stamp msg) 4094 + added tt.counted tm timeout < bufSize
      · rw [writeLine_take hpre₂ hlen₂ (hroom hlt) hlt]
        refine iff_of_true ?_ hlt
        rintro line hline
        cases hline
        exact isLine_take hlt
      · rw [writeLine_of_outside (by omega)]
        exact iff_of_false id hlt
    · have hneg := (toInt_printed hstamp).2 hcounted
      have hint := (isInt_toInt (stamp.length + printed msg)).1
      rw [printRepeated_of_neg (by omega) (by omega)]
      exact iff_of_false id fun h => hcounted h.1
  · have hdue' : ¬ tt.counted.lastprint < tm - timeout := hdue
    rw [timedwarn, WarnFits]
    simp only [if_neg hdue']
    exact iff_of_true (fun line hline => by cases hline) fun h => absurd h hdue

/-! `logudata` -/

/-- The number of characters stored for one. -/
def width (c : UInt8) : Nat :=
  if isprint (toChar c) then if c = 92 ∨ c = 34 then 2 else 1
  else if c = 13 ∨ c = 10 then 2 else 4

/-- The characters that the loop gets to, if it starts with `n` characters stored. -/
def reached : Nat → Bytes → Bytes
  | _, [] => []
  | n, c :: cs => if n < bufSize - 6 then c :: reached (n + width c) cs else []

variable {digit : Int → Except Fault UInt8} {e : UInt8 → Bytes} {c : UInt8} {cs out : Bytes}

lemma length_of_escape (h : escape digit c = .ok out) : out.length = width c := by
  rw [escape] at h
  rw [width]
  split_ifs at h with hprint hback hquote hcr hlf
  · cases h
    rw [if_pos hprint, if_pos (Or.inl hback)]
    rfl
  · cases h
    rw [if_pos hprint, if_pos (Or.inr hquote)]
    rfl
  · cases h
    rw [if_pos hprint, if_neg (not_or.mpr ⟨hback, hquote⟩)]
    rfl
  · cases h
    rw [if_neg hprint, if_pos (Or.inl hcr)]
    rfl
  · cases h
    rw [if_neg hprint, if_pos (Or.inr hlf)]
    rfl
  · obtain ⟨high, -, h⟩ := bind_eq_ok.mp h
    obtain ⟨low, -, h⟩ := bind_eq_ok.mp h
    cases h
    rw [if_neg hprint, if_neg (not_or.mpr ⟨hcr, hlf⟩)]
    rfl

lemma width_le (c : UInt8) : width c ≤ 4 := by
  rw [width]
  split_ifs <;> decide

/-- The loop stores the characters it gets to one after the other, and leaves room for the
newline. -/
lemma escapeLoop_eq (hpre : t <+: buf2) (hbuf2 : buf2.length = bufSize)
    (hroom : t.length < bufSize - 2) (he : ∀ c ∈ reached t.length cs, escape digit c = .ok (e c)) :
    ∃ buf' t', escapeLoop digit t.length cs buf2 = .ok (buf', (t'.length : Nat)) ∧ t' <+: buf' ∧
      t' = t ++ (reached t.length cs).flatMap e ∧ buf'.length = bufSize ∧
      t'.length < bufSize - 2 := by
  induction cs generalizing t buf2 with
  | nil => exact ⟨buf2, t, rfl, hpre, by simp [reached], hbuf2, hroom⟩
  | cons c cs ih =>
    rw [escapeLoop]
    by_cases hlt : t.length < bufSize - 6
    · rw [reached, if_pos hlt] at he ⊢
      have hc := he c (by simp)
      have hwidth := length_of_escape hc
      have hle := width_le c
      obtain ⟨buf₁, hstore, hpre₁, hlen₁⟩ :=
        Buffer.storeAll_append Fault.outOfBounds (e c) hpre (by omega)
      have hlength : (t ++ e c).length = t.length + width c := by
        rw [List.length_append, hwidth]
      obtain ⟨buf', t', hloop, hpre', ht', hlen', hroom'⟩ := ih hpre₁ (hlen₁.trans hbuf2) (by omega)
        fun d hd => he d (by rw [hlength] at hd; simp [hd])
      refine ⟨buf', t', ?_, hpre', ?_, hlen', hroom'⟩
      · rw [if_pos (by simp only [bufSize] at hlt ⊢; omega), hc, ok_bind, hstore, ok_bind, ← hloop,
          List.length_append, Nat.cast_add]
      · rw [ht', hlength, List.flatMap_cons, List.append_assoc]
    · rw [reached, if_neg hlt, if_neg (by simp only [bufSize] at hlt ⊢; omega)]
      exact ⟨buf2, t, rfl, hpre, by simp, hbuf2, hroom⟩

/-- What `logudata` makes of a line. -/
lemma logudata_eq (level : Nat) (hbuf2 : buf2.length = bufSize) {buf' : Bytes}
    (hprint : printLine stamp msg buf = .ok (buf', idx))
    (he : ∀ c ∈ reached 0 (buf'.take (min idx 4094).toNat), escape digit c = .ok (e c)) :
    logudata digit level stamp msg buf buf2 =
        .ok ⟨(reached 0 (buf'.take (min idx 4094).toNat)).flatMap e ++ [newline],
          level ≤ errLevel⟩ ∧
      ((reached 0 (buf'.take (min idx 4094).toNat)).flatMap e).length < bufSize := by
  obtain ⟨buf₁, t, hloop, hpre, ht, hlen, hroom⟩ :=
    escapeLoop_eq (List.nil_prefix (l := buf2)) hbuf2 (by decide) he
  rw [List.nil_append, List.length_nil] at ht
  subst ht
  refine ⟨?_, hroom.trans_le (Nat.sub_le _ _)⟩
  rw [logudata, hprint, ok_bind]
  show (escapeLoop digit (([] : Bytes).length : Nat) _ buf2 >>= _) = _
  rw [hloop, ok_bind]
  show (writeLine (((reached 0 _).flatMap e).length : Nat) buf₁ >>= _) = _
  rw [writeLine_append hpre (by rw [hlen]; exact hroom.trans_le (Nat.sub_le _ _)) hlen]
  rfl

/-- Whatever is found at the digits, and at the places around them. -/
lemma exists_escape (mem : Int → UInt8) (c : UInt8) :
    ∃ out, escape (fun i => .ok (mem i)) c = .ok out := by
  rw [escape]
  split_ifs <;> exact ⟨_, rfl⟩

lemma logudata_stays (mem : Int → UInt8) (hstamp : stamp.length < bufSize)
    (hbuf : buf.length = bufSize) (hbuf2 : buf2.length = bufSize) :
    Stays (logudata (fun i => .ok (mem i)) level stamp msg buf buf2) := by
  obtain ⟨buf', hprint, -, -⟩ := printLine_eq msg hstamp hbuf
  choose e he using exists_escape mem
  obtain ⟨hline, hlt⟩ := logudata_eq level hbuf2 hprint fun c _ => he c
  rw [hline]
  exact isLine_append hlt

/-! ### All four -/

/-- Nothing is stored outside the buffers of the four functions, and what they write is a line:
always in `logudata`, in `logmsg` and `logstd` as long as the length of the line is an `int`, and in
`timedwarn` if there is still room for the number of repetitions. -/
theorem lines_stay_iff (level : Nat) (stamp msg error buf buf2 : Bytes) (tt : WarnTimes)
    (tm timeout : Int) (mem : Int → UInt8) (hstamp : stamp.length < bufSize)
    (hbuf : buf.length = bufSize) (hbuf2 : buf2.length = bufSize) :
    (Stays (logmsg level stamp msg buf) ↔ Counted stamp msg) ∧
    (Stays (logstd level stamp msg error buf) ↔ Counted stamp msg) ∧
    (Ends (fun _ => False) (fun r => ∀ line ∈ r.1, IsLine line)
      (timedwarn tt tm timeout stamp msg buf) ↔ WarnFits tt tm timeout stamp msg) ∧
    Stays (logudata (fun i => .ok (mem i)) level stamp msg buf buf2) :=
  ⟨logmsg_stays_iff hstamp hbuf, logstd_stays_iff hstamp hbuf, timedwarn_stays_iff hstamp hbuf,
    logudata_stays mem hstamp hbuf hbuf2⟩

theorem lines_stay_greeting :
    (Stays (logmsg 4 (str "now: ") (str "hello") (List.replicate bufSize 0)) ↔
      Counted (str "now: ") (str "hello")) ∧
    (Stays (logstd 4 (str "now: ") (str "hello") (str "error") (List.replicate bufSize 0)) ↔
      Counted (str "now: ") (str "hello")) ∧
    (Ends (fun _ => False) (fun r => ∀ line ∈ r.1, IsLine line)
      (timedwarn ⟨0, 900, 6⟩ 1000 300 (str "now: ") (str "hello") (List.replicate bufSize 0)) ↔
        WarnFits ⟨0, 900, 6⟩ 1000 300 (str "now: ") (str "hello")) ∧
    Stays (logudata (fun i => .ok ((fun _ => 48) i)) 4 (str "now: ") (str "hello")
      (List.replicate bufSize 0) (List.replicate bufSize 0)) :=
  lines_stay_iff 4 (str "now: ") (str "hello") (str "error") (List.replicate bufSize 0)
    (List.replicate bufSize 0) ⟨0, 900, 6⟩ 1000 300 (fun _ => 48) (by decide) List.length_replicate
    List.length_replicate

/-- A warning with a long message, seven times in a row: the newline goes behind the buffer. -/
theorem repeated_leaves_buffer : ¬ Ends (fun _ => False) (fun r => ∀ line ∈ r.1, IsLine line)
    (timedwarn ⟨0, 900, 6⟩ 1000 300 (str "now: ") (List.replicate 5000 97)
      (List.replicate bufSize 0)) := by
  rw [timedwarn_stays_iff (by decide) List.length_replicate]
  intro hfits
  have hroom := (hfits (by norm_num)).2
  have hadded : added (WarnTimes.counted ⟨0, 900, 6⟩) 1000 300 = 19 := by decide
  have hcount : count (str "now: ") (List.replicate 5000 97) = 5005 := by
    rw [count, List.length_replicate, if_pos (by norm_num)]
    rfl
  rw [hadded, hcount, bufSize] at hroom
  omega

end Zerogw.Logging
