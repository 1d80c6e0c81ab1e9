import Zerogw.Sieve
import Zerogw.Library.Execution

/-!
# The memory of the sieve

`sieve_prepare` computes the size of the block in a 32 bit `int`, and everything that uses the slots
afterwards relies on `max` alone. Here the slots are words of a block of known size, and an access
outside the block is a fault.
-/

namespace Zerogw

open Execution

variable {α : Type}

/-- A `sieve_t` in a block of `size` bytes. The words behind the header are slots, however many of
them the block has. -/
structure SieveBlock (α : Type) where
  size : Nat
  index : Nat
  max : Nat
  offset : Nat
  filled : Nat
  items : Nat → Option α

/-- How `sieve_prepare` ends: `logmsg` aborts the server, memory is used that is not there, or the
sieve is ready. -/
inductive Prepared (α : Type) where
  | aborted
  | faulty (f : Fault)
  | ready (b : SieveBlock α)

namespace SieveBlock

/-- `sizeof(sieve_t)` -/
def header : Nat := 32
/-- `sizeof(void*)` -/
def word : Nat := 8

/-- `ssize` in `sieve_prepare`: the sum is of type `size_t`, the variable is an `int`. -/
def ssize (size : Int) : Int := toInt (toSize (header + word * toSize size))

/-- `sieve_prepare`. `malloc` tells which sizes it has memory for, and `loglevel` is the configured
level: `ANIMPL2` checks nothing below `LOG_ALERT`. -/
def prepare (malloc : Nat → Bool) (loglevel : Nat) (size : Int) : Prepared α :=
  let bytes := toSize (ssize size)
  if malloc bytes then
    -- `bzero` stays inside the block; `max` is the second word of the header
    if 2 * word ≤ bytes then .ready ⟨bytes, 0, toSize size, 0, 0, fun _ => none⟩
    else .faulty .outOfBounds
  else if 1 ≤ loglevel then .aborted
  else .faulty .nullPointer

/-- Slot `k` lies inside the block. -/
def Inside (b : SieveBlock α) (k : Nat) : Prop := header + word * k + word ≤ b.size

instance (b : SieveBlock α) (k : Nat) : Decidable (b.Inside k) :=
  inferInstanceAs (Decidable (_ ≤ _))

/-- The block has room for the header and for `max` slots. -/
def Covers (b : SieveBlock α) : Prop := header + word * b.max ≤ b.size

/-- `sieve->items[k]` -/
def item (b : SieveBlock α) (k : Nat) : Except Fault (Option α) :=
  if b.Inside k then .ok (b.items k) else .error .outOfBounds

/-- Assignment to `sieve->items[k]`. -/
def setItem (k : Nat) (o : Option α) (b : SieveBlock α) : Except Fault (SieveBlock α) :=
  if b.Inside k then .ok { b with items := Function.update b.items k o } else .error .outOfBounds

/-- One loop of `sieve_find_hole`, from slot `i` to the slot `hi`. -/
def firstHole (b : SieveBlock α) (i hi : Nat) : Except Fault (Option Nat) :=
  if i = hi then .ok none
  else if b.Inside i then
    match b.items i with
    | none => .ok (some i)
    | some _ => firstHole b (i + 1) hi
  else .error .outOfBounds
termination_by b.size - i
decreasing_by
  simp only [Inside, header, word] at *
  omega

/-- The empty slot found by the loops of `sieve_find_hole`: behind the slot filled last, then before
it. -/
def hole (b : SieveBlock α) : Except Fault (Option Nat) := do
  match ← b.firstHole b.offset b.max with
  | some hole => .ok (some hole)
  | none => b.firstHole 0 b.offset

/-- `sieve_find_hole` -/
def findHole (new : α) (b : SieveBlock α) : Except Fault (Option (Nat × Nat × SieveBlock α)) := do
  match ← b.hole with
  | none => .ok none
  | some hole =>
    let b' ← b.setItem hole (some new)
    .ok (some (b.index, hole,
      { b' with index := (b.index + 1) % 2 ^ 64, offset := hole + 1, filled := b.filled + 1 }))

/-- `sieve_get` -/
def get (holeid : Nat) (b : SieveBlock α) : Except Fault (Option α) :=
  if holeid > b.max then .ok none else b.item holeid

/-- `sieve_empty` -/
def clear (holeid : Nat) (b : SieveBlock α) : Except Fault (SieveBlock α) := do
  match ← b.item holeid with
  | none => .error (.assertion .sieveEmpty)
  | some _ =>
    let b' ← b.setItem holeid none
    .ok { b' with filled := b.filled - 1 }

/-- What the loops of `send_all` and `pause_websockets` find in the slots. -/
def walk (b : SieveBlock α) : Except Fault (List (Option α)) := (List.range b.max).mapM b.item

/-- What the server does with a sieve. -/
inductive Op (α : Type) where
  | findHole (new : α)
  | get (holeid : Nat)
  | clear (holeid : Nat)
  | walk

def step : Op α → SieveBlock α → Except Fault (SieveBlock α)
  | .findHole new, b => do
    match ← b.findHole new with
    | none => .ok b
    | some (_, _, b') => .ok b'
  | .get holeid, b => do
    let _ ← b.get holeid
    .ok b
  | .clear holeid, b => b.clear holeid
  | .walk, b => do
    let _ ← b.walk
    .ok b

/-- The slot that an operation names is below `max`. -/
def Op.BelowMax : Op α → SieveBlock α → Prop
  | .get holeid, b => holeid < b.max
  | .clear holeid, b => holeid < b.max
  | _, _ => True

/-- The slots of the block as an array of `max` slots. -/
def toSieve (b : SieveBlock α) : Sieve α :=
  ⟨b.index, b.offset, b.filled, (List.range b.max).map b.items⟩

/-! ### Slots inside the block -/

section slots

variable {b : SieveBlock α} {k : Nat}

lemma Covers.inside (h : b.Covers) (hk : k < b.max) : b.Inside k := by
  simp only [Covers, Inside, header, word] at *
  omega

lemma item_of_lt (h : b.Covers) (hk : k < b.max) : b.item k = .ok (b.items k) :=
  if_pos (h.inside hk)

lemma setItem_of_lt (h : b.Covers) (hk : k < b.max) (o : Option α) :
    b.setItem k o = .ok { b with items := Function.update b.items k o } :=
  if_pos (h.inside hk)

@[simp] lemma toSieve_max : b.toSieve.max = b.max := by
  simp [Sieve.max, toSieve]

lemma toSieve_getElem? (hk : k < b.max) : b.toSieve.items[k]? = some (b.items k) := by
  simp [toSieve, hk]

/-- A write into a slot is a write into the array. -/
lemma toSieve_items_set (k : Nat) (o : Option α) :
    (List.range b.max).map (Function.update b.items k o) = b.toSieve.items.set k o := by
  apply List.ext_getElem
  · simp [toSieve]
  · intro j hj _
    simp only [toSieve, List.getElem_map, List.getElem_range, List.getElem_set]
    by_cases hjk : k = j
    · subst hjk
      simp
    · rw [if_neg hjk, Function.update_of_ne (Ne.symm hjk)]

end slots

/-! ### The operations are those of the array -/

section operations

variable {b b' : SieveBlock α}

/-- The slots below `max` are in the block, and the scan starts at one of them or behind the
last. -/
structure Usable (b : SieveBlock α) : Prop where
  covers : b.Covers
  offset_le : b.offset ≤ b.max

lemma firstHole_eq (h : b.Covers) {lo hi : Nat} (hlo : lo ≤ hi) (hhi : hi ≤ b.max) :
    b.firstHole lo hi = .ok (Sieve.firstHole b.toSieve.items lo hi) := by
  induction hn : hi - lo generalizing lo with
  | zero =>
    obtain rfl : lo = hi := by omega
    rw [firstHole, if_pos rfl, Sieve.firstHole, hn]
    rfl
  | succ n ih =>
    have hlt : lo < b.max := by omega
    rw [firstHole, if_neg (by omega), if_pos (h.inside hlt), Sieve.firstHole, hn, List.range'_succ,
      List.find?_cons, toSieve_getElem? hlt]
    cases b.items lo with
    | none => rfl
    | some a =>
      have hn' : hi - (lo + 1) = n := by omega
      have hrest := ih (Nat.lt_of_sub_ne_zero (by omega)) hn'
      rw [Sieve.firstHole, hn'] at hrest
      exact hrest

lemma hole_eq (h : b.Usable) : b.hole = .ok ((Sieve.firstHole b.toSieve.items b.offset b.max).or
    (Sieve.firstHole b.toSieve.items 0 b.offset)) := by
  rw [hole, firstHole_eq h.covers h.offset_le le_rfl, ok_bind]
  cases Sieve.firstHole b.toSieve.items b.offset b.max with
  | none => exact firstHole_eq h.covers (Nat.zero_le _) h.offset_le
  | some hole => rfl

/-- `sieve_find_hole` fills a slot below `max`, or there is none. -/
lemma findHole_cases (new : α) (h : b.Usable) :
    (b.findHole new = .ok none ∧ b.toSieve.findHole new = none) ∨
    ∃ hole b', b.findHole new = .ok (some (b.index, hole, b')) ∧ b'.Usable ∧
      b'.size = b.size ∧ b'.max = b.max ∧
      b.toSieve.findHole new = some (b.index, hole, b'.toSieve) := by
  rw [findHole, hole_eq h, ok_bind, Sieve.findHole, toSieve_max]
  show _ ∨ _
  cases hhole : (Sieve.firstHole b.toSieve.items b.offset b.max).or
      (Sieve.firstHole b.toSieve.items 0 b.offset) with
  | none =>
    left
    refine ⟨rfl, ?_⟩
    simp only [toSieve] at hhole ⊢
    rw [hhole]
  | some hole =>
    right
    have hempty : b.toSieve.items[hole]? = some none := by
      rcases Option.or_eq_some_iff.mp hhole with hk | ⟨_, hk⟩
      · exact Sieve.firstHole_some hk
      · exact Sieve.firstHole_some hk
    have hlt : hole < b.max := by
      rw [← toSieve_max]
      exact (List.getElem?_eq_some_iff.mp hempty).1
    simp only [setItem_of_lt h.covers hlt, ok_bind]
    refine ⟨hole, _, rfl, ⟨h.covers, hlt⟩, rfl, rfl, ?_⟩
    simp only [toSieve] at hhole ⊢
    rw [hhole]
    simp only [toSieve_items_set, toSieve]

lemma get_eq {holeid : Nat} (h : b.Covers) (hne : holeid ≠ b.max) :
    b.get holeid = b.toSieve.get holeid := by
  rw [get, Sieve.get, toSieve_max]
  split_ifs with hmax
  · rfl
  · have hlt : holeid < b.max := by omega
    simp only [item_of_lt h hlt, toSieve_getElem? hlt]

lemma clear_eq {holeid : Nat} (h : b.Covers) (hlt : holeid < b.max) :
    (b.clear holeid).map toSieve = b.toSieve.clear holeid := by
  rw [clear, Sieve.clear, item_of_lt h hlt, ok_bind, toSieve_getElem? hlt]
  cases b.items holeid with
  | none => rfl
  | some a =>
    simp only [setItem_of_lt h hlt, ok_bind, Except.map]
    simp only [toSieve, toSieve_items_set]

lemma walk_eq (h : b.Covers) : b.walk = .ok b.toSieve.items := by
  rw [walk, toSieve]
  show _ = Except.ok ((List.range b.max).map b.items)
  have hall : ∀ k ∈ List.range b.max, b.item k = .ok (b.items k) :=
    fun k hk => item_of_lt h (List.mem_range.mp hk)
  generalize List.range b.max = slots at hall ⊢
  induction slots with
  | nil => rfl
  | cons k ks ih =>
    rw [List.mapM_cons, hall k (by simp), ok_bind, ih fun j hj => hall j (by simp [hj])]
    rfl

/-- An operation on a slot below `max` stays inside the block, and leaves a sieve of the same
size. -/
lemma step_usable {op : Op α} (h : b.Usable) (hop : op.BelowMax b) :
    Ends (· = .assertion .sieveEmpty) (fun b' => b'.Usable ∧ b'.size = b.size ∧ b'.max = b.max)
      (step op b) := by
  cases op with
  | findHole new =>
    rw [step]
    rcases findHole_cases new h with ⟨hfind, _⟩ | ⟨hole, b', hfind, husable, hsize, hmax, _⟩
    · rw [hfind]
      exact ⟨h, rfl, rfl⟩
    · rw [hfind]
      exact ⟨husable, hsize, hmax⟩
  | get holeid =>
    have hlt : holeid < b.max := hop
    rw [step, get, if_neg (by omega), item_of_lt h.covers hlt]
    exact ⟨h, rfl, rfl⟩
  | clear holeid =>
    have hlt : holeid < b.max := hop
    rw [step, clear, item_of_lt h.covers hlt, ok_bind]
    cases b.items holeid with
    | none => exact rfl
    | some a =>
      show Ends _ _ (b.setItem holeid none >>= _)
      rw [setItem_of_lt h.covers hlt]
      exact ⟨⟨h.covers, h.offset_le⟩, rfl, rfl⟩
  | walk =>
    rw [step, walk_eq h.covers]
    exact ⟨h, rfl, rfl⟩

/-- A sieve stays usable however it is used. -/
lemma usable_of_reachable (h : b.Usable) (hb' : ReachableVia step Op.BelowMax b b') :
    b'.Usable ∧ b'.size = b.size ∧ b'.max = b.max := by
  refine hb'.invariant (I := fun s => s.Usable ∧ s.size = b.size ∧ s.max = b.max) ⟨h, rfl, rfl⟩ ?_
  rintro op b₁ b₂ hop ⟨husable, hsize, hmax⟩ hstep
  have hnext := (step_usable husable hop).result hstep
  exact ⟨hnext.1, hnext.2.1.trans hsize, hnext.2.2.trans hmax⟩

end operations

/-! ### The size of the block -/

/-- The sieve that `sieve_prepare` leaves is as large as it is used: the header and all slots below
`max` are in the block, and so is every access to them in any later run. -/
def AllocatedAsUsed (b : SieveBlock α) : Prop :=
  b.Covers ∧ (∀ k < b.max, b.Inside k) ∧
    ∀ b' op, ReachableVia step Op.BelowMax b b' → op.BelowMax b' → step op b' ≠ .error .outOfBounds

/-- `sieve_prepare` stops the program or leaves a sieve that can be used. -/
def StopsOrAllocates : Prepared α → Prop
  | .aborted => True
  | .faulty _ => False
  | .ready b => b.AllocatedAsUsed

/-- What becomes of `size` slots. The size of the block is taken modulo 2^32. Where it is negative
as an `int`, no memory is found. Where it is not, and memory is found, the block is as large as
needed only if nothing was cut off. -/
def SizedRight (malloc : Nat → Bool) (loglevel size : Nat) : Prop :=
  if (size + 4) % 2 ^ 29 < 2 ^ 28 ∧ malloc (8 * ((size + 4) % 2 ^ 29)) = true then size + 4 < 2 ^ 28
  else 1 ≤ loglevel

lemma allocatedAsUsed_iff {b : SieveBlock α} (hoffset : b.offset ≤ b.max) :
    b.AllocatedAsUsed ↔ b.Covers := by
  constructor
  · exact And.left
  · intro hcovers
    refine ⟨hcovers, fun k hk => hcovers.inside hk, fun b' op hb' hop hstep => ?_⟩
    have husable := (usable_of_reachable ⟨hcovers, hoffset⟩ hb').1
    have hends := step_usable husable hop
    rw [hstep] at hends
    cases hends

lemma toSize_ssize {size : Nat} (h : size ≤ 2 ^ 30) :
    toSize (ssize size) =
      if (size + 4) % 2 ^ 29 < 2 ^ 28 then 8 * ((size + 4) % 2 ^ 29)
      else 2 ^ 64 - 2 ^ 32 + 8 * ((size + 4) % 2 ^ 29) := by
  have hsize : toSize (size : Int) = size := by
    simp only [toSize]
    omega
  have hsum : toSize ((header : Int) + (word : Int) * (size : Int)) = 32 + 8 * size := by
    simp only [toSize, header, word]
    omega
  rw [ssize, hsize, hsum, toInt, Int.bmod]
  simp only [toSize]
  split_ifs <;> omega

/-- No memory is found where the size of the block is negative as an `int`. -/
lemma malloc_ssize {malloc : Nat → Bool} {size : Nat} (h : size ≤ 2 ^ 30)
    (hmalloc : ∀ n, 2 ^ 63 ≤ n → malloc n = false) :
    malloc (toSize (ssize size)) = true ↔
      (size + 4) % 2 ^ 29 < 2 ^ 28 ∧ malloc (8 * ((size + 4) % 2 ^ 29)) = true := by
  rw [toSize_ssize h]
  split_ifs with hsmall
  · exact (and_iff_right hsmall).symm
  · rw [hmalloc _ (by omega)]
    exact iff_of_false Bool.false_ne_true fun hfound => hsmall hfound.1

/-- The array of a sieve that is ready, whatever the block holds of it. -/
theorem toSieve_of_prepare {malloc : Nat → Bool} {loglevel size : Nat} {b : SieveBlock α}
    (hsize : size < 2 ^ 64) (h : prepare malloc loglevel size = .ready b) :
    b.toSieve = Sieve.prepare size := by
  have hmax : toSize (size : Int) = size := by
    simp only [toSize]
    omega
  rw [prepare] at h
  split_ifs at h
  rw [← Prepared.ready.inj h, toSieve, Sieve.prepare, hmax, List.map_const', List.length_range]

/-- `sieve_prepare` stops the program, or the memory it obtained covers the header and all `max`
slots, exactly if the sizes and the log level are right. -/
theorem stops_or_allocates_iff (malloc : Nat → Bool) (loglevel size : Nat) (hmax : size ≤ 2 ^ 30)
    (hmalloc : ∀ n, 2 ^ 63 ≤ n → malloc n = false) :
    StopsOrAllocates (prepare malloc loglevel size : Prepared α) ↔
      SizedRight malloc loglevel size := by
  rw [prepare, SizedRight]
  by_cases hfound : malloc (toSize (ssize size)) = true
  · have hsize : toSize (size : Int) = size := by
      simp only [toSize]
      omega
    have hsmall := ((malloc_ssize hmax hmalloc).mp hfound).1
    have hbytes := toSize_ssize hmax
    rw [if_pos hsmall] at hbytes
    rw [if_pos ((malloc_ssize hmax hmalloc).mp hfound)]
    simp only [if_pos hfound]
    split_ifs with hword
    · rw [StopsOrAllocates, allocatedAsUsed_iff (Nat.zero_le _), Covers, hbytes, hsize]
      simp only [header, word]
      omega
    · rw [hbytes] at hword
      simp only [word] at hword
      exact iff_of_false id (by omega)
  · rw [if_neg (mt (malloc_ssize hmax hmalloc).mpr hfound)]
    simp only [if_neg hfound]
    split_ifs with hlevel
    · exact iff_of_true trivial hlevel
    · exact iff_of_false id hlevel

/-- A system with memory for blocks of up to four gigabytes. -/
def malloc32 (n : Nat) : Bool := n < 2 ^ 32

lemma malloc32_none (n : Nat) (h : 2 ^ 63 ≤ n) : malloc32 n = false := by
  simp only [malloc32, decide_eq_false_iff_not]
  omega

theorem stops_or_allocates_default :
    StopsOrAllocates (prepare malloc32 6 4096 : Prepared HybiId) ↔ SizedRight malloc32 6 4096 :=
  stops_or_allocates_iff malloc32 6 4096 (by norm_num) malloc32_none

/-- The product wraps around for 2^29 slots: only the header is allocated. -/
theorem allocates_header_only : (∀ n, 2 ^ 63 ≤ n → malloc32 n = false) ∧
    (prepare malloc32 6 (2 ^ 29) : Prepared HybiId)
      = .ready ⟨32, 0, 2 ^ 29, 0, 0, fun _ => none⟩ ∧
    ¬ StopsOrAllocates (prepare malloc32 6 (2 ^ 29) : Prepared HybiId) := by
  have hready : (prepare malloc32 6 (2 ^ 29) : Prepared HybiId)
      = .ready ⟨32, 0, 2 ^ 29, 0, 0, fun _ => none⟩ := rfl
  refine ⟨malloc32_none, hready, ?_⟩
  rw [hready, StopsOrAllocates, allocatedAsUsed_iff (Nat.zero_le _), Covers]
  norm_num [header, word]

end SieveBlock

end Zerogw
