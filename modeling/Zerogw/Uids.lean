import Zerogw.Library.Execution
import Zerogw.Sieve

/-!
# The ids of the objects in a sieve

`make_hole_uid` (`uidgen.c`) puts an object into a sieve and writes an id into it, which consists of
the instance id, the slot, the number of the allocation, and random bytes. Whoever has seen an id
may come back with it at any time; in runs of `make_hole_uid` and `sieve_empty`, it leads to its
object as long as that stays in its slot, and to nothing afterwards.
-/

namespace Zerogw

open Execution

variable {α : Type*}

namespace Sieve

/-- `make_hole_uid`; the random bytes are zero unless the id is a secret. -/
def makeHoleUid (iid random : Bytes) (item : α) (s : Sieve α) : Option (Bytes × Sieve α) :=
  (s.findHole item).map fun (index, hole, s') => (mkUid iid hole index random, s')

/-- `sieve_get` with the slot of an id, and `UID_EQ` with the id of the object found there. -/
def find (uid : α → Bytes) (data : Bytes) (s : Sieve α) : Except Fault (Option α) :=
  match s.get (uidHole data) with
  | .error f => .error f
  | .ok none => .ok none
  | .ok (some a) => .ok (if uid a = data then some a else none)

end Sieve

/-! ### The allocation number -/

/-- The allocation number in an id. -/
def uidIndex (data : Bytes) : Nat := ofLe ((data.drop (iidLen + 8)).take 8)

lemma uidIndex_mkUid {iid : Bytes} {index : Nat} (hole : Nat) (random : Bytes)
    (hiid : iid.length = iidLen) (hindex : index < 2 ^ 64) :
    uidIndex (mkUid iid hole index random) = index := by
  have hdrop : (mkUid iid hole index random).drop (iidLen + 8) = le64 index ++ random := by
    rw [mkUid, List.append_assoc, List.drop_append_of_le_length (by simp [hiid]),
      List.drop_of_length_le (by simp [hiid]), List.nil_append]
  rw [uidIndex, hdrop, List.take_append_of_le_length (by simp), List.take_of_length_le (by simp),
    ofLe_le64 hindex]

/-! ### Runs -/

/-- What has happened in a sieve: an id was written into an object, or a slot was emptied. -/
inductive Entry (α : Type*) where
  | issued (uid : Bytes) (a : α)
  | emptied (hole : Nat)

/-- A sieve, the ids in its objects, and its history. -/
structure Registry (α : Type*) where
  sieve : Sieve α
  uid : α → Bytes
  log : List (Entry α)

namespace Registry

inductive Op (α : Type*) where
  | make (a : α) (random : Bytes)
  | empty (hole : Nat)

def init (size : Nat) : Registry α := ⟨.prepare size, fun _ => [], []⟩

/-- `make_hole_uid`, which says whether there was a slot. A call that fails has already written the
instance id. -/
def make [DecidableEq α] (iid random : Bytes) (a : α) (R : Registry α) : Bool × Registry α :=
  match R.sieve.makeHoleUid iid random a with
  | none => (false, { R with uid := Function.update R.uid a (iid ++ (R.uid a).drop iidLen) })
  | some (uid, sieve) =>
    (true, ⟨sieve, Function.update R.uid a uid, R.log ++ [.issued uid a]⟩)

/-- `sieve_empty` -/
def empty (hole : Nat) (R : Registry α) : Except Fault (Registry α) :=
  match R.sieve.clear hole with
  | .error f => .error f
  | .ok sieve => .ok { R with sieve := sieve, log := R.log ++ [.emptied hole] }

/-- One call of `make_hole_uid` or `sieve_empty`. -/
def step [DecidableEq α] (iid : Bytes) (op : Op α) (R : Registry α) : Except Fault (Registry α) :=
  match op with
  | .make a random => .ok (R.make iid random a).2
  | .empty hole => R.empty hole

/-- The callers of `make_hole_uid` pass an object that is not in the sieve. -/
def Outside (op : Op α) (R : Registry α) : Prop :=
  match op with
  | .make a _ => ∀ k, ¬ R.sieve.Holds k a
  | .empty _ => True

/-- The ids issued so far, with their objects. -/
def issued (R : Registry α) : List (Bytes × α) :=
  R.log.filterMap fun
    | .issued uid a => some (uid, a)
    | .emptied _ => none

/-- The object has got the id, and its slot has not been emptied since. -/
def Stays (uid : Bytes) (a : α) (log : List (Entry α)) : Prop :=
  ∃ before after, log = before ++ .issued uid a :: after ∧ .emptied (uidHole uid) ∉ after

/-! ### The invariant -/

variable {iid random : Bytes} {size : Nat} {R R' : Registry α} {a b : α} {uid : Bytes}
  {op : Op α} {log : List (Entry α)} {e : Entry α}

/-- The counters are right, ids carry their slot and their number, and an object is in the slot that
its id names as long as it stays there. -/
structure Sound (size : Nat) (R : Registry α) : Prop where
  max : R.sieve.max = size
  filled : R.sieve.filled = R.sieve.occupied
  offset : R.sieve.offset ≤ R.sieve.max
  index : R.sieve.index = R.issued.length % 2 ^ 64
  indices : R.issued.length ≤ 2 ^ 64 →
    R.issued.map (fun x => uidIndex x.1) = List.range R.issued.length
  holes : ∀ uid a, (uid, a) ∈ R.issued → uidHole uid < size
  stays : ∀ uid a, Stays uid a R.log → R.sieve.Holds (uidHole uid) a ∧ R.uid a = uid
  named : ∀ k a, R.sieve.Holds k a → uidHole (R.uid a) = k ∧ Stays (R.uid a) a R.log

lemma Sound.init : Sound size (init size : Registry α) := by
  refine ⟨by simp [Registry.init, Sieve.prepare, Sieve.max], ?_, Nat.zero_le _, rfl, fun _ => rfl,
    fun uid a h => by simp [issued, Registry.init] at h, ?_, ?_⟩
  · simp [Registry.init, Sieve.prepare, Sieve.occupied, List.countP_replicate]
  · rintro uid a ⟨before, after, hlog, -⟩
    simp [Registry.init] at hlog
  · intro k a hk
    simp [Registry.init, Sieve.prepare, Sieve.Holds, List.getElem?_replicate] at hk

/-! ### History -/

lemma mem_issued_of_stays (h : Stays uid a R.log) : (uid, a) ∈ R.issued := by
  obtain ⟨before, after, hlog, -⟩ := h
  refine List.mem_filterMap.mpr ⟨.issued uid a, ?_, rfl⟩
  simp [hlog]

lemma stays_concat : Stays uid a (log ++ [e]) ↔
    e = .issued uid a ∨ Stays uid a log ∧ e ≠ .emptied (uidHole uid) := by
  constructor
  · rintro ⟨before, after, hlog, hafter⟩
    rcases List.eq_nil_or_concat after with rfl | ⟨after, e', rfl⟩
    · exact Or.inl (List.append_inj_right' hlog rfl |> List.cons.inj |>.1)
    · rw [List.concat_eq_append] at hlog hafter
      rw [← List.cons_append, ← List.append_assoc] at hlog
      obtain ⟨rfl, he⟩ := List.append_inj' hlog rfl
      obtain rfl := (List.cons.inj he).1
      simp only [List.mem_append, List.mem_singleton, not_or] at hafter
      exact Or.inr ⟨⟨before, after, rfl, hafter.1⟩, Ne.symm hafter.2⟩
  · rintro (rfl | ⟨⟨before, after, rfl, hafter⟩, he⟩)
    · exact ⟨log, [], rfl, by simp⟩
    · exact ⟨before, after ++ [e], by simp, by simp [hafter, Ne.symm he]⟩

/-! ### Steps -/

/-- What `make_hole_uid` does when it finds a slot. -/
lemma makeHoleUid_eq_some {s s' : Sieve α} (h : s.makeHoleUid iid random a = some (uid, s')) :
    ∃ hole, s.findHole a = some (s.index, hole, s') ∧ uid = mkUid iid hole s.index random ∧
      s' = { index := (s.index + 1) % 2 ^ 64, offset := hole + 1, filled := s.filled + 1,
             items := s.items.set hole (some a) } := by
  obtain ⟨⟨index, hole, s₁⟩, hfind, heq⟩ := Option.map_eq_some_iff.mp h
  cases heq
  have hfind' := hfind
  rw [Sieve.findHole] at hfind'
  split at hfind'
  · cases hfind'
  · cases hfind'
    exact ⟨hole, hfind, rfl, rfl⟩

/-- A slot is emptied. -/
lemma Sound.clear {sieve : Sieve α} {hole : Nat} (hR : Sound size R)
    (h : R.sieve.clear hole = .ok sieve) :
    Sound size { R with sieve := sieve, log := R.log ++ [.emptied hole] } := by
  obtain ⟨a, ha, hsieve⟩ := Sieve.clear_eq_ok h
  obtain ⟨_, hclear, hmax, hholds⟩ := Sieve.clear_of_holds ha
  cases hclear.symm.trans h
  have hissued : issued { R with sieve := sieve, log := R.log ++ [.emptied hole] } = R.issued := by
    simp [issued]
  constructor
  · exact hmax.trans hR.max
  · have hcount := Sieve.countP_set ha none
    have hfilled := hR.filled
    simp only [Sieve.occupied, hsieve] at hfilled ⊢
    simp only [Option.isSome_none, Bool.false_eq_true, if_false, Option.isSome_some, if_true]
      at hcount
    omega
  · rw [hmax, hsieve]
    exact hR.offset
  · rw [hissued, hsieve]
    exact hR.index
  · rw [hissued]
    exact hR.indices
  · rw [hissued]
    exact hR.holes
  · intro uid b hb
    rcases stays_concat.mp hb with heq | ⟨hb, hne⟩
    · cases heq
    · obtain ⟨hk, hname⟩ := hR.stays uid b hb
      refine ⟨(hholds _ _).mpr ⟨hk, ?_⟩, hname⟩
      rintro rfl
      exact hne rfl
  · intro k b hb
    obtain ⟨hb, hne⟩ := (hholds k b).mp hb
    obtain ⟨hk, hstays⟩ := hR.named k b hb
    refine ⟨hk, stays_concat.mpr (Or.inr ⟨hstays, ?_⟩)⟩
    rw [hk]
    simpa using Ne.symm hne

variable [DecidableEq α]

/-- An object outside the sieve gets an id. -/
lemma Sound.issue {sieve : Sieve α} (hR : Sound size R) (hiid : iid.length = iidLen)
    (hsize : size < 2 ^ 64) (hout : ∀ k, ¬ R.sieve.Holds k a)
    (h : R.sieve.makeHoleUid iid random a = some (uid, sieve)) :
    Sound size ⟨sieve, Function.update R.uid a uid, R.log ++ [.issued uid a]⟩ := by
  obtain ⟨hole, hfind, huid, hsieve⟩ := makeHoleUid_eq_some h
  have hempty := (Sieve.findHole_some hfind).1
  have hlt := Sieve.findHole_lt_max hfind
  have hholds := Sieve.findHole_holds hfind
  have hmax := Sieve.findHole_max hfind
  have hslot : uidHole uid = hole := by
    rw [huid, uidHole_mkUid _ _ hiid (hlt.trans (hR.max ▸ hsize))]
  have hissued : issued ⟨sieve, Function.update R.uid a uid, R.log ++ [.issued uid a]⟩
      = R.issued ++ [(uid, a)] := by
    simp [issued]
  have hne : ∀ {k b}, R.sieve.Holds k b → b ≠ a := by
    rintro k b hk rfl
    exact hout k hk
  constructor
  · exact hmax.trans hR.max
  · have hcount := Sieve.countP_set hempty (some a)
    have hfilled := hR.filled
    simp only [Sieve.occupied, hsieve] at hfilled ⊢
    simp only [Option.isSome_none, Bool.false_eq_true, if_false, Option.isSome_some, if_true]
      at hcount
    omega
  · rw [hmax, hsieve]
    exact hlt
  · rw [hissued, hsieve, List.length_append, List.length_singleton]
    simp only [hR.index]
    omega
  · intro hle
    rw [hissued, List.length_append, List.length_singleton] at hle ⊢
    have hindex : R.sieve.index = R.issued.length := by
      rw [hR.index]
      omega
    rw [List.map_append, hR.indices (by omega), List.map_singleton, List.range_succ, huid,
      uidIndex_mkUid _ _ hiid (by omega), hindex]
  · intro uid' b hb
    rw [hissued, List.mem_append, List.mem_singleton] at hb
    rcases hb with hb | hb
    · exact hR.holes uid' b hb
    · cases hb
      rw [hslot, ← hR.max]
      exact hlt
  · intro uid' b hb
    rcases stays_concat.mp hb with heq | ⟨hb, -⟩
    · cases heq
      exact ⟨(hholds _ _).mpr (Or.inl ⟨hslot, rfl⟩), Function.update_self _ _ _⟩
    · obtain ⟨hk, hname⟩ := hR.stays uid' b hb
      exact ⟨(hholds _ _).mpr (Or.inr hk), (Function.update_of_ne (hne hk) _ _).trans hname⟩
  · intro k b hb
    dsimp only
    rcases (hholds k b).mp hb with ⟨rfl, rfl⟩ | hb
    · rw [Function.update_self]
      exact ⟨hslot, stays_concat.mpr (Or.inl rfl)⟩
    · obtain ⟨hk, hstays⟩ := hR.named k b hb
      rw [Function.update_of_ne (hne hb)]
      exact ⟨hk, stays_concat.mpr (Or.inr ⟨hstays, by simp⟩)⟩

lemma Sound.make (hR : Sound size R) (hiid : iid.length = iidLen) (hsize : size < 2 ^ 64)
    (hout : ∀ k, ¬ R.sieve.Holds k a) : Sound size (R.make iid random a).2 := by
  rw [Registry.make]
  split
  · refine ⟨hR.max, hR.filled, hR.offset, hR.index, hR.indices, hR.holes, fun uid b hb => ?_,
      fun k b hb => ?_⟩
    · obtain ⟨hk, hname⟩ := hR.stays uid b hb
      refine ⟨hk, (Function.update_of_ne ?_ _ _).trans hname⟩
      rintro rfl
      exact hout _ hk
    · dsimp only
      rw [Function.update_of_ne]
      · exact hR.named k b hb
      · rintro rfl
        exact hout _ hb
  · next uid sieve hmake => exact hR.issue hiid hsize hout hmake

omit [DecidableEq α] in
lemma Sound.empty {hole : Nat} (hR : Sound size R) (h : R.empty hole = .ok R') :
    Sound size R' := by
  rw [Registry.empty] at h
  split at h
  · cases h
  · next sieve hclear =>
    cases h
    exact hR.clear hclear

lemma Sound.step (hR : Sound size R) (hiid : iid.length = iidLen) (hsize : size < 2 ^ 64)
    (hout : Outside op R) (h : step iid op R = .ok R') : Sound size R' := by
  cases op with
  | make a random =>
    cases h
    exact hR.make hiid hsize hout
  | empty hole => exact hR.empty h

/-! ### Lookups -/

omit [DecidableEq α] in
/-- Ids are different as long as the allocation numbers are. -/
lemma Sound.nodup (hR : Sound size R) (hfew : R.issued.length < 2 ^ 64) :
    (R.issued.map Prod.fst).Nodup := by
  have hindices := hR.indices hfew.le
  have hnodup : ((R.issued.map Prod.fst).map uidIndex).Nodup := by
    rw [List.map_map]
    exact hindices ▸ List.nodup_range
  exact hnodup.of_map

omit [DecidableEq α] in
/-- An object in the sieve with an id is the one that the id was issued for. -/
lemma Sound.owner (hR : Sound size R) (hfew : R.issued.length < 2 ^ 64)
    (hissued : (uid, a) ∈ R.issued) {k : Nat} (hk : R.sieve.Holds k b) (hname : R.uid b = uid) :
    b = a := by
  obtain ⟨-, hstays⟩ := hR.named k b hk
  rw [hname] at hstays
  have heq := List.inj_on_of_nodup_map (hR.nodup hfew) (mem_issued_of_stays hstays) hissued rfl
  exact (Prod.mk.inj heq).2

omit [DecidableEq α] in
lemma Sound.find (hR : Sound size R) (hfew : R.issued.length < 2 ^ 64)
    (hissued : (uid, a) ∈ R.issued) :
    (Stays uid a R.log → R.sieve.find R.uid uid = .ok (some a)) ∧
      (¬ Stays uid a R.log → R.sieve.find R.uid uid = .ok none) := by
  constructor
  · intro hstays
    obtain ⟨hk, hname⟩ := hR.stays uid a hstays
    simp only [Sieve.find, Sieve.get_of_holds hk, hname, if_true]
  · intro hgone
    have hlt : uidHole uid < R.sieve.max := by
      rw [hR.max]
      exact hR.holes uid a hissued
    obtain ⟨slot, hslot⟩ := Option.ne_none_iff_exists'.mp
      (mt List.getElem?_eq_none_iff.mp (Nat.not_le.mpr hlt))
    have hget : R.sieve.get (uidHole uid) = .ok slot := by
      rw [Sieve.get, if_neg (Nat.not_lt.mpr hlt.le)]
      simp only [hslot]
    rw [Sieve.find, hget]
    cases slot with
    | none => rfl
    | some b =>
      dsimp only
      rw [if_neg]
      intro hname
      obtain rfl := hR.owner hfew hissued hslot hname
      exact hgone (hname ▸ (hR.named _ b hslot).2)

omit [DecidableEq α] in
lemma Sound.makeHoleUid_isSome (hR : Sound size R) (iid random : Bytes) (a : α) :
    (R.sieve.makeHoleUid iid random a).isSome ↔ R.sieve.filled < R.sieve.max := by
  rw [Sieve.makeHoleUid, Option.isSome_map, Option.isSome_iff_ne_none, Ne,
    Sieve.findHole_eq_none, hR.filled, Sieve.occupied_lt_max]
  simp

/-! ### What a call changes -/

lemma make_uid_of_ne (h : b ≠ a) : (R.make iid random a).2.uid b = R.uid b := by
  rw [make]
  split
  · exact Function.update_of_ne h _ _
  · exact Function.update_of_ne h _ _

/-- A call that finds a slot puts the object there. -/
lemma make_holds (h : (R.make iid random a).1 = true) : ∃ hole, ∀ k b,
    (R.make iid random a).2.sieve.Holds k b ↔ k = hole ∧ b = a ∨ R.sieve.Holds k b := by
  rw [make] at h ⊢
  cases hmake : R.sieve.makeHoleUid iid random a with
  | none =>
    rw [hmake] at h
    cases h
  | some found =>
    obtain ⟨hole, hfind, -, -⟩ := makeHoleUid_eq_some hmake
    exact ⟨hole, Sieve.findHole_holds hfind⟩

/-- The ids that are issued have the length of their parts. -/
lemma mem_issued_make (h : (uid, b) ∈ (R.make iid random a).2.issued) :
    (uid, b) ∈ R.issued ∨ uid.length = iid.length + 16 + random.length := by
  rw [make] at h
  cases hmake : R.sieve.makeHoleUid iid random a with
  | none =>
    rw [hmake] at h
    exact Or.inl h
  | some found =>
    obtain ⟨hole, -, huid, -⟩ := makeHoleUid_eq_some hmake
    rw [hmake] at h
    simp only [issued, List.filterMap_append, List.mem_append] at h
    rcases h with h | h
    · exact Or.inl h
    · right
      simp only [List.filterMap_cons, List.filterMap_nil, List.mem_singleton, Prod.mk.injEq] at h
      rw [h.1, huid, mkUid]
      simp only [List.length_append, length_le64]

lemma Sound.make_fst (hR : Sound size R) :
    (R.make iid random a).1 = true ↔ R.sieve.filled < R.sieve.max := by
  rw [← hR.makeHoleUid_isSome iid random a, Registry.make]
  cases R.sieve.makeHoleUid iid random a <;> simp

omit [DecidableEq α] in
/-- An occupied slot is emptied, and nothing else changes. -/
lemma empty_of_holds {hole : Nat} (h : R.sieve.Holds hole a) : ∃ R', R.empty hole = .ok R' ∧
    R'.uid = R.uid ∧ R'.issued = R.issued ∧ R'.sieve.filled = R.sieve.filled - 1 ∧
    ∀ k b, R'.sieve.Holds k b ↔ R.sieve.Holds k b ∧ k ≠ hole := by
  obtain ⟨sieve, hclear, -, hholds⟩ := Sieve.clear_of_holds h
  obtain ⟨-, -, rfl⟩ := Sieve.clear_eq_ok hclear
  refine ⟨{ R with sieve := _, log := R.log ++ [.emptied hole] }, by rw [empty, hclear], rfl, ?_,
    rfl,
    hholds⟩
  simp [issued]

omit [DecidableEq α] in
lemma Sound.filled_pos (hR : Sound size R) {hole : Nat} (h : R.sieve.Holds hole a) :
    0 < R.sieve.filled := by
  rw [hR.filled, Sieve.occupied, List.countP_pos_iff]
  exact ⟨some a, List.mem_of_getElem? h, rfl⟩

/-- In every run with fewer than 2^64 allocations: all ids are different; the counter of occupied
slots is right and the offset in range; `make_hole_uid` succeeds exactly if the sieve is not full,
and then fills one slot that was empty, while a failure leaves the sieve as it is; and an id leads
to its object as long as that stays in its slot, and to nothing afterwards. -/
theorem ids_unique (hiid : iid.length = iidLen) (hsize : size < 2 ^ 64)
    (hr : ReachableVia (step iid) Outside (init size) R) (hfew : R.issued.length < 2 ^ 64) :
    (R.issued.map Prod.fst).Nodup ∧
    R.sieve.filled = R.sieve.occupied ∧ R.sieve.offset ≤ R.sieve.max ∧
    (∀ a random,
      ((R.sieve.makeHoleUid iid random a).isSome ↔ R.sieve.filled < R.sieve.max) ∧
      (R.sieve.full = false ↔ R.sieve.filled < R.sieve.max) ∧
      (∀ uid sieve, R.sieve.makeHoleUid iid random a = some (uid, sieve) → ∃ hole : Nat,
        R.sieve.items[hole]? = some none ∧ sieve.items = R.sieve.items.set hole (some a)) ∧
      ∀ R', R.sieve.makeHoleUid iid random a = none → step iid (.make a random) R = .ok R' →
        R'.sieve = R.sieve) ∧
    ∀ uid a, (uid, a) ∈ R.issued →
      (Stays uid a R.log → R.sieve.find R.uid uid = .ok (some a)) ∧
      (¬ Stays uid a R.log → R.sieve.find R.uid uid = .ok none) := by
  have hR : Sound size R := hr.invariant .init fun _ _ _ hout hs hstep =>
    hs.step hiid hsize hout hstep
  refine ⟨hR.nodup hfew, hR.filled, hR.offset,
    fun a random => ⟨hR.makeHoleUid_isSome iid random a, ?_, ?_, ?_⟩, fun uid a => hR.find hfew⟩
  · simp [Sieve.full]
  · intro uid sieve hmake
    obtain ⟨hole, hfind, -, -⟩ := makeHoleUid_eq_some hmake
    exact ⟨hole, Sieve.findHole_some hfind⟩
  · intro R' hnone hstep
    rw [step, make, hnone] at hstep
    cases hstep
    rfl

/-- An object is put into a sieve with one slot and taken out again, and its id leads nowhere. -/
theorem ids_unique_emptied : ∃ R : Registry Nat, ∃ uid, (uid, 7) ∈ R.issued ∧
    R.sieve.find R.uid uid = .ok none := by
  have hout : Outside (.make 7 (List.replicate 8 0)) (init 1 : Registry Nat) := by
    rintro (_ | k) hk <;> cases hk
  have hempty : ∀ R : Registry Nat, Outside (.empty 0) R := fun _ => trivial
  have hr : ReachableVia (step (List.replicate 16 0)) Outside (init 1 : Registry Nat) _ :=
    .step (.step .init hout rfl) (hempty _) rfl
  obtain ⟨-, -, -, -, hfind⟩ := ids_unique rfl (by norm_num) hr (by decide)
  refine ⟨_, List.replicate 40 0, by decide, (hfind _ 7 (by decide)).2 fun hstays => ?_⟩
  rcases stays_concat.mp hstays with h | h
  · simp at h
  · exact h.2 rfl

end Registry

end Zerogw
