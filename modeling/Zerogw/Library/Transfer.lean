import Mathlib.Data.List.Range
import Mathlib.Logic.Relation
import Mathlib.Order.Lattice
import Zerogw.Library.Log

/-!
# Transfer of a log by offers and acknowledgements

A sender offers the first entry of its log that has not been acknowledged, as often as it likes. A
receiver takes an offer unless it is the one it took last, and acknowledges what it took last.
Offers and acknowledgements may come late, in any order, or not at all, and acknowledgements also
more than once. No entry is skipped; and if offers are not overtaken by others, each is taken once,
in order.
-/

/-- The log of the sender, the offers on the way, the oldest first, all acknowledgements that have
been sent, and what the receiver has taken, by number. -/
structure Transfer (α : Type*) where
  log : Log α
  offers : List Nat
  acks : List Nat
  taken : List Nat

namespace Transfer

variable {α : Type*} {T T' : Transfer α} {k n : Nat} {as : List α} {pre post l : List Nat}
  {ordered : Prop}

def empty : Transfer α := ⟨.empty, [], [], []⟩

/-- What the receiver took last. -/
def last (T : Transfer α) : Nat := T.taken.getLast?.getD 0

/-- The receiver gets an offer. -/
def received (k : Nat) (T : Transfer α) : List Nat := if k = T.last then T.taken else T.taken ++ [k]

/-- What can happen. If the offers are ordered, the oldest one is received first. -/
inductive Step (ordered : Prop) (T : Transfer α) : Transfer α → Prop
  | append (as : List α) : Step ordered T { T with log := T.log.append as }
  | ack {k : Nat} (h : k ∈ T.acks) : Step ordered T { T with log := T.log.ack k }
  | offer (h : T.log.acked < T.log.entries.length) :
      Step ordered T { T with offers := T.offers ++ [T.log.acked + 1] }
  | send : Step ordered T { T with acks := T.last :: T.acks }
  | lose {pre post : List Nat} {k : Nat} (h : T.offers = pre ++ k :: post) :
      Step ordered T { T with offers := pre ++ post }
  | receive {pre post : List Nat} {k : Nat} (h : T.offers = pre ++ k :: post)
      (hfirst : ordered → pre = []) :
      Step ordered T { T with offers := pre ++ post, taken := T.received k }

/-- Any number of steps. -/
abbrev Steps (ordered : Prop) : Transfer α → Transfer α → Prop :=
  Relation.ReflTransGen (Step ordered)

/-- The same entry may be offered several times. -/
lemma Steps.offers (l : List Nat)
    (hl : ∀ k ∈ l, k = T.log.acked + 1 ∧ T.log.acked < T.log.entries.length) :
    Steps ordered T { T with offers := T.offers ++ l } := by
  induction l using List.reverseRecOn with
  | nil =>
    rw [List.append_nil]
  | append_singleton l k ih =>
    obtain ⟨rfl, hlt⟩ := hl k (by simp)
    rw [← List.append_assoc]
    exact (ih fun n hn => hl n (List.mem_append_left _ hn)).tail (.offer hlt)

/-! ### Nothing is skipped -/

/-- Every number comes after the one below it. -/
def Gapless (l : List Nat) : Prop :=
  ∀ pre k post, l = pre ++ k :: post → k ≠ 0 ∧ (k = 1 ∨ k - 1 ∈ pre)

lemma gapless_nil : Gapless [] := fun pre k post h => by
  cases pre <;> cases h

lemma Gapless.concat (hl : Gapless l) (hk : k ≠ 0) (hpred : k = 1 ∨ k - 1 ∈ l) :
    Gapless (l ++ [k]) := by
  intro pre n post h
  rcases List.eq_nil_or_concat post with rfl | ⟨post, m, rfl⟩
  · obtain ⟨rfl, hn⟩ := List.append_inj' h rfl
    cases hn
    exact ⟨hk, hpred⟩
  · rw [List.concat_eq_append, ← List.cons_append, ← List.append_assoc] at h
    obtain ⟨rfl, -⟩ := List.append_inj' h rfl
    exact hl pre n post rfl

/-- What is acknowledged has been taken, and what is offered comes next. -/
structure Sound (T : Transfer α) : Prop where
  acked : T.log.acked = 0 ∨ T.log.acked ∈ T.taken
  acks : ∀ k ∈ T.acks, k = 0 ∨ k ∈ T.taken
  offers : ∀ k ∈ T.offers, k ≠ 0 ∧ k ≤ T.log.entries.length ∧ (k = 1 ∨ k - 1 ∈ T.taken)
  taken : ∀ k ∈ T.taken, k ≤ T.log.entries.length
  gapless : Gapless T.taken

lemma Sound.empty : (empty : Transfer α).Sound :=
  ⟨Or.inl rfl, nofun, nofun, nofun, gapless_nil⟩

lemma mem_received_of_mem (hn : n ∈ T.taken) (k : Nat) : n ∈ T.received k := by
  rw [received]
  split_ifs
  · exact hn
  · exact List.mem_append_left _ hn

lemma mem_of_mem_received (hn : n ∈ T.received k) : n ∈ T.taken ∨ n = k := by
  rw [received] at hn
  split_ifs at hn
  · exact Or.inl hn
  · exact (List.mem_append.mp hn).imp_right List.mem_singleton.mp

lemma last_cases (T : Transfer α) : T.last = 0 ∨ T.last ∈ T.taken := by
  rw [last]
  cases h : T.taken.getLast? with
  | none => exact Or.inl rfl
  | some k => exact Or.inr (List.mem_of_getLast? h)

/-- What is left of the offers. -/
lemma mem_of_removed (h : T.offers = pre ++ k :: post) (hn : n ∈ pre ++ post) : n ∈ T.offers := by
  rw [h]
  exact (List.Sublist.append_left (List.sublist_cons_self _ _) _).mem hn

theorem Step.sound (hT : T.Sound) (h : Step ordered T T') : T'.Sound := by
  cases h with
  | append as =>
    have hle : T.log.entries.length ≤ (T.log.append as).entries.length := by
      rw [Log.entries_append, List.length_append]
      exact Nat.le_add_right _ _
    exact ⟨hT.acked, hT.acks, fun k hk => ⟨(hT.offers k hk).1, (hT.offers k hk).2.1.trans hle,
      (hT.offers k hk).2.2⟩, fun k hk => (hT.taken k hk).trans hle, hT.gapless⟩
  | @ack k hk =>
    refine ⟨?_, hT.acks, hT.offers, hT.taken, hT.gapless⟩
    dsimp only [Log.ack]
    split_ifs
    · rcases le_total T.log.acked k with hle | hle
      · rw [max_eq_right hle]
        exact hT.acks k hk
      · rw [max_eq_left hle]
        exact hT.acked
    · exact hT.acked
  | offer hlt =>
    refine ⟨hT.acked, hT.acks, fun k hk => ?_, hT.taken, hT.gapless⟩
    rcases List.mem_append.mp hk with hk | hk
    · exact hT.offers k hk
    · obtain rfl := List.mem_singleton.mp hk
      exact ⟨Nat.succ_ne_zero _, hlt, hT.acked.imp_left (congrArg Nat.succ)⟩
  | send =>
    refine ⟨hT.acked, fun k hk => ?_, hT.offers, hT.taken, hT.gapless⟩
    rcases List.mem_cons.mp hk with rfl | hk
    · exact T.last_cases
    · exact hT.acks k hk
  | lose h =>
    exact ⟨hT.acked, hT.acks, fun k hk => hT.offers k (mem_of_removed h hk), hT.taken, hT.gapless⟩
  | @receive pre post k h hfirst =>
    obtain ⟨hk, hle, hpred⟩ := hT.offers k (h ▸ by simp)
    refine ⟨hT.acked.imp_right fun hn => mem_received_of_mem hn k,
      fun n hn => (hT.acks n hn).imp_right fun hn => mem_received_of_mem hn k, fun n hn => ?_,
      fun n hn => ?_, ?_⟩
    · obtain ⟨hn, hle, hpred⟩ := hT.offers n (mem_of_removed h hn)
      exact ⟨hn, hle, hpred.imp_right fun hn => mem_received_of_mem hn k⟩
    · rcases mem_of_mem_received hn with hn | rfl
      · exact hT.taken n hn
      · exact hle
    · dsimp only
      rw [received]
      split_ifs
      · exact hT.gapless
      · exact hT.gapless.concat hk hpred

lemma Steps.sound (hT : T.Sound) (h : Steps ordered T T') : T'.Sound := by
  induction h with
  | refl => exact hT
  | tail _ hstep ih => exact hstep.sound ih

/-! ### In order -/

/-- What has been taken are the first numbers, and the offers on the way are that of the last of
them and that of the next one. -/
structure InOrder (T : Transfer α) : Prop where
  taken : T.taken = List.range' 1 T.taken.length
  acked : T.log.acked ≤ T.taken.length
  last : T.taken.length ≤ T.log.acked + 1
  acks : ∀ k ∈ T.acks, k ≤ T.taken.length
  offers : ∀ k ∈ T.offers, k ≠ 0 ∧ T.taken.length ≤ k ∧ k ≤ T.log.acked + 1
  sorted : T.offers.Pairwise (· ≤ ·)

lemma InOrder.empty : (empty : Transfer α).InOrder :=
  ⟨rfl, le_rfl, Nat.zero_le _, nofun, nofun, List.Pairwise.nil⟩

lemma InOrder.last_eq (hT : T.InOrder) : T.last = T.taken.length := by
  rw [Transfer.last, hT.taken, List.getLast?_range', List.length_range']
  split_ifs with h
  · rw [h]
    rfl
  · exact Nat.add_sub_cancel_left 1 _

theorem Step.inOrder (hT : T.InOrder) (h : Step True T T') : T'.InOrder := by
  cases h with
  | append as => exact ⟨hT.taken, hT.acked, hT.last, hT.acks, hT.offers, hT.sorted⟩
  | @ack k hk =>
    have hle : T.log.acked ≤ (T.log.ack k).acked := by
      dsimp only [Log.ack]
      split_ifs
      · exact le_max_left _ _
      · exact le_rfl
    refine ⟨hT.taken, ?_, hT.last.trans (Nat.succ_le_succ hle), hT.acks, fun n hn => ?_, hT.sorted⟩
    · dsimp only [Log.ack]
      split_ifs
      · exact max_le hT.acked (hT.acks k hk)
      · exact hT.acked
    · obtain ⟨hn, hlow, hhigh⟩ := hT.offers n hn
      exact ⟨hn, hlow, hhigh.trans (Nat.succ_le_succ hle)⟩
  | offer hlt =>
    refine ⟨hT.taken, hT.acked, hT.last, hT.acks, fun n hn => ?_, ?_⟩
    · rcases List.mem_append.mp hn with hn | hn
      · exact hT.offers n hn
      · obtain rfl := List.mem_singleton.mp hn
        exact ⟨Nat.succ_ne_zero _, hT.last, le_rfl⟩
    · refine List.pairwise_append.mpr ⟨hT.sorted, List.pairwise_singleton _ _, fun n hn m hm => ?_⟩
      obtain rfl := List.mem_singleton.mp hm
      exact (hT.offers n hn).2.2
  | send =>
    refine ⟨hT.taken, hT.acked, hT.last, fun n hn => ?_, hT.offers, hT.sorted⟩
    rcases List.mem_cons.mp hn with rfl | hn
    · exact hT.last_eq.le
    · exact hT.acks n hn
  | lose h =>
    refine ⟨hT.taken, hT.acked, hT.last, hT.acks, fun n hn => hT.offers n (mem_of_removed h hn), ?_⟩
    have hsorted := hT.sorted
    rw [h] at hsorted
    exact hsorted.sublist (List.Sublist.append_left (List.sublist_cons_self _ _) _)
  | @receive pre post k h hfirst =>
    obtain rfl := hfirst trivial
    obtain ⟨hk, hlow, hhigh⟩ := hT.offers k (h ▸ List.mem_cons_self)
    have hsorted := hT.sorted
    rw [h, List.nil_append, List.pairwise_cons] at hsorted
    have hrest : ∀ n ∈ post, n ∈ T.offers := fun n hn => h ▸ List.mem_cons_of_mem _ hn
    by_cases hlast : k = T.last
    · have htaken : T.received k = T.taken := if_pos hlast
      rw [htaken]
      exact ⟨hT.taken, hT.acked, hT.last, hT.acks, fun n hn => hT.offers n (hrest n hn), hsorted.2⟩
    · have htaken : T.received k = T.taken ++ [k] := if_neg hlast
      rw [hT.last_eq] at hlast
      -- the oldest offer is that of the next entry
      obtain rfl : k = T.taken.length + 1 := by
        have := hT.acked
        omega
      have hlen : (T.taken ++ [T.taken.length + 1]).length = T.taken.length + 1 :=
        List.length_append
      rw [htaken]
      refine ⟨?_, ?_, ?_, fun n hn => ?_, fun n hn => ?_, hsorted.2⟩
      · dsimp only
        rw [hlen, List.range'_1_concat, ← hT.taken, Nat.add_comm]
      · dsimp only
        rw [hlen]
        exact Nat.le_succ_of_le hT.acked
      · dsimp only
        rw [hlen]
        exact hhigh
      · dsimp only
        rw [hlen]
        exact Nat.le_succ_of_le (hT.acks n hn)
      · dsimp only
        rw [hlen]
        exact ⟨(hT.offers n (hrest n hn)).1, hsorted.1 n hn, (hT.offers n (hrest n hn)).2.2⟩

lemma Steps.inOrder (hT : T.InOrder) (h : Steps True T T') : T'.InOrder := by
  induction h with
  | refl => exact hT
  | tail _ hstep ih => exact hstep.inOrder ih

end Transfer
