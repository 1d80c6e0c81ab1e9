import Zerogw.Server.Delivery

/-!
# Broadcasts

The loop of `topic_publish` walks a list from which the sends take entries away, and the loops of
`send_all` and `pause_websockets` walk the sieve while its slots are emptied. Both are sequences of
sends, one to every recipient there was at the beginning.
-/

namespace Zerogw

open Execution

namespace Server

variable {cfg : Config} {env : Env} {s s' : Server} {h g : HybiId} {m : Bytes} {t : TopicId}
  {p : Hybi → Bool} {ks : List Nat}

/-- The same message to several connections. -/
abbrev toAll (m : Bytes) (hs : List HybiId) : List (HybiId × Bytes) := hs.map fun h => (h, m)

lemma map_fst_toAll (hs : List HybiId) : (toAll m hs).map Prod.fst = hs := by
  simp [toAll, Function.comp_def]

/-! ### Publishing -/

/-- The element behind `i` in a list. -/
lemma head?_tail_dropWhile {done rest : List SubId} {i : SubId} (hi : i ∉ done) :
    ((done ++ i :: rest).dropWhile (· ≠ i)).tail.head? = rest.head? := by
  induction done with
  | nil => simp
  | cons j done ih =>
    rw [List.mem_cons, not_or] at hi
    have hne : j ≠ i := Ne.symm hi.1
    simpa [hne] using ih hi.2

/-- A send takes at most the subscription it is sent through from the list of the topic. -/
lemma Delivered.subscribers_eq {i : SubId} {sub : Subscriber} {done rest : List SubId}
    (hs : s.Core cfg) (hd : Delivered cfg env sub.connection m s s')
    (hi : s.topics.sub.get i = some sub) (hl : s.topics.subscribers sub.topic = done ++ i :: rest) :
    ∃ done', s'.topics.subscribers sub.topic = done' ++ rest := by
  have hT := hs.topics
  rw [hd.topics_eq]
  split_ifs
  · obtain ⟨-, -, -, -, hsubs⟩ := hT.stop (h := sub.connection)
    have hmine : i ∈ s.topics.clients sub.connection := (hT.clients _ _).mpr ⟨sub, hi, rfl⟩
    have hrest : ∀ j ∈ rest, j ∉ s.topics.clients sub.connection := by
      intro j hj hjc
      obtain ⟨sub', hj', hconn⟩ := (hT.clients _ _).mp hjc
      have hjl : j ∈ s.topics.subscribers sub.topic := by simp [hl, hj]
      obtain ⟨sub'', hj'', htopic⟩ := (hT.subscribers _ _).mp hjl
      obtain rfl : sub' = sub'' := Option.some.inj (hj'.symm.trans hj'')
      obtain rfl : sub' = sub := Subscriber.ext htopic hconn
      have hij := hT.subsUnique i j sub' hi hj'
      have hnodup := hT.subscribersNodup sub'.topic
      rw [hl] at hnodup
      have := (List.nodup_cons.mp (List.nodup_append.mp hnodup).2.1).1
      exact this (hij ▸ hj)
    refine ⟨done.filter fun j => j ∉ s.topics.clients sub.connection, ?_⟩
    rw [hsubs, hl, List.filter_append, List.filter_cons, if_neg (by simpa using hmine),
      List.filter_eq_self.mpr fun j hj => decide_eq_true (hrest j hj)]
  · exact ⟨done ++ [i], by rw [hl, List.append_assoc, List.singleton_append]⟩

variable (env) in
/-- The loop of `topic_publish`: one send through each subscription that is left in the list. It
fails only if some running connection has lost its slot. -/
lemma publishFrom_spec {n : Nat} (done : List SubId) {rest : List SubId} {subs : List Subscriber}
    (hs : s.Core cfg) (hl : s.topics.subscribers t = done ++ rest)
    (hsubs : rest.map s.topics.sub.get = subs.map some) (hn : rest.length ≤ n) :
    Ends (fun f => f = .assertion .sieveEmpty ∧ ¬ s.Intact)
      (Deliveries cfg env (toAll m (subs.map Subscriber.connection)) s)
      (publishFrom cfg env m n rest.head? s) := by
  induction rest generalizing n done subs s with
  | nil =>
    obtain rfl : subs = [] := by simpa using hsubs.symm
    cases n <;> exact .nil s
  | cons i rest ih =>
    cases n with
    | zero => simp at hn
    | succ n =>
      cases subs with
      | nil => simp at hsubs
      | cons sub subs =>
        simp only [List.map_cons, List.cons.injEq] at hsubs
        obtain ⟨hi, hsubs⟩ := hsubs
        have hT := hs.topics
        have htopic : sub.topic = t := by
          obtain ⟨sub', hi', ht⟩ := (hT.subscribers t i).mp (by simp [hl])
          obtain rfl : sub = sub' := Option.some.inj (hi.symm.trans hi')
          exact ht
        subst htopic
        have hnodup := hT.subscribersNodup sub.topic
        rw [hl] at hnodup
        have hnew : i ∉ done := fun hmem =>
          (List.nodup_append.mp hnodup).2.2 i hmem i (by simp) rfl
        have hr := hs.subsRunning i sub hi
        simp only [publishFrom, List.head?_cons, hi, nextSub, hl, head?_tail_dropWhile hnew]
        refine ((doSend_spec env hs hr m).mono (fun f hf => ⟨hf.1, fun h => hf.2 (h _ hr)⟩)
          fun _ => id).bind fun s₁ hd => ?_
        obtain ⟨done', hl'⟩ := hd.subscribers_eq hs hi hl
        have hsubs' : rest.map s₁.topics.sub.get = subs.map some := by
          rw [← hsubs]
          refine List.map_congr_left fun j hj => ?_
          have hj₁ : j ∈ s₁.topics.subscribers sub.topic := by simp [hl', hj]
          obtain ⟨sub', hj', -⟩ := (hd.core.topics.subscribers _ _).mp hj₁
          rw [hj', ((hd.subs_iff hs j sub').mp hj').1]
        exact (ih done' hd.core hl' hsubs' (by simpa using hn)).mono
          (fun f hf => ⟨hf.1, fun h => hf.2 (hd.intact h)⟩) fun s₂ hds => .cons hd hds

/-- The connections that are subscribed to a topic. -/
def audience (s : Server) (t : TopicId) : List HybiId :=
  (s.topics.subscribers t).filterMap fun i =>
    (s.topics.sub.get i).map Subscriber.connection

lemma mem_audience (hs : s.Core cfg) :
    h ∈ s.audience t ↔ ∃ i sub, s.topics.sub.get i = some sub ∧ sub.topic = t ∧
      sub.connection = h := by
  simp only [audience, List.mem_filterMap, Option.map_eq_some_iff, hs.topics.subscribers]
  constructor
  · rintro ⟨i, ⟨sub, hi, ht⟩, sub', hi', hh⟩
    obtain rfl : sub = sub' := Option.some.inj (hi.symm.trans hi')
    exact ⟨i, sub, hi, ht, hh⟩
  · rintro ⟨i, sub, hi, ht, hh⟩
    exact ⟨i, ⟨sub, hi, ht⟩, sub, hi, hh⟩

lemma nodup_audience (hs : s.Core cfg) : (s.audience t).Nodup := by
  refine (List.Pairwise.and_mem.mp (hs.topics.subscribersNodup t)).filterMap _ ?_
  rintro i j ⟨hi, hj, hne⟩ g hg g' hg' rfl
  obtain ⟨sub, hi', htopic⟩ := (hs.topics.subscribers t i).mp hi
  obtain ⟨sub', hj', htopic'⟩ := (hs.topics.subscribers t j).mp hj
  simp only [hi', hj', Option.map_some, Option.some.injEq] at hg hg'
  have hsame : sub = sub' := Subscriber.ext (htopic.trans htopic'.symm) (hg.trans hg'.symm)
  exact hne (hs.topics.subsUnique i j sub hi' (hsame ▸ hj'))

variable (env) in
/-- `topic_publish` sends once to every connection that is subscribed when it starts. -/
lemma topicPublish_spec (hs : s.Core cfg) :
    Ends (fun f => f = .assertion .sieveEmpty ∧ ¬ s.Intact)
      (Deliveries cfg env (toAll m (s.audience t)) s) (topicPublish cfg env t m s) := by
  have hsubs : ∀ l : List SubId, (∀ i ∈ l, ∃ sub, s.topics.sub.get i = some sub) →
      ∃ subs : List Subscriber, l.map s.topics.sub.get = subs.map some := by
    intro l hl
    refine ⟨l.filterMap s.topics.sub.get, ?_⟩
    induction l with
    | nil => rfl
    | cons i l ih =>
      obtain ⟨sub, hi⟩ := hl i (by simp)
      rw [List.filterMap_cons_some hi, List.map_cons, List.map_cons, hi,
        ih fun j hj => hl j (by simp [hj])]
  obtain ⟨subs, hsubs⟩ := hsubs (s.topics.subscribers t) fun i hi =>
    let ⟨sub, hsub, _⟩ := (hs.topics.subscribers t i).mp hi
    ⟨sub, hsub⟩
  have haudience : s.audience t = subs.map Subscriber.connection := by
    have := congrArg (List.filterMap fun o : Option Subscriber => o.map Subscriber.connection) hsubs
    simpa [audience, List.filterMap_map, Function.comp_def] using this
  rw [haudience]
  exact publishFrom_spec env [] hs rfl hsubs le_rfl

variable (env) in
/-- It never fails while every running connection is in the sieve. -/
lemma topicPublish_ok (hs : s.Core cfg) (hi : s.Intact) :
    ∃ s', topicPublish cfg env t m s = .ok s' ∧
      Deliveries cfg env (toAll m (s.audience t)) s s' :=
  (topicPublish_spec env hs).exists_ok fun _ hf => hf.2 hi

/-! ### Sending to all -/

/-- Who is in slot `k`, if `p` selects it. -/
def occupant (p : Hybi → Bool) (s : Server) (k : Nat) : Option HybiId :=
  match s.sieve.items[k]? with
  | some (some h) => if p (s.info h) then some h else none
  | _ => none

lemma occupant_eq_some {k : Nat} :
    occupant p s k = some h ↔ s.sieve.Holds k h ∧ p (s.info h) = true := by
  unfold occupant Sieve.Holds
  cases s.sieve.items[k]? with
  | none => simp
  | some o =>
    cases o with
    | none => simp
    | some a =>
      by_cases ha : p (s.info a) = true <;> simp [ha] <;> grind

/-- A send leaves the other slots as they are. -/
lemma Delivered.occupant_eq (hs : s.Core cfg) (hd : Delivered cfg env h m s s') {k : Nat}
    (hk : k ≠ s.slot h) : occupant p s' k = occupant p s k := by
  have hholds : ∀ g, s'.sieve.Holds k g ↔ s.sieve.Holds k g := by
    intro g
    rw [hd.core.holds_iff, hs.holds_iff, hd.slot_eq, hd.live_iff_slot, and_right_comm]
    refine and_iff_left_of_imp fun hg hc => hk ?_
    rw [← hg.2, hc.1]
  refine Option.ext fun g => ?_
  rw [occupant_eq_some, occupant_eq_some, hholds, hd.info_eq]

variable (env) in
/-- The loops of `send_all` and `pause_websockets`. -/
lemma sendEach_ok (hs : s.Core cfg) (hks : ks.Nodup) :
    ∃ s', sendEach cfg env p m ks s = .ok s' ∧
      Deliveries cfg env (toAll m (ks.filterMap (s.occupant p))) s s' := by
  induction ks generalizing s with
  | nil => exact ⟨s, rfl, .nil s⟩
  | cons k ks ih =>
    obtain ⟨hnew, hks⟩ := List.nodup_cons.mp hks
    cases hocc : occupant p s k with
    | none =>
      obtain ⟨s', hrest, hd⟩ := ih hs hks
      refine ⟨s', ?_, by rwa [List.filterMap_cons_none hocc]⟩
      unfold occupant at hocc
      rw [sendEach]
      split
      · rename_i h hk
        simp only [hk] at hocc
        have hp : ¬ p (s.info h) = true := by
          intro hp
          simp [hp] at hocc
        have hl : s.Live h := hs.live_iff.mpr ⟨k, hk⟩
        simp only [hs.deref_eq (hs.running hl), ok_bind, if_neg hp, hrest]
      · exact hrest
    | some h =>
      obtain ⟨hk, hp⟩ := occupant_eq_some.mp hocc
      have hl : s.Live h := hs.live_iff.mpr ⟨k, hk⟩
      obtain ⟨s₁, hsend, hd⟩ := doSend_ok env hs hl m
      obtain ⟨s', hrest, hds⟩ := ih hd.core hks
      have hsame : ks.filterMap (s₁.occupant p) = ks.filterMap (s.occupant p) := by
        refine List.filterMap_congr fun j hj => hd.occupant_eq hs ?_
        rw [(hs.slots k h hk).1]
        rintro rfl
        exact hnew hj
      rw [hsame] at hds
      refine ⟨s', ?_, by rw [List.filterMap_cons_some hocc]; exact .cons hd hds⟩
      unfold Sieve.Holds at hk
      simp only [sendEach, hk, hs.deref_eq (hs.running hl), ok_bind, hp, if_true, hsend, hrest]

/-- The live connections that `p` selects, by slot. -/
def selected (p : Hybi → Bool) (s : Server) : List HybiId :=
  (List.range s.sieve.max).filterMap (s.occupant p)

lemma mem_selected (hs : s.Core cfg) : h ∈ s.selected p ↔ s.Live h ∧ p (s.info h) = true := by
  simp only [selected, List.mem_filterMap, List.mem_range, occupant_eq_some]
  constructor
  · rintro ⟨k, -, hk, hp⟩
    exact ⟨hs.live_iff.mpr ⟨k, hk⟩, hp⟩
  · rintro ⟨hl, hp⟩
    exact ⟨s.slot h, Sieve.holds_lt_max hl, hl, hp⟩

lemma nodup_selected (hs : s.Core cfg) : (s.selected p).Nodup := by
  refine List.nodup_range.filterMap fun k k' h hk hk' => ?_
  rw [← (hs.slots k h (occupant_eq_some.mp hk).1).1,
    ← (hs.slots k' h (occupant_eq_some.mp hk').1).1]

variable (env) in
/-- `send_all` and `pause_websockets` send once to every connection that is selected at the
start. -/
lemma sendSelected_ok (hs : s.Core cfg) :
    ∃ s', sendEach cfg env p m (List.range s.sieve.max) s = .ok s' ∧
      Deliveries cfg env (toAll m (s.selected p)) s s' :=
  sendEach_ok env hs List.nodup_range

end Server

end Zerogw
