import Zerogw.Topics.Properties

/-!
# Topics of other routes

A command on the topics of a route, or the end of a connection of that route, leaves the hash
tables, topics and subscriptions of all other routes as they are.
-/

namespace Zerogw

namespace Topics

variable {T T' T'' : Topics} {t : TopicId} {i : SubId} {h : HybiId} {r : RouteId} {name : Bytes}
  {s : Subscriber} {c : Topic} {C : HybiId → Prop} {size : RouteId → Nat} {l : List SubId}

/-- Nothing has changed but tables and topics of route `r` and subscriptions of the connections
`C`. -/
structure SameBut (r : RouteId) (C : HybiId → Prop) (T T' : Topics) : Prop where
  tables : ∀ q, q ≠ r → T'.tables q = T.tables q
  topic : ∀ t c, c.table ≠ r → (T'.topic.get t = some c ↔ T.topic.get t = some c)
  sub : ∀ i s, ¬ C s.connection → (T'.sub.get i = some s ↔ T.sub.get i = some s)
  clients : ∀ h, ¬ C h → T'.clients h = T.clients h

lemma SameBut.refl : SameBut r C T T :=
  ⟨fun _ _ => rfl, fun _ _ _ => Iff.rfl, fun _ _ _ => Iff.rfl, fun _ _ => rfl⟩

lemma SameBut.trans (h₁ : SameBut r C T T') (h₂ : SameBut r C T' T'') : SameBut r C T T'' where
  tables q hq := (h₂.tables q hq).trans (h₁.tables q hq)
  topic t c hc := (h₂.topic t c hc).trans (h₁.topic t c hc)
  sub i s hs := (h₂.sub i s hs).trans (h₁.sub i s hs)
  clients h hh := (h₂.clients h hh).trans (h₁.clients h hh)

lemma SameBut.mono {D : HybiId → Prop} (h : SameBut r C T T') (hCD : ∀ h, C h → D h) :
    SameBut r D T T' :=
  ⟨h.tables, h.topic, fun i s hs => h.sub i s fun hC => hs (hCD _ hC),
    fun g hg => h.clients g fun hC => hg (hCD g hC)⟩

/-- The connections `C` own all subscriptions to topics of route `r`. -/
def OwnedBy (r : RouteId) (C : HybiId → Prop) (T : Topics) : Prop :=
  ∀ p ∈ T.pairs, p.2.1 = r → C p.1

/-- The subscription is to a topic of route `r`, and belongs to one of the connections `C`. -/
def Concerns (r : RouteId) (C : HybiId → Prop) (T : Topics) (i : SubId) : Prop :=
  ∀ s, T.sub.get i = some s → C s.connection ∧ ∀ k, T.key s.topic = some k → k.1 = r

lemma OwnedBy.concerns (hO : T.OwnedBy r C) (hs : T.sub.get i = some s) {k : RouteId × Bytes}
    (hk : T.key s.topic = some k) (hr : k.1 = r) : T.Concerns r C i := by
  intro s' hs'
  obtain rfl : s = s' := Option.some.inj (hs.symm.trans hs')
  refine ⟨hO (s.connection, k) (mem_pairs.mpr ⟨i, s, hs, rfl, hk⟩) hr, fun k' hk' => ?_⟩
  rw [hk] at hk'
  cases hk'
  exact hr

/-! ### The primitive updates -/

lemma sameBut_makeTable (size : RouteId → Nat) : SameBut r C T (T.makeTable size r) :=
  ⟨fun _ hq => Function.update_of_ne hq _ _, fun _ _ _ => Iff.rfl, fun _ _ _ => Iff.rfl,
    fun _ _ => rfl⟩

lemma sameBut_addTopic : SameBut r C T (T.addTopic r name).2 := by
  refine ⟨fun q hq => ?_, fun t c hc => ?_, fun _ _ _ => Iff.rfl, fun _ _ => rfl⟩
  · rw [addTopic_tables, if_neg hq]
  · rw [addTopic_topic, Heap.get_alloc]
    split_ifs with ht
    · subst ht
      rw [T.topic.fresh _ le_rfl]
      refine iff_of_false ?_ (by simp)
      rintro ⟨⟩
      exact hc rfl
    · rfl

/-- Only the list of a topic of the route changes. -/
lemma get_modify_of_table {f : Topic → Topic} (hc : T.topic.get t = some c) (hr : c.table = r)
    (hf : (f c).table = r) {u : TopicId} {c' : Topic} (hc' : c'.table ≠ r) :
    (T.topic.modify t f).get u = some c' ↔ T.topic.get u = some c' := by
  rw [Heap.get_modify]
  split_ifs with hu
  · subst hu
    rw [hc]
    refine iff_of_false ?_ ?_
    · rintro ⟨⟩
      exact hc' hf
    · rintro ⟨⟩
      exact hc' hr
  · rfl

lemma sameBut_addSub (hc : T.topic.get t = some c) (hr : c.table = r) (hh : C h) :
    SameBut r C T (T.addSub h t) := by
  refine ⟨fun q hq => ?_, fun u c' hc' => ?_, fun i s hs => ?_, fun g hg => ?_⟩
  · rw [addSub_tables hc, if_neg (by rwa [hr])]
  · rw [addSub_topic hc]
    exact get_modify_of_table hc hr hr hc'
  · rw [addSub_sub hc, Heap.get_alloc]
    split_ifs with hi
    · subst hi
      rw [T.sub.fresh _ le_rfl]
      refine iff_of_false ?_ (by simp)
      rintro ⟨⟩
      exact hs hh
    · rfl
  · rw [addSub_clients hc, if_neg]
    rintro rfl
    exact hg hh

lemma sameBut_removeSub (hi : T.Concerns r C i) : SameBut r C T (T.removeSub i) := by
  cases hs : T.sub.get i with
  | none =>
    simp only [removeSub, hs]
    exact .refl
  | some s =>
    obtain ⟨hC, hkey⟩ := hi s hs
    cases hc : T.topic.get s.topic with
    | none =>
      simp only [removeSub, hs, hc]
      exact .refl
    | some c =>
      have hr : c.table = r := hkey _ (key_of_get hc)
      refine ⟨fun q hq => ?_, fun u c' hc' => ?_, fun j s' hs' => ?_, fun g hg => ?_⟩
      · rw [removeSub_tables hs hc, if_neg (by rwa [hr])]
      · rw [removeSub_topic hs hc]
        exact get_modify_of_table hc hr hr hc'
      · rw [removeSub_sub hs hc, Heap.get_free]
        split_ifs with hj
        · subst hj
          rw [hs]
          refine iff_of_false (by simp) ?_
          rintro ⟨⟩
          exact hs' hC
        · rfl
      · rw [removeSub_clients hs hc, if_neg]
        rintro rfl
        exact hg hC

lemma sameBut_removeTopic (ht : ∀ k, T.key t = some k → k.1 = r) :
    SameBut r C T (T.removeTopic t) := by
  refine ⟨fun q hq => ?_, fun u c' hc' => ?_, fun j s' _ => ?_, fun g _ => ?_⟩
  · cases hc : T.topic.get t with
    | none => simp only [removeTopic, hc]
    | some c =>
      rw [removeTopic_tables hc, if_neg (by rwa [show c.table = r from ht _ (key_of_get hc)])]
  · rw [removeTopic_topic, Heap.get_free]
    split_ifs with hu
    · subst hu
      refine iff_of_false (by simp) fun hc => hc' ?_
      exact ht _ (key_of_get hc)
    · rfl
  · rw [removeTopic_sub]
  · rw [removeTopic_clients]

/-! ### Topics with their lists -/

/-- Removing other subscriptions makes none that does not concern us. -/
lemma Concerns.removeSub {j : SubId} (hi : T.Concerns r C i) : (T.removeSub j).Concerns r C i := by
  intro s hs
  obtain ⟨hC, hkey⟩ := hi s (by
    cases hj : T.sub.get j with
    | none => simpa only [Topics.removeSub, hj] using hs
    | some s' =>
      cases hc : T.topic.get s'.topic with
      | none => simpa only [Topics.removeSub, hj, hc] using hs
      | some c =>
        rw [removeSub_sub hj hc, Heap.get_free] at hs
        split_ifs at hs
        exact hs)
  exact ⟨hC, fun k hk => hkey k (by rwa [key_removeSub] at hk)⟩

lemma sameBut_removeSubs (hl : ∀ i ∈ l, T.Concerns r C i) :
    SameBut r C T (l.foldl (fun T i => T.removeSub i) T) := by
  induction l generalizing T with
  | nil => exact .refl
  | cons i l ih =>
    rw [List.foldl_cons]
    refine (sameBut_removeSub (hl i (by simp))).trans (ih fun j hj => ?_)
    exact (hl j (by simp [hj])).removeSub

lemma key_removeSubs : (l.foldl (fun T i => T.removeSub i) T).key t = T.key t := by
  induction l generalizing T with
  | nil => rfl
  | cons i l ih => rw [List.foldl_cons, ih, key_removeSub]

lemma sameBut_freeTopic (hT : T.WF) (hO : T.OwnedBy r C) (ht : T.key t = some (r, name)) :
    SameBut r C T (T.freeTopic t) := by
  refine (sameBut_removeSubs fun i hi => ?_).trans (sameBut_removeTopic fun k hk => ?_)
  · obtain ⟨s, hs, rfl⟩ := (hT.subscribers t i).mp hi
    exact hO.concerns hs ht rfl
  · rw [key_removeSubs, ht] at hk
    cases hk
    rfl

/-- A topic that is left without subscribers has no subscription to remove. -/
lemma sameBut_leave (hi : T.Concerns r C i) : SameBut r C T (T.leave i) := by
  cases hs : T.sub.get i with
  | none =>
    simp only [leave, hs]
    exact .refl
  | some s =>
    simp only [leave, hs]
    refine (sameBut_removeSub hi).trans ?_
    by_cases hempty : (T.removeSub i).subscribers s.topic = []
    · rw [if_pos (by simp [hempty]), freeTopic_of_empty hempty]
      refine sameBut_removeTopic fun k hk => ?_
      rw [key_removeSub] at hk
      exact (hi s hs).2 k hk
    · rw [if_neg (by simpa using hempty)]
      exact .refl

lemma sameBut_topicSubscribe (ht : T.key t = some (r, name)) (hh : C h) :
    SameBut r C T (T.topicSubscribe h t) := by
  obtain ⟨c, hc, hr, -⟩ := get_of_key ht
  rw [topicSubscribe]
  split_ifs
  · exact .refl
  · exact sameBut_addSub hc hr hh

variable (r name size) in
lemma sameBut_findTopic (T : Topics) (create : Bool) :
    SameBut r C T (T.findTopic size r name create).2 := by
  cases create with
  | false =>
    rw [findTopic]
    cases T.tables r with
    | none => exact .refl
    | some table =>
      dsimp only
      cases (table.cells (table.cellOf (topicHash name))).find? (T.isNamed name) <;> exact .refl
  | true =>
    rw [findTopic]
    cases T.tables r with
    | none => exact (sameBut_makeTable size).trans sameBut_addTopic
    | some table =>
      dsimp only
      cases (table.cells (table.cellOf (topicHash name))).find? (T.isNamed name) with
      | some t => exact .refl
      | none => exact sameBut_addTopic

/-! ### The commands -/

variable (name size) in
lemma sameBut_subscribe (hT : T.WF) (hh : C h) : SameBut r C T (T.subscribe size h r name) := by
  obtain ⟨t, T', hfind, -, ht, -⟩ := findTopic_true r name size hT
  have hsame := sameBut_findTopic (C := C) r name size T true
  rw [hfind] at hsame
  simp only [Topics.subscribe, hfind]
  exact hsame.trans (sameBut_topicSubscribe ht hh)

variable (name size) in
lemma sameBut_unsubscribe (hT : T.WF) (hh : C h) :
    SameBut r C T (T.unsubscribe size h r name) := by
  rcases findTopic_false r name size hT with ⟨t, hfind, ht⟩ | ⟨hfind, -⟩
  · simp only [Topics.unsubscribe, hfind, topicUnsubscribe]
    cases hf : (T.clients h).find? (T.isFor t) with
    | none => exact .refl
    | some i =>
      obtain ⟨s, hs, rfl⟩ := (hT.clients h i).mp (List.mem_of_find?_eq_some hf)
      have hfor := List.find?_some hf
      simp only [isFor, hs, beq_iff_eq] at hfor
      refine sameBut_leave fun s' hs' => ?_
      obtain rfl : s = s' := Option.some.inj (hs.symm.trans hs')
      rw [hfor, ht]
      exact ⟨hh, by rintro k ⟨⟩; rfl⟩
  · simp only [Topics.unsubscribe, hfind]
    exact .refl

lemma sameBut_cloneLoop (hl : ∀ i ∈ l, ∀ s, T.sub.get i = some s → C s.connection) (hT : T.WF)
    (ht : T.key t = some (r, name)) (hstored : ∀ i ∈ l, T.sub.get i ≠ none) :
    SameBut r C T (l.foldl (fun T i =>
      match T.sub.get i with
      | some s => T.topicSubscribe s.connection t
      | none => T) T) := by
  induction l generalizing T with
  | nil => exact .refl
  | cons i l ih =>
    obtain ⟨s, hs⟩ := Option.ne_none_iff_exists'.mp (hstored i (by simp))
    obtain ⟨hwf, -, hkey, -, hold⟩ := topicSubscribe_spec (h := s.connection) hT ht
    have hget : ∀ j ∈ l, (T.topicSubscribe s.connection t).sub.get j = T.sub.get j := by
      intro j hj
      obtain ⟨s', hs'⟩ := Option.ne_none_iff_exists'.mp (hstored j (by simp [hj]))
      rw [hold j s' hs', hs']
    rw [List.foldl_cons]
    simp only [hs]
    refine (sameBut_topicSubscribe ht (hl i (by simp) s hs)).trans (ih ?_ hwf ?_ ?_)
    · intro j hj s' hs'
      exact hl j (by simp [hj]) s' (by rwa [hget j hj] at hs')
    · rw [hkey, ht]
    · intro j hj
      rw [hget j hj]
      exact hstored j (by simp [hj])

variable (size) in
lemma sameBut_clone (source target : Bytes) (hT : T.WF) (hO : T.OwnedBy r C) :
    SameBut r C T (T.clone size r source target) := by
  rcases findTopic_false r source size hT with ⟨v, hfind, hv⟩ | ⟨hfind, -⟩
  · obtain ⟨t, T', hfind', hwf, ht, hsub, -, hsubs, hpairs, -, hold⟩ :=
      findTopic_true r target size hT
    have hsame := sameBut_findTopic (C := C) r target size T true
    rw [hfind'] at hsame
    have hv' : T'.key v = some (r, source) := by rw [hold v (by simp [hv]), hv]
    have hO' : T'.OwnedBy r C := fun p hp => hO p (hpairs ▸ hp)
    simp only [Topics.clone, hfind, hfind', topicClone]
    have hstored : ∀ i ∈ T'.subscribers v, ∃ s, T'.sub.get i = some s ∧ s.topic = v :=
      fun i hi => (hwf.subscribers v i).mp hi
    have hne : ∀ i ∈ T'.subscribers v, T'.sub.get i ≠ none := by
      intro i hi hnone
      obtain ⟨s, hs, -⟩ := hstored i hi
      rw [hs] at hnone
      cases hnone
    have hloop := sameBut_cloneLoop (l := T'.subscribers v) (C := C) (fun i hi s hs => by
      obtain ⟨s', hs', rfl⟩ := hstored i hi
      obtain rfl : s' = s := Option.some.inj (hs'.symm.trans hs)
      exact hO' (s'.connection, r, source) (mem_pairs.mpr ⟨i, s', hs', rfl, hv'⟩) rfl) hwf ht hne
    obtain ⟨-, hkey, -, -⟩ := clone_loop (enters_topicSubscribe t _) hwf ht hne
    refine hsame.trans (hloop.trans ?_)
    generalize (T'.subscribers v).foldl (fun T i =>
      match T.sub.get i with
      | some s => T.topicSubscribe s.connection t
      | none => T) T' = T₂ at hkey ⊢
    by_cases hempty : T₂.subscribers t = []
    · rw [if_pos (by simp [hempty]), freeTopic_of_empty hempty]
      refine sameBut_removeTopic fun k hk => ?_
      rw [hkey, ht] at hk
      cases hk
      rfl
    · rw [if_neg (by simpa using hempty)]
      exact .refl
  · simp only [Topics.clone, hfind]
    exact .refl

variable (name size) in
lemma sameBut_drop (hT : T.WF) (hO : T.OwnedBy r C) : SameBut r C T (T.drop size r name) := by
  rcases findTopic_false r name size hT with ⟨t, hfind, ht⟩ | ⟨hfind, -⟩
  · simp only [Topics.drop, hfind]
    exact sameBut_freeTopic hT hO ht
  · simp only [Topics.drop, hfind]
    exact .refl

/-- The subscriptions of a connection of the route. -/
lemma sameBut_stop (hT : T.Tidy) (hh : C h) (hroute : ∀ p ∈ T.pairs, p.1 = h → p.2.1 = r) :
    SameBut r C T (T.stop h) := by
  have hloop : ∀ (l : List SubId) (T : Topics), T.Tidy → T.clients h = l →
      (∀ p ∈ T.pairs, p.1 = h → p.2.1 = r) →
      SameBut r C T (l.foldl (fun T i => T.leave i) T) := by
    intro l
    induction l with
    | nil => exact fun _ _ _ _ => .refl
    | cons i l ih =>
      intro T hT hl hroute
      obtain ⟨s, hs, hconn⟩ := (hT.clients h i).mp (by simp [hl])
      obtain ⟨k, hk⟩ := Option.ne_none_iff_exists'.mp (hT.key_ne_none hs)
      obtain ⟨hwf, hP, hpairs, -, hclients, -⟩ := leave_spec hT.toWF hT.populated hs hk
      have hkr : k.1 = r := hroute (s.connection, k) (mem_pairs.mpr ⟨i, s, hs, rfl, hk⟩) hconn
      rw [List.foldl_cons]
      refine (sameBut_leave fun s' hs' => ?_).trans (ih _ ⟨hwf, hP⟩ ?_ fun p hp => ?_)
      · obtain rfl : s = s' := Option.some.inj (hs.symm.trans hs')
        rw [hk, hconn]
        exact ⟨hh, by rintro k' ⟨⟩; exact hkr⟩
      · rw [hclients, if_pos hconn.symm, hl, List.erase_cons_head]
      · rw [hpairs] at hp
        exact hroute p hp.1
  exact hloop _ T hT rfl hroute

end Topics

end Zerogw
