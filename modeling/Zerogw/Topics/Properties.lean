import Zerogw.Topics.Tables

/-!
# Topic commands as operations on a relation

The tables stand for a relation between connections and topics. The commands insert into it and
delete from it, and leave no topic without a subscriber behind.
-/

namespace Zerogw

namespace Topics

variable {T : Topics} {t u : TopicId} {i : SubId} {h : HybiId} {r : RouteId} {name : Bytes}
  {s : Subscriber} {c : Topic} {k : RouteId × Bytes} {size : RouteId → Nat}

/-! ### The relation under the primitive updates -/

lemma get_of_key (ht : T.key t = some k) :
    ∃ c, T.topic.get t = some c ∧ c.table = k.1 ∧ c.name = k.2 := by
  obtain ⟨c, hc, rfl⟩ := Option.map_eq_some_iff.mp ht
  exact ⟨c, hc, rfl, rfl⟩

/-- Being subscribed is having a subscription object. -/
lemma mem_pairs_of_key (hT : T.WF) (ht : T.key t = some k) :
    (h, k) ∈ T.pairs ↔ ∃ i, T.sub.get i = some ⟨t, h⟩ := by
  rw [mem_pairs]
  constructor
  · rintro ⟨i, s, hs, rfl, hk⟩
    exact ⟨i, by rw [hs, hT.keysUnique t s.topic k ht hk]⟩
  · rintro ⟨i, hi⟩
    exact ⟨i, _, hi, rfl, ht⟩

lemma pairs_addTopic (hT : T.WF) : (T.addTopic r name).2.pairs = T.pairs := by
  ext p
  simp only [mem_pairs, addTopic_sub, key_addTopic]
  constructor
  · rintro ⟨i, s, hs, hp, hk⟩
    rw [if_neg (hT.ne_of_key_none hs key_next)] at hk
    exact ⟨i, s, hs, hp, hk⟩
  · rintro ⟨i, s, hs, hp, hk⟩
    exact ⟨i, s, hs, hp, by rwa [if_neg (hT.ne_of_key_none hs key_next)]⟩

lemma pairs_addSub (ht : T.key t = some k) : (T.addSub h t).pairs = insert (h, k) T.pairs := by
  obtain ⟨c, hc, -, -⟩ := get_of_key ht
  ext p
  simp only [mem_pairs, addSub_sub hc, key_addSub, Set.mem_insert_iff]
  constructor
  · rintro ⟨i, s, hs, hp, hk⟩
    rw [Heap.get_alloc] at hs
    split_ifs at hs with hi
    · cases hs
      left
      rw [ht] at hk
      cases hk
      exact Prod.ext hp.symm rfl
    · exact Or.inr ⟨i, s, hs, hp, hk⟩
  · rintro (rfl | ⟨i, s, hs, hp, hk⟩)
    · exact ⟨T.sub.next, ⟨t, h⟩, by simp, rfl, ht⟩
    · exact ⟨i, s, Heap.get_alloc_of_some _ hs, hp, hk⟩

lemma pairs_removeSub (hT : T.WF) (hs : T.sub.get i = some s) (hk : T.key s.topic = some k) :
    (T.removeSub i).pairs = T.pairs \ {(s.connection, k)} := by
  obtain ⟨c, hc, -, -⟩ := get_of_key hk
  ext p
  simp only [mem_pairs, removeSub_sub hs hc, key_removeSub, Set.mem_sdiff, Set.mem_singleton_iff]
  constructor
  · rintro ⟨j, s', hs', hp, hk'⟩
    rw [Heap.get_free] at hs'
    split_ifs at hs' with hj
    refine ⟨⟨j, s', hs', hp, hk'⟩, ?_⟩
    rintro rfl
    have htopic : s'.topic = s.topic := hT.keysUnique _ _ k hk' hk
    exact hj (hT.subsUnique j i s' hs' (by rw [hs]; cases s; cases s'; simp_all))
  · rintro ⟨⟨j, s', hs', hp, hk'⟩, hne⟩
    refine ⟨j, s', ?_, hp, hk'⟩
    rw [Heap.get_free_of_ne]
    · exact hs'
    · rintro rfl
      rw [hs] at hs'
      cases hs'
      rw [hk] at hk'
      cases hk'
      exact hne (Prod.ext hp.symm rfl)

lemma pairs_removeTopic (hT : T.WF) (hempty : T.subscribers t = []) :
    (T.removeTopic t).pairs = T.pairs := by
  have hne : ∀ i s, T.sub.get i = some s → s.topic ≠ t := by
    intro i s hs hst
    have hi : i ∈ T.subscribers t := (hT.subscribers t i).mpr ⟨s, hs, hst⟩
    rw [hempty] at hi
    cases hi
  ext p
  simp only [mem_pairs, removeTopic_sub, key_removeTopic]
  constructor
  · rintro ⟨i, s, hs, hp, hk⟩
    rw [if_neg (hne i s hs)] at hk
    exact ⟨i, s, hs, hp, hk⟩
  · rintro ⟨i, s, hs, hp, hk⟩
    exact ⟨i, s, hs, hp, by rwa [if_neg (hne i s hs)]⟩

/-- A topic has a subscriber iff its subscriber list is not empty. -/
lemma subscribers_ne_nil (hT : T.WF) (ht : T.key t = some k) :
    T.subscribers t ≠ [] ↔ ∃ h, (h, k) ∈ T.pairs := by
  constructor
  · intro hne
    obtain ⟨i, hi⟩ := List.exists_mem_of_ne_nil _ hne
    obtain ⟨s, hs, rfl⟩ := (hT.subscribers t i).mp hi
    exact ⟨s.connection, (mem_pairs_of_key hT ht).mpr ⟨i, hs⟩⟩
  · rintro ⟨h, hp⟩
    obtain ⟨i, hi⟩ := (mem_pairs_of_key hT ht).mp hp
    exact List.ne_nil_of_mem ((hT.subscribers t i).mpr ⟨_, hi, rfl⟩)

/-! ### Looking up a topic -/

/-- Every stored topic except possibly those in `E` has a subscriber. -/
def Populated (E : Set TopicId) (T : Topics) : Prop :=
  ∀ t, T.key t ≠ none → t ∉ E → T.subscribers t ≠ []

lemma isNamed_iff (hT : T.WF) (ht : T.key t = some k) : T.isNamed name t = true ↔ k.2 = name := by
  obtain ⟨c, hc, -, hname⟩ := get_of_key ht
  simp only [isNamed, hc, Bool.and_eq_true, beq_iff_eq, hT.hash t c hc]
  constructor
  · rintro ⟨-, hn⟩
    rw [← hname, hn]
  · rintro rfl
    simp [hname]

/-- The scan of one cell finds the topic of that name if there is one. -/
lemma find_cell (hT : T.WF) {table : TopicHash} (hr : T.tables r = some table) (t : TopicId) :
    (table.cells (table.cellOf (topicHash name))).find? (T.isNamed name) = some t ↔
      T.key t = some (r, name) := by
  have hcell := fun u => hT.cells r table (table.cellOf (topicHash name)) u hr
  have hfound : ∀ u, (table.cells (table.cellOf (topicHash name))).find? (T.isNamed name) = some u →
      T.key u = some (r, name) := by
    intro u hu
    obtain ⟨n, hn, -⟩ := (hcell u).mp (List.mem_of_find?_eq_some hu)
    have hname : n = name := (isNamed_iff hT hn).mp (List.find?_some hu)
    rw [hn, hname]
  constructor
  · exact hfound t
  · intro ht
    cases hf : (table.cells (table.cellOf (topicHash name))).find? (T.isNamed name) with
    | some u => rw [hT.keysUnique u t _ (hfound u hf) ht]
    | none =>
      have hnot := List.find?_eq_none.mp hf t ((hcell t).mpr ⟨name, ht, rfl⟩)
      exact absurd ((isNamed_iff hT ht).mpr rfl) hnot

variable (r name size) in
lemma findTopic_false (hT : T.WF) :
    (∃ t, T.findTopic size r name false = (some t, T) ∧ T.key t = some (r, name)) ∨
    (T.findTopic size r name false = (none, T) ∧ ∀ t, T.key t ≠ some (r, name)) := by
  rw [findTopic]
  cases hr : T.tables r with
  | none =>
    right
    exact ⟨by simp, fun t ht => hT.stored t r name ht hr⟩
  | some table =>
    cases hf : (table.cells (table.cellOf (topicHash name))).find? (T.isNamed name) with
    | some t =>
      left
      exact ⟨t, by simp [hf], (find_cell hT hr t).mp hf⟩
    | none =>
      right
      refine ⟨by simp [hf], fun t ht => ?_⟩
      rw [(find_cell hT hr t).mpr ht] at hf
      cases hf

variable (r name size) in
/-- A lookup that may create ends with a topic of that name, and nothing but this topic is new. -/
lemma findTopic_true (hT : T.WF) :
    ∃ t T', T.findTopic size r name true = (some t, T') ∧ T'.WF ∧ T'.key t = some (r, name) ∧
      T'.sub = T.sub ∧ T'.clients = T.clients ∧ T'.subscribers = T.subscribers ∧
      T'.pairs = T.pairs ∧ (∀ u, u ≠ t → T'.key u = T.key u) ∧
      ∀ u, T.key u ≠ none → T'.key u = T.key u := by
  have hnew : ∀ T : Topics, T.WF → T.tables r ≠ none → (∀ t, T.key t ≠ some (r, name)) →
      (T.addTopic r name).2.WF ∧ (T.addTopic r name).2.key T.topic.next = some (r, name) ∧
      (T.addTopic r name).2.subscribers = T.subscribers ∧
      (T.addTopic r name).2.pairs = T.pairs ∧
      (∀ u, u ≠ T.topic.next → (T.addTopic r name).2.key u = T.key u) ∧
      ∀ u, T.key u ≠ none → (T.addTopic r name).2.key u = T.key u := by
    intro T hT hr hfresh
    refine ⟨hT.addTopic hr hfresh, by simp [key_addTopic], funext fun u => subscribers_addTopic u,
      pairs_addTopic hT, fun u hu => by rw [key_addTopic, if_neg hu], fun u hu => ?_⟩
    rw [key_addTopic, if_neg]
    rintro rfl
    exact hu key_next
  rw [findTopic]
  cases hr : T.tables r with
  | none =>
    have hM := hT.makeTable size hr
    obtain ⟨hwf, hkey, hsubs, hpairs, hold⟩ := hnew (T.makeTable size r) hM (by simp [makeTable])
      fun t ht => hT.stored t r name ht hr
    exact ⟨_, _, rfl, hwf, hkey, rfl, rfl, hsubs, hpairs, hold⟩
  | some table =>
    cases hf : (table.cells (table.cellOf (topicHash name))).find? (T.isNamed name) with
    | some t =>
      have ht := (find_cell hT hr t).mp hf
      exact ⟨t, T, by simp [hf], hT, ht, rfl, rfl, rfl, rfl, fun _ _ => rfl, fun _ _ => rfl⟩
    | none =>
      obtain ⟨hwf, hkey, hsubs, hpairs, hold⟩ := hnew T hT (by simp [hr]) fun t ht => by
        rw [(find_cell hT hr t).mpr ht] at hf
        cases hf
      exact ⟨_, _, by simp [hf], hwf, hkey, rfl, rfl, hsubs, hpairs, hold⟩

/-! ### The operations on one topic -/

/-- Removing all subscriptions of a topic, one after the other from the head of its list. -/
lemma drop_subscribers {l : List SubId} (hT : T.WF) (hl : T.subscribers t = l)
    (ht : T.key t = some k) :
    (l.foldl (fun T i => T.removeSub i) T).WF ∧
      (l.foldl (fun T i => T.removeSub i) T).subscribers t = [] ∧
      (∀ u, (l.foldl (fun T i => T.removeSub i) T).key u = T.key u) ∧
      (∀ u, u ≠ t → (l.foldl (fun T i => T.removeSub i) T).subscribers u = T.subscribers u) ∧
      (l.foldl (fun T i => T.removeSub i) T).pairs = {p ∈ T.pairs | p.2 ≠ k} := by
  induction l generalizing T with
  | nil =>
    refine ⟨hT, hl, fun _ => rfl, fun _ _ => rfl, ?_⟩
    ext p
    simp only [List.foldl_nil, Set.mem_ofPred_eq, ne_eq, iff_self_and]
    rintro hp rfl
    exact (subscribers_ne_nil hT ht).mpr ⟨p.1, hp⟩ hl
  | cons i l ih =>
    obtain ⟨s, hs, rfl⟩ := (hT.subscribers t i).mp (by simp [hl])
    obtain ⟨c, hc, -, -⟩ := get_of_key ht
    have hrest : (T.removeSub i).subscribers s.topic = l := by
      rw [subscribers_removeSub hs hc, if_pos rfl, hl, List.erase_cons_head]
    obtain ⟨hwf, hempty, hkey, hothers, hpairs⟩ :=
      ih (hT.removeSub hs) hrest (by rw [key_removeSub, ht])
    refine ⟨hwf, hempty, fun u => ?_, fun u hu => ?_, ?_⟩
    · rw [List.foldl_cons, hkey, key_removeSub]
    · rw [List.foldl_cons, hothers u hu, subscribers_removeSub hs hc, if_neg hu]
    · rw [List.foldl_cons, hpairs, pairs_removeSub hT hs ht]
      ext p
      simp only [Set.mem_ofPred_eq, Set.mem_sdiff, Set.mem_singleton_iff]
      constructor
      · rintro ⟨⟨hp, -⟩, hne⟩
        exact ⟨hp, hne⟩
      · rintro ⟨hp, hne⟩
        exact ⟨⟨hp, fun he => hne (by rw [he])⟩, hne⟩

/-- `free_topic` deletes a topic with all its pairs and touches no other topic. -/
lemma freeTopic_spec (hT : T.WF) (ht : T.key t = some k) :
    (T.freeTopic t).WF ∧ (T.freeTopic t).pairs = {p ∈ T.pairs | p.2 ≠ k} ∧
      ∀ u, (T.freeTopic t).key u = (if u = t then none else T.key u) ∧
        (T.freeTopic t).subscribers u = if u = t then [] else T.subscribers u := by
  obtain ⟨hwf, hempty, hkey, hothers, hpairs⟩ := drop_subscribers hT rfl ht
  obtain ⟨c, hc, -, -⟩ := get_of_key (by rw [hkey]; exact ht)
  refine ⟨hwf.removeTopic hc hempty, ?_, fun u => ⟨?_, ?_⟩⟩
  · rw [freeTopic, pairs_removeTopic hwf hempty, hpairs]
  · rw [freeTopic, key_removeTopic, hkey]
  · rw [freeTopic, subscribers_removeTopic]
    split_ifs with hu
    · rfl
    · exact hothers u hu

lemma freeTopic_of_empty (hempty : T.subscribers t = []) : T.freeTopic t = T.removeTopic t := by
  rw [freeTopic, hempty, List.foldl_nil]

lemma Populated.freeTopic {E : Set TopicId} (hT : T.WF) (hP : T.Populated (insert t E))
    (ht : T.key t = some k) : (T.freeTopic t).Populated E := by
  obtain ⟨-, -, hu⟩ := freeTopic_spec hT ht
  intro u hkey huE
  obtain ⟨hk, hsubs⟩ := hu u
  by_cases hut : u = t
  · rw [hk, if_pos hut] at hkey
    exact absurd rfl hkey
  · rw [hk, if_neg hut] at hkey
    rw [hsubs, if_neg hut]
    exact hP u hkey (by simp [hut, huE])

lemma any_isFor_iff (hT : T.WF) (ht : T.key t = some k) :
    (T.clients h).any (T.isFor t) = true ↔ (h, k) ∈ T.pairs := by
  rw [mem_pairs_of_key hT ht, List.any_eq_true]
  constructor
  · rintro ⟨i, hi, hfor⟩
    obtain ⟨s, hs, rfl⟩ := (hT.clients h i).mp hi
    simp only [isFor, hs, beq_iff_eq] at hfor
    exact ⟨i, by rw [hs, ← hfor]⟩
  · rintro ⟨i, hi⟩
    exact ⟨i, (hT.clients h i).mpr ⟨_, hi, rfl⟩, by simp [isFor, hi]⟩

/-- `topic_subscribe` adds one pair, and every list but that of the topic and that of the connection
stays as it is. -/
lemma topicSubscribe_spec (hT : T.WF) (ht : T.key t = some k) :
    (T.topicSubscribe h t).WF ∧ (T.topicSubscribe h t).pairs = insert (h, k) T.pairs ∧
      (∀ u, (T.topicSubscribe h t).key u = T.key u) ∧
      (∀ u, u ≠ t → (T.topicSubscribe h t).subscribers u = T.subscribers u) ∧
      ∀ i s, T.sub.get i = some s → (T.topicSubscribe h t).sub.get i = some s := by
  obtain ⟨c, hc, -, -⟩ := get_of_key ht
  rw [topicSubscribe]
  split_ifs with hany
  · have hp := (any_isFor_iff hT ht).mp hany
    exact ⟨hT, (Set.insert_eq_of_mem hp).symm, fun _ => rfl, fun _ _ => rfl, fun _ _ hs => hs⟩
  · have hnew : ∀ i, T.sub.get i ≠ some ⟨t, h⟩ := fun i hi =>
      hany ((any_isFor_iff hT ht).mpr ((mem_pairs_of_key hT ht).mpr ⟨i, hi⟩))
    refine ⟨hT.addSub hc hnew, pairs_addSub ht, key_addSub, fun u hu => ?_, fun i s hs => ?_⟩
    · rw [subscribers_addSub hc, if_neg hu]
    · rw [addSub_sub hc, Heap.get_alloc_of_some _ hs]

lemma Populated.topicSubscribe {E : Set TopicId} (hT : T.WF) (hP : T.Populated (insert t E))
    (ht : T.key t = some k) : (T.topicSubscribe h t).Populated E := by
  obtain ⟨hwf, hpairs, hkey, hothers, -⟩ := topicSubscribe_spec (h := h) hT ht
  intro u hu huE
  by_cases hut : u = t
  · subst hut
    exact (subscribers_ne_nil hwf (by rw [hkey, ht])).mpr ⟨h, by simp [hpairs]⟩
  · rw [hothers u hut]
    exact hP u (by rwa [hkey] at hu) (by simp [hut, huE])

/-- Taking a subscription away deletes its pair; the topic goes with its last subscriber. No other
subscription is touched. -/
lemma leave_spec (hT : T.WF) (hP : T.Populated ∅) (hs : T.sub.get i = some s)
    (hk : T.key s.topic = some k) :
    (T.leave i).WF ∧ (T.leave i).Populated ∅ ∧
      (T.leave i).pairs = T.pairs \ {(s.connection, k)} ∧
      (T.leave i).sub = T.sub.free i ∧
      (∀ g, (T.leave i).clients g
        = if g = s.connection then (T.clients g).erase i else T.clients g) ∧
      ∀ u, (T.leave i).subscribers u
        = if u = s.topic then (T.subscribers u).erase i else T.subscribers u := by
  obtain ⟨c, hc, -, -⟩ := get_of_key hk
  have hwf := hT.removeSub hs
  have hkey : (T.removeSub i).key s.topic = some k := by rw [key_removeSub, hk]
  have hclients : ∀ g, (T.removeSub i).clients g
      = if g = s.connection then (T.clients g).erase i else T.clients g := by
    intro g
    rw [removeSub_clients hs hc]
    split_ifs with hg
    · rw [hg]
    · rfl
  have hsubs : ∀ u, (T.removeSub i).subscribers u
      = if u = s.topic then (T.subscribers u).erase i else T.subscribers u := by
    intro u
    rw [subscribers_removeSub hs hc]
    split_ifs with hu
    · rw [hu]
    · rfl
  have hP' : (T.removeSub i).Populated {s.topic} := by
    intro u hu huE
    rw [hsubs, if_neg (by simpa using huE)]
    exact hP u (by rwa [key_removeSub] at hu) (Set.notMem_empty u)
  simp only [leave, hs]
  by_cases hempty : (T.removeSub i).subscribers s.topic = []
  · rw [if_pos (by simp [hempty])]
    obtain ⟨hwf', hpairs', hu'⟩ := freeTopic_spec hwf hkey
    refine ⟨hwf', Populated.freeTopic hwf (by simpa using hP') hkey, ?_, ?_, ?_, ?_⟩
    · rw [freeTopic_of_empty hempty, pairs_removeTopic hwf hempty, pairs_removeSub hT hs hk]
    · rw [freeTopic_of_empty hempty, removeTopic_sub, removeSub_sub hs hc]
    · intro g
      rw [freeTopic_of_empty hempty, removeTopic_clients, hclients]
    · intro u
      rw [(hu' u).2]
      by_cases hu : u = s.topic
      · have he := hsubs s.topic
        rw [if_pos rfl, hempty] at he
        rw [if_pos hu, if_pos hu, hu, he]
      · rw [if_neg hu, hsubs]
  · rw [if_neg (by simpa using hempty)]
    refine ⟨hwf, ?_, pairs_removeSub hT hs hk, removeSub_sub hs hc, hclients, hsubs⟩
    intro u hu _
    by_cases hut : u = s.topic
    · rwa [hut]
    · exact hP' u hu (by simpa using hut)

/-- The invariant of the tables between commands. -/
structure Tidy (T : Topics) : Prop extends WF T where
  populated : T.Populated ∅

lemma topicUnsubscribe_spec (hT : T.Tidy) (ht : T.key t = some k) :
    (T.topicUnsubscribe h t).Tidy ∧ (T.topicUnsubscribe h t).pairs = T.pairs \ {(h, k)} := by
  rw [topicUnsubscribe]
  cases hf : (T.clients h).find? (T.isFor t) with
  | none =>
    refine ⟨hT, (Set.sdiff_singleton_eq_self fun hp => ?_).symm⟩
    obtain ⟨i, hi, hfor⟩ := List.any_eq_true.mp ((any_isFor_iff hT.toWF ht).mpr hp)
    exact List.find?_eq_none.mp hf i hi hfor
  | some i =>
    obtain ⟨s, hs, rfl⟩ := (hT.clients h i).mp (List.mem_of_find?_eq_some hf)
    have hfor := List.find?_some hf
    simp only [isFor, hs, beq_iff_eq] at hfor
    subst hfor
    obtain ⟨hwf, hP, hpairs, -⟩ := leave_spec hT.toWF hT.populated hs ht
    exact ⟨⟨hwf, hP⟩, hpairs⟩

/-- A way to subscribe connections to a topic that reaches those that `ok` holds of. -/
def Enters (ok : HybiId → Prop) (t : TopicId) (k : RouteId × Bytes) (f : HybiId → Topics → Topics) :
    Prop :=
  ∀ h T, T.WF → T.key t = some k →
    (f h T).WF ∧ (f h T).pairs = T.pairs ∪ {p | p = (h, k) ∧ ok h} ∧
      (∀ u, (f h T).key u = T.key u) ∧ (∀ u, u ≠ t → (f h T).subscribers u = T.subscribers u) ∧
      ∀ i s, T.sub.get i = some s → (f h T).sub.get i = some s

lemma enters_topicSubscribe (t : TopicId) (k : RouteId × Bytes) :
    Enters (fun _ => True) t k fun h T => T.topicSubscribe h t := by
  intro h T hT ht
  obtain ⟨hwf, hpairs, hrest⟩ := topicSubscribe_spec (h := h) hT ht
  refine ⟨hwf, ?_, hrest⟩
  rw [hpairs, Set.union_comm]
  simp only [and_true]
  rfl

variable {ok : HybiId → Prop} {f : HybiId → Topics → Topics}

/-- The loop of `topic_clone`. -/
lemma clone_loop (hf : Enters ok t k f) {l : List SubId} (hT : T.WF) (ht : T.key t = some k)
    (hl : ∀ i ∈ l, T.sub.get i ≠ none) :
    let T' := l.foldl (fun T i =>
      match T.sub.get i with
      | some s => f s.connection T
      | none => T) T
    T'.WF ∧ (∀ u, T'.key u = T.key u) ∧ (∀ u, u ≠ t → T'.subscribers u = T.subscribers u) ∧
      T'.pairs = T.pairs ∪ {p | p.2 = k ∧
        (∃ i ∈ l, ∃ s, T.sub.get i = some s ∧ s.connection = p.1) ∧ ok p.1} := by
  induction l generalizing T with
  | nil =>
    refine ⟨hT, fun _ => rfl, fun _ _ => rfl, ?_⟩
    ext p
    simp
  | cons i l ih =>
    obtain ⟨s, hs⟩ := Option.ne_none_iff_exists'.mp (hl i (by simp))
    obtain ⟨hwf, hpairs, hkey, hothers, hold⟩ := hf s.connection T hT ht
    have hget : ∀ j ∈ l, (f s.connection T).sub.get j = T.sub.get j := by
      intro j hj
      obtain ⟨s', hs'⟩ := Option.ne_none_iff_exists'.mp (hl j (by simp [hj]))
      rw [hold j s' hs', hs']
    obtain ⟨hwf', hkey', hothers', hpairs'⟩ := ih hwf (by rw [hkey, ht])
      (fun j hj => by rw [hget j hj]; exact hl j (by simp [hj]))
    simp only [List.foldl_cons, hs]
    refine ⟨hwf', fun u => by rw [hkey', hkey], fun u hu => by rw [hothers' u hu, hothers u hu], ?_⟩
    rw [hpairs', hpairs, Set.union_assoc]
    congr 1
    ext ⟨g, k'⟩
    simp only [Set.mem_union, Set.mem_ofPred_eq, List.mem_cons, Prod.mk.injEq]
    constructor
    · rintro (⟨⟨rfl, rfl⟩, hok⟩ | ⟨hk, ⟨j, hj, s', hs', hp⟩, hok⟩)
      · exact ⟨rfl, ⟨i, Or.inl rfl, s, hs, rfl⟩, hok⟩
      · exact ⟨hk, ⟨j, Or.inr hj, s', by rwa [hget j hj] at hs', hp⟩, hok⟩
    · rintro ⟨hk, ⟨j, rfl | hj, s', hs', hp⟩, hok⟩
      · rw [hs] at hs'
        cases hs'
        exact Or.inl ⟨⟨hp.symm, hk⟩, hp ▸ hok⟩
      · exact Or.inr ⟨hk, ⟨j, hj, s', by rw [hget j hj]; exact hs', hp⟩, hok⟩

/-- A topic that is left without subscribers goes. -/
lemma freeEmpty_spec (hT : T.WF) (hP : T.Populated {t}) (ht : T.key t = some k) :
    (if (T.subscribers t).isEmpty then T.freeTopic t else T).Tidy ∧
      (if (T.subscribers t).isEmpty then T.freeTopic t else T).pairs = T.pairs := by
  by_cases hempty : T.subscribers t = []
  · rw [if_pos (by simp [hempty])]
    refine ⟨⟨(freeTopic_spec hT ht).1, Populated.freeTopic hT (by simpa using hP) ht⟩, ?_⟩
    rw [freeTopic_of_empty hempty, pairs_removeTopic hT hempty]
  · rw [if_neg (by simpa using hempty)]
    refine ⟨⟨hT, fun u hu _ => ?_⟩, rfl⟩
    by_cases hut : u = t
    · rwa [hut]
    · exact hP u hu (by simpa using hut)

/-- `topic_clone`, however it subscribes. -/
lemma clone_spec {v : TopicId} {k' : RouteId × Bytes} (hf : Enters ok t k f) (hT : T.WF)
    (hP : T.Populated {t}) (hv : T.key v = some k') (ht : T.key t = some k) :
    let T' := (T.subscribers v).foldl (fun T i =>
      match T.sub.get i with
      | some s => f s.connection T
      | none => T) T
    (if (T'.subscribers t).isEmpty then T'.freeTopic t else T').Tidy ∧
      (if (T'.subscribers t).isEmpty then T'.freeTopic t else T').pairs
        = T.pairs ∪ {p | p.2 = k ∧ (p.1, k') ∈ T.pairs ∧ ok p.1} := by
  intro T'
  obtain ⟨hwf, hkey, hothers, hpairs⟩ :=
    clone_loop hf (l := T.subscribers v) hT ht fun i hi hn => by
      obtain ⟨s, hs, -⟩ := (hT.subscribers v i).mp hi
      rw [hn] at hs
      cases hs
  have hP' : T'.Populated {t} := by
    intro u hu hut
    rw [hothers u hut]
    exact hP u (by rwa [hkey] at hu) hut
  obtain ⟨htidy, hsame⟩ := freeEmpty_spec hwf hP' (by rw [hkey, ht])
  refine ⟨htidy, (hsame.trans hpairs).trans ?_⟩
  congr 1
  ext p
  simp only [Set.mem_ofPred_eq, mem_pairs_of_key hT hv]
  refine and_congr_right fun _ => and_congr_left fun _ => ?_
  constructor
  · rintro ⟨i, hi, s, hs, hp⟩
    obtain ⟨s', hs', rfl⟩ := (hT.subscribers v i).mp hi
    rw [hs] at hs'
    cases hs'
    exact ⟨i, by rw [hs, ← hp]⟩
  · rintro ⟨i, hi⟩
    exact ⟨i, (hT.subscribers v i).mpr ⟨_, hi, rfl⟩, _, hi, rfl⟩

lemma topicClone_spec {v : TopicId} {k' : RouteId × Bytes} (hT : T.WF) (hP : T.Populated {t})
    (hv : T.key v = some k') (ht : T.key t = some k) :
    (T.topicClone v t).Tidy ∧
      (T.topicClone v t).pairs = T.pairs ∪ {p | p.2 = k ∧ (p.1, k') ∈ T.pairs} := by
  obtain ⟨htidy, hpairs⟩ := clone_spec (enters_topicSubscribe t k) hT hP hv ht
  simp only [and_true] at hpairs
  exact ⟨htidy, hpairs⟩

/-- The loop of `hybi_stop` over the subscriptions of one connection. -/
lemma stop_loop {l : List SubId} (hT : T.Tidy) (hl : T.clients h = l) :
    (l.foldl (fun T i => T.leave i) T).Tidy ∧
      (l.foldl (fun T i => T.leave i) T).clients h = [] ∧
      (∀ g, g ≠ h → (l.foldl (fun T i => T.leave i) T).clients g = T.clients g) ∧
      (∀ i s, (l.foldl (fun T i => T.leave i) T).sub.get i = some s ↔
        T.sub.get i = some s ∧ s.connection ≠ h) ∧
      (∀ u, ((l.foldl (fun T i => T.leave i) T).subscribers u)
        = (T.subscribers u).filter fun i => i ∉ l) ∧
      (l.foldl (fun T i => T.leave i) T).pairs = {p ∈ T.pairs | p.1 ≠ h} := by
  induction l generalizing T with
  | nil =>
    have hnone : ∀ i s, T.sub.get i = some s → s.connection ≠ h := by
      rintro i s hs rfl
      have hi : i ∈ T.clients s.connection := (hT.clients _ i).mpr ⟨s, hs, rfl⟩
      rw [hl] at hi
      cases hi
    refine ⟨hT, hl, fun _ _ => rfl, fun i s => ?_, fun u => by simp, ?_⟩
    · simp only [List.foldl_nil, iff_self_and]
      exact hnone i s
    · ext p
      simp only [List.foldl_nil, Set.mem_ofPred_eq, iff_self_and, mem_pairs]
      rintro ⟨i, s, hs, hp, -⟩
      rw [← hp]
      exact hnone i s hs
  | cons i l ih =>
    obtain ⟨s, hs, rfl⟩ := (hT.clients h i).mp (by simp [hl])
    obtain ⟨k, hk⟩ := Option.ne_none_iff_exists'.mp (hT.key_ne_none hs)
    obtain ⟨hwf, hP, hpairs, hsub, hclients, hsubs⟩ := leave_spec hT.toWF hT.populated hs hk
    have hrest : (T.leave i).clients s.connection = l := by
      rw [hclients, if_pos rfl, hl, List.erase_cons_head]
    obtain ⟨htidy, hempty, hothers, hsub', hsubs', hpairs'⟩ := ih ⟨hwf, hP⟩ hrest
    simp only [List.foldl_cons]
    refine ⟨htidy, hempty, fun g hg => ?_, fun j s' => ?_, fun u => ?_, ?_⟩
    · rw [hothers g hg, hclients, if_neg hg]
    · rw [hsub', hsub, Heap.get_free]
      by_cases hj : j = i
      · subst hj
        simp only [if_true, hs]
        constructor
        · rintro ⟨⟨⟩, -⟩
        · rintro ⟨⟨⟩, hne⟩
          exact absurd rfl hne
      · rw [if_neg hj]
    · rw [hsubs', hsubs]
      split_ifs with hu
      · subst hu
        rw [(hT.subscribersNodup s.topic).erase_eq_filter, List.filter_filter]
        apply List.filter_congr
        intro j _
        by_cases hj : j = i <;> simp [hj]
      · apply List.filter_congr
        intro j hj
        have hji : j ≠ i := by
          rintro rfl
          obtain ⟨s', hs', rfl⟩ := (hT.subscribers u j).mp hj
          rw [hs] at hs'
          cases hs'
          exact hu rfl
        simp [hji]
    · rw [hpairs', hpairs]
      ext p
      simp only [Set.mem_ofPred_eq, Set.mem_sdiff, Set.mem_singleton_iff]
      constructor
      · rintro ⟨⟨hp, -⟩, hne⟩
        exact ⟨hp, hne⟩
      · rintro ⟨hp, hne⟩
        exact ⟨⟨hp, fun he => hne (by rw [he])⟩, hne⟩

/-! ### The commands -/

/-- Who is subscribed to what: the purpose of the tables. -/
abbrev Roster := Set Subscription

namespace Roster

def subscribe (h : HybiId) (r : RouteId) (name : Bytes) (R : Roster) : Roster :=
  insert (h, r, name) R

def unsubscribe (h : HybiId) (r : RouteId) (name : Bytes) (R : Roster) : Roster :=
  R \ {(h, r, name)}

/-- Whoever is subscribed to `source` gets `target` too. -/
def clone (r : RouteId) (source target : Bytes) (R : Roster) : Roster :=
  R ∪ {p | p.2 = (r, target) ∧ (p.1, r, source) ∈ R}

def drop (r : RouteId) (name : Bytes) (R : Roster) : Roster := {p ∈ R | p.2 ≠ (r, name)}

def stop (h : HybiId) (R : Roster) : Roster := {p ∈ R | p.1 ≠ h}

end Roster

lemma Populated.of_findTopic {T' : Topics} (hP : T.Populated ∅)
    (hsubs : T'.subscribers = T.subscribers)
    (hkey : ∀ u, u ≠ t → T'.key u = T.key u) : T'.Populated {t} := by
  intro u hu hut
  rw [hkey u (by simpa using hut)] at hu
  rw [hsubs]
  exact hP u hu (Set.notMem_empty u)

/-- What holds of the connections of all subscriptions holds of the pairs, and vice versa. -/
lemma SubsLinked.forall_connection_iff (hT : T.SubsLinked) {L : HybiId → Prop} :
    (∀ i s, T.sub.get i = some s → L s.connection) ↔ ∀ p ∈ T.pairs, L p.1 := by
  constructor
  · intro hL p hp
    obtain ⟨i, s, hs, hconn, -⟩ := mem_pairs.mp hp
    exact hconn ▸ hL i s hs
  · intro hL i s hs
    obtain ⟨k, hk⟩ := Option.ne_none_iff_exists'.mp (hT.key_ne_none hs)
    exact hL (s.connection, k) (mem_pairs.mpr ⟨i, s, hs, rfl, hk⟩)

variable (h r name size) in
/-- `subscribe` inserts one pair. -/
lemma Tidy.subscribe (hT : T.Tidy) :
    (T.subscribe size h r name).Tidy ∧
      (T.subscribe size h r name).pairs = Roster.subscribe h r name T.pairs := by
  obtain ⟨t, T', hfind, hwf, ht, -, -, hsubs, hpairs, hkey, -⟩ :=
    findTopic_true r name size hT.toWF
  obtain ⟨hwf', hpairs', -⟩ := topicSubscribe_spec (h := h) hwf ht
  have hP := Populated.of_findTopic hT.populated hsubs hkey
  simp only [Topics.subscribe, hfind]
  exact ⟨⟨hwf', Populated.topicSubscribe hwf (by simpa using hP) ht⟩,
    by rw [hpairs', hpairs, Roster.subscribe]⟩

/-- A topic that is not stored occurs in no pair. -/
lemma not_mem_pairs (hnone : ∀ t, T.key t ≠ some k) : (h, k) ∉ T.pairs := by
  intro hp
  obtain ⟨i, s, -, -, hk⟩ := mem_pairs.mp hp
  exact hnone _ hk

variable (h r name size) in
/-- `unsubscribe` deletes one pair. -/
lemma Tidy.unsubscribe (hT : T.Tidy) :
    (T.unsubscribe size h r name).Tidy ∧
      (T.unsubscribe size h r name).pairs = Roster.unsubscribe h r name T.pairs := by
  rcases findTopic_false r name size hT.toWF with
    ⟨t, hfind, ht⟩ | ⟨hfind, hnone⟩
  · simp only [Topics.unsubscribe, hfind]
    exact topicUnsubscribe_spec hT ht
  · simp only [Topics.unsubscribe, hfind]
    exact ⟨hT, (Set.sdiff_singleton_eq_self (not_mem_pairs hnone)).symm⟩

variable (r size) in
/-- `clone` adds the target for every subscriber of the source, and keeps all pairs. -/
lemma Tidy.clone (source target : Bytes) (hT : T.Tidy) :
    (T.clone size r source target).Tidy ∧
      (T.clone size r source target).pairs = Roster.clone r source target T.pairs := by
  rcases findTopic_false r source size hT.toWF with
    ⟨v, hfind, hv⟩ | ⟨hfind, hnone⟩
  · obtain ⟨t, T', hfind', hwf, ht, -, -, hsubs, hpairs, hkey, hold⟩ :=
      findTopic_true r target size hT.toWF
    have hv' : T'.key v = some (r, source) := by rw [hold v (by simp [hv]), hv]
    have hP := Populated.of_findTopic hT.populated hsubs hkey
    simp only [Topics.clone, hfind, hfind']
    obtain ⟨htidy, hpairs'⟩ := topicClone_spec hwf hP hv' ht
    exact ⟨htidy, by rw [hpairs', hpairs, Roster.clone]⟩
  · simp only [Topics.clone, hfind]
    refine ⟨hT, ?_⟩
    ext p
    simp [Roster.clone, not_mem_pairs hnone]

variable (r name size) in
/-- `drop` deletes all pairs of a topic. -/
lemma Tidy.drop (hT : T.Tidy) :
    (T.drop size r name).Tidy ∧
      (T.drop size r name).pairs = Roster.drop r name T.pairs := by
  rcases findTopic_false r name size hT.toWF with
    ⟨t, hfind, ht⟩ | ⟨hfind, hnone⟩
  · simp only [Topics.drop, hfind]
    obtain ⟨hwf, hpairs, -⟩ := freeTopic_spec hT.toWF ht
    refine ⟨⟨hwf, Populated.freeTopic hT.toWF (fun u hu _ => ?_) ht⟩, hpairs⟩
    exact hT.populated u hu (Set.notMem_empty u)
  · simp only [Topics.drop, hfind]
    refine ⟨hT, ?_⟩
    ext ⟨g, k⟩
    simp only [Roster.drop, Set.mem_ofPred_eq, ne_eq, iff_self_and]
    rintro hp rfl
    exact not_mem_pairs hnone hp

/-- The loop of `hybi_stop` deletes all pairs of a connection, and frees no subscription of another
connection. -/
lemma Tidy.stop (hT : T.Tidy) :
    (T.stop h).Tidy ∧ (T.stop h).pairs = Roster.stop h T.pairs ∧ (T.stop h).clients h = [] ∧
      (∀ i s, (T.stop h).sub.get i = some s ↔ T.sub.get i = some s ∧ s.connection ≠ h) ∧
      ∀ u, (T.stop h).subscribers u = (T.subscribers u).filter fun i => i ∉ T.clients h := by
  obtain ⟨htidy, hempty, -, hsub, hsubs, hpairs⟩ := stop_loop (h := h) hT rfl
  exact ⟨htidy, hpairs, hempty, hsub, hsubs⟩

lemma Tidy.init : Topics.init.Tidy :=
  ⟨WF.init, fun t ht _ => absurd (by simp [key, Topics.init]) ht⟩

lemma pairs_init : Topics.init.pairs = ∅ := by
  ext p
  simp [pairs, Topics.init]

/-! ### Where the pairs are found -/

/-- The pairs in the hash tables and the lists of their topics. -/
def pairsByTopic (T : Topics) : Set Subscription :=
  {p | ∃ table k t i s, T.tables p.2.1 = some table ∧ t ∈ table.cells k ∧ T.key t = some p.2 ∧
    i ∈ T.subscribers t ∧ T.sub.get i = some s ∧ s.connection = p.1}

/-- The pairs in the lists of the connections. -/
def pairsByClient (T : Topics) : Set Subscription :=
  {p | ∃ i s, i ∈ T.clients p.1 ∧ T.sub.get i = some s ∧ T.key s.topic = some p.2}

lemma pairsByTopic_eq (hT : T.WF) : T.pairsByTopic = T.pairs := by
  ext p
  rw [mem_pairs]
  constructor
  · rintro ⟨table, k, t, i, s, -, -, hkey, hi, hs, hconn⟩
    obtain ⟨s', hs', rfl⟩ := (hT.subscribers t i).mp hi
    obtain rfl : s = s' := Option.some.inj (hs.symm.trans hs')
    exact ⟨i, s, hs, hconn, hkey⟩
  · rintro ⟨i, s, hs, hconn, hkey⟩
    obtain ⟨table, htable⟩ := Option.ne_none_iff_exists'.mp (hT.stored s.topic p.2.1 p.2.2 hkey)
    exact ⟨table, _, s.topic, i, s, htable, (hT.cells _ _ _ _ htable).mpr ⟨p.2.2, hkey, rfl⟩, hkey,
      (hT.subscribers _ i).mpr ⟨s, hs, rfl⟩, hs, hconn⟩

lemma pairsByClient_eq (hT : T.WF) : T.pairsByClient = T.pairs := by
  ext p
  rw [mem_pairs]
  constructor
  · rintro ⟨i, s, hi, hs, hkey⟩
    obtain ⟨s', hs', hconn⟩ := (hT.clients p.1 i).mp hi
    obtain rfl : s = s' := Option.some.inj (hs.symm.trans hs')
    exact ⟨i, s, hs, hconn, hkey⟩
  · rintro ⟨i, s, hs, hconn, hkey⟩
    exact ⟨i, s, (hT.clients _ i).mpr ⟨s, hs, hconn⟩, hs, hkey⟩

end Topics

end Zerogw
