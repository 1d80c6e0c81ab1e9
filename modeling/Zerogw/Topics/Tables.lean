import Zerogw.Topics.Links

/-!
# The hash tables and the counters

Where a topic is stored, what the counters count, and the invariant `WF` of the tables as a whole,
which the four primitive updates preserve.
-/

namespace Zerogw

namespace Topics

variable {T : Topics} {t : TopicId} {i : SubId} {h : HybiId} {r : RouteId} {name : Bytes}
  {s : Subscriber} {c : Topic}

/-- Every topic is in the cell its name selects in the table of its route, once and nowhere else,
and no two topics of a route have the same name. -/
structure TopicsLinked (T : Topics) : Prop where
  cells : ∀ r table k t, T.tables r = some table →
    (t ∈ table.cells k ↔
      ∃ name, T.key t = some (r, name) ∧ k = table.cellOf (topicHash name))
  cellsNodup : ∀ r table k, T.tables r = some table → (table.cells k).Nodup
  stored : ∀ t r name, T.key t = some (r, name) → T.tables r ≠ none
  hash : ∀ t c, T.topic.get t = some c → c.hash = topicHash c.name
  keysUnique : ∀ t u k, T.key t = some k → T.key u = some k → t = u

/-- A topic of route `r`. -/
def ofRoute (r : RouteId) (c : Topic) : Bool := c.table = r

/-- A subscription to a topic of route `r`. -/
def subOfRoute (r : RouteId) (T : Topics) (s : Subscriber) : Bool :=
  (T.key s.topic).any fun k => k.1 = r

/-- The counters say how many topics and subscriptions there are. -/
structure Counted (T : Topics) : Prop where
  ntopics : ∀ r table, T.tables r = some table → table.ntopics = T.topic.count (ofRoute r)
  nsubscriptions : ∀ r table, T.tables r = some table →
    table.nsubscriptions = T.sub.count (T.subOfRoute r)
  topics : T.topicsCreated = T.topicsRemoved + T.topic.count fun _ => true
  subscriptions : T.websockSubscribed = T.websockUnsubscribed + T.sub.count fun _ => true

structure WF (T : Topics) : Prop extends SubsLinked T, TopicsLinked T, Counted T

/-! ### A new topic -/

lemma addTopic_topic : (T.addTopic r name).2.topic
    = T.topic.alloc ⟨r, topicHash name, name, []⟩ := rfl

lemma addTopic_tables (q : RouteId) : (T.addTopic r name).2.tables q
    = if q = r then (T.tables r).map fun table =>
        { table with
          ntopics := table.ntopics + 1
          cells := Function.update table.cells (table.cellOf (topicHash name))
            (T.topic.next :: table.cells (table.cellOf (topicHash name))) }
      else T.tables q :=
  setTable_tables _ q

lemma key_next : T.key T.topic.next = none := by simp [key]

lemma TopicsLinked.addTopic (hT : T.TopicsLinked) (hr : T.tables r ≠ none)
    (hnew : ∀ t, T.key t ≠ some (r, name)) : (T.addTopic r name).2.TopicsLinked := by
  obtain ⟨table, htable⟩ := Option.ne_none_iff_exists'.mp hr
  have hdangling : ∀ k, T.topic.next ∉ table.cells k := by
    intro k hk
    obtain ⟨n, hn, -⟩ := (hT.cells r table k _ htable).mp hk
    rw [key_next] at hn
    cases hn
  constructor
  · intro q table' k u hq
    rw [addTopic_tables] at hq
    by_cases hqr : q = r
    · subst hqr
      rw [if_pos rfl, htable] at hq
      cases hq
      change u ∈ Function.update table.cells (table.cellOf (topicHash name))
        (T.topic.next :: table.cells (table.cellOf (topicHash name))) k ↔
          ∃ n, _ ∧ k = table.cellOf (topicHash n)
      by_cases hu : u = T.topic.next
      · subst hu
        by_cases hk : k = table.cellOf (topicHash name)
        · simp [hk, key_addTopic]
        · simp [hk, key_addTopic, hdangling]
      · by_cases hk : k = table.cellOf (topicHash name)
        · subst hk
          simp [hu, key_addTopic, hT.cells q table _ _ htable]
        · simp [hk, hu, key_addTopic, hT.cells q table _ _ htable]
    · rw [if_neg hqr] at hq
      rw [hT.cells q table' k u hq]
      have hne : ∀ n, (u = T.topic.next ∧ (r, name) = (q, n)) → False :=
        fun n hn => hqr (congrArg Prod.fst hn.2).symm
      by_cases hu : u = T.topic.next
      · subst hu
        simp [key_addTopic, key_next, Ne.symm hqr]
      · simp [key_addTopic, hu]
  · intro q table' k hq
    rw [addTopic_tables] at hq
    by_cases hqr : q = r
    · subst hqr
      rw [if_pos rfl, htable] at hq
      cases hq
      change (Function.update table.cells (table.cellOf (topicHash name))
        (T.topic.next :: table.cells (table.cellOf (topicHash name))) k).Nodup
      by_cases hk : k = table.cellOf (topicHash name)
      · subst hk
        rw [Function.update_self]
        exact List.nodup_cons.mpr ⟨hdangling _, hT.cellsNodup q table _ htable⟩
      · rw [Function.update_of_ne hk]
        exact hT.cellsNodup q table k htable
    · rw [if_neg hqr] at hq
      exact hT.cellsNodup q table' k hq
  · intro u q n hu
    rw [addTopic_tables]
    rw [key_addTopic] at hu
    by_cases hqr : q = r
    · simp [hqr, htable]
    · rw [if_neg hqr]
      split_ifs at hu with hnext
      · cases hu
        exact absurd rfl hqr
      · exact hT.stored u q n hu
  · intro u c hc
    rw [addTopic_topic, Heap.get_alloc] at hc
    split_ifs at hc with hnext
    · cases hc
      rfl
    · exact hT.hash u c hc
  · intro u v k hu hv
    rw [key_addTopic] at hu hv
    split_ifs at hu hv with h₁ h₂ h₂
    · rw [h₁, h₂]
    · cases hu
      exact absurd hv (hnew v)
    · cases hv
      exact absurd hu (hnew u)
    · exact hT.keysUnique u v k hu hv

lemma Counted.addTopic (hT : T.Counted) (hS : T.SubsLinked) :
    (T.addTopic r name).2.Counted := by
  have hsubs : ∀ q, T.sub.count ((T.addTopic r name).2.subOfRoute q)
      = T.sub.count (T.subOfRoute q) := by
    intro q
    apply Heap.count_congr
    intro i s hs
    have hne : s.topic ≠ T.topic.next := hS.ne_of_key_none hs key_next
    simp [subOfRoute, key_addTopic, hne]
  constructor
  · intro q table' hq
    rw [addTopic_tables] at hq
    rw [addTopic_topic, Heap.count_alloc]
    by_cases hqr : q = r
    · subst hqr
      rw [if_pos rfl] at hq
      obtain ⟨table, htable, rfl⟩ := Option.map_eq_some_iff.mp hq
      simp [hT.ntopics q table htable, ofRoute]
    · rw [if_neg hqr] at hq
      simp [hT.ntopics q table' hq, ofRoute, Ne.symm hqr]
  · intro q table' hq
    rw [addTopic_tables] at hq
    rw [addTopic_sub, hsubs]
    by_cases hqr : q = r
    · subst hqr
      rw [if_pos rfl] at hq
      obtain ⟨table, htable, rfl⟩ := Option.map_eq_some_iff.mp hq
      exact hT.nsubscriptions q table htable
    · rw [if_neg hqr] at hq
      exact hT.nsubscriptions q table' hq
  · rw [addTopic_topic, Heap.count_alloc]
    change T.topicsCreated + 1 = T.topicsRemoved + _
    rw [hT.topics]
    simp [add_assoc]
  · exact hT.subscriptions

lemma WF.addTopic (hT : T.WF) (hr : T.tables r ≠ none)
    (hnew : ∀ t, T.key t ≠ some (r, name)) : (T.addTopic r name).2.WF :=
  ⟨hT.toSubsLinked.addTopic, hT.toTopicsLinked.addTopic hr hnew,
    hT.toCounted.addTopic hT.toSubsLinked⟩

/-! ### Subscriptions come and go -/

section fields

lemma addSub_topic (hc : T.topic.get t = some c) : (T.addSub h t).topic
    = T.topic.modify t fun c => { c with subscribers := T.sub.next :: c.subscribers } := by
  rw [addSub_eq hc]
  rfl

lemma addSub_tables (hc : T.topic.get t = some c) (q : RouteId) : (T.addSub h t).tables q
    = if q = c.table then (T.tables q).map fun table =>
        { table with nsubscriptions := table.nsubscriptions + 1 }
      else T.tables q := by
  rw [addSub_eq hc, setTable_tables]
  split_ifs with hq
  · rw [hq]
  · rfl

lemma removeSub_topic (hs : T.sub.get i = some s) (hc : T.topic.get s.topic = some c) :
    (T.removeSub i).topic
      = T.topic.modify s.topic fun c => { c with subscribers := c.subscribers.erase i } := by
  rw [removeSub_eq hs hc]
  rfl

lemma removeSub_tables (hs : T.sub.get i = some s) (hc : T.topic.get s.topic = some c)
    (q : RouteId) : (T.removeSub i).tables q
    = if q = c.table then (T.tables q).map fun table =>
        { table with nsubscriptions := table.nsubscriptions - 1 }
      else T.tables q := by
  rw [removeSub_eq hs hc, setTable_tables]
  split_ifs with hq
  · rw [hq]
  · rfl

end fields

/-- An update that touches neither the topics' names nor the cells. -/
lemma TopicsLinked.of_cells {T' : Topics} (hT : T.TopicsLinked)
    (hkey : ∀ u, T'.key u = T.key u)
    (htopic : ∀ u c', T'.topic.get u = some c' →
      ∃ c, T.topic.get u = some c ∧ c'.hash = c.hash ∧ c'.name = c.name)
    (htables : ∀ q, (T'.tables q).map (fun table => (table.hashSize, table.cells))
      = (T.tables q).map fun table => (table.hashSize, table.cells)) : T'.TopicsLinked := by
  have htable : ∀ q table', T'.tables q = some table' →
      ∃ table, T.tables q = some table ∧ table'.hashSize = table.hashSize ∧
        table'.cells = table.cells := by
    intro q table' hq
    have hq' := htables q
    rw [hq, Option.map_some] at hq'
    obtain ⟨table, htable, he⟩ := Option.map_eq_some_iff.mp hq'.symm
    exact ⟨table, htable, (congrArg Prod.fst he).symm, (congrArg Prod.snd he).symm⟩
  constructor
  · intro q table' k u hq
    obtain ⟨table, htable, hsize, hcells⟩ := htable q table' hq
    rw [hcells, hT.cells q table k u htable]
    simp only [hkey, TopicHash.cellOf, hsize]
  · intro q table' k hq
    obtain ⟨table, htable, -, hcells⟩ := htable q table' hq
    rw [hcells]
    exact hT.cellsNodup q table k htable
  · intro u q n hu hq
    have hq' := htables q
    rw [hkey] at hu
    rw [hq, Option.map_none, eq_comm, Option.map_eq_none_iff] at hq'
    exact hT.stored u q n hu hq'
  · intro u c' hc'
    obtain ⟨c, hc, hhash, hname⟩ := htopic u c' hc'
    rw [hhash, hname]
    exact hT.hash u c hc
  · intro u v k
    rw [hkey, hkey]
    exact hT.keysUnique u v k

lemma TopicsLinked.addSub (hT : T.TopicsLinked) (hc : T.topic.get t = some c) :
    (T.addSub h t).TopicsLinked := by
  refine hT.of_cells key_addSub ?_ ?_
  · intro u c' hu
    rw [addSub_topic hc, Heap.get_modify] at hu
    split_ifs at hu with hut
    · rw [hc] at hu
      cases hu
      exact ⟨c, hut ▸ hc, rfl, rfl⟩
    · exact ⟨c', hu, rfl, rfl⟩
  · intro q
    rw [addSub_tables hc]
    split_ifs <;> simp [Function.comp_def]

lemma TopicsLinked.removeSub (hT : T.TopicsLinked) (hs : T.sub.get i = some s)
    (hc : T.topic.get s.topic = some c) : (T.removeSub i).TopicsLinked := by
  refine hT.of_cells key_removeSub ?_ ?_
  · intro u c' hu
    rw [removeSub_topic hs hc, Heap.get_modify] at hu
    split_ifs at hu with hut
    · rw [hc] at hu
      cases hu
      exact ⟨c, hut ▸ hc, rfl, rfl⟩
    · exact ⟨c', hu, rfl, rfl⟩
  · intro q
    rw [removeSub_tables hs hc]
    split_ifs <;> simp [Function.comp_def]

/-- The topic of a stored subscription decides which route counts it. -/
lemma subOfRoute_of_get (hc : T.topic.get s.topic = some c) (q : RouteId) :
    T.subOfRoute q s = decide (c.table = q) := by
  simp [subOfRoute, key_of_get hc]

lemma subOfRoute_congr {T' : Topics} (hkey : ∀ u, T'.key u = T.key u) (q : RouteId) :
    T'.subOfRoute q = T.subOfRoute q := by
  funext s
  simp [subOfRoute, hkey]

lemma Counted.addSub (hT : T.Counted) (hc : T.topic.get t = some c) :
    (T.addSub h t).Counted := by
  have htopics : ∀ q, (T.addSub h t).topic.count (ofRoute q) = T.topic.count (ofRoute q) := by
    intro q
    rw [addSub_topic hc]
    exact Heap.count_modify _ (by intros; rfl)
  constructor
  · intro q table' hq
    rw [addSub_tables hc] at hq
    rw [htopics]
    split_ifs at hq
    · obtain ⟨table, htable, rfl⟩ := Option.map_eq_some_iff.mp hq
      exact hT.ntopics q table htable
    · exact hT.ntopics q table' hq
  · intro q table' hq
    rw [addSub_tables hc] at hq
    rw [addSub_sub hc, Heap.count_alloc, subOfRoute_congr key_addSub,
      subOfRoute_of_get (s := ⟨t, h⟩) hc]
    split_ifs at hq with hqr
    · obtain ⟨table, htable, rfl⟩ := Option.map_eq_some_iff.mp hq
      have hold := hT.nsubscriptions q table htable
      rw [if_pos (by simp [hqr])]
      change table.nsubscriptions + 1 = _
      omega
    · simp [hT.nsubscriptions q table' hq, Ne.symm hqr]
  · have hcount : (T.addSub h t).topic.count (fun _ => true) = T.topic.count fun _ => true := by
      rw [addSub_topic hc]
      exact Heap.count_modify _ (by intros; rfl)
    rw [hcount, addSub_eq hc]
    exact hT.topics
  · have hold := hT.subscriptions
    rw [addSub_sub hc, Heap.count_alloc, addSub_eq hc]
    change T.websockSubscribed + 1 = T.websockUnsubscribed + _
    rw [if_pos rfl]
    omega

lemma Counted.removeSub (hT : T.Counted) (hs : T.sub.get i = some s)
    (hc : T.topic.get s.topic = some c) : (T.removeSub i).Counted := by
  have htopics : ∀ q, (T.removeSub i).topic.count (ofRoute q) = T.topic.count (ofRoute q) := by
    intro q
    rw [removeSub_topic hs hc]
    exact Heap.count_modify _ (by intros; rfl)
  constructor
  · intro q table' hq
    rw [removeSub_tables hs hc] at hq
    rw [htopics]
    split_ifs at hq
    · obtain ⟨table, htable, rfl⟩ := Option.map_eq_some_iff.mp hq
      exact hT.ntopics q table htable
    · exact hT.ntopics q table' hq
  · intro q table' hq
    rw [removeSub_tables hs hc] at hq
    rw [removeSub_sub hs hc, subOfRoute_congr key_removeSub]
    have hcount := Heap.count_free (T.subOfRoute q) hs
    rw [subOfRoute_of_get hc] at hcount
    split_ifs at hq with hqr
    · obtain ⟨table, htable, rfl⟩ := Option.map_eq_some_iff.mp hq
      have hold := hT.nsubscriptions q table htable
      rw [if_pos (by simp [hqr])] at hcount
      change table.nsubscriptions - 1 = _
      omega
    · have hold := hT.nsubscriptions q table' hq
      rw [if_neg (by simp [Ne.symm hqr])] at hcount
      omega
  · have hcount : (T.removeSub i).topic.count (fun _ => true) = T.topic.count fun _ => true := by
      rw [removeSub_topic hs hc]
      exact Heap.count_modify _ (by intros; rfl)
    rw [hcount, removeSub_eq hs hc]
    exact hT.topics
  · have hold := hT.subscriptions
    have hcount := Heap.count_free (fun _ => true) hs
    rw [if_pos rfl] at hcount
    rw [removeSub_sub hs hc, removeSub_eq hs hc]
    change T.websockSubscribed = T.websockUnsubscribed + 1 + _
    omega

lemma WF.addSub (hT : T.WF) (hc : T.topic.get t = some c)
    (hnew : ∀ i, T.sub.get i ≠ some ⟨t, h⟩) : (T.addSub h t).WF :=
  ⟨hT.toSubsLinked.addSub hc hnew, hT.toTopicsLinked.addSub hc, hT.toCounted.addSub hc⟩

lemma WF.removeSub (hT : T.WF) (hs : T.sub.get i = some s) : (T.removeSub i).WF := by
  obtain ⟨c, hc⟩ := hT.topic_stored hs
  exact ⟨hT.toSubsLinked.removeSub hs, hT.toTopicsLinked.removeSub hs hc,
    hT.toCounted.removeSub hs hc⟩

/-! ### A topic without subscribers goes -/

lemma removeTopic_eq (hc : T.topic.get t = some c) :
    T.removeTopic t = setTable c.table
      (fun table =>
        { table with
          ntopics := table.ntopics - 1
          cells := Function.update table.cells (table.cellOf c.hash)
            ((table.cells (table.cellOf c.hash)).erase t) })
      { T with topic := T.topic.free t, topicsRemoved := T.topicsRemoved + 1 } := by
  simp only [removeTopic, hc]

lemma removeTopic_heap (hc : T.topic.get t = some c) :
    (T.removeTopic t).topic = T.topic.free t := by
  rw [removeTopic_eq hc]
  rfl

lemma removeTopic_tables (hc : T.topic.get t = some c) (q : RouteId) :
    (T.removeTopic t).tables q = if q = c.table then (T.tables q).map fun table =>
        { table with
          ntopics := table.ntopics - 1
          cells := Function.update table.cells (table.cellOf c.hash)
            ((table.cells (table.cellOf c.hash)).erase t) }
      else T.tables q := by
  rw [removeTopic_eq hc, setTable_tables]
  split_ifs with hq
  · rw [hq]
  · rfl

lemma TopicsLinked.removeTopic (hT : T.TopicsLinked) (hc : T.topic.get t = some c) :
    (T.removeTopic t).TopicsLinked := by
  have hkey : ∀ u, (T.removeTopic t).key u = if u = t then none else T.key u := key_removeTopic
  have hhash := hT.hash t c hc
  have ht := key_of_get hc
  constructor
  · intro q table' k u hq
    rw [hkey]
    rw [removeTopic_tables hc] at hq
    split_ifs at hq with hqr
    · obtain ⟨table, htable, rfl⟩ := Option.map_eq_some_iff.mp hq
      subst hqr
      change u ∈ Function.update table.cells (table.cellOf c.hash)
        ((table.cells (table.cellOf c.hash)).erase t) k ↔
          ∃ n, _ ∧ k = table.cellOf (topicHash n)
      by_cases hk : k = table.cellOf c.hash
      · subst hk
        rw [Function.update_self, (hT.cellsNodup _ table _ htable).mem_erase_iff,
          hT.cells _ table _ _ htable]
        by_cases hu : u = t
        · simp [hu]
        · simp [hu]
      · rw [Function.update_of_ne hk, hT.cells _ table _ _ htable]
        by_cases hu : u = t
        · subst hu
          simp only [ht, if_true]
          constructor
          · rintro ⟨n, hn, hkn⟩
            cases hn
            exact absurd (hhash ▸ hkn) hk
          · rintro ⟨n, hn, -⟩
            cases hn
        · simp [hu]
    · rw [hT.cells q table' k u hq]
      by_cases hu : u = t
      · subst hu
        simp [ht, Ne.symm hqr]
      · simp [hu]
  · intro q table' k hq
    rw [removeTopic_tables hc] at hq
    split_ifs at hq with hqr
    · obtain ⟨table, htable, rfl⟩ := Option.map_eq_some_iff.mp hq
      change (Function.update table.cells (table.cellOf c.hash)
        ((table.cells (table.cellOf c.hash)).erase t) k).Nodup
      by_cases hk : k = table.cellOf c.hash
      · subst hk
        rw [Function.update_self]
        exact (hT.cellsNodup _ table _ htable).erase t
      · rw [Function.update_of_ne hk]
        exact hT.cellsNodup _ table k htable
    · exact hT.cellsNodup q table' k hq
  · intro u q n hu hq
    rw [hkey] at hu
    split_ifs at hu with hut
    rw [removeTopic_tables hc] at hq
    split_ifs at hq with hqr
    · exact hT.stored u q n hu (Option.map_eq_none_iff.mp hq)
    · exact hT.stored u q n hu hq
  · intro u c' hc'
    rw [removeTopic_topic, Heap.get_free] at hc'
    split_ifs at hc' with hut
    exact hT.hash u c' hc'
  · intro u v k hu hv
    rw [hkey] at hu hv
    split_ifs at hu hv with h₁ h₂
    exact hT.keysUnique u v k hu hv

lemma Counted.removeTopic (hT : T.Counted) (hS : T.SubsLinked) (hc : T.topic.get t = some c)
    (hempty : T.subscribers t = []) : (T.removeTopic t).Counted := by
  have hsubs : ∀ q, T.sub.count ((T.removeTopic t).subOfRoute q)
      = T.sub.count (T.subOfRoute q) := by
    intro q
    apply Heap.count_congr
    intro i s hs
    have hne : s.topic ≠ t := by
      intro hst
      have hi : i ∈ T.subscribers t := (hS.subscribers t i).mpr ⟨s, hs, hst⟩
      rw [hempty] at hi
      cases hi
    simp [subOfRoute, key_removeTopic, hne]
  constructor
  · intro q table' hq
    rw [removeTopic_tables hc] at hq
    rw [removeTopic_heap hc]
    have hcount := Heap.count_free (ofRoute q) hc
    split_ifs at hq with hqr
    · obtain ⟨table, htable, rfl⟩ := Option.map_eq_some_iff.mp hq
      have hold := hT.ntopics q table htable
      rw [if_pos (by simp [ofRoute, hqr])] at hcount
      change table.ntopics - 1 = _
      omega
    · have hold := hT.ntopics q table' hq
      rw [if_neg (by simp [ofRoute, Ne.symm hqr])] at hcount
      omega
  · intro q table' hq
    rw [removeTopic_tables hc] at hq
    rw [removeTopic_sub, hsubs]
    split_ifs at hq with hqr
    · obtain ⟨table, htable, rfl⟩ := Option.map_eq_some_iff.mp hq
      exact hT.nsubscriptions q table htable
    · exact hT.nsubscriptions q table' hq
  · have hcount := Heap.count_free (fun _ => true) hc
    have hold := hT.topics
    rw [if_pos rfl] at hcount
    rw [removeTopic_heap hc, removeTopic_eq hc]
    change T.topicsCreated = T.topicsRemoved + 1 + _
    omega
  · rw [removeTopic_sub, removeTopic_eq hc]
    exact hT.subscriptions

lemma WF.removeTopic (hT : T.WF) (hc : T.topic.get t = some c)
    (hempty : T.subscribers t = []) : (T.removeTopic t).WF :=
  ⟨hT.toSubsLinked.removeTopic hempty, hT.toTopicsLinked.removeTopic hc,
    hT.toCounted.removeTopic hT.toSubsLinked hc hempty⟩

/-! ### An empty table -/

/-- The table of a route, made for its first topic. -/
def makeTable (size : RouteId → Nat) (r : RouteId) (T : Topics) : Topics :=
  { T with tables := Function.update T.tables r (some ⟨size r, 0, 0, fun _ => []⟩) }

lemma WF.makeTable (size : RouteId → Nat) (hT : T.WF) (hr : T.tables r = none) :
    (T.makeTable size r).WF := by
  have hnone : ∀ t n, T.key t ≠ some (r, n) := fun t n ht => hT.stored t r n ht hr
  have htables : ∀ q, (T.makeTable size r).tables q
      = if q = r then some ⟨size r, 0, 0, fun _ => []⟩ else T.tables q := by
    intro q
    simp [Topics.makeTable, Function.update_apply]
  refine ⟨hT.toSubsLinked.of_eq rfl rfl rfl, ⟨?_, ?_, ?_, hT.hash, hT.toTopicsLinked.keysUnique⟩,
    ⟨?_, ?_, hT.topics, hT.subscriptions⟩⟩
  · intro q table' k u hq
    rw [htables] at hq
    split_ifs at hq with hqr
    · cases hq
      subst hqr
      simp only [List.not_mem_nil, false_iff]
      rintro ⟨n, hn, -⟩
      exact hnone u n hn
    · exact hT.cells q table' k u hq
  · intro q table' k hq
    rw [htables] at hq
    split_ifs at hq with hqr
    · cases hq
      exact List.nodup_nil
    · exact hT.cellsNodup q table' k hq
  · intro u q n hu
    rw [htables]
    split_ifs with hqr
    · simp
    · exact hT.stored u q n hu
  · intro q table' hq
    rw [htables] at hq
    split_ifs at hq with hqr
    · cases hq
      subst hqr
      rw [eq_comm, Int.natCast_eq_zero, Heap.count_eq_zero]
      intro u c hc
      simp only [ofRoute, decide_eq_false_iff_not]
      intro htable
      exact hnone u c.name (by rw [← htable]; exact key_of_get hc)
    · exact hT.ntopics q table' hq
  · intro q table' hq
    rw [htables] at hq
    change table'.nsubscriptions = T.sub.count (T.subOfRoute q)
    split_ifs at hq with hqr
    · cases hq
      subst hqr
      rw [eq_comm, Int.natCast_eq_zero, Heap.count_eq_zero]
      intro i s hs
      obtain ⟨c, hc⟩ := hT.topic_stored hs
      rw [subOfRoute_of_get hc, decide_eq_false_iff_not]
      intro htable
      exact hnone s.topic c.name (by rw [← htable]; exact key_of_get hc)
    · exact hT.nsubscriptions q table' hq

lemma WF.init : init.WF := by
  refine ⟨⟨?_, ?_, ?_, ?_, ?_⟩, ⟨?_, ?_, ?_, ?_, ?_⟩, ⟨?_, ?_, ?_, ?_⟩⟩
  all_goals simp [Topics.init, Topics.subscribers, key]

end Topics

end Zerogw
