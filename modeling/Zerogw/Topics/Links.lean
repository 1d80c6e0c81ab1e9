import Zerogw.Topics.Basic

/-!
# The links between topics, subscriptions and connections

What the four primitive updates (`addTopic`, `addSub`, `removeSub`, `removeTopic`) do to each part
of the tables, the invariant of the intrusive lists, and its preservation.
-/

namespace Zerogw

namespace Topics

variable {T : Topics} {t : TopicId} {i : SubId} {h : HybiId} {r : RouteId} {name : Bytes}
  {s : Subscriber} {c : Topic}

/-- Route and name of a stored topic. -/
def key (T : Topics) (t : TopicId) : Option (RouteId × Bytes) :=
  (T.topic.get t).map fun c => (c.table, c.name)

lemma mem_pairs {p : Subscription} :
    p ∈ T.pairs ↔ ∃ i s, T.sub.get i = some s ∧ s.connection = p.1 ∧ T.key s.topic = some p.2 := by
  obtain ⟨h, r, n⟩ := p
  simp only [pairs, Set.mem_ofPred_eq, key, Option.map_eq_some_iff, Prod.mk.injEq]
  constructor
  · rintro ⟨i, s, c, hi, hs, hc, rfl, rfl⟩
    exact ⟨i, s, hi, hs, c, hc, rfl, rfl⟩
  · rintro ⟨i, s, hi, hs, c, hc, rfl, rfl⟩
    exact ⟨i, s, c, hi, hs, hc, rfl, rfl⟩

/-! ### The effect of the primitive updates -/

@[simp] lemma setTable_topic (f : TopicHash → TopicHash) : (T.setTable r f).topic = T.topic := rfl
@[simp] lemma setTable_sub (f : TopicHash → TopicHash) : (T.setTable r f).sub = T.sub := rfl
@[simp] lemma setTable_clients (f : TopicHash → TopicHash) :
    (T.setTable r f).clients = T.clients := rfl

lemma setTable_tables (f : TopicHash → TopicHash) (q : RouteId) :
    (T.setTable r f).tables q = if q = r then (T.tables r).map f else T.tables q := by
  simp [setTable, Function.update_apply]

lemma key_of_get (hc : T.topic.get t = some c) : T.key t = some (c.table, c.name) := by
  simp [key, hc]

section addTopic

@[simp] lemma addTopic_fst : (T.addTopic r name).1 = T.topic.next := rfl
@[simp] lemma addTopic_sub : (T.addTopic r name).2.sub = T.sub := rfl
@[simp] lemma addTopic_clients : (T.addTopic r name).2.clients = T.clients := rfl

lemma key_addTopic (u : TopicId) :
    (T.addTopic r name).2.key u = if u = T.topic.next then some (r, name) else T.key u := by
  by_cases hu : u = T.topic.next
  · simp [key, addTopic, hu]
  · simp [key, addTopic, Heap.get_alloc_of_ne _ hu, hu]

lemma subscribers_addTopic (u : TopicId) :
    (T.addTopic r name).2.subscribers u = T.subscribers u := by
  by_cases hu : u = T.topic.next
  · simp [subscribers, addTopic, hu]
  · simp [subscribers, addTopic, Heap.get_alloc_of_ne _ hu]

end addTopic

section addSub

lemma addSub_eq (hc : T.topic.get t = some c) :
    T.addSub h t = setTable c.table
      (fun table => { table with nsubscriptions := table.nsubscriptions + 1 })
      { T with
        sub := T.sub.alloc ⟨t, h⟩
        topic := T.topic.modify t fun c => { c with subscribers := T.sub.next :: c.subscribers }
        clients := Function.update T.clients h (T.sub.next :: T.clients h)
        websockSubscribed := T.websockSubscribed + 1 } := by
  simp only [addSub, hc]

lemma addSub_sub (hc : T.topic.get t = some c) : (T.addSub h t).sub = T.sub.alloc ⟨t, h⟩ := by
  rw [addSub_eq hc]
  rfl

lemma addSub_clients (hc : T.topic.get t = some c) (g : HybiId) :
    (T.addSub h t).clients g = if g = h then T.sub.next :: T.clients h else T.clients g := by
  rw [addSub_eq hc]
  simp [Function.update_apply]

lemma key_addSub (u : TopicId) : (T.addSub h t).key u = T.key u := by
  cases hc : T.topic.get t with
  | none => simp [addSub, hc]
  | some c =>
    rw [addSub_eq hc]
    by_cases hu : u = t
    · subst hu
      simp [key, hc]
    · simp [key, Heap.get_modify_of_ne _ _ hu]

lemma subscribers_addSub (hc : T.topic.get t = some c) (u : TopicId) :
    (T.addSub h t).subscribers u = if u = t then T.sub.next :: T.subscribers t
      else T.subscribers u := by
  rw [addSub_eq hc]
  by_cases hu : u = t
  · subst hu
    simp [subscribers, hc]
  · simp [subscribers, Heap.get_modify_of_ne _ _ hu, hu]

end addSub

section removeSub

lemma removeSub_eq (hs : T.sub.get i = some s) (hc : T.topic.get s.topic = some c) :
    T.removeSub i = setTable c.table
      (fun table => { table with nsubscriptions := table.nsubscriptions - 1 })
      { T with
        sub := T.sub.free i
        topic := T.topic.modify s.topic fun c => { c with subscribers := c.subscribers.erase i }
        clients := Function.update T.clients s.connection ((T.clients s.connection).erase i)
        websockUnsubscribed := T.websockUnsubscribed + 1 } := by
  simp only [removeSub, hs, hc]

lemma removeSub_sub (hs : T.sub.get i = some s) (hc : T.topic.get s.topic = some c) :
    (T.removeSub i).sub = T.sub.free i := by
  rw [removeSub_eq hs hc]
  rfl

lemma removeSub_clients (hs : T.sub.get i = some s) (hc : T.topic.get s.topic = some c)
    (g : HybiId) :
    (T.removeSub i).clients g
      = if g = s.connection then (T.clients s.connection).erase i else T.clients g := by
  rw [removeSub_eq hs hc]
  simp [Function.update_apply]

lemma key_removeSub (u : TopicId) : (T.removeSub i).key u = T.key u := by
  cases hs : T.sub.get i with
  | none => simp [removeSub, hs]
  | some s =>
    cases hc : T.topic.get s.topic with
    | none => simp [removeSub, hs, hc]
    | some c =>
      rw [removeSub_eq hs hc]
      by_cases hu : u = s.topic
      · subst hu
        simp [key, hc]
      · simp [key, Heap.get_modify_of_ne _ _ hu]

lemma subscribers_removeSub (hs : T.sub.get i = some s) (hc : T.topic.get s.topic = some c)
    (u : TopicId) :
    (T.removeSub i).subscribers u
      = if u = s.topic then (T.subscribers s.topic).erase i else T.subscribers u := by
  rw [removeSub_eq hs hc]
  by_cases hu : u = s.topic
  · subst hu
    simp [subscribers, hc]
  · simp [subscribers, Heap.get_modify_of_ne _ _ hu, hu]

end removeSub

section removeTopic

@[simp] lemma removeTopic_sub : (T.removeTopic t).sub = T.sub := by
  rw [removeTopic]
  split <;> rfl

@[simp] lemma removeTopic_clients : (T.removeTopic t).clients = T.clients := by
  rw [removeTopic]
  split <;> rfl

lemma removeTopic_topic : (T.removeTopic t).topic.get = (T.topic.free t).get := by
  rw [removeTopic]
  split
  · rename_i hc
    funext u
    by_cases hu : u = t
    · simp [hu, hc]
    · simp [Heap.get_free_of_ne _ hu]
  · rfl

lemma key_removeTopic (u : TopicId) :
    (T.removeTopic t).key u = if u = t then none else T.key u := by
  by_cases hu : u = t
  · simp [key, removeTopic_topic, hu]
  · simp [key, removeTopic_topic, Heap.get_free_of_ne _ hu, hu]

lemma subscribers_removeTopic (u : TopicId) :
    (T.removeTopic t).subscribers u = if u = t then [] else T.subscribers u := by
  by_cases hu : u = t
  · simp [subscribers, removeTopic_topic, hu]
  · simp [subscribers, removeTopic_topic, Heap.get_free_of_ne _ hu, hu]

end removeTopic

/-! ### Both lists of a subscription -/

/-- Every subscription is in the list of its connection and in the list of its topic, once in each
and in no other list, and no two subscriptions are for the same connection and topic. -/
structure SubsLinked (T : Topics) : Prop where
  clients : ∀ h i, i ∈ T.clients h ↔ ∃ s, T.sub.get i = some s ∧ s.connection = h
  subscribers : ∀ t i, i ∈ T.subscribers t ↔ ∃ s, T.sub.get i = some s ∧ s.topic = t
  clientsNodup : ∀ h, (T.clients h).Nodup
  subscribersNodup : ∀ t, (T.subscribers t).Nodup
  subsUnique : ∀ i j s, T.sub.get i = some s → T.sub.get j = some s → i = j

lemma SubsLinked.of_eq {T' : Topics} (hT : T.SubsLinked) (hsub : T'.sub = T.sub)
    (hclients : T'.clients = T.clients) (hsubs : T'.subscribers = T.subscribers) :
    T'.SubsLinked := by
  constructor
  · rw [hclients, hsub]
    exact hT.clients
  · rw [hsubs, hsub]
    exact hT.subscribers
  · rw [hclients]
    exact hT.clientsNodup
  · rw [hsubs]
    exact hT.subscribersNodup
  · rw [hsub]
    exact hT.subsUnique

/-- The topic of a subscription is stored. -/
lemma SubsLinked.topic_stored (hT : T.SubsLinked) (hs : T.sub.get i = some s) :
    ∃ c, T.topic.get s.topic = some c := by
  have hi : i ∈ T.subscribers s.topic := (hT.subscribers _ _).mpr ⟨s, hs, rfl⟩
  cases hc : T.topic.get s.topic with
  | none => simp [Topics.subscribers, hc] at hi
  | some c => exact ⟨c, rfl⟩

lemma SubsLinked.key_ne_none (hT : T.SubsLinked) (hs : T.sub.get i = some s) :
    T.key s.topic ≠ none := by
  obtain ⟨c, hc⟩ := hT.topic_stored hs
  simp [key_of_get hc]

/-- Nobody has subscribed to what is not stored. -/
lemma SubsLinked.ne_of_key_none (hT : T.SubsLinked) (hs : T.sub.get i = some s)
    (ht : T.key t = none) : s.topic ≠ t := by
  rintro rfl
  exact hT.key_ne_none hs ht

lemma SubsLinked.addSub (hT : T.SubsLinked) (hc : T.topic.get t = some c)
    (hnew : ∀ i, T.sub.get i ≠ some ⟨t, h⟩) : (T.addSub h t).SubsLinked := by
  constructor
  · intro g i
    rw [addSub_clients hc, addSub_sub hc, Heap.get_alloc]
    by_cases hi : i = T.sub.next
    · subst hi
      have hdangling : ∀ g, T.sub.next ∉ T.clients g := by simp [hT.clients]
      by_cases hg : g = h
      · simp [hg]
      · simp [hg, hdangling, Ne.symm hg]
    · by_cases hg : g = h
      · subst hg
        simp [hi, hT.clients]
      · simp [hi, hg, hT.clients]
  · intro u i
    rw [subscribers_addSub hc, addSub_sub hc, Heap.get_alloc]
    by_cases hi : i = T.sub.next
    · subst hi
      have hdangling : ∀ u, T.sub.next ∉ T.subscribers u := by simp [hT.subscribers]
      by_cases hu : u = t
      · simp [hu]
      · simp [hu, hdangling, Ne.symm hu]
    · by_cases hu : u = t
      · subst hu
        simp [hi, hT.subscribers]
      · simp [hi, hu, hT.subscribers]
  · intro g
    rw [addSub_clients hc]
    split_ifs
    · exact List.nodup_cons.mpr ⟨by simp [hT.clients], hT.clientsNodup h⟩
    · exact hT.clientsNodup g
  · intro u
    rw [subscribers_addSub hc]
    split_ifs
    · exact List.nodup_cons.mpr ⟨by simp [hT.subscribers], hT.subscribersNodup t⟩
    · exact hT.subscribersNodup u
  · intro i j s
    rw [addSub_sub hc, Heap.get_alloc, Heap.get_alloc]
    split_ifs with hi hj hj
    · rw [hi, hj]
      simp
    · intro hs hs'
      cases hs
      exact absurd hs' (hnew j)
    · intro hs hs'
      cases hs'
      exact absurd hs (hnew i)
    · exact hT.subsUnique i j s

lemma SubsLinked.removeSub (hT : T.SubsLinked) (hs : T.sub.get i = some s) :
    (T.removeSub i).SubsLinked := by
  obtain ⟨c, hc⟩ := hT.topic_stored hs
  constructor
  · intro g j
    rw [removeSub_clients hs hc, removeSub_sub hs hc, Heap.get_free]
    by_cases hj : j = i
    · subst hj
      by_cases hg : g = s.connection
      · simp [hg, (hT.clientsNodup s.connection).mem_erase_iff]
      · have : j ∉ T.clients g := by
          rw [hT.clients]
          rintro ⟨s', hs', hconn⟩
          rw [hs] at hs'
          cases hs'
          exact hg hconn.symm
        simp [hg, this]
    · by_cases hg : g = s.connection
      · subst hg
        simp [hj, (hT.clientsNodup s.connection).mem_erase_iff, hT.clients]
      · simp [hj, hg, hT.clients]
  · intro u j
    rw [subscribers_removeSub hs hc, removeSub_sub hs hc, Heap.get_free]
    by_cases hj : j = i
    · subst hj
      by_cases hu : u = s.topic
      · simp [hu, (hT.subscribersNodup s.topic).mem_erase_iff]
      · have : j ∉ T.subscribers u := by
          rw [hT.subscribers]
          rintro ⟨s', hs', htopic⟩
          rw [hs] at hs'
          cases hs'
          exact hu htopic.symm
        simp [hu, this]
    · by_cases hu : u = s.topic
      · subst hu
        simp [hj, (hT.subscribersNodup s.topic).mem_erase_iff, hT.subscribers]
      · simp [hj, hu, hT.subscribers]
  · intro g
    rw [removeSub_clients hs hc]
    split_ifs
    · exact (hT.clientsNodup _).erase i
    · exact hT.clientsNodup g
  · intro u
    rw [subscribers_removeSub hs hc]
    split_ifs
    · exact (hT.subscribersNodup _).erase i
    · exact hT.subscribersNodup u
  · intro j k s'
    rw [removeSub_sub hs hc, Heap.get_free, Heap.get_free]
    split_ifs
    · simp
    · simp
    · simp
    · exact hT.subsUnique j k s'

lemma SubsLinked.addTopic (hT : T.SubsLinked) : (T.addTopic r name).2.SubsLinked :=
  hT.of_eq rfl rfl (funext fun u => subscribers_addTopic u)

lemma SubsLinked.removeTopic (hT : T.SubsLinked) (hempty : T.subscribers t = []) :
    (T.removeTopic t).SubsLinked := by
  refine hT.of_eq removeTopic_sub removeTopic_clients (funext fun u => ?_)
  rw [subscribers_removeTopic]
  split_ifs with hu
  · rw [hu, hempty]
  · rfl

end Topics

end Zerogw
