import Zerogw.Library.Execution
import Zerogw.Topics.Properties

/-!
# Subscribing when memory runs out

`subscribe` and `clone` allocate the table of a route, its array, a topic, and subscriptions. Here
any of these may fail. A subscription that is not there is noticed, and the topic made for it is
freed again; a topic that is not there is put into its cell nevertheless.
-/

namespace Zerogw

open Execution

namespace Topics

variable {T T' : Topics} {t : TopicId} {h : HybiId} {r : RouteId} {name : Bytes}
  {k : RouteId × Bytes} {size : RouteId → Nat}

/-- Which allocations succeed while a command is processed: of a `topic_hash_t`, of its array, of a
`topic_t`, and of a subscription for each connection. None of these is made twice in one command. -/
structure Allocator where
  table : Bool
  cells : Bool
  topic : Bool
  sub : HybiId → Bool

variable {A : Allocator}

/-! ### The functions -/

/-- `mktopic`, and `LIST_INSERT_HEAD` of its result. -/
def insertTopic (A : Allocator) (r : RouteId) (name : Bytes) (T : Topics) :
    Except Fault (Option TopicId × Topics) :=
  if A.topic then .ok (some (T.addTopic r name).1, (T.addTopic r name).2) else .error .nullPointer

/-- `find_topic`. The array is cleared before its address is checked, so that a table without an
array is never left behind. -/
def findTopicWith (A : Allocator) (size : RouteId → Nat) (r : RouteId) (name : Bytes)
    (create : Bool)
    (T : Topics) : Except Fault (Option TopicId × Topics) :=
  match T.tables r with
  | none =>
    if create then
      if A.table then
        if A.cells then
          insertTopic A r name
            { T with tables := Function.update T.tables r (some ⟨size r, 0, 0, fun _ => []⟩) }
        else .error .nullPointer
      else .ok (none, T)
    else .ok (none, T)
  | some table =>
    match (table.cells (table.cellOf (topicHash name))).find? (T.isNamed name) with
    | some t => .ok (some t, T)
    | none => if create then insertTopic A r name T else .ok (none, T)

/-- `topic_subscribe`, with its result. -/
def topicSubscribeWith (A : Allocator) (h : HybiId) (t : TopicId) (T : Topics) : Bool × Topics :=
  if (T.clients h).any (T.isFor t) then (true, T)
  else if A.sub h then (true, T.addSub h t)
  else (false, T)

/-- `topic_clone` -/
def topicCloneWith (A : Allocator) (source target : TopicId) (T : Topics) : Topics :=
  let T := (T.subscribers source).foldl (fun T i =>
    match T.sub.get i with
    | some s => (T.topicSubscribeWith A s.connection target).2
    | none => T) T
  if (T.subscribers target).isEmpty then T.freeTopic target else T

/-- `subscribe` in `websock_process`. -/
def subscribeWith (A : Allocator) (size : RouteId → Nat) (h : HybiId) (r : RouteId) (name : Bytes)
    (T : Topics) : Except Fault Topics := do
  match ← T.findTopicWith A size r name true with
  | (some t, T) =>
    let (subscribed, T) := T.topicSubscribeWith A h t
    if subscribed then .ok T
    else if (T.subscribers t).isEmpty then .ok (T.freeTopic t) else .ok T
  -- the subscribers of the topic are looked at all the same
  | (none, _) => .error .nullPointer

/-- `clone` in `websock_process`. -/
def cloneWith (A : Allocator) (size : RouteId → Nat) (r : RouteId) (source target : Bytes)
    (T : Topics) : Except Fault Topics := do
  match ← T.findTopicWith A size r source false with
  | (none, T) => .ok T
  | (some s, T) =>
    match ← T.findTopicWith A size r target true with
    | (some t, T) => .ok (T.topicCloneWith A s t)
    | (none, T) => .ok T

/-! ### When nothing fails -/

/-- All allocations succeed. -/
def Allocator.ample : Allocator := ⟨true, true, true, fun _ => true⟩

lemma findTopicWith_ample (size : RouteId → Nat) (r : RouteId) (name : Bytes) (create : Bool)
    (T : Topics) :
    T.findTopicWith .ample size r name create = .ok (T.findTopic size r name create) := by
  rw [findTopicWith, findTopic]
  cases T.tables r with
  | none => cases create <;> rfl
  | some table =>
    dsimp only
    cases (table.cells (table.cellOf (topicHash name))).find? (T.isNamed name) with
    | some t => rfl
    | none => cases create <;> rfl

lemma topicSubscribeWith_ample (h : HybiId) (t : TopicId) (T : Topics) :
    T.topicSubscribeWith .ample h t = (true, T.topicSubscribe h t) := by
  rw [topicSubscribeWith, topicSubscribe]
  split_ifs
  · rfl
  · rfl
  · contradiction

lemma subscribeWith_ample (size : RouteId → Nat) (h : HybiId) (r : RouteId) (name : Bytes)
    (hT : T.WF) : T.subscribeWith .ample size h r name = .ok (T.subscribe size h r name) := by
  obtain ⟨t, T', hfind, -⟩ := findTopic_true r name size hT
  simp only [subscribeWith, subscribe, findTopicWith_ample, hfind, ok_bind,
    topicSubscribeWith_ample, if_true]

lemma cloneWith_ample (size : RouteId → Nat) (r : RouteId) (source target : Bytes) (T : Topics) :
    T.cloneWith .ample size r source target = .ok (T.clone size r source target) := by
  rw [cloneWith, findTopicWith_ample, ok_bind, clone]
  rcases T.findTopic size r source false with ⟨_ | v, T'⟩
  · rfl
  · simp only [findTopicWith_ample, ok_bind]
    rcases T'.findTopic size r target true with ⟨_ | t, T''⟩
    · rfl
    · simp only [topicCloneWith, topicSubscribeWith_ample]
      rfl

/-! ### Finding or making a topic -/

/-- The allocations that `find_topic` needs for a topic succeed. -/
def Allocates (A : Allocator) (r : RouteId) (name : Bytes) (T : Topics) : Prop :=
  (T.tables r = none → A.table = true ∧ A.cells = true) ∧
    ((∀ t, T.key t ≠ some (r, name)) → A.topic = true)

/-- A lookup allocates nothing. -/
lemma findTopicWith_false (A : Allocator) (size : RouteId → Nat) (r : RouteId) (name : Bytes)
    (T : Topics) : T.findTopicWith A size r name false = .ok (T.findTopic size r name false) := by
  rw [findTopicWith, findTopic]
  cases T.tables r with
  | none => rfl
  | some table =>
    dsimp only
    cases (table.cells (table.cellOf (topicHash name))).find? (T.isNamed name) <;> rfl

lemma findTopicWith_of_allocates (hT : T.WF) (hA : T.Allocates A r name) :
    T.findTopicWith A size r name true = .ok (T.findTopic size r name true) := by
  rw [findTopicWith, findTopic]
  cases hr : T.tables r with
  | none =>
    obtain ⟨htable, hcells⟩ := hA.1 hr
    have htopic := hA.2 fun t ht => hT.stored t r name ht hr
    simp only [if_true, htable, hcells, insertTopic, htopic]
  | some table =>
    dsimp only
    cases hf : (table.cells (table.cellOf (topicHash name))).find? (T.isNamed name) with
    | some t => rfl
    | none =>
      have htopic := hA.2 fun t ht => by
        rw [(find_cell hT hr t).mpr ht] at hf
        cases hf
      simp only [if_true, insertTopic, htopic]

/-- An allocation that fails leads to `NULL` being used, unless it is that of the table, which is
reported. -/
lemma findTopicWith_of_not_allocates (size : RouteId → Nat) (hT : T.WF)
    (hA : ¬ T.Allocates A r name) :
    T.findTopicWith A size r name true = .error .nullPointer ∨
      T.tables r = none ∧ T.findTopicWith A size r name true = .ok (none, T) := by
  rw [findTopicWith]
  cases hr : T.tables r with
  | none =>
    by_cases htable : A.table = true
    · left
      by_cases hcells : A.cells = true
      · have htopic : ¬ A.topic = true := fun h => hA ⟨fun _ => ⟨htable, hcells⟩, fun _ => h⟩
        simp only [if_true, htable, hcells, insertTopic, if_neg htopic]
      · simp only [if_true, htable, if_neg hcells]
    · right
      simp only [if_true, if_neg htable, and_self]
  | some table =>
    left
    dsimp only
    cases hf : (table.cells (table.cellOf (topicHash name))).find? (T.isNamed name) with
    | some t =>
      refine absurd ⟨fun h => ?_, fun h => absurd ((find_cell hT hr t).mp hf) (h t)⟩ hA
      rw [hr] at h
      cases h
    | none =>
      have htopic : ¬ A.topic = true := by
        refine fun h => hA ⟨fun hnone => ?_, fun _ => h⟩
        rw [hr] at hnone
        cases hnone
      simp only [if_true, insertTopic, if_neg htopic]

/-! ### Taking back what was made -/

/-- The lists in the cells of a route, with `ntopics` and `nsubscriptions`. There are none before
there is a table. -/
def stored (T : Topics) (r : RouteId) : (Nat → List TopicId) × Int × Int :=
  match T.tables r with
  | some table => (table.cells, table.ntopics, table.nsubscriptions)
  | none => (fun _ => [], 0, 0)

/-- Topics, subscriptions and counters are as before. -/
structure AsBefore (T T' : Topics) : Prop where
  topic : T'.topic.get = T.topic.get
  stored : T'.stored = T.stored
  sub : T'.sub = T.sub
  clients : T'.clients = T.clients
  topics : (T'.topicsCreated : Int) - T'.topicsRemoved = T.topicsCreated - T.topicsRemoved
  subscriptions : (T'.websockSubscribed : Int) - T'.websockUnsubscribed
    = T.websockSubscribed - T.websockUnsubscribed

lemma AsBefore.refl : AsBefore T T := ⟨rfl, rfl, rfl, rfl, rfl, rfl⟩

lemma AsBefore.trans {T'' : Topics} (h₁ : AsBefore T T') (h₂ : AsBefore T' T'') :
    AsBefore T T'' where
  topic := h₂.topic.trans h₁.topic
  stored := h₂.stored.trans h₁.stored
  sub := h₂.sub.trans h₁.sub
  clients := h₂.clients.trans h₁.clients
  topics := h₂.topics.trans h₁.topics
  subscriptions := h₂.subscriptions.trans h₁.subscriptions

/-- An empty table is as good as none. -/
lemma asBefore_makeTable (size : RouteId → Nat) (hr : T.tables r = none) :
    AsBefore T (T.makeTable size r) := by
  refine ⟨rfl, funext fun q => ?_, rfl, rfl, rfl, rfl⟩
  by_cases hq : q = r
  · subst hq
    simp only [stored, makeTable, Function.update_self, hr]
  · simp only [stored, makeTable, Function.update_of_ne hq]

/-- A topic that has just been made is freed again. -/
lemma asBefore_removeTopic (r : RouteId) (name : Bytes) (T : Topics) :
    AsBefore T ((T.addTopic r name).2.removeTopic T.topic.next) := by
  have hget : (T.addTopic r name).2.topic.get T.topic.next
      = some ⟨r, topicHash name, name, []⟩ := by
    rw [addTopic_topic, Heap.get_alloc_self]
  refine ⟨?_, funext fun q => ?_, ?_, ?_, ?_, ?_⟩
  · funext t
    rw [removeTopic_heap hget, addTopic_topic]
    by_cases ht : t = T.topic.next
    · rw [ht, Heap.get_free_self, Heap.get_next]
    · rw [Heap.get_free_of_ne _ ht, Heap.get_alloc_of_ne _ ht]
  · have htables := removeTopic_tables hget q
    rw [addTopic_tables] at htables
    by_cases hq : q = r
    · subst hq
      rw [stored, htables, if_pos rfl, if_pos rfl, stored]
      cases T.tables q with
      | none => rfl
      | some table => simp [TopicHash.cellOf]
    · rw [stored, htables, if_neg hq, if_neg hq, stored]
  · rw [removeTopic_sub, addTopic_sub]
  · rw [removeTopic_clients, addTopic_clients]
  · rw [removeTopic_eq hget]
    show ((T.topicsCreated + 1 : Nat) : Int) - (T.topicsRemoved + 1 : Nat) = _
    omega
  · rw [removeTopic_eq hget]
    rfl

/-- `find_topic` and the end of `free_topic` leave everything as it was, if the topic is new. -/
lemma asBefore_findTopic (size : RouteId → Nat) (hT : T.WF)
    (hfind : T.findTopic size r name true = (some t, T')) (hnew : T.key t = none) :
    AsBefore T (T'.removeTopic t) := by
  rw [findTopic] at hfind
  cases hr : T.tables r with
  | none =>
    rw [hr] at hfind
    cases hfind
    exact (asBefore_makeTable size hr).trans (asBefore_removeTopic r name (T.makeTable size r))
  | some table =>
    rw [hr] at hfind
    dsimp only at hfind
    cases hf : (table.cells (table.cellOf (topicHash name))).find? (T.isNamed name) with
    | some u =>
      rw [hf] at hfind
      cases hfind
      rw [(find_cell hT hr t).mp hf] at hnew
      cases hnew
    | none =>
      rw [hf] at hfind
      cases hfind
      exact asBefore_removeTopic r name T

/-- A topic that was there is found as it is. -/
lemma findTopic_of_key (size : RouteId → Nat) (hT : T.WF) (ht : T.key t = some (r, name)) :
    T.findTopic size r name true = (some t, T) := by
  rw [findTopic]
  cases hr : T.tables r with
  | none => exact absurd hr (hT.stored t r name ht)
  | some table =>
    dsimp only
    rw [(find_cell hT hr t).mpr ht]

/-! ### `subscribe` -/

/-- The connection is subscribed already, or there is memory for its subscription. -/
def CanSubscribe (A : Allocator) (h : HybiId) (k : RouteId × Bytes) (T : Topics) : Prop :=
  (h, k) ∈ T.pairs ∨ A.sub h = true

lemma topicSubscribeWith_of (hT : T.WF) (ht : T.key t = some k) (hcan : T.CanSubscribe A h k) :
    T.topicSubscribeWith A h t = (true, T.topicSubscribe h t) := by
  rw [topicSubscribeWith, topicSubscribe]
  split_ifs with hany hroom
  · rfl
  · rfl
  · exact absurd (hcan.resolve_left fun hp => hany ((any_isFor_iff hT ht).mpr hp)) hroom

lemma topicSubscribeWith_of_not (hT : T.WF) (ht : T.key t = some k)
    (hcan : ¬ T.CanSubscribe A h k) :
    T.topicSubscribeWith A h t = (false, T) := by
  obtain ⟨hp, hroom⟩ := not_or.mp hcan
  rw [topicSubscribeWith, if_neg (mt (any_isFor_iff hT ht).mp hp), if_neg hroom]

/-- Who is subscribed depends on topics and subscriptions alone. -/
lemma AsBefore.pairs (h : AsBefore T T') : T'.pairs = T.pairs := by
  rw [Topics.pairs, Topics.pairs, h.topic, h.sub]

/-- What `subscribe` leaves: the tables are tidy, so that no topic is without subscribers, and the
connection is subscribed, or everything is as before. -/
structure Subscribed (A : Allocator) (h : HybiId) (r : RouteId) (name : Bytes) (T T' : Topics) :
    Prop where
  tidy : T'.Tidy
  succeeds : T.CanSubscribe A h (r, name) → T'.pairs = Roster.subscribe h r name T.pairs
  fails : ¬ T.CanSubscribe A h (r, name) → AsBefore T T'

/-- The recovery of `subscribe` takes back what `find_topic` has done. -/
lemma asBefore_recovered (size : RouteId → Nat) (hT : T.Tidy)
    (hfind : T.findTopic size r name true = (some t, T')) :
    (if (T'.subscribers t).isEmpty then T'.freeTopic t else T').Tidy ∧
      AsBefore T (if (T'.subscribers t).isEmpty then T'.freeTopic t else T') := by
  obtain ⟨u, T₁, hfind₁, hwf, ht, -, -, hsubs, -, hkey, hold⟩ := findTopic_true r name size hT.toWF
  cases hfind₁.symm.trans hfind
  cases hnew : T.key t with
  | none =>
    -- the topic is new, so that nobody is subscribed to it
    have hempty : T'.subscribers t = [] := by
      rw [hsubs, subscribers]
      rw [key, Option.map_eq_none_iff] at hnew
      rw [hnew]
    have hP := Populated.of_findTopic hT.populated hsubs hkey
    have hbefore := asBefore_findTopic size hT.toWF hfind hnew
    rw [← freeTopic_of_empty hempty] at hbefore
    rw [if_pos (by rw [hempty]; rfl)]
    exact ⟨⟨(freeTopic_spec hwf ht).1, Populated.freeTopic hwf (by simpa using hP) ht⟩, hbefore⟩
  | some k =>
    have hkeyt : T.key t = some (r, name) := by
      rw [← hold t (by rw [hnew]; exact Option.some_ne_none k), ht]
    have hsame := findTopic_of_key size hT.toWF hkeyt
    rw [hfind] at hsame
    cases hsame
    have hsome := hT.populated t (by rw [hkeyt]; exact Option.some_ne_none _) (Set.notMem_empty t)
    rw [if_neg (by simpa using hsome)]
    exact ⟨hT, .refl⟩

lemma subscribeWith_ok (size : RouteId → Nat) (h : HybiId) (hT : T.Tidy)
    (hA : T.Allocates A r name) :
    ∃ T', T.subscribeWith A size h r name = .ok T' ∧ Subscribed A h r name T T' := by
  obtain ⟨t, T₁, hfind, hwf, ht, -, -, hsubs, hpairs, hkey, -⟩ :=
    findTopic_true r name size hT.toWF
  have hP := Populated.of_findTopic hT.populated hsubs hkey
  have hcan₁ : T₁.CanSubscribe A h (r, name) ↔ T.CanSubscribe A h (r, name) := by
    rw [CanSubscribe, hpairs, CanSubscribe]
  rw [subscribeWith, findTopicWith_of_allocates hT.toWF hA, hfind, ok_bind]
  by_cases hcan : T.CanSubscribe A h (r, name)
  · obtain ⟨hwf', hpairs', -⟩ := topicSubscribe_spec (h := h) hwf ht
    refine ⟨T₁.topicSubscribe h t, ?_, ?_⟩
    · simp only [topicSubscribeWith_of hwf ht (hcan₁.mpr hcan), if_true]
    · exact ⟨⟨hwf', Populated.topicSubscribe hwf (by simpa using hP) ht⟩,
        fun _ => by rw [hpairs', hpairs, Roster.subscribe], fun hnot => absurd hcan hnot⟩
  · obtain ⟨htidy, hbefore⟩ := asBefore_recovered size hT hfind
    refine ⟨_, ?_, htidy, fun hcan' => absurd hcan' hcan, fun _ => hbefore⟩
    simp only [topicSubscribeWith_of_not hwf ht (mt hcan₁.mp hcan), Bool.false_eq_true, if_false]
    exact (apply_ite _ _ _ _).symm

/-- Without the topic, `NULL` is used. -/
lemma subscribeWith_error (size : RouteId → Nat) (h : HybiId) (hT : T.WF)
    (hA : ¬ T.Allocates A r name) : T.subscribeWith A size h r name = .error .nullPointer := by
  rw [subscribeWith]
  rcases findTopicWith_of_not_allocates size hT hA with hfind | ⟨-, hfind⟩
  · rw [hfind]
    rfl
  · rw [hfind]
    rfl

/-! ### `clone` -/

/-- The target for every subscriber of the source whose subscription there is memory for. -/
def Roster.cloneSome (A : Allocator) (r : RouteId) (source target : Bytes) (R : Roster) : Roster :=
  R ∪ {p | p.2 = (r, target) ∧ (p.1, r, source) ∈ R ∧ A.sub p.1 = true}

lemma enters_topicSubscribeWith (A : Allocator) (t : TopicId) (k : RouteId × Bytes) :
    Enters (fun h => A.sub h = true) t k fun h T => (T.topicSubscribeWith A h t).2 := by
  intro h T hT ht
  beta_reduce
  by_cases hcan : T.CanSubscribe A h k
  · obtain ⟨hwf, hpairs, hrest⟩ := topicSubscribe_spec (h := h) hT ht
    rw [topicSubscribeWith_of hT ht hcan]
    refine ⟨hwf, ?_, hrest⟩
    rw [hpairs]
    ext p
    simp only [Set.mem_insert_iff, Set.mem_union, Set.mem_ofPred_eq]
    constructor
    · rintro (rfl | hp)
      · exact hcan.imp_right fun hroom => ⟨rfl, hroom⟩
      · exact Or.inl hp
    · rintro (hp | ⟨rfl, -⟩)
      · exact Or.inr hp
      · exact Or.inl rfl
  · rw [topicSubscribeWith_of_not hT ht hcan]
    refine ⟨hT, ?_, fun _ => rfl, fun _ _ => rfl, fun _ _ hs => hs⟩
    ext p
    simp only [Set.mem_union, Set.mem_ofPred_eq]
    constructor
    · exact Or.inl
    · rintro (hp | ⟨-, hroom⟩)
      · exact hp
      · exact absurd (Or.inr hroom) hcan

/-- The topics that `clone` may have to make can be made. -/
def CloneAllocates (A : Allocator) (r : RouteId) (source target : Bytes) (T : Topics) : Prop :=
  (∃ t, T.key t = some (r, source)) → T.Allocates A r target

/-- What `clone` leaves: the tables are tidy, and the target has its old subscribers and those of
the source that there was memory for. -/
structure Cloned (A : Allocator) (r : RouteId) (source target : Bytes) (T T' : Topics) : Prop where
  tidy : T'.Tidy
  pairs : T'.pairs = Roster.cloneSome A r source target T.pairs

lemma topicCloneWith_spec (A : Allocator) {v : TopicId} {source target : Bytes} (hT : T.WF)
    (hP : T.Populated {t}) (hv : T.key v = some (r, source)) (ht : T.key t = some (r, target)) :
    Cloned A r source target T (T.topicCloneWith A v t) := by
  obtain ⟨htidy, hpairs⟩ := clone_spec (enters_topicSubscribeWith A t _) hT hP hv ht
  exact ⟨htidy, hpairs⟩

variable {source target : Bytes}

lemma cloneWith_ok (size : RouteId → Nat) (hT : T.Tidy) (hA : T.CloneAllocates A r source target) :
    ∃ T', T.cloneWith A size r source target = .ok T' ∧ Cloned A r source target T T' := by
  rw [cloneWith, findTopicWith_false, ok_bind]
  rcases findTopic_false r source size hT.toWF with ⟨v, hfind, hv⟩ | ⟨hfind, hnone⟩
  · obtain ⟨t, T₁, hfind', hwf, ht, -, -, hsubs, hpairs, hkey, hold⟩ :=
      findTopic_true r target size hT.toWF
    have hP := Populated.of_findTopic hT.populated hsubs hkey
    have hv' : T₁.key v = some (r, source) := by rw [hold v (by simp [hv]), hv]
    simp only [hfind, findTopicWith_of_allocates hT.toWF (hA ⟨v, hv⟩), hfind', ok_bind]
    obtain ⟨htidy, hcloned⟩ := topicCloneWith_spec A hwf hP hv' ht
    exact ⟨_, rfl, htidy, by rw [hcloned, hpairs]⟩
  · simp only [hfind]
    refine ⟨T, rfl, hT, ?_⟩
    ext p
    simp [Roster.cloneSome, not_mem_pairs hnone]

/-- There is a table where the source is, so that only the topic can be missing. -/
lemma cloneWith_error (size : RouteId → Nat) (hT : T.WF)
    (hA : ¬ T.CloneAllocates A r source target) :
    T.cloneWith A size r source target = .error .nullPointer := by
  obtain ⟨⟨v, hv⟩, hnot⟩ := Classical.not_imp.mp hA
  rw [cloneWith, findTopicWith_false, ok_bind]
  rcases findTopic_false r source size hT with ⟨u, hfind, -⟩ | ⟨-, hnone⟩
  · rcases findTopicWith_of_not_allocates size hT hnot with hfind' | ⟨hr, -⟩
    · simp only [hfind, hfind']
      rfl
    · exact absurd hr (hT.stored v r source hv)
  · exact absurd hv (hnone v)

end Topics

end Zerogw
