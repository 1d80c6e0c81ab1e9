import Zerogw.Routing.Basic

/-!
# What is set up and what is given back

The visitors agree on `websocket.c`: every socket that is opened is closed, once, and the watcher of
every socket that is fed is ready. They differ in two places. `http.c` gives back what belongs to
routes that it has never visited, below a route that does not route; and every named output gets a
sync event, also if it has no timer.
-/

namespace Zerogw

namespace Route

open RoseTree Execution

variable {tree : RouteTree} {t u v : Route} {x : Handle} {f g : SockId → Nat → List Handle}

/-! ### Handles -/

/-- The route that a handle belongs to. -/
def Handle.owner : Handle → RouteId
  | .zmqForward r | .matcher r | .subscribe r | .heartbeat r => r
  | .output k | .sync k => k.route

def Handle.isTimer : Handle → Bool
  | .heartbeat _ | .sync _ => true
  | _ => false

lemma mem_eachOutput : x ∈ t.eachOutput f ↔
    ∃ i sync, t.label.namedOutputs[i]? = some sync ∧ x ∈ f (.named t.label.id i) sync := by
  simp only [eachOutput, List.mem_flatMap, Prod.exists, List.mem_zipIdx_iff_getElem?]
  exact exists_comm

lemma mem_http : x ∈ t.httpHandles ↔ t.label.zmqForward = true ∧ x = .zmqForward t.label.id ∨
    t.routes = true ∧ x = .matcher t.label.id := by
  rw [httpHandles, List.mem_append]
  apply or_congr
  · split_ifs with h <;> simp [h]
  · split_ifs with h <;> simp [h]

lemma owner_of_mem_http (hx : x ∈ t.httpHandles) : x.owner = t.label.id := by
  rcases mem_http.mp hx with ⟨-, rfl⟩ | ⟨-, rfl⟩ <;> rfl

lemma mem_streams : x ∈ t.streams ↔
    t.label.subscribe = true ∧ x = .subscribe t.label.id ∨
    t.label.forward = true ∧ (x = .output (.forward t.label.id) ∨
      t.label.heartbeatInterval ≠ 0 ∧ x = .heartbeat t.label.id) := by
  rw [streams, List.mem_append]
  apply or_congr
  · split_ifs with h <;> simp [h]
  · split_ifs with h h' <;> simp [*]

lemma mem_closed : x ∈ t.websocketClosed ↔ x ∈ t.streams ∨
    ∃ i sync, t.label.namedOutputs[i]? = some sync ∧ x = .output (.named t.label.id i) := by
  simp only [websocketClosed, List.mem_append, mem_eachOutput, List.mem_singleton]

lemma mem_opened : x ∈ t.websocketOpened ↔ x ∈ t.websocketClosed ∨
    ∃ i sync, t.label.namedOutputs[i]? = some sync ∧ sync ≠ 0 ∧
      x = .sync (.named t.label.id i) := by
  rw [mem_closed, websocketOpened, List.mem_append, mem_eachOutput, or_assoc]
  apply or_congr_right
  simp only [← exists_or, ← and_or_left]
  refine exists_congr fun i => exists_congr fun sync => and_congr_right fun _ => ?_
  split_ifs with h <;> simp [h]

lemma sync_notMem_closed (k : SockId) : .sync k ∉ t.websocketClosed := by
  intro hx
  rcases mem_closed.mp hx with hx | ⟨i, sync, -, hx⟩
  · rcases mem_streams.mp hx with ⟨-, hx⟩ | ⟨-, hx | ⟨-, hx⟩⟩ <;> cases hx
  · cases hx

lemma owner_of_mem_closed (hx : x ∈ t.websocketClosed) : x.owner = t.label.id := by
  rcases mem_closed.mp hx with hx | ⟨i, sync, -, rfl⟩
  · rcases mem_streams.mp hx with ⟨-, rfl⟩ | ⟨-, rfl | ⟨-, rfl⟩⟩ <;> rfl
  · rfl

/-- The two modules keep different handles. -/
lemma http_notMem_closed (hx : x ∈ t.httpHandles) : x ∉ u.websocketClosed := by
  intro hx'
  rcases mem_http.mp hx with ⟨-, rfl⟩ | ⟨-, rfl⟩
  all_goals
    rcases mem_closed.mp hx' with hx' | ⟨i, sync, -, hx'⟩
    · rcases mem_streams.mp hx' with ⟨-, hx'⟩ | ⟨-, hx' | ⟨-, hx'⟩⟩ <;> cases hx'
    · cases hx'

/-- Different nodes have different ids. -/
lemma label_inj (hu : u ∈ tree.root.subtrees) (hv : v ∈ tree.root.subtrees)
    (h : u.label.id = v.label.id) : u = v :=
  List.inj_on_of_nodup_map tree.distinct hu hv h

lemma mem_prepareWebsockets :
    x ∈ t.prepareWebsockets ↔ ∃ u ∈ t.subtrees, x ∈ websocketOpened u := by
  simp only [prepareWebsockets, mem_visit, reached_true, List.not_mem_nil, or_false]

/-- A route where nothing is used. -/
def plainNode (r : RouteId) : RouteNode where
  id := r
  patterns := []
  routing := .leaf
  routingBy := .nothing
  maxBodySize := 65536
  pollingFallback := false
  zmqForward := false
  subscribe := false
  forward := false
  heartbeatInterval := 0
  namedOutputs := []

/-! ### Watchers -/

/-- The watchers that get events when the server resumes or synchronises have been set up if and
only if every named output has a sync interval. -/
theorem fed_watchers_ready_iff (tree : RouteTree) :
    (∀ x ∈ tree.root.resumeVisitor ++ tree.root.syncVisitor, x ∈ tree.root.prepareWebsockets) ↔
      ∀ t ∈ tree.root.subtrees, ∀ sync ∈ t.label.namedOutputs, sync ≠ 0 := by
  constructor
  · intro hready t ht sync hsync
    obtain ⟨i, hi⟩ := List.mem_iff_getElem?.mp hsync
    have hfed : Handle.sync (.named t.label.id i) ∈ tree.root.syncVisitor :=
      mem_visit.mpr ⟨t, ht, Or.inr (mem_eachOutput.mpr ⟨i, sync, hi, List.mem_singleton_self _⟩)⟩
    obtain ⟨u, hu, hopened⟩ := mem_prepareWebsockets.mp (hready _ (List.mem_append_right _ hfed))
    rcases mem_opened.mp hopened with hclosed | ⟨j, sync', hj, hpos, heq⟩
    · exact absurd hclosed (sync_notMem_closed _)
    · obtain ⟨hid, rfl⟩ := SockId.named.inj (Handle.sync.inj heq)
      obtain rfl := label_inj hu ht hid.symm
      obtain rfl := Option.some.inj (hj.symm.trans hi)
      exact hpos
  · intro hsync x hx
    apply mem_prepareWebsockets.mpr
    rcases List.mem_append.mp hx with hx | hx
    · obtain ⟨t, ht, hx⟩ := mem_visit.mp hx
      refine ⟨t, ht, mem_opened.mpr (Or.inl (mem_closed.mpr ?_))⟩
      rcases hx with hx | hx
      · split_ifs at hx with hforward
        · exact Or.inl (mem_streams.mpr (Or.inr ⟨hforward, Or.inl (List.mem_singleton.mp hx)⟩))
        · cases hx
      · obtain ⟨i, sync, hi, hx⟩ := mem_eachOutput.mp hx
        exact Or.inr ⟨i, sync, hi, List.mem_singleton.mp hx⟩
    · obtain ⟨t, ht, hx | hx⟩ := mem_visit.mp hx
      · cases hx
      · obtain ⟨i, sync, hi, hx⟩ := mem_eachOutput.mp hx
        exact ⟨t, ht, mem_opened.mpr (Or.inr ⟨i, sync, hi, hsync t ht sync
          (List.mem_of_getElem? hi), List.mem_singleton.mp hx⟩)⟩

/-- A route with one named output that is never synchronised. -/
def unsynchronised : RouteTree where
  root := .node { plainNode 0 with subscribe := true, forward := true, namedOutputs := [0] } []
  distinct := by decide

/-- A sync event for an output without a timer. -/
theorem sync_of_missing_timer : ¬ ∀ tree : RouteTree,
    ∀ x ∈ tree.root.resumeVisitor ++ tree.root.syncVisitor, x ∈ tree.root.prepareWebsockets := by
  intro hready
  exact absurd (hready unsynchronised (.sync (.named 0 0)) (by decide)) (by decide)

/-! ### The end -/

lemma nodup_http (t : Route) : t.httpHandles.Nodup := by
  rw [httpHandles]
  split_ifs <;> simp

lemma nodup_closed (t : Route) : t.websocketClosed.Nodup := by
  have houtputs : (t.eachOutput fun k _ => [.output k]).Nodup := by
    have heq : (t.eachOutput fun k _ => [.output k]) =
      (t.label.namedOutputs.zipIdx.map Prod.snd).map
        fun i => .output (.named t.label.id i) := by
      rw [eachOutput, List.map_map, List.map_eq_flatMap]
      rfl
    rw [heq, List.zipIdx_map_snd]
    refine List.Nodup.map ?_ List.nodup_range'
    intro i j h
    cases h
    rfl
  have hstreams : t.streams.Nodup := by
    rw [streams]
    split_ifs <;> simp
  refine List.nodup_append'.mpr ⟨hstreams, houtputs, ?_⟩
  intro x hx hx'
  obtain ⟨i, sync, -, hx'⟩ := mem_eachOutput.mp hx'
  cases List.mem_singleton.mp hx'
  rcases mem_streams.mp hx with ⟨-, hx⟩ | ⟨-, hx | ⟨-, hx⟩⟩ <;> cases hx

/-- What `http.c` does at some routes succeeds if all their routing tags are implemented. -/
lemma flatMap_calls {ts : List Route} {l : List Handle} : ts.flatMap httpCalls = l.map .ok ↔
    (∀ t ∈ ts, branches t = routes t) ∧ l = ts.flatMap httpHandles := by
  have hcalls : (∀ t ∈ ts, branches t = routes t) →
      ts.flatMap httpCalls = (ts.flatMap httpHandles).map .ok := by
    intro hgood
    rw [List.map_flatMap]
    refine List.flatMap_congr fun t ht => ?_
    rw [httpCalls, hgood t ht, Bool.and_not_self]
    exact List.append_nil _
  constructor
  · intro h
    have hgood : ∀ t ∈ ts, branches t = routes t := by
      intro t ht
      by_contra hne
      have hcall : (branches t && !routes t) = true := by
        rw [routes] at hne ⊢
        cases hb : branches t
        · simp [hb] at hne
        · simpa [hb] using hne
      have hbad : .error (.assertion .routingTag) ∈ l.map (Except.ok (ε := Fault)) := by
        rw [← h]
        refine List.mem_flatMap.mpr ⟨t, ht, List.mem_append_right _ ?_⟩
        rw [if_pos hcall]
        exact List.mem_singleton_self _
      obtain ⟨x, -, hx⟩ := List.mem_map.mp hbad
      cases hx
    refine ⟨hgood, ?_⟩
    rw [hcalls hgood] at h
    exact (List.map_injective_iff.mpr (fun x y => Except.ok.inj) h).symm
  · rintro ⟨hgood, rfl⟩
    exact hcalls hgood

lemma prepare_eq_ok {l : List Handle} : t.prepare = .ok l ↔
    (∀ u ∈ t.reached branches, branches u = routes u) ∧
      l = (t.reached branches).flatMap httpHandles ++ t.prepareWebsockets := by
  simp only [prepare, prepareHttp, visit_eq_flatMap, bind_eq_ok, mapM_id_eq_ok, flatMap_calls]
  constructor
  · rintro ⟨_, ⟨hgood, rfl⟩, h⟩
    exact ⟨hgood, (Except.ok.inj h).symm⟩
  · rintro ⟨hgood, rfl⟩
    exact ⟨_, ⟨hgood, rfl⟩, rfl⟩

lemma release_eq_ok {l : List Handle} : t.release = .ok l ↔
    (∀ u ∈ t.subtrees, branches u = routes u) ∧
      l = t.subtrees.flatMap httpHandles ++ t.subtrees.flatMap websocketClosed := by
  simp only [release, releaseHttp, releaseWebsockets, visit_eq_flatMap, reached_true, bind_eq_ok,
    mapM_id_eq_ok, flatMap_calls]
  constructor
  · rintro ⟨_, ⟨hgood, rfl⟩, h⟩
    exact ⟨hgood, (Except.ok.inj h).symm⟩
  · rintro ⟨hgood, rfl⟩
    exact ⟨_, ⟨hgood, rfl⟩, rfl⟩

/-- Nothing is given back twice. -/
lemma nodup_release (tree : RouteTree) : (tree.root.subtrees.flatMap httpHandles ++
    tree.root.subtrees.flatMap websocketClosed).Nodup := by
  rw [(List.flatMap_append_perm tree.root.subtrees httpHandles websocketClosed).nodup_iff,
    List.nodup_flatMap]
  constructor
  · intro t _
    exact List.nodup_append'.mpr ⟨nodup_http t, nodup_closed t, fun x => http_notMem_closed⟩
  · refine (List.pairwise_map.mp tree.distinct).imp fun {t u} hne x hx hx' => hne ?_
    have howner : ∀ {t}, x ∈ httpHandles t ++ websocketClosed t → x.owner = t.label.id := fun hx =>
      (List.mem_append.mp hx).elim owner_of_mem_http owner_of_mem_closed
    rw [← howner hx, howner hx']

/-- Handles that are not timers are given back by `websocket.c` exactly where they are set up. -/
lemma mem_opened_iff (hx : x.isTimer = false) : x ∈ t.websocketOpened ↔ x ∈ t.websocketClosed := by
  rw [mem_opened, or_iff_left]
  rintro ⟨i, sync, -, -, rfl⟩
  cases hx

/-- A route that `http.c` has not visited keeps nothing there, if nothing is given back that has not
been set up. -/
lemma hidden_keeps_nothing
    (h : ∀ x, x.isTimer = false → ((∃ v ∈ tree.root.subtrees, x ∈ httpHandles v) →
      x ∈ (tree.root.reached branches).flatMap httpHandles ++ tree.root.prepareWebsockets))
    (hu : u ∈ tree.root.hidden branches) (htimer : x.isTimer = false) : x ∉ u.httpHandles := by
  intro hx
  have hperm := subtrees_perm branches tree.root
  have hu' : u ∈ tree.root.subtrees := hperm.mem_iff.mpr (List.mem_append_right _ hu)
  rcases List.mem_append.mp (h x htimer ⟨u, hu', hx⟩) with hx' | hx'
  · obtain ⟨v, hv, hx'⟩ := List.mem_flatMap.mp hx'
    have hv' : v ∈ tree.root.subtrees := hperm.mem_iff.mpr (List.mem_append_left _ hv)
    obtain rfl := label_inj hv' hu' ((owner_of_mem_http hx').symm.trans (owner_of_mem_http hx))
    have hnodup := hperm.nodup_iff.mp (List.Nodup.of_map _ tree.distinct)
    exact (List.nodup_append'.mp hnodup).2.2 hv hu
  · obtain ⟨v, -, hx'⟩ := mem_prepareWebsockets.mp hx'
    exact http_notMem_closed hx ((mem_opened_iff htimer).mp hx')

/-- After a start that succeeds, the end gives back once what has been set up, and nothing else,
if and only if there is nothing for `http.c` below a route that does not route. Timers are left
aside. -/
theorem released_once_iff {opened : List Handle} (hopened : tree.root.prepare = .ok opened) :
    (∃ closed, tree.root.release = .ok closed ∧ ∀ x, x.isTimer = false →
      closed.count x = if x ∈ opened then 1 else 0) ↔
    ∀ t ∈ tree.root.subtrees, branches t = false → ∀ u ∈ t.descendants,
      u.label.zmqForward = false ∧ branches u = false := by
  obtain ⟨hgood, rfl⟩ := prepare_eq_ok.mp hopened
  have hcount : ∀ x (l : List Handle), ((tree.root.subtrees.flatMap httpHandles ++
      tree.root.subtrees.flatMap websocketClosed).count x = if x ∈ l then 1 else 0) ↔
      ((∃ u ∈ tree.root.subtrees, x ∈ httpHandles u) ∨
        (∃ u ∈ tree.root.subtrees, x ∈ websocketClosed u) ↔ x ∈ l) := by
    intro x l
    rw [(nodup_release tree).count, ← List.mem_flatMap, ← List.mem_flatMap, ← List.mem_append]
    split_ifs with h h' h' <;> simp only [h, h', iff_self, iff_false, iff_true, not_true_eq_false]
  constructor
  · rintro ⟨closed, hclosed, hreleased⟩ t ht hstop u hu
    obtain ⟨hgood', rfl⟩ := release_eq_ok.mp hclosed
    have hhidden : u ∈ tree.root.hidden branches := mem_hidden.mpr ⟨t, ht, hstop, hu⟩
    have hu' : u ∈ tree.root.subtrees :=
      (subtrees_perm branches tree.root).mem_iff.mpr (List.mem_append_right _ hhidden)
    have hnone : ∀ x, x.isTimer = false → x ∉ httpHandles u := fun x htimer =>
      hidden_keeps_nothing (fun x htimer hx =>
        ((hcount x _).mp (hreleased x htimer)).mp (Or.inl hx)) hhidden htimer
    constructor
    · by_contra h
      exact hnone (.zmqForward u.label.id) rfl (mem_http.mpr (Or.inl ⟨by simpa using h, rfl⟩))
    · by_contra h
      rw [hgood' u hu'] at h
      exact hnone (.matcher u.label.id) rfl (mem_http.mpr (Or.inr ⟨by simpa using h, rfl⟩))
  · intro hempty
    have hhidden : ∀ u ∈ tree.root.hidden branches,
        u.label.zmqForward = false ∧ branches u = false := by
      intro u hu
      obtain ⟨t, ht, hstop, hu⟩ := mem_hidden.mp hu
      exact hempty t ht hstop u hu
    have hperm := subtrees_perm branches tree.root
    refine ⟨_, release_eq_ok.mpr ⟨fun u hu => ?_, rfl⟩, fun x htimer => ?_⟩
    · rcases List.mem_append.mp (hperm.mem_iff.mp hu) with hu | hu
      · exact hgood u hu
      · rw [routes, (hhidden u hu).2, Bool.false_and]
    · rw [hcount, List.mem_append, List.mem_flatMap, mem_prepareWebsockets]
      refine or_congr ⟨?_, ?_⟩ (exists_congr fun u => and_congr_right fun _ =>
        (mem_opened_iff htimer).symm)
      · rintro ⟨u, hu, hx⟩
        rcases List.mem_append.mp (hperm.mem_iff.mp hu) with hu | hu
        · exact ⟨u, hu, hx⟩
        · obtain ⟨hsocket, hbranch⟩ := hhidden u hu
          rcases mem_http.mp hx with ⟨h, -⟩ | ⟨h, -⟩
          · exact absurd (hsocket.symm.trans h) Bool.false_ne_true
          · rw [routes, hbranch] at h
            cases h
      · rintro ⟨u, hu, hx⟩
        exact ⟨u, hperm.mem_iff.mpr (List.mem_append_left _ hu), hx⟩

/-- A route of some type, with one route below that forwards requests. -/
def twoRoutes (type : RoutingType) : RouteTree where
  root := .node { plainNode 0 with routing := type }
    [.node { plainNode 1 with zmqForward := true } []]
  distinct := by simp [subtrees_eq, descendants, RoseTree.items, RoseTree.label, plainNode]

/-- If the first route does route, the socket of the second is closed once. -/
theorem released_once_routed : ∃ closed, (twoRoutes .exactMatch).root.release = .ok closed ∧
    ∀ x, x.isTimer = false →
      closed.count x = if x ∈ [Handle.matcher 0, .zmqForward 1] then 1 else 0 := by
  have hprepared : (twoRoutes .exactMatch).root.prepare = .ok [.matcher 0, .zmqForward 1] := rfl
  refine (released_once_iff hprepared).mpr fun t ht hstop u hu => ?_
  rcases List.mem_pair.mp ht with rfl | rfl
  · cases hstop
  · cases hu

/-- If not, the socket of the second has not been opened when it is closed. -/
theorem unopened_socket_closed : ¬ ∀ (tree : RouteTree) (opened : List Handle),
    tree.root.prepare = .ok opened → ∃ closed, tree.root.release = .ok closed ∧
      ∀ x, x.isTimer = false → closed.count x = if x ∈ opened then 1 else 0 := by
  intro hreleased
  obtain ⟨closed, hclosed, hcount⟩ := hreleased (twoRoutes .leaf) [] rfl
  cases hclosed
  exact absurd (hcount (.zmqForward 1) rfl) (by decide)

end Route

end Zerogw
