import Zerogw.Http.Answers
import Zerogw.Routing.Properties

/-!
# The size of a body

A request is routed twice: when its headers have been read, to check the announced size of its body
against `max-body-size`, and again when the body is there. The second time the sieve may have a free
slot that it did not have before, and the body can decide on the route. How a matcher finds one of
the strings that were added to it is a parameter.
-/

namespace Zerogw

open Execution RoseTree

/-! ### Routing -/

/-- What is known of a request when its headers have been read; `bodylen` is announced there. -/
structure Incoming where
  uri : Bytes
  method : Bytes
  ip : Bytes
  date : Bytes
  header : Bytes → Option Bytes
  bodylen : Nat

/-- `ws_match`, `ws_fuzzy` and `ws_rfuzzy`: which of the routes below is found, given the strings
that were added for each of them. -/
abbrev Matcher :=
  RoutingType → (patterns : List (List Bytes)) → Bytes → Option (Fin patterns.length)

namespace Incoming

variable (q : Incoming)

/-- `get_field` as `do_resolve_url` calls it; nothing is the same as an empty string there, and the
body is not there before it has been read. -/
def getField (body : Option Bytes) : RequestField → Except Fault Bytes
  | .nothing => .ok []
  | .uri => .ok q.uri
  | .path => .ok (q.uri.takeWhile (· ≠ 63))
  | .method => .ok q.method
  | .header name => .ok ((q.header name).getD [])
  | .cookie => .error (.assertion .cookieField)
  | .body => .ok (body.getD [])
  | .ip => .ok q.ip

/-- One pass of the loop in `do_resolve_url`. -/
def turn (M : Matcher) (body : Option Bytes) (t : Route) : Except Fault Turn :=
  if Route.routes t then
    (q.getField body t.label.routingBy).map fun data =>
      match M t.label.routing (t.items.map fun s => s.label.patterns) data with
      | some i => .item i
      | none => .lost
  else .ok .stay

/-- `do_resolve_url`, if the sieve is not full: the route, or where nothing has been found. -/
def resolve (M : Matcher) (body : Option Bytes) (root : Route) : Except Fault (Route × Bool) :=
  root.descend (q.turn M body)

end Incoming

/-! ### The two phases -/

/-- The requests, those of them whose body has not been read, and the routes that `http_request` has
selected. -/
structure Gateway where
  http : Http
  waiting : List Incoming
  selected : List (Incoming × Route)

namespace Gateway

/-- The headers of a request have been read, the body of a waiting request has been read, or any
other event. -/
inductive Event where
  | headers (q : Incoming)
  | body (i : Nat) (data : Bytes) (result : ForwardResult)
  | http (e : Http.Event)

def init (cfg : HttpConfig) : Gateway := ⟨.init cfg, [], []⟩

variable (M : Matcher) (cfg : HttpConfig) (tree : RouteTree)

/-- `preliminary_resolve` -/
def preliminaryResolve (q : Incoming) (G : Gateway) : Except Fault (Option Route) :=
  if G.http.requests.sieve.full then .ok none
  else (q.resolve M none tree.root).map fun p => if p.2 then some p.1 else none

/-- `http_headers`. A request that is too big is forgotten, since its connection is closed. -/
def httpHeaders (q : Incoming) (G : Gateway) : Except Fault Gateway := do
  match ← G.preliminaryResolve M tree q with
  | some t =>
    if q.bodylen > t.label.maxBodySize then return G
    else return { G with waiting := G.waiting ++ [q] }
  | none => return { G with waiting := G.waiting ++ [q] }

/-- A request that is not for a long poll, from `http_request` on. -/
def handle (q : Incoming) (target : Http.Target) (data : Bytes) (result : ForwardResult)
    (G : Gateway) : Except Fault Gateway := do
  let H ← Http.step cfg (.request target q.uri q.method data q.ip q.date q.header result) G.http
  return { G with http := H }

/-- `http_request` for a request whose body has been read. The handlers of long polls are
elsewhere. -/
def httpRequest (q : Incoming) (data : Bytes) (result : ForwardResult) (G : Gateway) :
    Except Fault Gateway := do
  if G.http.requests.sieve.full then G.handle cfg q (.notFound tree.root.label.id) data result
  else do
    let (t, found) ← q.resolve M (some data) tree.root
    if found then
      let G := { G with selected := G.selected ++ [(q, t)] }
      if t.label.pollingFallback ∧ 63 ∈ q.uri then return G
      else G.handle cfg q (.route t.label.id) data result
    else G.handle cfg q (.notFound t.label.id) data result

/-- One event. A body has the announced length. -/
def step (e : Event) (G : Gateway) : Except Fault Gateway :=
  match e with
  | .headers q => G.httpHeaders M tree q
  | .body i data result =>
    match G.waiting[i]? with
    | some q =>
      if data.length = q.bodylen then
        { G with waiting := G.waiting.eraseIdx i }.httpRequest M cfg tree q data result
      else .ok G
    | none => .ok G
  | .http (.request ..) => .ok G
  | .http e => do
    let H ← Http.step cfg e G.http
    return { G with http := H }

/-! ### When the limit is kept -/

/-- The body takes part in the routing of the request. -/
def RoutedByBody (q : Incoming) : Prop :=
  ∃ t, Passes (q.turn M none) tree.root t ∧ Route.routes t = true ∧ t.label.routingBy = .body

/-- The size is checked for good when the headers have been read: there is a slot in the sieve, and
the body does not take part in the routing. Or it is within the limit of every route. -/
def Checked (q : Incoming) (G : Gateway) : Prop :=
  G.http.requests.sieve.full = false ∧ ¬ RoutedByBody M tree q ∨
    ∀ t ∈ tree.root.subtrees, q.bodylen ≤ t.label.maxBodySize

/-- The condition on one event. -/
def Careful (e : Event) (G : Gateway) : Prop := ∀ q, e = .headers q → Checked M tree q G

/-- Wherever the request may be routed, its body is within the limit. -/
def Within (q : Incoming) : Prop :=
  ∀ data t, q.resolve M (some data) tree.root = .ok (t, true) → q.bodylen ≤ t.label.maxBodySize

variable {M cfg tree} {q : Incoming} {G G' : Gateway} {t : Route} {body : Option Bytes}

/-- Two bodies make a difference only to a route that is routed by the body. -/
lemma turn_eq (h : ¬ (Route.routes t = true ∧ t.label.routingBy = .body)) :
    q.turn M body t = q.turn M none t := by
  rw [Incoming.turn, Incoming.turn]
  split_ifs with hroutes
  · have hfield : q.getField body t.label.routingBy = q.getField none t.label.routingBy := by
      cases hby : t.label.routingBy with
      | body => exact absurd ⟨hroutes, hby⟩ h
      | _ => rfl
    rw [hfield]
  · rfl

/-- The request is routed in the same way with any body. -/
lemma resolve_eq (h : ¬ RoutedByBody M tree q) :
    q.resolve M body tree.root = q.resolve M none tree.root :=
  descend_congr fun t ht => turn_eq fun hbody => h ⟨t, ht, hbody⟩

/-- What the first phase lets pass is within the limit. -/
lemma httpHeaders_spec (hchecked : Checked M tree q G) (hstep : G.httpHeaders M tree q = .ok G') :
    G'.selected = G.selected ∧ ∀ p ∈ G'.waiting, p ∈ G.waiting ∨ Within M tree p := by
  obtain ⟨route, hroute, hstep⟩ := bind_eq_ok.mp hstep
  have hpass : (∀ t, route = some t → q.bodylen ≤ t.label.maxBodySize) → Within M tree q := by
    intro hlimit data t ht
    rcases hchecked with ⟨hroom, hbody⟩ | hall
    · rw [resolve_eq hbody] at ht
      rw [preliminaryResolve, hroom, ht] at hroute
      exact hlimit t (Except.ok.inj hroute).symm
    · exact hall t (mem_of_descend ht)
  have hwaits : Within M tree q → ∀ p ∈ G.waiting ++ [q], p ∈ G.waiting ∨ Within M tree p := by
    intro hq p hp
    rcases List.mem_append.mp hp with hp | hp
    · exact Or.inl hp
    · cases List.mem_singleton.mp hp
      exact Or.inr hq
  cases route with
  | none =>
    cases hstep
    exact ⟨rfl, hwaits (hpass fun t ht => by cases ht)⟩
  | some t =>
    dsimp only at hstep
    split_ifs at hstep with hbig
    · cases hstep
      exact ⟨rfl, fun p hp => Or.inl hp⟩
    · cases hstep
      refine ⟨rfl, hwaits (hpass fun t' ht' => ?_)⟩
      cases ht'
      exact Nat.not_lt.mp hbig

lemma handle_spec {target : Http.Target} {data : Bytes} {result : ForwardResult}
    (hstep : G.handle cfg q target data result = .ok G') :
    G'.selected = G.selected ∧ G'.waiting = G.waiting := by
  obtain ⟨H, -, hstep⟩ := bind_eq_ok.mp hstep
  cases hstep
  exact ⟨rfl, rfl⟩

/-- What the second phase selects is where the request is routed with its body. -/
lemma httpRequest_spec {data : Bytes} {result : ForwardResult}
    (hstep : G.httpRequest M cfg tree q data result = .ok G') : G'.waiting = G.waiting ∧
      ∀ p ∈ G'.selected, p ∈ G.selected ∨
        p.1 = q ∧ q.resolve M (some data) tree.root = .ok (p.2, true) := by
  rw [httpRequest] at hstep
  split_ifs at hstep with hfull
  · obtain ⟨hselected, hwaiting⟩ := handle_spec hstep
    exact ⟨hwaiting, fun p hp => Or.inl (hselected ▸ hp)⟩
  · obtain ⟨⟨t, found⟩, ht, hstep⟩ := bind_eq_ok.mp hstep
    cases found with
    | false =>
      obtain ⟨hselected, hwaiting⟩ := handle_spec hstep
      exact ⟨hwaiting, fun p hp => Or.inl (hselected ▸ hp)⟩
    | true =>
      have hselects : ∀ p ∈ G.selected ++ [(q, t)], p ∈ G.selected ∨
          p.1 = q ∧ q.resolve M (some data) tree.root = .ok (p.2, true) := by
        intro p hp
        rcases List.mem_append.mp hp with hp | hp
        · exact Or.inl hp
        · cases List.mem_singleton.mp hp
          exact Or.inr ⟨rfl, ht⟩
      dsimp only at hstep
      rw [if_pos rfl] at hstep
      split_ifs at hstep with hpolls
      · cases hstep
        exact ⟨rfl, hselects⟩
      · obtain ⟨hselected, hwaiting⟩ := handle_spec hstep
        refine ⟨hwaiting, fun p hp => hselects p ?_⟩
        rw [hselected] at hp
        exact hp

/-- Requests that wait are within the limit wherever they may be routed, and those for which a route
has been selected are within its limit. -/
def Kept (M : Matcher) (tree : RouteTree) (G : Gateway) : Prop :=
  (∀ q ∈ G.waiting, Within M tree q) ∧ ∀ p ∈ G.selected, p.1.bodylen ≤ p.2.label.maxBodySize

lemma Kept.step {e : Event} (hkept : Kept M tree G) (hcareful : Careful M tree e G)
    (hstep : step M cfg tree e G = .ok G') : Kept M tree G' := by
  obtain ⟨hwaiting, hselected⟩ := hkept
  cases e with
  | headers q =>
    obtain ⟨hsame, hnew⟩ := httpHeaders_spec (hcareful q rfl) hstep
    refine ⟨fun p hp => ?_, hsame ▸ hselected⟩
    rcases hnew p hp with hp | hp
    · exact hwaiting p hp
    · exact hp
  | body i data result =>
    rw [Gateway.step] at hstep
    cases hi : G.waiting[i]? with
    | none =>
      rw [hi] at hstep
      cases hstep
      exact ⟨hwaiting, hselected⟩
    | some q =>
      rw [hi] at hstep
      dsimp only at hstep
      split_ifs at hstep with hlen
      · obtain ⟨hrest, hnew⟩ := httpRequest_spec hstep
        refine ⟨fun p hp => hwaiting p (List.mem_of_mem_eraseIdx (hrest ▸ hp)), fun p hp => ?_⟩
        rcases hnew p hp with hp | ⟨hq, ht⟩
        · exact hselected p hp
        · rw [hq]
          exact hwaiting q (List.mem_of_getElem? hi) data p.2 ht
      · cases hstep
        exact ⟨hwaiting, hselected⟩
  | http e =>
    cases e with
    | request =>
      cases hstep
      exact ⟨hwaiting, hselected⟩
    | _ =>
      obtain ⟨H, -, hstep⟩ := bind_eq_ok.mp hstep
      cases hstep
      exact ⟨hwaiting, hselected⟩

/-- In a run where the size of every request is checked for good, no route is selected for a request
with a body that is bigger than the route allows. -/
theorem bodies_within_limits
    (hr : ReachableVia (Gateway.step M cfg tree) (Careful M tree) (init cfg) G) :
    ∀ p ∈ G.selected, p.1.bodylen ≤ p.2.label.maxBodySize := by
  have hkept : Kept M tree G := by
    refine hr.invariant ⟨?_, ?_⟩ fun e G G' hcareful hkept hstep => hkept.step hcareful hstep
    · intro q hq
      cases hq
    · intro p hp
      cases hp
  exact hkept.2

/-! ### A gateway with one route -/

/-- A matcher that finds exact strings. -/
def plainMatcher : Matcher := fun _ patterns data => patterns.findFinIdx? fun p => p.contains data

/-- Bodies have five bytes at most. -/
def limited : RouteTree where
  root := .node { Route.plainNode 0 with maxBodySize := 5, zmqForward := true } []
  distinct := by decide

/-- A request with a body of some size. -/
def sized (bodylen : Nat) : Incoming where
  uri := str "/"
  method := str "POST"
  ip := []
  date := []
  header _ := none
  bodylen := bodylen

/-- The headers and the body of a request arrive. -/
def arrives (bodylen : Nat) : List Event :=
  [.headers (sized bodylen), .body 0 (List.replicate bodylen 0) .accepted]

/-- A request with a body of three bytes. -/
theorem bodies_within_limits_small : ∃ G : Gateway, G.selected.map (fun p => p.1.bodylen) = [3] ∧
    ∀ p ∈ G.selected, p.1.bodylen ≤ p.2.label.maxBodySize := by
  have hrun : (run (Gateway.step plainMatcher Http.smallGateway limited) (arrives 3)
      (init Http.smallGateway)).map (fun G => G.selected.map fun p => p.1.bodylen) = .ok [3] := rfl
  have hcareful : ∀ e ∈ arrives 3, ∀ G, Careful plainMatcher limited e G := by
    intro e he G q hq
    subst hq
    have hsize : q = sized 3 := by simpa [arrives] using he
    refine Or.inr fun t ht => ?_
    obtain rfl := List.mem_singleton.mp ht
    rw [hsize]
    decide
  obtain ⟨G, hr, hsize⟩ := exists_of_run _ hcareful hrun
  exact ⟨G, hsize, bodies_within_limits hr⟩

/-- Four requests fill the sieve. The headers of a fifth one are read, with a body of ten bytes;
then the first one is answered, and the body is read. -/
theorem full_sieve_lifts_limit : ¬ ∀ (M : Matcher) (cfg : HttpConfig) (tree : RouteTree)
    (G : Gateway), Reachable (Gateway.step M cfg tree) (init cfg) G →
    ∀ p ∈ G.selected, p.1.bodylen ≤ p.2.label.maxBodySize := by
  intro hall
  have hrun : (run (Gateway.step plainMatcher Http.smallGateway limited)
      (arrives 0 ++ arrives 0 ++ arrives 0 ++ arrives 0 ++
        [.headers (sized 10), .http Http.answers, .body 0 (List.replicate 10 0) .accepted])
      (init Http.smallGateway)).map
      (fun G => G.selected.map fun p => (p.1.bodylen, p.2.label.maxBodySize)) =
      .ok [(0, 5), (0, 5), (0, 5), (0, 5), (10, 5)] := rfl
  obtain ⟨G, hr, hsizes⟩ := exists_of_run _ (fun _ _ _ => trivial) hrun
  have hbig : (10, 5) ∈ G.selected.map fun p => (p.1.bodylen, p.2.label.maxBodySize) := by
    rw [hsizes]
    decide
  obtain ⟨p, hp, hsize⟩ := List.mem_map.mp hbig
  have hle := hall _ _ _ G hr p hp
  rw [(Prod.mk.inj hsize).1, (Prod.mk.inj hsize).2] at hle
  exact absurd hle (by decide)

end Gateway

end Zerogw
