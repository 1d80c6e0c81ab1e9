import Zerogw.Library.RoseTree
import Zerogw.Http.Basic

/-!
# The tree of routes

The routes of the configuration with what is set up for them: `socket_visitor` and
`socket_unvisitor` of `http.c` and of `websocket.c`, and the two visitors that feed events to
watchers. All calls of ZeroMQ and of libwebsite succeed, since the server would be aborted
otherwise; what is given back without being there is listed like everything else.
-/

namespace Zerogw

/-! ### Routes -/

/-- `RoutingType` -/
inductive RoutingType where
  | leaf
  | exactMatch
  | prefixMatch
  | suffixMatch
  | hash
  | hash1024
  | trySerially
  deriving DecidableEq, Repr

/-- The routing types that `socket_visitor` of `http.c` implements. -/
def RoutingType.hasMatcher : RoutingType → Bool
  | .exactMatch | .prefixMatch | .suffixMatch => true
  | _ => false

/-- The part of `config_Route_t` that is needed to find a route and to set it up. `patterns` are its
`match`, or its key if it stands in a `map`; `namedOutputs` are the values of `sync-interval`. A
socket is used if it has an address. -/
structure RouteNode where
  id : RouteId
  patterns : List Bytes
  routing : RoutingType
  routingBy : RequestField
  maxBodySize : Nat
  pollingFallback : Bool
  zmqForward : Bool
  subscribe : Bool
  forward : Bool
  heartbeatInterval : Nat
  namedOutputs : List Nat

/-- A route with its `children` and then the routes in its `map`. -/
abbrev Route := RoseTree RouteNode

/-- The route `Routing`. Different routes have different places in memory. -/
structure RouteTree where
  root : Route
  distinct : (root.subtrees.map fun t => t.label.id).Nodup

namespace Route

/-- The condition under which `http.c` looks at the routes below. -/
def branches (t : Route) : Bool := t.label.routing ≠ .leaf && !t.items.isEmpty

/-- The route has a matcher, `_child_match`. -/
def routes (t : Route) : Bool := t.branches && t.label.routing.hasMatcher

/-! ### What is set up -/

/-- A socket with its watcher, a matcher, or a timer. -/
inductive Handle where
  | zmqForward (route : RouteId)
  | matcher (route : RouteId)
  | subscribe (route : RouteId)
  | output (k : SockId)
  | heartbeat (route : RouteId)
  | sync (k : SockId)
  deriving DecidableEq, Repr

/-- The loop over `named_outputs`. -/
def eachOutput (t : Route) (f : SockId → Nat → List Handle) : List Handle :=
  t.label.namedOutputs.zipIdx.flatMap fun p => f (.named t.label.id p.2) p.1

/-- What `http.c` keeps for a route. -/
def httpHandles (t : Route) : List Handle :=
  (if t.label.zmqForward then [.zmqForward t.label.id] else []) ++
    if t.routes then [.matcher t.label.id] else []

/-- What the visitors of `http.c` do at a route, whose routing tag may not be implemented. -/
def httpCalls (t : Route) : List (Except Fault Handle) :=
  t.httpHandles.map .ok ++
    if t.branches && !t.routes then [.error (.assertion .routingTag)] else []

/-- The sockets `subscribe` and `forward` of a route, the latter with its heartbeat. -/
def streams (t : Route) : List Handle :=
  (if t.label.subscribe then [.subscribe t.label.id] else []) ++
    if t.label.forward then .output (.forward t.label.id) ::
      if t.label.heartbeatInterval ≠ 0 then [.heartbeat t.label.id] else [] else []

/-- What `websocket.c` sets up for a route. -/
def websocketOpened (t : Route) : List Handle :=
  t.streams ++ t.eachOutput fun k sync => .output k :: if sync ≠ 0 then [.sync k] else []

/-- What `websocket.c` gives back for a route. -/
def websocketClosed (t : Route) : List Handle := t.streams ++ t.eachOutput fun k _ => [.output k]

/-- `socket_visitor` of `http.c`, as `prepare_http` calls it. -/
def prepareHttp (t : Route) : Except Fault (List Handle) :=
  (t.visit httpCalls (fun _ => []) branches).mapM id

/-- `socket_unvisitor` of `http.c`, as `release_http` calls it. -/
def releaseHttp (t : Route) : Except Fault (List Handle) :=
  (t.visit httpCalls (fun _ => []) fun _ => true).mapM id

/-- `socket_visitor` of `websocket.c`, as `prepare_websockets` calls it. -/
def prepareWebsockets : Route → List Handle :=
  RoseTree.visit websocketOpened (fun _ => []) fun _ => true

/-- `socket_unvisitor` of `websocket.c`, as `release_websockets` calls it. -/
def releaseWebsockets : Route → List Handle :=
  RoseTree.visit websocketClosed (fun _ => []) fun _ => true

/-- What is set up at the start. -/
def prepare (t : Route) : Except Fault (List Handle) := do
  return (← t.prepareHttp) ++ t.prepareWebsockets

/-- What is given back at the end. -/
def release (t : Route) : Except Fault (List Handle) := do
  return (← t.releaseHttp) ++ t.releaseWebsockets

/-! ### Events for watchers -/

/-- `resume_visitor`: the watchers that get an event. -/
def resumeVisitor : Route → List Handle :=
  RoseTree.visit (fun t => if t.label.forward then [.output (.forward t.label.id)] else [])
    (fun t => eachOutput t fun k _ => [.output k]) fun _ => true

/-- `sync_visitor`: the watchers that get an event. -/
def syncVisitor : Route → List Handle :=
  RoseTree.visit (fun _ => []) (fun t => eachOutput t fun k _ => [.sync k]) fun _ => true

end Route

end Zerogw
