import Zerogw.Uids

/-!
# HTTP requests

Requests that are forwarded to backends over ZeroMQ, served from the disk, or answered at once:
`http.c`, `request.c` and the end of `disk.c` that talks to the disk threads. All of them share one
sieve. Long-poll requests are not among them, they never get an id of their own.

The memory of a request is there while its reference count is positive. Sockets for `zmq-forward`
are of kind `Req`, since `zmq_open` accepts no other.
-/

namespace Zerogw

/-! ### Configuration -/

/-- `StaticResponse` -/
structure StaticResponse where
  code : Nat
  status : Bytes
  headers : List (Bytes × Bytes)
  body : Bytes
  code_ge : 100 ≤ code
  code_le : code ≤ 999

/-- `responses` of a route, as far as requests are answered with them here. -/
structure Responses where
  default : StaticResponse
  serviceUnavailable : StaticResponse
  internalError : StaticResponse
  gatewayTimeout : StaticResponse
  notFound : StaticResponse
  forbidden : StaticResponse

def Responses.all (R : Responses) : List StaticResponse :=
  [R.default, R.serviceUnavailable, R.internalError, R.gatewayTimeout, R.notFound, R.forbidden]

/-- `retrymode` -/
inductive RetryMode where
  | noRetry
  | retryFirst
  | retryLast
  deriving DecidableEq, Repr

/-- `RequestField` -/
inductive RequestField where
  | nothing
  | uri
  | path
  | method
  | header (name : Bytes)
  | cookie
  | body
  | ip
  deriving DecidableEq, Repr

/-- `zmq-forward` of a route. -/
structure ForwardConf where
  enabled : Bool
  contents : List RequestField
  timeout : Nat
  retryMode : RetryMode
  retryCount : Nat
  retryCount_le : retryCount ≤ 100

/-- The part of `config_Route_t` that these requests need. -/
structure HttpRoute where
  zmqForward : ForwardConf
  staticEnabled : Bool
  responses : Responses
  headers : List (Bytes × Bytes)

/-- The routes, `root` being `Routing`, and what the sieve of requests is made with. -/
structure HttpConfig where
  route : RouteId → HttpRoute
  root : RouteId
  instanceId : Bytes
  maxRequests : Nat
  diskThreads : Bool
  instanceId_length : instanceId.length = iidLen
  maxRequests_ge : 4 ≤ maxRequests
  maxRequests_le : maxRequests ≤ 2 ^ 30

/-! ### Requests -/

/-- What a request has got from `ws_statusline` to `ws_reply_data`. -/
structure Response where
  status : Bytes
  headers : List (Bytes × Bytes)
  body : Bytes
  deriving DecidableEq, Repr

/-- `request_t` without its id. `date` is its `incoming_time` as a `Date` header prints it, and
`header` its indexed headers; `timer` says whether `timeout` is armed. `held` counts the references
of frames that ZeroMQ has not released, `finished` says that libwebsite is done with the request,
and `freed` that `request_free` has run. -/
structure HttpRequest where
  uri : Bytes
  method : Bytes
  header : Bytes → Option Bytes
  body : Bytes
  ip : Bytes
  date : Bytes
  route : Option RouteId
  refcnt : Nat
  inSieve : Bool
  hasMessage : Bool
  timer : Bool
  retries : Nat
  held : Nat
  finished : Bool
  freed : Bool
  responses : List Response

/-- `get_field`; `Cookie` is not implemented, and for `Nothing` the length is never set. -/
def HttpRequest.getField (q : HttpRequest) : RequestField → Except Fault Bytes
  | .nothing => .error .uninitialised
  | .uri => .ok q.uri
  | .path => .ok (q.uri.takeWhile (· ≠ 63))
  | .method => .ok q.method
  | .header name => .ok ((q.header name).getD [])
  | .cookie => .error (.assertion .cookieField)
  | .body => .ok q.body
  | .ip => .ok q.ip

/-- The route whose responses a request gets (`REQRCONFIG`). -/
def HttpConfig.routeOf (cfg : HttpConfig) (q : HttpRequest) : HttpRoute :=
  cfg.route (q.route.getD cfg.root)

/-- A request that `do_forward` has handed to ZeroMQ: its id at that time and the fields. -/
structure Attempt where
  req : ReqId
  uid : Bytes
  values : List Bytes
  deriving DecidableEq, Repr

/-- All requests with the sieve, the counter `zmq_orphan_replies`, and what has been forwarded. -/
structure Http where
  requests : Registry ReqId
  request : ReqId → HttpRequest
  next : ReqId
  orphans : Nat
  attempts : List Attempt

/-- What ZeroMQ answers to the first frame of a forwarded request; the others are accepted with
it. -/
inductive ForwardResult where
  | accepted
  | eagain
  | failed
  deriving DecidableEq, Repr

namespace Http

/-- A request that has not arrived yet. -/
def noRequest : HttpRequest :=
  ⟨[], [], fun _ => none, [], [], [], none, 0, false, false, false, 0, 0, true, false, []⟩

def init (cfg : HttpConfig) : Http := ⟨.init cfg.maxRequests, fun _ => noRequest, 0, 0, []⟩

def setRequest (r : ReqId) (q : HttpRequest) (H : Http) : Http :=
  { H with request := Function.update H.request r q }

/-! ### Responses -/

/-- The status line of a static response, `"%03ld %s"`. -/
def statusLine (resp : StaticResponse) : Bytes :=
  str (toString resp.code) ++ str " " ++ resp.status

/-- The response that `http_static_response` makes. -/
def staticReply (q : HttpRequest) (resp : StaticResponse) : Response :=
  ⟨statusLine resp, (str "Date", q.date) :: resp.headers, resp.body⟩

def respond (r : ReqId) (rep : Response) (H : Http) : Http :=
  H.setRequest r { H.request r with responses := (H.request r).responses ++ [rep] }

/-- `http_static_response` -/
def staticResponse (r : ReqId) (resp : StaticResponse) (H : Http) : Http :=
  H.respond r (staticReply (H.request r) resp)

/-- `request_finish` -/
def requestFinish (r : ReqId) (H : Http) : Except Fault Http := do
  let q := H.request r
  let requests ← if q.inSieve then H.requests.empty (uidHole (H.requests.uid r))
    else .ok H.requests
  return { H.setRequest r { q with inSieve := false, timer := false } with requests := requests }

/-- A static response, and the end of the request. -/
def close (r : ReqId) (resp : StaticResponse) (H : Http) : Except Fault Http :=
  (H.staticResponse r resp).requestFinish r

/-- `REQ_DECREF`, with `request_free`. -/
def decref (r : ReqId) (H : Http) : Except Fault Http :=
  let q := H.request r
  if q.refcnt = 0 then .error .useAfterFree
  else if q.refcnt = 1 then
    (H.setRequest r { q with refcnt := 0, hasMessage := false, freed := true }).requestFinish r
  else .ok (H.setRequest r { q with refcnt := q.refcnt - 1 })

/-- `make_hole_uid` for a request. -/
def makeUid (cfg : HttpConfig) (r : ReqId) (H : Http) : Bool × Http :=
  let (found, requests) := H.requests.make cfg.instanceId (List.replicate uidNRandom 0) r
  (found, { H with requests := requests })

/-- `sieve_get` on the sieve of requests, and `UID_EQ` with the id of the request found there. -/
def find (data : Bytes) (H : Http) : Except Fault (Option ReqId) := do
  match ← H.requests.sieve.get (uidHole data) with
  | none => return none
  | some r =>
    if (H.request r).refcnt = 0 then .error .useAfterFree
    else return if H.requests.uid r = data then some r else none

/-! ### Forwarding -/

/-- `do_forward`, which says whether the request is on its way. A frame that is refused gives its
reference back when it is closed. -/
def doForward (cfg : HttpConfig) (result : ForwardResult) (r : ReqId) (H : Http) :
    Except Fault (Bool × Http) :=
  let q := H.request r
  match q.route with
  | none => .error .nullPointer
  | some route =>
    let conf := cfg.route route
    match result with
    | .eagain => do
      let H ← H.close r conf.responses.serviceUnavailable
      return (false, H)
    | .failed => do
      let H ← H.close r conf.responses.internalError
      return (false, H)
    | .accepted =>
      if conf.zmqForward.contents = [] then .error (.assertion .forwardContents)
      else do
        let values ← conf.zmqForward.contents.mapM q.getField
        let frames := 1 + values.length
        return (true,
          { H.setRequest r { q with refcnt := q.refcnt + frames, held := q.held + frames } with
            attempts := H.attempts ++ [⟨r, H.requests.uid r, values⟩] })

/-- The end of a retry: the timer runs again. -/
def retry (cfg : HttpConfig) (result : ForwardResult) (r : ReqId) (H : Http) :
    Except Fault Http := do
  let (sent, H) ← H.doForward cfg result r
  return if sent then H.setRequest r { H.request r with timer := true } else H

/-- `request_timeout` -/
def requestTimeout (cfg : HttpConfig) (result : ForwardResult) (r : ReqId) (H : Http) :
    Except Fault Http :=
  match (H.request r).route with
  | none => .error .nullPointer
  | some route =>
    let conf := cfg.route route
    let q := { H.request r with retries := (H.request r).retries + 1 }
    let H := H.setRequest r q
    let mode := if q.retries ≥ conf.zmqForward.retryCount then .noRetry
      else conf.zmqForward.retryMode
    match mode with
    | .noRetry => H.close r conf.responses.gatewayTimeout
    | .retryFirst => if q.inSieve then H.retry cfg result r else .error (.assertion .requestInSieve)
    | .retryLast =>
      if q.inSieve then do
        let requests ← H.requests.empty (uidHole (H.requests.uid r))
        let (_, H) := makeUid cfg r { H with requests := requests }
        H.retry cfg result r
      else .error (.assertion .requestInSieve)

/-! ### Replies -/

/-- The loops over a header block, in which every name and every value ends with a NUL byte. `name`
is the name read last, and the bytes since then are in `read`. -/
def headerLines : Option Bytes → Bytes → Bytes → List (Bytes × Bytes)
  | _, _, [] => []
  | none, read, b :: data =>
    if b = 0 then headerLines (some read) [] data else headerLines none (read ++ [b]) data
  | some name, read, b :: data =>
    if b = 0 then (name, read) :: headerLines none [] data
    else headerLines (some name) (read ++ [b]) data

/-- A response with a body from elsewhere, which the request keeps; `own` are the headers of the
route it came through. -/
def reply (r : ReqId) (status : Bytes) (headers own : List (Bytes × Bytes)) (body : Bytes)
    (H : Http) : Except Fault Http :=
  let q := H.request r
  if q.hasMessage then .error (.assertion .hasMessage)
  else
    let rep : Response := ⟨status, headers ++ [(str "Date", q.date)] ++ own, body⟩
    (H.setRequest r
      { q with hasMessage := true, responses := q.responses ++ [rep] }).requestFinish r

/-- One message on the `zmq-forward` socket of a route, in `http_process`. The headers are read
without the `int` that keeps the length of their part, which `readHeaders` models. -/
def httpProcess (cfg : HttpConfig) (route : RouteId) (frames : List Bytes) (H : Http) :
    Except Fault Http :=
  let own := (cfg.route route).headers
  match frames with
  | id :: sentinel :: rest =>
    if id.length ≠ uidLen then .ok H
    else do
      match ← H.find id with
      | none => return { H with orphans := H.orphans + 1 }
      | some r =>
        if rest = [] ∨ sentinel ≠ [] then return H
        else match rest with
          | [] => return H
          | [body] => H.reply r (str "200 OK") [] own body
          | [status, body] => H.reply r status [] own body
          | [status, headers, body] => H.reply r status (headerLines none [] headers) own body
          | _ => H.close r (cfg.routeOf (H.request r)).responses.internalError
  | _ => .ok H

/-! ### The disk -/

/-- `disk_request` -/
def diskRequest (cfg : HttpConfig) (result : ForwardResult) (r : ReqId) (H : Http) : Http :=
  let responses := (cfg.routeOf (H.request r)).responses
  if !cfg.diskThreads then H.staticResponse r responses.internalError
  else
    let H := (H.makeUid cfg r).2
    let q := { H.request r with inSieve := true }
    match result with
    | .accepted => H.setRequest r { q with refcnt := q.refcnt + 1, held := q.held + 1 }
    | .eagain => (H.setRequest r q).staticResponse r responses.serviceUnavailable
    | .failed => (H.setRequest r q).staticResponse r responses.internalError

/-- `atoi` -/
def atoi (data : Bytes) : Int :=
  let digits (ds : Bytes) : Nat :=
    (ds.takeWhile fun b => 48 ≤ b ∧ b ≤ 57).foldl (fun n b => 10 * n + (b.toNat - 48)) 0
  match data.dropWhile fun b => b = 32 ∨ 9 ≤ b ∧ b ≤ 13 with
  | [] => 0
  | b :: ds => if b = 45 then -digits ds else if b = 43 then digits ds else digits (b :: ds)

/-- What `disk_process` does with the frames behind the id; a single part is an error code. For too
many parts the source adds the static response to a status line and headers that are buffered
already (`http_process` resets them first), where the model has the static response alone. No disk
thread sends that many. -/
def diskAnswer (cfg : HttpConfig) (r : ReqId) (sentinel : Bytes) (rest : List Bytes) (H : Http) :
    Except Fault Http :=
  let conf := cfg.routeOf (H.request r)
  if rest = [] then .ok H
  else if sentinel ≠ [] then .error (.assertion .diskSentinel)
  else match rest with
    | [] => .ok H
    | [code] =>
      H.close r (if atoi code = 404 then conf.responses.notFound
        else if atoi code = 402 then conf.responses.forbidden
        else conf.responses.internalError)
    | [status, body] => H.reply r status [] conf.headers body
    | [status, headers, body] => H.reply r status (headerLines none [] headers) conf.headers body
    | _ => H.close r conf.responses.internalError

/-- One message from a disk thread, in `disk_process`. Its last step drops a reference that is only
taken once the request has been found. -/
def diskProcess (cfg : HttpConfig) (frames : List Bytes) (H : Http) : Except Fault Http :=
  match frames with
  | id :: sentinel :: rest =>
    if id.length ≠ uidLen then .error .uninitialised
    else do
      match ← H.find id with
      | none => .error (.assertion .diskReply)
      | some r =>
        let H := H.setRequest r { H.request r with refcnt := (H.request r).refcnt + 1 }
        let H ← H.diskAnswer cfg r sentinel rest
        H.decref r
  | _ => .error .uninitialised

/-! ### Events -/

/-- What the URL of a request leads to: a route, or the `not-found` response of one. -/
inductive Target where
  | route (route : RouteId)
  | notFound (route : RouteId)
  deriving DecidableEq, Repr

/-- `http_request` for a request that `http_headers` has prepared, with the return value. -/
def httpRequest (cfg : HttpConfig) (target : Target) (result : ForwardResult) (r : ReqId)
    (H : Http) : Except Fault (Int × Http) :=
  if H.requests.sieve.full then do
    let H ← H.close r (cfg.routeOf (H.request r)).responses.serviceUnavailable
    return (0, H)
  else match target with
    | .notFound route => do
      let H ← H.close r (cfg.route route).responses.notFound
      return (0, H)
    | .route route =>
      let conf := cfg.route route
      let H := H.setRequest r { H.request r with route := some route }
      if conf.zmqForward.enabled then
        let (found, H) := H.makeUid cfg r
        if !found then .ok (-1, H)
        else do
          let H := H.setRequest r { H.request r with inSieve := true }
          let (sent, H) ← H.doForward cfg result r
          if sent ∧ conf.zmqForward.timeout ≠ 0 then
            return (0, H.setRequest r { H.request r with timer := true })
          else return (0, H)
      else if conf.staticEnabled then .ok (0, H.diskRequest cfg result r)
      else do
        let H ← H.close r conf.responses.default
        return (0, H)

/-- What can happen to the requests: one arrives, a backend or a disk thread answers, a timer fires,
libwebsite is done with a request, ZeroMQ releases a frame. -/
inductive Event where
  | request (target : Target) (uri method body ip date : Bytes) (header : Bytes → Option Bytes)
      (result : ForwardResult)
  | reply (route : RouteId) (frames : List Bytes)
  | diskReply (frames : List Bytes)
  | timeout (r : ReqId) (result : ForwardResult)
  | finish (r : ReqId)
  | release (r : ReqId)

/-- `request_init` for a new request. -/
def newRequest (uri method body ip date : Bytes) (header : Bytes → Option Bytes)
    (H : Http) : Http :=
  { H.setRequest H.next
      { noRequest with
        uri := uri, method := method, header := header, body := body, ip := ip, date := date
        refcnt := 1, finished := false } with
    next := H.next + 1 }

/-- One event. Only armed timers fire, the finish callback of a request runs once, and ZeroMQ gives
back what it holds; everything else is ignored. -/
def step (cfg : HttpConfig) (e : Event) (H : Http) : Except Fault Http :=
  match e with
  | .request target uri method body ip date header result => do
    let (_, H) ← (H.newRequest uri method body ip date header).httpRequest cfg target result H.next
    return H
  | .reply route frames => H.httpProcess cfg route frames
  | .diskReply frames => H.diskProcess cfg frames
  | .timeout r result => if (H.request r).timer then H.requestTimeout cfg result r else .ok H
  | .finish r =>
    let q := H.request r
    if q.finished then .ok H else (H.setRequest r { q with finished := true }).decref r
  | .release r =>
    let q := H.request r
    if q.held = 0 then .ok H else (H.setRequest r { q with held := q.held - 1 }).decref r

end Http

end Zerogw
