import Zerogw.Config

/-!
# Long polling

The requests and the comet part of connections (`polling.c`): who is parked where, which watchers
are armed, and the queue of unacknowledged messages. What the handlers do to other parts of the
server follows in `Server.Basic`.

Timers and idle watchers are either armed or not; how long they run is not modelled. An `int` that
overflows wraps around.
-/

namespace Zerogw

/-- `format_enum` -/
inductive Format where
  | single
  | jsonlist
  deriving DecidableEq, Repr

/-- `action_enum` -/
inductive Action where
  | unknown
  | connect
  | get
  | post
  | bidi
  | close
  deriving DecidableEq, Repr

/-- `comet_args_t` as `parse_uri` fills it: a query string can only ask for `CONNECT` and `CLOSE`,
and `ack` is converted to `size_t`, `limit` to `int`. -/
structure CometArgs where
  action : Action
  uid : Bytes
  lastMessage : Nat
  inFormat : Format
  outFormat : Format
  limit : Int
  action_parsed : action = .unknown ∨ action = .connect ∨ action = .close
  uid_length : uid.length = uidLen
  lastMessage_lt : lastMessage < 2 ^ 64
  limit_isInt : IsInt limit

/-- The value of a header: a string, or a number printed with `%i`. -/
inductive HeaderValue where
  | text (s : Bytes)
  | int (i : Int)
  deriving DecidableEq, Repr

abbrev Header := Bytes × HeaderValue

structure Reply where
  status : Bytes
  headers : List Header
  body : Bytes
  deriving DecidableEq, Repr

/-- The callback libwebsite runs when it is done with a request. -/
inductive FinishCb where
  | httpRequestFinish
  | cometRequestSent
  deriving DecidableEq, Repr

/-- `request_t`. `date` is its `incoming_time` as a `Date` header prints it, `timeout` says whether
the timer is armed. `finished` says that the finish callback has run, `freed` counts the runs of
`request_free`, and `released` the references ZeroMQ has given back. -/
structure Request where
  route : RouteId
  method : Bytes
  body : Bytes
  origin : Option Bytes
  date : Bytes
  hybi : Option HybiId
  refcnt : Int
  timeout : Bool
  finishCb : FinishCb
  finished : Bool
  freed : Nat
  released : Nat
  replies : List Reply
  deriving DecidableEq, Repr

/-- `REQ_DECREF`; `request_free` stops the timer. -/
def Request.decref (q : Request) : Request :=
  if q.refcnt - 1 = 0 then { q with refcnt := 0, timeout := false, freed := q.freed + 1 }
  else { q with refcnt := q.refcnt - 1 }

/-- `comet_t` without `overflow`, which is always `FALSE`. `closed` says that `free_comet` has
closed the queued ZeroMQ messages, which stay in the queue. -/
structure Comet where
  curRequest : Option ReqId
  curFormat : Format
  curLimit : Int
  firstIndex : Int
  sendlater : Bool
  inactivity : Bool
  queue : List Bytes
  capacity : Nat
  closed : Bool
  deriving DecidableEq, Repr

/-- All requests and comets. -/
structure Polling where
  comet : HybiId → Comet
  request : ReqId → Request
  next : ReqId

namespace Polling

/-- The memory of a connection that has no comet part. -/
def noComet : Comet := ⟨none, .single, 0, 0, false, false, [], 0, false⟩

/-- A request that has not arrived yet. -/
def noRequest : Request :=
  ⟨0, [], [], none, [], none, 0, false, .httpRequestFinish, true, 0, 0, []⟩

def init : Polling := ⟨fun _ => noComet, fun _ => noRequest, 0⟩

def setComet (h : HybiId) (c : Comet) (P : Polling) : Polling :=
  { P with comet := Function.update P.comet h c }

def setRequest (r : ReqId) (q : Request) (P : Polling) : Polling :=
  { P with request := Function.update P.request r q }

/-! ### Reference counts -/

/-- `REQ_INCREF` -/
def incref (r : ReqId) (P : Polling) : Polling :=
  P.setRequest r { P.request r with refcnt := (P.request r).refcnt + 1 }

/-- `REQ_DECREF` -/
def decref (r : ReqId) (P : Polling) : Polling := P.setRequest r (P.request r).decref

/-! ### Replies -/

def text (name value : String) : Header := (str name, .text (str value))

def int (name : String) (value : Int) : Header := (str name, .int value)

/-- `set_headers`, with the `Date` header from `http_common_headers`. -/
def setHeaders (cfg : Config) (env : Env) (r : ReqId) (q : Request) : List Header :=
  let conf := cfg.route q.route
  [(str "Date", .text q.date),
    text "Cache-Control"
      "no-cache, no-store, must-revalidate, max-age=0, pre-check=0, post-check=0",
    text "Pragma" "no-cache",
    text "Expires" "Sat, 01 Dec 2001 00:00:00 GMT"]
  ++ conf.headers.map (fun line => (line.1, .text line.2))
  ++ (match conf.allowOrigins, q.origin with
    | _ :: _, some origin =>
      [(str "Access-Control-Allow-Origin", .text origin),
        text "Access-Control-Allow-Methods" "GET, POST, OPTIONS",
        text "Access-Control-Allow-Headers" "Origin, Content-Type",
        text "Access-Control-Expose-Headers" ("X-Messages, X-Timestamp, X-Wait-Time, " ++
          "X-Connection, X-Format, X-Message-ID, X-Last-ID"),
        (str "Access-Control-Max-Age", .text conf.accessControlMaxAge)]
    | _, _ => [])
  ++ (if conf.timestamps then
      [(str "X-Timestamp", .text env.timestamp), (str "X-Wait-Time", .text (env.waitTime r))]
    else [])

/-- A `200 OK` reply with some headers of its own before those of `set_headers`. -/
def okReply (cfg : Config) (env : Env) (r : ReqId) (q : Request) (own : List Header)
    (body : Bytes) : Reply :=
  ⟨str "200 OK", own ++ setHeaders cfg env r q, body⟩

/-- The reply is given to libwebsite. -/
def reply (r : ReqId) (rep : Reply) (P : Polling) : Polling :=
  P.setRequest r { P.request r with replies := (P.request r).replies ++ [rep] }

/-- A parked request is answered: stop its timer, reply, clear `hybi`, drop the reference. -/
def answer (r : ReqId) (rep : Reply) (P : Polling) : Polling :=
  P.setRequest r
    { P.request r with
      timeout := false
      replies := (P.request r).replies ++ [rep]
      hybi := none }.decref

/-- The parked request of `h` is answered without a message. -/
def dismiss (cfg : Config) (env : Env) (own : List Header) (h : HybiId) (P : Polling) :
    Except Fault Polling :=
  match (P.comet h).curRequest with
  | none => .error .nullPointer
  | some r =>
    let P := P.answer r (okReply cfg env r (P.request r) own [])
    .ok (P.setComet h { P.comet h with curRequest := none })

/-- `empty_reply` -/
def emptyReply (cfg : Config) (env : Env) (h : HybiId) (P : Polling) : Except Fault Polling :=
  P.dismiss cfg env [text "X-Messages" "0"] h

/-- `close_reply` -/
def closeReply (cfg : Config) (env : Env) (h : HybiId) (P : Polling) : Except Fault Polling :=
  P.dismiss cfg env [text "X-Messages" "0", text "X-Connection" "close"] h

/-! ### The queue -/

/-- `move_queue`: the return value and the new state. The results of `zmq_msg_close` are not looked
at, so whether the messages are closed already makes no difference. -/
def moveQueue (h : HybiId) (msgid : Nat) (P : Polling) : Except Fault (Int × Polling) :=
  let c := P.comet h
  if msgid = 0 ∨ msgid < toSize c.firstIndex then .ok (0, P)
  else
    let amount := toSize (msgid - c.firstIndex + 1)
    if amount > c.queue.length then .ok (-1, P)
    else if amount = 0 then .ok (0, P)
    else .ok (0, P.setComet h
      { c with
        queue := c.queue.drop amount
        firstIndex := toInt (c.firstIndex + amount) })

/-- The part of `comet_send` behind the overflow check. -/
def push (h : HybiId) (m : Bytes) (P : Polling) : Polling :=
  let c := P.comet h
  P.setComet h
    { c with
      queue := c.queue ++ [m]
      sendlater := c.sendlater || c.curRequest.isSome }

/-- One message of a `jsonlist` reply. -/
def jsonItem (m : Bytes) : Bytes :=
  if m.length > 7 && m.take 7 == str "ZEROGW:" then str "\"" ++ m ++ str "\"" else m

/-- The body of a `jsonlist` reply. -/
def jsonList (ms : List Bytes) : Bytes :=
  str "[" ++ (str ",").intercalate (ms.map jsonItem) ++ str "]"

/-- How many messages a `jsonlist` reply carries. -/
def jsonlistCount (c : Comet) : Int :=
  if (c.queue.length : Int) > c.curLimit then c.curLimit else c.queue.length

/-- The reply `send_later` builds when messages wait. -/
def messageReply (cfg : Config) (env : Env) (r : ReqId) (q : Request) (c : Comet) : Reply :=
  match c.curFormat with
  | .single =>
    okReply cfg env r q
      [text "X-Messages" "1", text "X-Format" "single", int "X-Message-ID" c.firstIndex]
      (c.queue.head?.getD [])
  | .jsonlist =>
    okReply cfg env r q
      [int "X-Messages" (jsonlistCount c),
        int "X-Last-ID" (toInt (c.firstIndex + c.queue.length - 1)),
        text "X-Format" "jsonlist", text "Content-Type" "application/json"]
      (jsonList (c.queue.take (jsonlistCount c).toNat))

/-- `send_later` -/
def sendLater (cfg : Config) (env : Env) (h : HybiId) (P : Polling) : Except Fault Polling :=
  let c := P.comet h
  match c.curRequest with
  | none => .ok (P.setComet h { c with sendlater := false })
  | some r =>
    if c.queue.isEmpty then .ok (P.setComet h { c with sendlater := false, inactivity := true })
    else if c.closed then .error .closedMessage
    else
      let P := P.answer r (messageReply cfg env r (P.request r) c)
      .ok (P.setComet h { c with curRequest := none, sendlater := false, inactivity := true })

/-! ### The other callbacks -/

/-- `comet_request_aborted` -/
def requestAborted (r : ReqId) (h : HybiId) (P : Polling) : Except Fault Polling :=
  if (P.comet h).curRequest = some r then
    let P := P.setRequest r { P.request r with timeout := false }.decref
    .ok (P.setComet h { P.comet h with curRequest := none, inactivity := true })
  else .error (.assertion .requestAborted)

/-- `polling_timeout` -/
def pollingTimeout (cfg : Config) (env : Env) (r : ReqId) (h : HybiId) (P : Polling) :
    Except Fault Polling :=
  if (P.comet h).curRequest = some r then do
    let P ← P.emptyReply cfg env h
    return P.setComet h { P.comet h with inactivity := true }
  else .error (.assertion .pollingTimeout)

/-- `free_comet` up to the call of `hybi_stop`. It ignores the results of `zmq_msg_close`, which
does nothing to a message that is closed already. -/
def freeComet (h : HybiId) (P : Polling) : Except Fault Polling :=
  let c := P.comet h
  if c.curRequest.isSome then .error (.assertion .freeComet)
  else .ok (P.setComet h { c with sendlater := false, inactivity := false, closed := true })

/-- The end of `comet_connect`: the comet of a new connection. `cur_limit` is not set here. -/
def openComet (conf : RouteConf) (h : HybiId) (P : Polling) : Polling :=
  P.setComet h
    { curRequest := none
      curFormat := .single
      curLimit := (P.comet h).curLimit
      firstIndex := 1
      sendlater := false
      inactivity := true
      queue := []
      capacity := conf.queueLimit
      closed := false }

/-- `cur_limit` for a request: `queue-limit`, or less if the request asks for less. -/
def limitFor (conf : RouteConf) (limit : Int) : Int :=
  if limit ≥ 0 ∧ limit < conf.queueLimit then limit else conf.queueLimit

/-- The part of `comet_request` that parks a request. -/
def park (conf : RouteConf) (r : ReqId) (args : CometArgs) (h : HybiId) (P : Polling) : Polling :=
  let c := P.comet h
  let q := P.request r
  let P := P.setRequest r
    { q with
      refcnt := q.refcnt + 1
      hybi := some h
      finishCb := .cometRequestSent
      timeout := q.timeout || c.queue.isEmpty }
  P.setComet h
    { c with
      curRequest := some r
      curFormat := args.outFormat
      curLimit := limitFor conf args.limit
      sendlater := c.sendlater || !c.queue.isEmpty
      inactivity := false }

end Polling

end Zerogw
