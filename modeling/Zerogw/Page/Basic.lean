import Zerogw.Logging.Basic
import Zerogw.Polling.Arguments
import Zerogw.Server.Origins
import Zerogw.Server.Numbering

/-!
# A page that polls

The client of a comet connection in a browser, the object `HTTPPolling` of `examples/ws.js`,
together with the server and the requests and responses between them. Requests may arrive late, in
any order or not at all, and so may responses; meanwhile anything else may happen to the server.

The callbacks `onopen` and `onmessage` belong to the application, which may send messages from them.
-/

namespace Zerogw

open Execution

namespace Page

/-! ### The page -/

/-- What is called when the response to a request is there. -/
inductive Callback where
  | connectReq
  | messageReq
  deriving DecidableEq, Repr

/-- A request of the page on its way to the server; all of them are `POST` requests. -/
structure Sent where
  uri : Bytes
  data : Bytes
  callback : Callback
  deriving DecidableEq, Repr

/-- `HTTPPolling`. `connectionId` is `none` while it is undefined, `lastMessage` is `none` where the
source has `null`, and `closed` says that `readyState` is `CLOSED`. `handed` records the calls of
`onmessage`, with the id of the message. -/
structure HTTPPolling where
  connectionId : Option Bytes
  lastMessage : Option Bytes
  nrequests : Int
  closed : Bool
  handed : List (Option Bytes × Bytes)
  deriving DecidableEq, Repr

/-- A header value as it is sent. -/
def headerText : HeaderValue → Bytes
  | .text s => s
  | .int i => Logging.decimal i

/-- `getResponseHeader`: names are compared without regard to case, and the values of headers with
the same name are joined; `none` is `null`. -/
def getResponseHeader (name : Bytes) (headers : List Header) : Option Bytes :=
  match headers.filter fun x => x.1.map lower == name.map lower with
  | [] => none
  | x :: xs => some ((str ", ").intercalate ((x :: xs).map fun x => headerText x.2))

/-- What `message_req` takes a successful response for: there is no message, or one with an id, or
the format is unknown and an exception is thrown. -/
inductive Reading where
  | nothing
  | message (id : Option Bytes) (data : Bytes)
  | unknownFormat
  deriving DecidableEq, Repr

def read (rep : Reply) : Reading :=
  if getResponseHeader (str "X-Messages") rep.headers = some (str "0") then .nothing
  else if getResponseHeader (str "X-Format") rep.headers ≠ some (str "single") then .unknownFormat
  else .message (getResponseHeader (str "X-Message-ID") rep.headers) rep.body

/-- `req.status == 200` -/
def succeeded (rep : Reply) : Bool := rep.status.take 3 == str "200"

/-! ### The page and the server -/

/-- `conn` is the connection that the request for one has opened. `sent` are the requests on their
way to the server, `pending` those that have arrived and have no response yet, and `wire` those
whose responses are on their way back, in the order in which these were sent. -/
structure World where
  server : Server
  page : HTTPPolling
  conn : Option HybiId
  sent : List Sent
  pending : List (ReqId × Callback)
  wire : List (ReqId × Callback)

/-- Where a request is when it fails. -/
inductive Leg where
  | sent
  | pending
  | wire
  deriving DecidableEq, Repr

/-- What can happen: something at the server that the page has no part in, the arrival of a request
or of a response, the failure of a request, a message from the application. `spoken` are the
messages that the application sends from its callback, and `rnd` is what `Math.random()` gives. -/
inductive Event where
  | other (i : Server.Input)
  | arrive (n : Nat) (route : RouteId) (origin : Option Bytes) (date : Bytes) (env : Env)
  | receive (n : Nat) (spoken : List Bytes) (rnd : Bytes)
  | fail (leg : Leg) (n : Nat)
  | send (data rnd : Bytes)

namespace World

variable (cfg : Config) (path : Bytes)

/-- The constructor of `HTTPPolling`; `path` is the path of its URL. -/
def init : World where
  server := .init cfg
  page := ⟨none, none, 1, false, []⟩
  conn := none
  sent := [⟨path ++ str "?action=CONNECT", [], .connectReq⟩]
  pending := []
  wire := []

/-- `request_next` -/
def requestNext (rnd data : Bytes) (w : World) : World :=
  { w with
    page := { w.page with nrequests := w.page.nrequests + 1 }
    sent := w.sent ++ [⟨path ++ str "?id=" ++ w.page.connectionId.getD (str "undefined") ++
      str "&ack=" ++ w.page.lastMessage.getD (str "null") ++ str "&rnd=" ++ rnd, data,
      .messageReq⟩] }

/-- The application sends messages from a callback. -/
def say (rnd : Bytes) (spoken : List Bytes) (w : World) : World :=
  spoken.foldl (fun w data => w.requestNext path rnd data) w

/-- A request has come to an end. -/
def ended (w : World) : World :=
  { w with page := { w.page with nrequests := w.page.nrequests - 1 } }

/-- A request has failed. -/
def failed (w : World) : World := { w.ended with page := { w.ended.page with closed := true } }

/-- `if(!this.nrequests) this.request_next()` -/
def requestIfNone (rnd : Bytes) (w : World) : World :=
  if w.page.nrequests = 0 then w.requestNext path rnd [] else w

/-- `connect_req` -/
def connectReq (rnd : Bytes) (spoken : List Bytes) (rep : Reply) (w : World) : World :=
  if succeeded rep then
    let w := w.ended
    let w := { w with page :=
      { w.page with connectionId := some rep.body, lastMessage := some [] } }
    (w.say path rnd spoken).requestNext path rnd []
  else w.failed

/-- `message_req` -/
def messageReq (rnd : Bytes) (spoken : List Bytes) (rep : Reply) (w : World) : World :=
  if succeeded rep then
    let w := w.ended
    match read rep with
    | .nothing => w.requestIfNone path rnd
    | .unknownFormat => w
    | .message id data =>
      if w.page.lastMessage ≠ id then
        let w := { w with page := { w.page with lastMessage := id } }
        let w := w.requestIfNone path rnd
        let w := { w with page := { w.page with handed := w.page.handed ++ [(id, data)] } }
        w.say path rnd spoken
      else w.requestIfNone path rnd
  else w.failed

/-- The server has gone on: the responses that it has sent are on their way. -/
def collect (s : Server) (w : World) : World :=
  let answered (x : ReqId × Callback) : Bool := !(s.polling.request x.1).replies.isEmpty
  { w with
    server := s
    pending := w.pending.filter fun x => !answered x
    wire := w.wire ++ w.pending.filter answered }

/-- The arrival of a request at the server. -/
def arrival (route : RouteId) (origin : Option Bytes) (date : Bytes) (env : Env) (m : Sent)
    (args : Option CometArgs) : Server.Input :=
  ⟨.cometRequest route (str "POST") m.data origin date args, env⟩

/-- The connection that a request of the page has opened. -/
def opened (m : Sent) (s s' : Server) (conn : Option HybiId) : Option HybiId :=
  if m.callback = .connectReq ∧ s'.Live s.next then some s.next else conn

/-- One event. -/
def step (e : Event) (w : World) : Except Fault World :=
  match e with
  | .other i => do
    let s ← w.server.step cfg i
    return w.collect s
  | .arrive n route origin date env =>
    match w.sent[n]? with
    | none => .ok w
    | some m => do
      let args ← parseArgs cfg m.uri
      let s ← w.server.step cfg (arrival route origin date env m args)
      let w := { w with
        conn := opened m w.server s w.conn
        sent := w.sent.eraseIdx n
        pending := w.pending ++ [(w.server.polling.next, m.callback)] }
      return w.collect s
  | .receive n spoken rnd =>
    match w.wire[n]? with
    | none => .ok w
    | some (r, callback) =>
      match (w.server.polling.request r).replies with
      | [] => .ok w
      | rep :: _ =>
        let w := { w with wire := w.wire.eraseIdx n }
        match callback with
        | .connectReq => .ok (w.connectReq path rnd spoken rep)
        | .messageReq => .ok (w.messageReq path rnd spoken rep)
  | .fail leg n =>
    match leg with
    | .sent => if n < w.sent.length then .ok { w.failed with sent := w.sent.eraseIdx n } else .ok w
    | .pending =>
      if n < w.pending.length then .ok { w.failed with pending := w.pending.eraseIdx n } else .ok w
    | .wire => if n < w.wire.length then .ok { w.failed with wire := w.wire.eraseIdx n } else .ok w
  | .send data rnd =>
    if w.page.connectionId.isSome ∧ ¬ w.page.closed then .ok (w.requestNext path rnd data)
    else .ok w

/-- The messages for the connection of the page. -/
def messages (w : World) : List Bytes :=
  match w.conn with
  | none => []
  | some h => Server.messagesFor h w.server.sends

end World

end Page

end Zerogw
