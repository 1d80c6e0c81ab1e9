import Zerogw.Sieve
import Zerogw.Topics.Basic
import Zerogw.Outputs.Basic
import Zerogw.Polling.Basic

/-!
# The server

The connections of the server and the handlers that act on all of its parts: `websocket.c` and the
rest of `polling.c`. A connection is live while it is in the sieve, and running from the return of
`hybi_start` until `hybi_stop`; its memory is there while its reference count is positive, and
touching it later is a fault.

There may be no memory for a new connection and for a message that has to wait for a backend; other
allocations do not fail. A socket error other than `EAGAIN` and `EINTR`, which aborts the server,
does not occur.
-/

namespace Zerogw

/-- `hybi_enum` -/
inductive HybiType where
  | websocket
  | comet
  deriving DecidableEq, Repr

/-- `hybi_t` without the parts that are kept in other components; `cookie` is `none` while
`WS_HAS_COOKIE` is not set. -/
structure Hybi where
  type : HybiType
  uid : Bytes
  cookie : Option Bytes
  route : RouteId
  deriving DecidableEq, Repr

/-- The server. `started` records which connections `hybi_start` has returned, `stops` how often
`hybi_stop` has been called for a connection, and `sends` the calls of `do_send`. -/
structure Server where
  sieve : Sieve HybiId
  info : HybiId → Hybi
  next : HybiId
  started : HybiId → Bool
  stops : HybiId → Nat
  topics : Topics
  outputs : Outputs
  backend : Backend
  polling : Polling
  sends : List (HybiId × Bytes)

/-- `!strncmp(a, b, n)` for buffers of at least `n` bytes. -/
def strncmpEq : Nat → Bytes → Bytes → Bool
  | n + 1, a :: as, b :: bs => a == b && (a == 0 || strncmpEq n as bs)
  | _, _, _ => true

/-- Upper-case hexadecimal digits of a byte, whatever the sign of a `char` is. -/
def hexByte (b : UInt8) : Bytes :=
  let digit (n : Nat) : UInt8 := UInt8.ofNat (if n < 10 then 48 + n else 55 + n)
  [digit (b.toNat / 16), digit (b.toNat % 16)]

/-- The id of a new comet connection as its client gets it. -/
def publicUid (cfg : Config) (uid : Bytes) : Bytes :=
  let mask := cfg.md5 (uid.drop (uidLen - uidNRandom) ++ cfg.randomData)
  let masked := (uid.take (uidLen - uidNRandom)).zipIdx.map fun (b, i) =>
    b ^^^ (mask[i % 16]?).getD 0
  (masked ++ uid.drop (uidLen - uidNRandom)).flatMap hexByte

namespace Server

def init (cfg : Config) : Server where
  sieve := .prepare cfg.maxWebsockets
  info _ := ⟨.websocket, [], none, 0⟩
  next := 0
  started _ := false
  stops _ := 0
  topics := .init
  outputs := .init
  backend := .init cfg.capacity
  polling := .init
  sends := []

/-- The slot a connection's id names. -/
def slot (s : Server) (h : HybiId) : Nat := uidHole (s.info h).uid

/-- The connection is in the sieve. -/
def Live (s : Server) (h : HybiId) : Prop := s.sieve.Holds (s.slot h) h

instance (s : Server) (h : HybiId) : Decidable (s.Live h) :=
  inferInstanceAs (Decidable (s.sieve.items[s.slot h]? = some (some h)))

/-- `hybi_start` has returned the connection, and it has not been stopped. -/
def Running (s : Server) (h : HybiId) : Prop := s.started h = true ∧ s.stops h = 0

instance (s : Server) (h : HybiId) : Decidable (s.Running h) :=
  inferInstanceAs (Decidable (s.started h = true ∧ s.stops h = 0))

/-- Access to a connection. -/
def deref (h : HybiId) (s : Server) : Except Fault Hybi :=
  if s.backend.refcnt h = 0 then .error .useAfterFree else .ok (s.info h)

/-- The frames `backend_send_real` sends for a message. -/
def render (s : Server) (m : BackendMsg) : List Frame :=
  let hybi := s.info m.hybi
  let hasCookie := hybi.cookie.isSome
  let cookie (more : Bool) : List Frame :=
    match hybi.cookie with
    | some c => [⟨c, more⟩]
    | none => []
  let kind := if hasCookie then str "msgfrom" else str "message"
  ⟨hybi.uid, true⟩ :: match m.msg with
    | .connect => ⟨str "connect", hasCookie⟩ :: cookie false
    | .disconnect => ⟨str "disconnect", hasCookie⟩ :: cookie false
    | .request r => ⟨kind, true⟩ :: cookie true ++ [⟨(s.polling.request r).body, false⟩]
    | .message data => ⟨kind, true⟩ :: cookie true ++ [⟨data, false⟩]

/-- `backend_send` -/
def backendSend (k : SockId) (m : BackendMsg) (force : Bool) (s : Server) :
    Except Fault (SendStatus × Server) := do
  let (status, b) ← s.backend.send s.render k m force
  return (status, { s with backend := b })

/-! ### Connections start and stop -/

/-- `hybi_start` with `make_hole_uid`; `none` where the source returns `NULL`: there is no memory
for the connection, no slot is free, or the connect message can neither be sent nor queued. -/
def hybiStart (cfg : Config) (env : Env) (route : RouteId) (type : HybiType) (s : Server) :
    Except Fault (Option HybiId × Server) :=
  let h := s.next
  let (mem, b) := s.backend.allocate
  if !mem then .ok (none, { s with backend := b })
  else match s.sieve.findHole h with
  | none => .ok (none, { s with backend := b })
  | some (index, hole, sieve) => do
    let random := if type = .comet then env.random else List.replicate uidNRandom 0
    let uid := mkUid cfg.instanceId hole index random
    let s₁ : Server :=
      { s with
        sieve := sieve
        next := s.next + 1
        info := Function.update s.info h ⟨type, uid, none, route⟩
        backend := { b with refcnt := Function.update b.refcnt h 1 } }
    let (status, s₂) ← s₁.backendSend (.forward route) ⟨h, .connect⟩ false
    if status = .refused then
      let sieve ← s₂.sieve.clear (uidHole uid)
      return (none,
        { s₂ with
          sieve := sieve
          backend := { s₂.backend with refcnt := Function.update s₂.backend.refcnt h 0 } })
    else return (some h, { s₂ with started := Function.update s₂.started h true })

/-- The loop of `hybi_stop` over the outputs: a notice is sent on the last entry of each group. -/
def stopOutputs (h : HybiId) : List OutputId → Server → Except Fault Server
  | [], s => .ok s
  | o :: rest, s =>
    match s.outputs.out.get o with
    | none => .error .useAfterFree
    | some e => do
      let s₁ ← if (rest.head?.bind s.outputs.socketOf) = some e.socket then .ok s
        else Prod.snd <$> s.backendSend e.socket ⟨h, .disconnect⟩ true
      stopOutputs h rest { s₁ with outputs := s₁.outputs.remove o }

/-- `hybi_stop`. It empties the slot that the id of the connection names, whatever is in it. -/
def hybiStop (h : HybiId) (s : Server) : Except Fault Server := do
  let hybi ← s.deref h
  let sieve ← s.sieve.clear (uidHole hybi.uid)
  let (_, s₁) ← backendSend (.forward hybi.route) ⟨h, .disconnect⟩ true { s with sieve := sieve }
  let s₂ : Server := { s₁ with topics := s₁.topics.stop h }
  let s₃ ← stopOutputs h (s₂.outputs.clients h) s₂
  let b ← s₃.backend.decref h
  return { s₃ with backend := b, stops := Function.update s₃.stops h (s₃.stops h + 1) }

/-- `hybi_find`. The id is read up to its last byte once its slot is occupied. -/
def hybiFind (data : Bytes) (s : Server) : Except Fault (Option HybiId) :=
  if data.length < iidLen + 8 then .error .outOfBounds
  else do
    match ← s.sieve.get (uidHole data) with
    | none => return none
    | some h =>
      let hybi ← s.deref h
      if data.length < uidLen then .error .outOfBounds
      else return if hybi.uid = data.take uidLen then some h else none

/-! ### Messages to clients -/

/-- `free_comet` -/
def freeComet (h : HybiId) (s : Server) : Except Fault Server := do
  let _ ← s.deref h
  let P ← s.polling.freeComet h
  hybiStop h { s with polling := P }

/-- `comet_close` -/
def cometClose (cfg : Config) (env : Env) (h : HybiId) (s : Server) : Except Fault Server := do
  let _ ← s.deref h
  let P ← if (s.polling.comet h).curRequest.isSome then s.polling.closeReply cfg env h
    else .ok s.polling
  freeComet h { s with polling := P }

/-- `comet_send`. Its result is not looked at. -/
def cometSend (cfg : Config) (env : Env) (h : HybiId) (m : Bytes) (s : Server) :
    Except Fault Server := do
  let _ ← s.deref h
  let c := s.polling.comet h
  if c.queue.length ≥ c.capacity then cometClose cfg env h s
  else return { s with polling := s.polling.push h m }

/-- `do_send` -/
def doSend (cfg : Config) (env : Env) (h : HybiId) (m : Bytes) (s : Server) :
    Except Fault Server := do
  let hybi ← s.deref h
  let s₁ : Server := { s with sends := s.sends ++ [(h, m)] }
  match hybi.type with
  | .websocket => if env.full h then hybiStop h s₁ else return s₁
  | .comet => cometSend cfg env h m s₁

/-- `websock_resolve`: the socket for a message of the client, or `none` for a frontend command,
which is answered at once. -/
def websockResolve (cfg : Config) (env : Env) (h : HybiId) (data : Bytes) (s : Server) :
    Except Fault (Option SockId × Server) := do
  let hybi ← s.deref h
  if (cfg.route hybi.route).frontendCommands ∧ data.length ≥ 8 ∧ data.take 7 = str "ZEROGW:" then
    if data.length ≥ 11 ∧ (data.drop 7).take 4 = str "echo" then do
      let s₁ ← doSend cfg env h data s
      return (none, s₁)
    else if data.length ≥ 16 ∧ (data.drop 7).take 9 = str "timestamp" then do
      let s₁ ← doSend cfg env h (data ++ env.now) s
      return (none, s₁)
    else return (none, s)
  else
    let item := (s.outputs.clients h).find? fun o =>
      (s.outputs.out.get o).any fun e =>
        e.pre.length ≤ data.length && strncmpEq e.pre.length data e.pre
    return (some ((item.bind s.outputs.socketOf).getD (.forward hybi.route)), s)

/-- `websock_message` -/
def websockMessage (cfg : Config) (env : Env) (h : HybiId) (data : Bytes) (s : Server) :
    Except Fault Server := do
  match ← s.websockResolve cfg env h data with
  | (none, s₁) => return s₁
  | (some k, s₁) =>
    let (_, s₂) ← s₁.backendSend k ⟨h, .message data⟩ false
    return s₂

/-- `send_message`: the body of a long-poll request. -/
def sendMessage (cfg : Config) (env : Env) (h : HybiId) (r : ReqId) (s : Server) :
    Except Fault Server := do
  match ← s.websockResolve cfg env h (s.polling.request r).body with
  | (none, s₁) => return s₁
  | (some k, s₁) =>
    let (_, s₂) ← backendSend k ⟨h, .request r⟩ false { s₁ with polling := s₁.polling.incref r }
    return s₂

/-! ### Long-poll requests -/

/-- `comet_connect` -/
def cometConnect (cfg : Config) (env : Env) (r : ReqId) (s : Server) :
    Except Fault (Int × Server) := do
  let q := s.polling.request r
  match ← s.hybiStart cfg env q.route .comet with
  | (none, s₁) => return (-1, s₁)
  | (some h, s₁) =>
    let P := s₁.polling.openComet (cfg.route q.route) h
    let rep := Polling.okReply cfg env r q [] (publicUid cfg (s₁.info h).uid)
    return (0, { s₁ with polling := P.reply r rep })

/-- The action a request stands for if its query names none. -/
def cometAction (args : CometArgs) (body : Bytes) : Option Action :=
  if args.action ≠ .unknown then some args.action
  else if body.length ≠ 0 then some (if args.limit ≠ 0 then .bidi else .post)
  else if args.limit = 0 then none
  else some .get

/-- `comet_request` on a connection that has been found, for a method other than `OPTIONS`. -/
def cometAct (cfg : Config) (env : Env) (r : ReqId) (args : CometArgs) (action : Action)
    (h : HybiId) (s : Server) : Except Fault (Int × Server) := do
  let q := s.polling.request r
  if (s.polling.comet h).curRequest = some r then .error (.assertion .curRequest)
  else
  let P ← if (action = .get ∨ action = .bidi ∨ action = .close) ∧
      (s.polling.comet h).curRequest.isSome then s.polling.emptyReply cfg env h
    else .ok s.polling
  let (rc, P) ← P.moveQueue h args.lastMessage
  if rc < 0 ∨ action = .close then
    let P ← if (P.comet h).curRequest.isSome then P.closeReply cfg env h else .ok P
    let P := P.incref r
    let P := P.setComet h { P.comet h with curRequest := some r }
    let s ← cometClose cfg env h { s with polling := P }
    return (0, s)
  else if (action = .post ∨ action = .bidi) ∧ args.inFormat ≠ .single then
    return (-1, { s with polling := P })
  else
    let s ← if action = .post ∨ action = .bidi then
        sendMessage cfg env h r { s with polling := P }
      else .ok { s with polling := P }
    if action = .get ∨ action = .bidi then
      let hybi ← s.deref h
      return (0, { s with polling := s.polling.park (cfg.route hybi.route) r args h })
    else if action = .post then
      let rep := Polling.okReply cfg env r q [Polling.text "X-Messages" "0"] []
      return (0, { s with polling := s.polling.reply r rep })
    else return (0, s)

/-- `comet_request`; `args` is what `parse_uri` makes of the query, `none` if it refuses it. -/
def cometRequest (cfg : Config) (env : Env) (r : ReqId) (args : Option CometArgs) (s : Server) :
    Except Fault (Int × Server) :=
  let q := s.polling.request r
  match args with
  | none => .ok (-1, s)
  | some args =>
    if args.action = .connect then
      match (cfg.route q.route).allowOrigins, q.origin with
      | o :: os, some origin =>
        if (o :: os).contains origin then s.cometConnect cfg env r else .ok (-1, s)
      | _, _ => s.cometConnect cfg env r
    else do
      match ← s.hybiFind args.uid with
      | none => return (-1, s)
      | some h =>
        let hybi ← s.deref h
        if hybi.type ≠ .comet then return (-1, s)
        else match cometAction args q.body with
          | none => return (-1, s)
          | some action =>
            if q.method = str "OPTIONS" then
              let rep := Polling.okReply cfg env r q [] []
              return (0, { s with polling := s.polling.reply r rep })
            else cometAct cfg env r args action h s

/-! ### Broadcasts -/

/-- `LIST_NEXT(sub, topic_list)` -/
def nextSub (T : Topics) (i : SubId) (sub : Subscriber) : Option SubId :=
  ((T.subscribers sub.topic).dropWhile (· ≠ i)).tail.head?

/-- The loop of `topic_publish`, which saves the next subscriber before it sends. The loop cannot
run longer than the list is when it starts. -/
def publishFrom (cfg : Config) (env : Env) (m : Bytes) :
    Nat → Option SubId → Server → Except Fault Server
  | _, none, s => .ok s
  | 0, some _, _ => .error .endless
  | n + 1, some i, s =>
    match s.topics.sub.get i with
    | none => .error .useAfterFree
    | some sub => do
      let nxt := nextSub s.topics i sub
      let s₁ ← doSend cfg env sub.connection m s
      publishFrom cfg env m n nxt s₁

/-- `topic_publish` -/
def topicPublish (cfg : Config) (env : Env) (t : TopicId) (m : Bytes) (s : Server) :
    Except Fault Server :=
  publishFrom cfg env m (s.topics.subscribers t).length (s.topics.subscribers t).head? s

/-- The loops of `send_all` and `pause_websockets` over the slots of the sieve: send to the
connections that `p` selects. -/
def sendEach (cfg : Config) (env : Env) (p : Hybi → Bool) (m : Bytes) :
    List Nat → Server → Except Fault Server
  | [], s => .ok s
  | k :: ks, s =>
    match s.sieve.items[k]? with
    | some (some h) => do
      let hybi ← s.deref h
      let s₁ ← if p hybi then doSend cfg env h m s else .ok s
      sendEach cfg env p m ks s₁
    | _ => sendEach cfg env p m ks s

/-- `send_all` -/
def sendAll (cfg : Config) (env : Env) (r : RouteId) (m : Bytes) (s : Server) :
    Except Fault Server :=
  sendEach cfg env (fun hybi => hybi.route = r) m (List.range s.sieve.max) s

/-- `pause_websockets` -/
def pauseWebsockets (cfg : Config) (env : Env) (pause : Bool) (s : Server) :
    Except Fault Server :=
  if s.backend.paused = pause then .ok s
  else do
    let m := if pause then str "ZEROGW:paused" else str "ZEROGW:resumed"
    let told (hybi : Hybi) : Bool :=
      (cfg.route hybi.route).frontendCommands && (cfg.route hybi.route).pausedCommand
    let s ← sendEach cfg env told m (List.range s.sieve.max) s
    return { s with backend := { s.backend with paused := pause } }

/-! ### Backend commands -/

/-- The lookup at the beginning of most commands: the first frame is the id of a connection of this
route, and another frame follows. `sized` says whether the length of the id is checked. -/
def withConnection (r : RouteId) (sized : Bool) (frames : List Bytes) (s : Server)
    (k : HybiId → List Bytes → Except Fault Server) : Except Fault Server :=
  match frames with
  | id :: frame :: rest =>
    if sized ∧ id.length ≠ uidLen then .ok s
    else do
      match ← s.hybiFind id with
      | none => return s
      | some h =>
        let hybi ← s.deref h
        if hybi.route ≠ r then return s else k h (frame :: rest)
  | _ => .ok s

/-- `topic-hash-size` of a route. -/
def hashSize (cfg : Config) (r : RouteId) : Nat := (cfg.route r).topicHashSize

/-- The command `subscribe`. -/
def subscribe (cfg : Config) (r : RouteId) (frames : List Bytes) (s : Server) :
    Except Fault Server :=
  s.withConnection r true frames fun h rest =>
    match rest with
    | [name] => .ok { s with topics := s.topics.subscribe (hashSize cfg) h (s.info h).route name }
    | _ => .ok s

/-- The command `unsubscribe`. -/
def unsubscribe (cfg : Config) (r : RouteId) (frames : List Bytes) (s : Server) :
    Except Fault Server :=
  s.withConnection r true frames fun h rest =>
    match rest with
    | [name] => .ok { s with topics := s.topics.unsubscribe (hashSize cfg) h r name }
    | _ => .ok s

/-- The command `publish`. -/
def publish (cfg : Config) (env : Env) (r : RouteId) (frames : List Bytes) (s : Server) :
    Except Fault Server :=
  match frames with
  | [name, m] =>
    match s.topics.findTopic (hashSize cfg) r name false with
    | (some t, _) => s.topicPublish cfg env t m
    | (none, _) => .ok s
  | _ => .ok s

/-- The command `send`. -/
def send (cfg : Config) (env : Env) (r : RouteId) (frames : List Bytes) (s : Server) :
    Except Fault Server :=
  s.withConnection r false frames fun h rest =>
    match rest with
    | [m] => s.doSend cfg env h m
    | _ => .ok s

/-- The command `clone`. -/
def clone (cfg : Config) (r : RouteId) (frames : List Bytes) (s : Server) : Except Fault Server :=
  match frames with
  | [source, target] => .ok { s with topics := s.topics.clone (hashSize cfg) r source target }
  | _ => .ok s

/-- The command `drop`. -/
def drop (cfg : Config) (r : RouteId) (frames : List Bytes) (s : Server) : Except Fault Server :=
  match frames with
  | [name] => .ok { s with topics := s.topics.drop (hashSize cfg) r name }
  | _ => .ok s

/-- The named output with a given name. -/
def namedOutput (cfg : Config) (r : RouteId) (name : Bytes) : Option SockId :=
  ((cfg.route r).namedOutputs.findIdx? (· == name)).map (.named r)

/-- The command `add_output`. -/
def addOutput (cfg : Config) (r : RouteId) (frames : List Bytes) (s : Server) :
    Except Fault Server :=
  s.withConnection r false frames fun h rest =>
    match rest with
    | [pre, name] =>
      match namedOutput cfg r name with
      | some k => .ok { s with outputs := s.outputs.addOutput h pre k }
      | none => .ok s
    | _ => .ok s

/-- The command `del_output`. -/
def delOutput (r : RouteId) (frames : List Bytes) (s : Server) : Except Fault Server :=
  s.withConnection r false frames fun h rest =>
    match rest with
    | [pre] => .ok { s with outputs := s.outputs.delOutput h pre }
    | _ => .ok s

/-- The command `set_cookie`. -/
def setCookie (r : RouteId) (frames : List Bytes) (s : Server) : Except Fault Server :=
  s.withConnection r false frames fun h rest =>
    match rest with
    | [cookie] =>
      .ok { s with info := Function.update s.info h { s.info h with cookie := some cookie } }
    | _ => .ok s

/-- The command `disconnect`. -/
def disconnect (cfg : Config) (env : Env) (r : RouteId) (frames : List Bytes) (s : Server) :
    Except Fault Server :=
  match frames with
  | [id] => do
    match ← s.hybiFind id with
    | none => return s
    | some h =>
      let hybi ← s.deref h
      if hybi.route ≠ r then return s
      else match hybi.type with
        | .comet => s.cometClose cfg env h
        | .websocket => s.hybiStop h
  | _ => .ok s

/-- One message on the subscribe socket of route `r`, in `websock_process`. A message with an
unknown command or the wrong number of frames is skipped. -/
def websockProcess (cfg : Config) (env : Env) (r : RouteId) (frames : List Bytes) (s : Server) :
    Except Fault Server :=
  match frames with
  | [] => .ok s
  | cmd :: rest =>
    if cmd = str "subscribe" then s.subscribe cfg r rest
    else if cmd = str "unsubscribe" then s.unsubscribe cfg r rest
    else if cmd = str "publish" then s.publish cfg env r rest
    else if cmd = str "send" then s.send cfg env r rest
    else if cmd = str "clone" then s.clone cfg r rest
    else if cmd = str "drop" then s.drop cfg r rest
    else if cmd = str "add_output" then s.addOutput cfg r rest
    else if cmd = str "del_output" then s.delOutput r rest
    else if cmd = str "set_cookie" then s.setCookie r rest
    else if cmd = str "sendall" then
      match rest with
      | [m] => s.sendAll cfg env r m
      | _ => .ok s
    else if cmd = str "disconnect" then s.disconnect cfg env r rest
    else .ok s

/-! ### Events -/

/-- What can happen to the server: a long-poll request, libwebsite is done with a request, ZeroMQ
gives back a request body, a watcher fires, a websocket is opened, sends a message or is closed, a
backend sends a command, a backend socket is readable, websockets are paused or resumed. -/
inductive Event where
  | cometRequest (route : RouteId) (method body : Bytes) (origin : Option Bytes) (date : Bytes)
      (args : Option CometArgs)
  | requestFinish (r : ReqId)
  | requestRelease (k : SockId) (r : ReqId)
  | pollingTimeout (r : ReqId)
  | inactivityTimeout (h : HybiId)
  | sendLater (h : HybiId)
  | websockStart (route : RouteId)
  | websockMessage (h : HybiId) (data : Bytes)
  | websockStop (h : HybiId)
  | command (route : RouteId) (frames : List Bytes)
  | backendUnqueue (k : SockId) (pollout : Bool)
  | pause (on : Bool)

structure Input where
  event : Event
  env : Env

/-- `http_request` on a route with long polling: `request_init`, then `comet_request`. -/
def newRequest (route : RouteId) (method body : Bytes) (origin : Option Bytes) (date : Bytes)
    (s : Server) : ReqId × Server :=
  let q : Request :=
    { Polling.noRequest with
      route := route, method := method, body := body, origin := origin, date := date
      refcnt := 1, finished := false }
  (s.polling.next,
    { s with
      polling := { s.polling.setRequest s.polling.next q with next := s.polling.next + 1 } })

/-- The finish callback of a request: `http_request_finish`, or `comet_request_sent`, which aborts a
request that is still parked. -/
def requestFinish (r : ReqId) (s : Server) : Except Fault Server := do
  let q := s.polling.request r
  let P := s.polling.setRequest r { q with finished := true }
  match q.finishCb, q.hybi with
  | .httpRequestFinish, some _ => .error (.assertion .requestFinish)
  | .cometRequestSent, some h =>
    let _ ← s.deref h
    let P ← P.requestAborted r h
    return { s with polling := P }
  | _, none => return { s with polling := P.decref r }

/-- ZeroMQ has transmitted the body of a request, which it got at most once, and drops its
reference. -/
def requestRelease (k : SockId) (r : ReqId) (s : Server) : Server :=
  let q := s.polling.request r
  if q.released < (s.backend.socks k).sent.countP (fun x => x.msg.msg = .request r) then
    { s with polling := s.polling.setRequest r { q with released := q.released + 1 }.decref }
  else s

/-- The polling timer of a request fires. -/
def pollingTimeout (cfg : Config) (env : Env) (r : ReqId) (s : Server) : Except Fault Server :=
  match (s.polling.request r).hybi with
  | none => .error .nullPointer
  | some h => do
    let _ ← s.deref h
    let P ← s.polling.pollingTimeout cfg env r h
    return { s with polling := P }

/-- The idle watcher of a connection fires. -/
def sendLater (cfg : Config) (env : Env) (h : HybiId) (s : Server) : Except Fault Server := do
  let _ ← s.deref h
  let P ← s.polling.sendLater cfg env h
  return { s with polling := P }

/-- The inactivity timer of a connection fires. -/
def inactivityTimeout (h : HybiId) (s : Server) : Except Fault Server := do
  let _ ← s.deref h
  let c := s.polling.comet h
  freeComet h { s with polling := s.polling.setComet h { c with inactivity := false } }

/-- The connection is an open websocket. -/
def isWebsocket (h : HybiId) (s : Server) : Bool := s.Running h && (s.info h).type == .websocket

/-- One event. Only armed watchers fire, a finish callback runs once, and only open websockets
receive messages and are closed; everything else is ignored. -/
def handle (cfg : Config) (i : Input) (s : Server) : Except Fault Server := do
  match i.event with
  | .cometRequest route method body origin date args =>
    let (r, s) := s.newRequest route method body origin date
    let (_, s) ← s.cometRequest cfg i.env r args
    return s
  | .requestFinish r =>
    if r < s.polling.next ∧ (s.polling.request r).finished = false then s.requestFinish r
    else return s
  | .requestRelease k r => return s.requestRelease k r
  | .pollingTimeout r =>
    if (s.polling.request r).timeout then s.pollingTimeout cfg i.env r else return s
  | .inactivityTimeout h =>
    if (s.polling.comet h).inactivity then s.inactivityTimeout h else return s
  | .sendLater h =>
    if (s.polling.comet h).sendlater then s.sendLater cfg i.env h else return s
  | .websockStart route =>
    let (_, s) ← s.hybiStart cfg i.env route .websocket
    return s
  | .websockMessage h data =>
    if s.isWebsocket h then s.websockMessage cfg i.env h data else return s
  | .websockStop h => if s.isWebsocket h then s.hybiStop h else return s
  | .command route frames => s.websockProcess cfg i.env route frames
  | .backendUnqueue k pollout =>
    let b ← s.backend.unqueue s.render k pollout
    return { s with backend := b }
  | .pause on => s.pauseWebsockets cfg i.env on

/-- ZeroMQ and the allocator are going to give the answers of `env` during an event. -/
def expecting (env : Env) (s : Server) : Server :=
  { s with backend := { s.backend with outcomes := env.outcomes, memory := env.memory } }

/-- One event of a run. -/
def step (cfg : Config) (i : Input) (s : Server) : Except Fault Server :=
  (s.expecting i.env).handle cfg i

end Server

end Zerogw
