import Zerogw.Library.Multipart
import Zerogw.Server.Basic
import Zerogw.Http.Basic

/-!
# Receive loops

The bodies of the loops in `websock_process`, `http_process` and `disk_process`, which receive the
parts of a message with the macros of `zutils.h`. Every exit is either behind the last part or skips
the rest of the message, so that the loops handle whole messages.
-/

namespace Zerogw

open Execution Multipart

/-- A round of a receive loop. -/
abbrev Round (σ : Type) := Receive Fault Bytes σ

/-- The fault of `Z_RECV` if no part is there. -/
abbrev noPart : Fault := .assertion .zmqRecv

/-! ### Commands of backends -/

namespace Server

/-- The part with the id of a connection; the other parts are left to `k`. -/
def recvConnection (r : RouteId) (sized : Bool) (s : Server) (k : HybiId → Round Server) :
    Round Server :=
  recvNext noPart (.ok s) fun id =>
    if sized ∧ id.length ≠ uidLen then skip noPart (.ok s)
    else match s.hybiFind id with
      | .error f => ended (.error f)
      | .ok none => skip noPart (.ok s)
      | .ok (some h) => match s.deref h with
        | .error f => ended (.error f)
        | .ok hybi => if hybi.route ≠ r then skip noPart (.ok s) else k h

/-- The commands that change one connection: the last part is the argument. -/
def recvOne (r : RouteId) (sized : Bool) (s : Server) (act : HybiId → Bytes → Except Fault Server) :
    Round Server :=
  s.recvConnection r sized fun h => recvLast noPart (.ok s) fun d => ended (act h d)

def recvPublish (cfg : Config) (env : Env) (r : RouteId) (s : Server) : Round Server :=
  recvNext noPart (.ok s) fun name =>
    match s.topics.findTopic (hashSize cfg) r name false with
    | (some t, _) => recvLast noPart (.ok s) fun m => ended (s.topicPublish cfg env t m)
    | (none, _) => skip noPart (.ok s)

def recvClone (cfg : Config) (r : RouteId) (s : Server) : Round Server :=
  recvNext noPart (.ok s) fun source => recvLast noPart (.ok s) fun target =>
    ended (.ok { s with topics := s.topics.clone (hashSize cfg) r source target })

def recvDrop (cfg : Config) (r : RouteId) (s : Server) : Round Server :=
  recvLast noPart (.ok s) fun name =>
    ended (.ok { s with topics := s.topics.drop (hashSize cfg) r name })

def recvAddOutput (cfg : Config) (r : RouteId) (s : Server) : Round Server :=
  s.recvConnection r false fun h => recvNext noPart (.ok s) fun pre =>
    recvLast noPart (.ok s) fun name =>
      match namedOutput cfg r name with
      | some k => ended (.ok { s with outputs := s.outputs.addOutput h pre k })
      | none => ended (.ok s)

def recvSendall (cfg : Config) (env : Env) (r : RouteId) (s : Server) : Round Server :=
  recvLast noPart (.ok s) fun m => ended (s.sendAll cfg env r m)

def recvDisconnect (cfg : Config) (env : Env) (r : RouteId) (s : Server) : Round Server :=
  recvLast noPart (.ok s) fun id =>
    match s.hybiFind id with
    | .error f => ended (.error f)
    | .ok none => ended (.ok s)
    | .ok (some h) => match s.deref h with
      | .error f => ended (.error f)
      | .ok hybi =>
        if hybi.route ≠ r then ended (.ok s)
        else match hybi.type with
          | .comet => ended (s.cometClose cfg env h)
          | .websocket => ended (s.hybiStop h)

/-- The body of the loop in `websock_process`. -/
def recvMessage (cfg : Config) (env : Env) (r : RouteId) (s : Server) : Round Server :=
  recvNext noPart (.ok s) fun cmd =>
    if cmd = str "subscribe" then
      s.recvOne r true fun h name => .ok { s with
        topics := s.topics.subscribe (hashSize cfg) h (s.info h).route name }
    else if cmd = str "unsubscribe" then
      s.recvOne r true fun h name => .ok { s with
        topics := s.topics.unsubscribe (hashSize cfg) h r name }
    else if cmd = str "publish" then s.recvPublish cfg env r
    else if cmd = str "send" then s.recvOne r false fun h m => s.doSend cfg env h m
    else if cmd = str "clone" then s.recvClone cfg r
    else if cmd = str "drop" then s.recvDrop cfg r
    else if cmd = str "add_output" then s.recvAddOutput cfg r
    else if cmd = str "del_output" then
      s.recvOne r false fun h pre => .ok { s with outputs := s.outputs.delOutput h pre }
    else if cmd = str "set_cookie" then
      s.recvOne r false fun h cookie => .ok { s with
        info := Function.update s.info h { s.info h with cookie := some cookie } }
    else if cmd = str "sendall" then s.recvSendall cfg env r
    else if cmd = str "disconnect" then s.recvDisconnect cfg env r
    else skip noPart (.ok s)

variable {cfg : Config} {env : Env} {r : RouteId} {s : Server} {d : Bytes} {m : List Bytes}
  {rest : List (MsgPart Bytes)}

/-- The commands that begin with the id of a connection. -/
lemma recvConnection_parts {sized : Bool} {k : HybiId → Round Server}
    {g : HybiId → List Bytes → Except Fault Server}
    (hk : ∀ h d m, k h (parts (d :: m) ++ rest) = ended (g h (d :: m)) rest) :
    s.recvConnection r sized k (parts (d :: m) ++ rest)
      = ended (s.withConnection r sized (d :: m) g) rest := by
  cases m with
  | nil => rfl
  | cons d' m =>
    rw [recvConnection, recvNext_cons, withConnection]
    by_cases hsized : sized = true ∧ d.length ≠ uidLen
    · rw [if_pos hsized, if_pos hsized]
      exact skip_parts
    · rw [if_neg hsized, if_neg hsized]
      cases s.hybiFind d with
      | error f => rfl
      | ok o =>
        cases o with
        | none => exact skip_parts
        | some h =>
          rw [ok_bind]
          dsimp only
          cases s.deref h with
          | error f => rfl
          | ok hybi =>
            rw [ok_bind]
            dsimp only
            by_cases hr : hybi.route ≠ r
            · rw [if_pos hr, if_pos hr]
              exact skip_parts
            · rw [if_neg hr, if_neg hr]
              exact hk h d' m

lemma recvOne_parts {sized : Bool} {act : HybiId → Bytes → Except Fault Server}
    {g : HybiId → List Bytes → Except Fault Server} (hact : ∀ h d, g h [d] = act h d)
    (hlong : ∀ h d d' m, g h (d :: d' :: m) = .ok s) :
    s.recvOne r sized act (parts (d :: m) ++ rest)
      = ended (s.withConnection r sized (d :: m) g) rest := by
  refine recvConnection_parts fun h d m => ?_
  cases m with
  | nil => rw [recvLast_singleton, hact]
  | cons d' m => rw [recvLast_cons, hlong]

lemma recvPublish_parts : s.recvPublish cfg env r (parts (d :: m) ++ rest)
    = ended (s.publish cfg env r (d :: m)) rest := by
  cases m with
  | nil => rfl
  | cons d' m =>
    rw [recvPublish, recvNext_cons]
    cases m with
    | nil =>
      rw [publish]
      rcases s.topics.findTopic (hashSize cfg) r d false with ⟨_ | t, T⟩ <;> rfl
    | cons d'' m =>
      rcases s.topics.findTopic (hashSize cfg) r d false with ⟨_ | t, T⟩
      · exact skip_parts
      · exact recvLast_cons

lemma recvClone_parts : s.recvClone cfg r (parts (d :: m) ++ rest)
    = ended (s.clone cfg r (d :: m)) rest := by
  cases m with
  | nil => rfl
  | cons d' m =>
    rw [recvClone, recvNext_cons]
    cases m with
    | nil => rfl
    | cons d'' m => exact recvLast_cons

lemma recvAddOutput_parts : s.recvAddOutput cfg r (parts (d :: m) ++ rest)
    = ended (s.addOutput cfg r (d :: m)) rest := by
  refine recvConnection_parts fun h d m => ?_
  cases m with
  | nil => rfl
  | cons d' m =>
    rw [recvNext_cons]
    cases m with
    | nil =>
      rw [recvLast_singleton]
      dsimp only
      cases namedOutput cfg r d' <;> rfl
    | cons d'' m => exact recvLast_cons

lemma recvDisconnect_parts : s.recvDisconnect cfg env r (parts (d :: m) ++ rest)
    = ended (s.disconnect cfg env r (d :: m)) rest := by
  cases m with
  | nil =>
    rw [recvDisconnect, recvLast_singleton, disconnect]
    cases s.hybiFind d with
    | error f => rfl
    | ok o =>
      cases o with
      | none => rfl
      | some h =>
        rw [ok_bind]
        dsimp only
        cases s.deref h with
        | error f => rfl
        | ok hybi =>
          rw [ok_bind]
          refine ite_ended (fun _ => rfl) fun _ => ?_
          cases hybi.type with
          | comet => rfl
          | websocket => rfl
  | cons d' m => exact recvLast_cons

lemma websockProcess_single (cmd : Bytes) : s.websockProcess cfg env r [cmd] = .ok s := by
  unfold websockProcess
  simp only [subscribe, unsubscribe, publish, send, clone, drop, addOutput, delOutput, setCookie,
    disconnect, withConnection, ite_self]

/-- A round of `websock_process` takes one message. -/
lemma recvMessage_parts (hm : m ≠ []) :
    s.recvMessage cfg env r (parts m ++ rest) = ended (s.websockProcess cfg env r m) rest := by
  obtain ⟨cmd, m, rfl⟩ := List.exists_cons_of_ne_nil hm
  cases m with
  | nil => rw [websockProcess_single, recvMessage, recvNext_singleton]
  | cons d m =>
    unfold websockProcess
    rw [recvMessage, recvNext_cons]
    refine ite_ended (fun _ => ?_) fun _ => ite_ended (fun _ => ?_) fun _ =>
      ite_ended (fun _ => recvPublish_parts) fun _ => ite_ended (fun _ => ?_) fun _ =>
      ite_ended (fun _ => recvClone_parts) fun _ => ite_ended (fun _ => ?_) fun _ =>
      ite_ended (fun _ => recvAddOutput_parts) fun _ => ite_ended (fun _ => ?_) fun _ =>
      ite_ended (fun _ => ?_) fun _ => ite_ended (fun _ => ?_) fun _ =>
      ite_ended (fun _ => recvDisconnect_parts) fun _ => skip_parts
    · exact recvOne_parts (fun _ _ => rfl) fun _ _ _ _ => rfl
    · exact recvOne_parts (fun _ _ => rfl) fun _ _ _ _ => rfl
    · exact recvOne_parts (fun _ _ => rfl) fun _ _ _ _ => rfl
    · cases m with
      | nil => rfl
      | cons d' m => exact recvLast_cons
    · exact recvOne_parts (fun _ _ => rfl) fun _ _ _ _ => rfl
    · exact recvOne_parts (fun _ _ => rfl) fun _ _ _ _ => rfl
    · cases m with
      | nil => rfl
      | cons d' m => exact recvLast_cons

end Server

/-! ### Replies -/

namespace Http

/-- The body of the loop in `http_process`. -/
def recvReply (cfg : HttpConfig) (route : RouteId) (H : Http) : Round Http :=
  let own := (cfg.route route).headers
  recvNext noPart (.ok H) fun id =>
    if id.length ≠ uidLen then skip noPart (.ok H)
    else match H.find id with
      | .error f => ended (.error f)
      | .ok none => skip noPart (.ok { H with orphans := H.orphans + 1 })
      | .ok (some r) =>
        recvNext noPart (.ok H) fun sentinel =>
          if sentinel ≠ [] then skip noPart (.ok H)
          else recv noPart fun first more =>
            if more then recv noPart fun second more =>
              if more then recv noPart fun third more =>
                if more then
                  skip noPart (H.close r (cfg.routeOf (H.request r)).responses.internalError)
                else ended (H.reply r first (headerLines none [] second) own third)
              else ended (H.reply r first [] own second)
            else ended (H.reply r (str "200 OK") [] own first)

/-- The body of the loop in `disk_process`, whose exits drop the reference that it takes. -/
def recvDisk (cfg : HttpConfig) (H : Http) : Round Http :=
  recvNext noPart (.error .uninitialised) fun id =>
    if id.length ≠ uidLen then ended (.error .uninitialised)
    else match H.find id with
      | .error f => ended (.error f)
      | .ok none => ended (.error (.assertion .diskReply))
      | .ok (some r) =>
        let H := H.setRequest r { H.request r with refcnt := (H.request r).refcnt + 1 }
        let conf := cfg.routeOf (H.request r)
        recvNext noPart (H.decref r) fun sentinel =>
          if sentinel ≠ [] then ended (.error (.assertion .diskSentinel))
          else recv noPart fun first more =>
            if more then recv noPart fun second more =>
              if more then recv noPart fun third more =>
                if more then
                  skip noPart (H.close r conf.responses.internalError >>= decref r)
                else ended (H.reply r first (headerLines none [] second) conf.headers third
                  >>= decref r)
              else ended (H.reply r first [] conf.headers second >>= decref r)
            else ended (H.close r (if atoi first = 404 then conf.responses.notFound
              else if atoi first = 402 then conf.responses.forbidden
              else conf.responses.internalError) >>= decref r)

variable {cfg : HttpConfig} {route : RouteId} {H : Http} {m : List Bytes}
  {rest : List (MsgPart Bytes)}

/-- A round of `http_process` takes one message. -/
lemma recvReply_parts (hm : m ≠ []) :
    H.recvReply cfg route (parts m ++ rest) = ended (H.httpProcess cfg route m) rest := by
  obtain ⟨id, m, rfl⟩ := List.exists_cons_of_ne_nil hm
  cases m with
  | nil => rfl
  | cons sentinel m =>
    rw [recvReply, recvNext_cons]
    unfold httpProcess
    dsimp only
    refine ite_ended (fun _ => skip_parts) fun _ => ?_
    cases H.find id with
    | error f => rfl
    | ok o =>
      cases o with
      | none => exact skip_parts
      | some r =>
        rw [ok_bind]
        dsimp only
        cases m with
        | nil =>
          rw [recvNext_singleton, if_pos (Or.inl rfl)]
          rfl
        | cons first m =>
          rw [recvNext_cons]
          by_cases hsentinel : sentinel ≠ []
          · rw [if_pos hsentinel, if_pos (Or.inr hsentinel)]
            exact skip_parts
          rw [if_neg hsentinel, if_neg (not_or.mpr ⟨List.cons_ne_nil _ _, hsentinel⟩)]
          cases m with
          | nil => rfl
          | cons second m =>
            cases m with
            | nil => rfl
            | cons third m =>
              cases m with
              | nil => rfl
              | cons fourth m => exact skip_parts

/-- A round of `disk_process` takes one message. -/
lemma recvDisk_parts (hm : m ≠ []) :
    H.recvDisk cfg (parts m ++ rest) = ended (H.diskProcess cfg m) rest := by
  obtain ⟨id, m, rfl⟩ := List.exists_cons_of_ne_nil hm
  cases m with
  | nil => rfl
  | cons sentinel m =>
    rw [recvDisk, recvNext_cons]
    rw [diskProcess]
    refine ite_ended (fun _ => rfl) fun _ => ?_
    cases H.find id with
    | error f => rfl
    | ok o =>
      cases o with
      | none => rfl
      | some r =>
        rw [ok_bind]
        dsimp only
        unfold diskAnswer
        dsimp only
        cases m with
        | nil => rfl
        | cons first m =>
          rw [recvNext_cons, if_neg (List.cons_ne_nil _ _)]
          by_cases hsentinel : sentinel ≠ []
          · rw [if_pos hsentinel, if_pos hsentinel]
            rfl
          rw [if_neg hsentinel, if_neg hsentinel]
          cases m with
          | nil => rfl
          | cons second m =>
            cases m with
            | nil => rfl
            | cons third m =>
              cases m with
              | nil => rfl
              | cons fourth m => exact skip_parts

end Http

end Zerogw
