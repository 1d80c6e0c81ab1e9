import Zerogw.Server.Runs

/-!
# Origins

Which origins a long-poll reply grants access to. `set_headers` looks at `allow-origins` only to see
whether there are any, and names the origin of the request. Whatever handler a reply comes from, it
has these headers, and the request has the route and the origin it came with.
-/

namespace Zerogw

open Execution

/-! ### Headers -/

/-- `tolower` in the C locale. -/
def lower (b : UInt8) : UInt8 := if 65 ≤ b ∧ b ≤ 90 then b + 32 else b

/-- The name of the header that grants an origin access, in any case. -/
def IsGrant (name : Bytes) : Prop := name.map lower = str "access-control-allow-origin"

instance (name : Bytes) : Decidable (IsGrant name) := inferInstanceAs (Decidable (_ = _))

/-- The headers grant an origin access. -/
def Grants (headers : List Header) (o : Bytes) : Prop :=
  ∃ name, (name, HeaderValue.text o) ∈ headers ∧ IsGrant name

namespace Polling

variable {cfg : Config} {env : Env} {conf : RouteConf} {P P' : Polling} {h : HybiId} {r : ReqId}
  {q q' : Request} {rep : Reply} {o : Bytes} {own headers headers' : List Header} {body : Bytes}
  {came : ReqId → RouteId × Option Bytes}

lemma grants_append : Grants (headers ++ headers') o ↔ Grants headers o ∨ Grants headers' o := by
  constructor
  · rintro ⟨name, hmem, hname⟩
    rcases List.mem_append.mp hmem with hmem | hmem
    · exact Or.inl ⟨name, hmem, hname⟩
    · exact Or.inr ⟨name, hmem, hname⟩
  · rintro (⟨name, hmem, hname⟩ | ⟨name, hmem, hname⟩)
    · exact ⟨name, List.mem_append_left _ hmem, hname⟩
    · exact ⟨name, List.mem_append_right _ hmem, hname⟩

/-- No header of the list grants anything. -/
def Reserved (headers : List Header) : Prop := ∀ x ∈ headers, ¬ IsGrant x.1

lemma Reserved.not_grants (hown : Reserved own) : ¬ Grants own o := by
  rintro ⟨name, hmem, hname⟩
  exact hown _ hmem hname

lemma reserved_nil : Reserved [] := List.forall_mem_nil _

lemma Reserved.cons {name : Bytes} {v : HeaderValue} (hname : ¬ IsGrant name)
    (hown : Reserved own) :
    Reserved ((name, v) :: own) :=
  List.forall_mem_cons.mpr ⟨hname, hown⟩

lemma grants_configured (lines : List (Bytes × Bytes)) :
    Grants (lines.map fun line => (line.1, .text line.2)) o ↔
      ∃ line ∈ lines, IsGrant line.1 ∧ line.2 = o := by
  constructor
  · rintro ⟨name, hmem, hname⟩
    obtain ⟨line, hline, heq⟩ := List.mem_map.mp hmem
    cases heq
    exact ⟨line, hline, hname, rfl⟩
  · rintro ⟨line, hline, hname, rfl⟩
    exact ⟨line.1, List.mem_map_of_mem hline, hname⟩

/-- What `set_headers` grants: what the configuration grants to everybody, and the origin of the
request if the route has any allowed origins. -/
lemma grants_setHeaders : Grants (setHeaders cfg env r q) o ↔
    (∃ line ∈ (cfg.route q.route).headers, IsGrant line.1 ∧ line.2 = o) ∨
      (cfg.route q.route).allowOrigins ≠ [] ∧ q.origin = some o := by
  have hcommon : ∀ v w x y : HeaderValue, Reserved [(str "Date", v), (str "Cache-Control", w),
      (str "Pragma", x), (str "Expires", y)] := fun v w x y =>
    .cons (by decide) (.cons (by decide) (.cons (by decide) (.cons (by decide) reserved_nil)))
  have htimes : Reserved (if (cfg.route q.route).timestamps then
      [(str "X-Timestamp", .text env.timestamp), (str "X-Wait-Time", .text (env.waitTime r))]
      else []) := by
    split_ifs
    · exact .cons (by decide) (.cons (by decide) reserved_nil)
    · exact reserved_nil
  rw [setHeaders]
  simp only [grants_append, grants_configured, htimes.not_grants, (hcommon _ _ _ _).not_grants,
    text, false_or, or_false]
  refine or_congr Iff.rfl ?_
  cases horigins : (cfg.route q.route).allowOrigins with
  | nil =>
    refine iff_of_false (reserved_nil.not_grants) fun hne => hne.1 rfl
  | cons a as =>
    cases horigin : q.origin with
    | none => exact iff_of_false (reserved_nil.not_grants) fun hne => by cases hne.2
    | some origin =>
      have hrest : ∀ v w x y : HeaderValue, Reserved [(str "Access-Control-Allow-Methods", v),
          (str "Access-Control-Allow-Headers", w), (str "Access-Control-Expose-Headers", x),
          (str "Access-Control-Max-Age", y)] := fun v w x y =>
        .cons (by decide) (.cons (by decide) (.cons (by decide) (.cons (by decide) reserved_nil)))
      constructor
      · rintro ⟨name, hmem, hname⟩
        rcases List.mem_cons.mp hmem with heq | hmem
        · cases heq
          exact ⟨List.cons_ne_nil _ _, rfl⟩
        · exact absurd hname (hrest _ _ _ _ _ hmem)
      · rintro ⟨-, heq⟩
        cases heq
        exact ⟨_, List.mem_cons_self, by decide⟩

/-! ### Replies -/

/-- The reply has the headers of `set_headers` for the request. -/
def Built (cfg : Config) (q : Request) (rep : Reply) : Prop :=
  ∀ o, Grants rep.headers o ↔
    (∃ line ∈ (cfg.route q.route).headers, IsGrant line.1 ∧ line.2 = o) ∨
      (cfg.route q.route).allowOrigins ≠ [] ∧ q.origin = some o

lemma Built.of_eq (hrep : Built cfg q rep) (hroute : q'.route = q.route)
    (horigin : q'.origin = q.origin) : Built cfg q' rep := by
  rw [Built, hroute, horigin]
  exact hrep

lemma built_okReply (hown : Reserved own) : Built cfg q (okReply cfg env r q own body) := by
  intro o
  rw [okReply, grants_append, grants_setHeaders]
  exact or_iff_right hown.not_grants

lemma built_messageReply {c : Comet} : Built cfg q (messageReply cfg env r q c) := by
  rw [messageReply]
  cases c.curFormat with
  | single =>
    exact built_okReply (.cons (by decide) (.cons (by decide) (.cons (by decide) reserved_nil)))
  | jsonlist =>
    exact built_okReply
      (.cons (by decide) (.cons (by decide) (.cons (by decide) (.cons (by decide) reserved_nil))))

/-! ### Updates -/

/-- Every request has the route and the origin it came with, and was replied to with the headers of
`set_headers`. -/
structure Polite (cfg : Config) (came : ReqId → RouteId × Option Bytes) (P : Polling) : Prop where
  route : ∀ r, (P.request r).route = (came r).1
  origin : ∀ r, (P.request r).origin = (came r).2
  replies : ∀ r, ∀ rep ∈ (P.request r).replies, Built cfg (P.request r) rep

lemma decref_origin : q.decref.origin = q.origin := by
  rw [Request.decref]
  split_ifs <;> rfl

namespace Polite

variable (hP : P.Polite cfg came)

include hP

lemma setComet (c : Comet) : (P.setComet h c).Polite cfg came := ⟨hP.route, hP.origin, hP.replies⟩

lemma setRequest (hroute : q.route = (P.request r).route)
    (horigin : q.origin = (P.request r).origin)
    (hreplies : ∀ rep ∈ q.replies, Built cfg (P.request r) rep) :
    (P.setRequest r q).Polite cfg came := by
  have hrequest : ∀ r', ((P.setRequest r q).request r').route = (P.request r').route ∧
      ((P.setRequest r q).request r').origin = (P.request r').origin ∧
      ∀ rep ∈ ((P.setRequest r q).request r').replies, Built cfg (P.request r') rep := by
    intro r'
    by_cases hr' : r' = r
    · subst hr'
      rw [setRequest_request_self]
      exact ⟨hroute, horigin, hreplies⟩
    · rw [setRequest_request_of_ne hr']
      exact ⟨rfl, rfl, hP.replies r'⟩
  refine ⟨fun r' => (hrequest r').1.trans (hP.route r'),
    fun r' => (hrequest r').2.1.trans (hP.origin r'), fun r' rep hrep => ?_⟩
  exact ((hrequest r').2.2 rep hrep).of_eq (hrequest r').1 (hrequest r').2.1

/-- A request changes in other ways only. -/
lemma touch (hroute : q.route = (P.request r).route) (horigin : q.origin = (P.request r).origin)
    (hreplies : q.replies = (P.request r).replies) : (P.setRequest r q).Polite cfg came := by
  refine hP.setRequest hroute horigin fun rep hrep => ?_
  rw [hreplies] at hrep
  exact hP.replies r rep hrep

/-- A reply may be built for the request as it was before. -/
lemma built_of (hP' : P'.Polite cfg came) (hown : Reserved own) :
    Built cfg (P.request r) (okReply cfg env r (P'.request r) own body) := by
  refine (built_okReply hown).of_eq ?_ ?_
  · rw [hP.route, hP'.route]
  · rw [hP.origin, hP'.origin]

/-- One more reply. -/
lemma replied (hrep : Built cfg (P.request r) rep) :
    ∀ rep' ∈ (P.request r).replies ++ [rep], Built cfg (P.request r) rep' := by
  intro rep' hmem
  rcases List.mem_append.mp hmem with hmem | hmem
  · exact hP.replies r rep' hmem
  · rwa [List.mem_singleton.mp hmem]

lemma reply (hrep : Built cfg (P.request r) rep) : (P.reply r rep).Polite cfg came :=
  hP.setRequest rfl rfl (hP.replied hrep)

lemma answer (hrep : Built cfg (P.request r) rep) : (P.answer r rep).Polite cfg came := by
  refine hP.setRequest Request.decref_route decref_origin ?_
  rw [Request.decref_replies]
  exact hP.replied hrep

lemma incref : (P.incref r).Polite cfg came := hP.touch rfl rfl rfl

lemma decref : (P.decref r).Polite cfg came :=
  hP.touch Request.decref_route decref_origin Request.decref_replies

lemma park (args : CometArgs) : (P.park conf r args h).Polite cfg came := by
  have hrequest : (P.setRequest r
      { P.request r with
        refcnt := (P.request r).refcnt + 1
        hybi := some h
        finishCb := .cometRequestSent
        timeout := (P.request r).timeout || (P.comet h).queue.isEmpty }).Polite cfg came :=
    hP.touch rfl rfl rfl
  exact hrequest.setComet _

lemma openComet : (P.openComet conf h).Polite cfg came := hP.setComet _

lemma dismiss (hown : Reserved own) :
    Gives (Polite cfg came) (P.dismiss cfg env own h) := by
  rw [Polling.dismiss]
  split
  · trivial
  · exact (hP.answer (built_okReply hown)).setComet _

lemma emptyReply : Gives (Polite cfg came) (P.emptyReply cfg env h) :=
  hP.dismiss (.cons (by decide) reserved_nil)

lemma closeReply : Gives (Polite cfg came) (P.closeReply cfg env h) :=
  hP.dismiss (.cons (by decide) (.cons (by decide) reserved_nil))

lemma moveQueue (msgid : Nat) :
    Gives (fun p => p.2.Polite cfg came) (P.moveQueue h msgid) := by
  rw [Polling.moveQueue]
  dsimp only
  split_ifs
  · exact hP
  · exact hP
  · exact hP
  · exact hP.setComet _

lemma sendLater : Gives (Polite cfg came) (P.sendLater cfg env h) := by
  rw [Polling.sendLater]
  dsimp only
  split
  · exact hP.setComet _
  · split_ifs
    · exact hP.setComet _
    · trivial
    · exact (hP.answer built_messageReply).setComet _

lemma requestAborted : Gives (Polite cfg came) (P.requestAborted r h) := by
  rw [Polling.requestAborted]
  split_ifs
  · have hrequest : (P.setRequest r { P.request r with timeout := false }.decref).Polite cfg came :=
      hP.touch Request.decref_route decref_origin Request.decref_replies
    exact hrequest.setComet _
  · trivial

lemma pollingTimeout : Gives (Polite cfg came) (P.pollingTimeout cfg env r h) := by
  rw [Polling.pollingTimeout]
  split_ifs
  · exact hP.emptyReply.bind fun P' hP' => hP'.setComet _
  · trivial

lemma freeComet : Gives (Polite cfg came) (P.freeComet h) := by
  rw [Polling.freeComet]
  split_ifs
  · trivial
  · exact hP.setComet _

end Polite

end Polling

namespace Server

variable {cfg : Config} {env : Env} {s s' : Server} {h : HybiId} {r : ReqId} {k : SockId}
  {msg : BackendMsg} {force : Bool} {m data : Bytes} {route : RouteId} {type : HybiType}
  {came : ReqId → RouteId × Option Bytes} {frames : List Bytes}

/-! ### Connections -/

lemma backendSend_polling : Gives (fun p => p.2.polling = s.polling)
    (s.backendSend k msg force) := by
  rw [backendSend]
  exact .after _ fun _ => rfl

lemma hybiStart_polling :
    Gives (fun p => p.2.polling = s.polling) (s.hybiStart cfg env route type) := by
  rw [hybiStart]
  dsimp only
  refine Ends.ite rfl ?_
  split
  · rfl
  · refine backendSend_polling.bind fun p hp => ?_
    by_cases hrefused : p.1 = .refused
    · rw [if_pos hrefused]
      exact .after _ fun _ => hp
    · rw [if_neg hrefused]
      exact hp

lemma stopOutputs_polling (os : List OutputId) :
    Gives (fun s' => s'.polling = s.polling) (stopOutputs h os s) := by
  induction os generalizing s with
  | nil => rfl
  | cons o os ih =>
    rw [stopOutputs]
    cases s.outputs.out.get o with
    | none => trivial
    | some e =>
      dsimp only
      split_ifs
      · exact ih
      · have hnotice : Gives (fun s₁ : Server => s₁.polling = s.polling)
            (Prod.snd <$> s.backendSend e.socket ⟨h, .disconnect⟩ true) :=
          Ends.map backendSend_polling
        refine hnotice.bind fun s₁ hs₁ => ?_
        rw [← hs₁]
        exact ih

lemma hybiStop_polling : Gives (fun s' => s'.polling = s.polling) (hybiStop h s) := by
  rw [hybiStop]
  refine .after _ fun _ => .after _ fun _ => backendSend_polling.bind fun p hp => ?_
  refine (stopOutputs_polling _).bind fun s₃ hs₃ => .after _ fun _ => ?_
  exact hs₃.trans hp

/-! ### Messages -/

/-- What a handler leaves of the requests. -/
abbrev Civil (cfg : Config) (came : ReqId → RouteId × Option Bytes) (s : Server) : Prop :=
  s.polling.Polite cfg came

section

variable (hs : s.Civil cfg came)

include hs

lemma civil_of_eq (hpolling : s'.polling = s.polling) : s'.Civil cfg came := by
  rwa [Civil, hpolling]

lemma hybiStop_civil : Gives (Civil cfg came) (hybiStop h s) :=
  hybiStop_polling.mono (fun _ => id) fun _ => civil_of_eq hs

lemma freeComet_civil : Gives (Civil cfg came) (freeComet h s) := by
  rw [freeComet]
  exact .after _ fun _ => hs.freeComet.bind fun P hP =>
    hybiStop_civil (s := { s with polling := P }) hP

lemma cometClose_civil : Gives (Civil cfg came) (cometClose cfg env h s) := by
  rw [cometClose]
  refine .after _ fun _ => ?_
  dsimp only
  split_ifs
  · exact hs.closeReply.bind fun P hP => freeComet_civil hP
  · exact freeComet_civil hs

lemma cometSend_civil : Gives (Civil cfg came) (cometSend cfg env h m s) := by
  rw [cometSend]
  refine .after _ fun _ => ?_
  dsimp only
  split_ifs
  · exact cometClose_civil hs
  · exact hs.setComet _

lemma doSend_civil : Gives (Civil cfg came) (doSend cfg env h m s) := by
  rw [doSend]
  refine .after _ fun hybi => ?_
  cases hybi.type with
  | websocket =>
    dsimp only
    split_ifs
    · exact hybiStop_civil (s := { s with sends := s.sends ++ [(h, m)] }) hs
    · exact hs
  | comet => exact cometSend_civil (s := { s with sends := s.sends ++ [(h, m)] }) hs

lemma websockResolve_civil :
    Gives (fun p => p.2.Civil cfg came) (websockResolve cfg env h data s) := by
  rw [websockResolve]
  refine .after _ fun hybi => ?_
  split_ifs
  · exact (doSend_civil hs).bind fun s' hs' => hs'
  · exact (doSend_civil hs).bind fun s' hs' => hs'
  · exact hs
  · exact hs

lemma websockMessage_civil : Gives (Civil cfg came) (websockMessage cfg env h data s) := by
  rw [websockMessage]
  refine (websockResolve_civil hs).bind fun p hp => ?_
  obtain ⟨_ | k, s₁⟩ := p
  · exact hp
  · exact backendSend_polling.bind fun p' hp' => civil_of_eq hp hp'

lemma sendMessage_civil : Gives (Civil cfg came) (sendMessage cfg env h r s) := by
  rw [sendMessage]
  refine (websockResolve_civil hs).bind fun p hp => ?_
  obtain ⟨_ | k, s₁⟩ := p
  · exact hp
  · have hincref : Civil cfg came { s₁ with polling := s₁.polling.incref r } := hp.incref
    exact backendSend_polling.bind fun p' hp' => civil_of_eq hincref hp'

/-! ### Long-poll requests -/

lemma cometConnect_civil : Gives (fun p => p.2.Civil cfg came) (cometConnect cfg env r s) := by
  rw [cometConnect]
  refine hybiStart_polling.bind fun p hp => ?_
  obtain ⟨_ | h, s₁⟩ := p
  · exact civil_of_eq hs hp
  · have hs₁ : s₁.Civil cfg came := civil_of_eq hs hp
    exact hs₁.openComet.reply (hs₁.openComet.built_of hs Polling.reserved_nil)

lemma cometAct_civil (args : CometArgs) (action : Action) :
    Gives (fun p => p.2.Civil cfg came) (cometAct cfg env r args action h s) := by
  rw [cometAct]
  dsimp only
  by_cases hself : (s.polling.comet h).curRequest = some r
  · rw [if_pos hself]
    trivial
  rw [if_neg hself, ite_bind]
  refine (Ends.ite hs.emptyReply (.ok hs)).bind fun P₁ hP₁ => (hP₁.moveQueue _).bind fun p hp => ?_
  obtain ⟨rc, P₂⟩ := p
  have hP₂ : P₂.Polite cfg came := hp
  dsimp only
  by_cases hclose : rc < 0 ∨ action = .close
  · rw [if_pos hclose, ite_bind]
    refine (Ends.ite hP₂.closeReply (.ok hP₂)).bind fun P₃ hP₃ => ?_
    have hadopted : Civil cfg came { s with
        polling := (P₃.incref r).setComet h { (P₃.incref r).comet h with curRequest := some r } } :=
      hP₃.incref.setComet _
    exact (cometClose_civil hadopted).bind fun s' hs' => hs'
  rw [if_neg hclose]
  by_cases hformat : (action = .post ∨ action = .bidi) ∧ args.inFormat ≠ .single
  · rw [if_pos hformat]
    exact hP₂
  rw [if_neg hformat, ite_bind]
  have hread : Civil cfg came { s with polling := P₂ } := hP₂
  refine (Ends.ite (sendMessage_civil hread) (.ok hread)).bind fun s' hs' => ?_
  split_ifs
  · exact .after _ fun hybi => hs'.park _
  · exact hs'.reply (hs'.built_of hs (.cons (by decide) Polling.reserved_nil))
  · exact hs'

lemma cometRequest_civil (args : Option CometArgs) :
    Gives (fun p => p.2.Civil cfg came) (cometRequest cfg env r args s) := by
  cases args with
  | none => exact hs
  | some args =>
    rw [cometRequest]
    dsimp only
    by_cases hconnect : args.action = .connect
    · rw [if_pos hconnect]
      split
      · exact Ends.ite (cometConnect_civil hs) hs
      · exact cometConnect_civil hs
    · rw [if_neg hconnect]
      refine .after _ fun found => ?_
      cases found with
      | none => exact hs
      | some h =>
        refine .after _ fun hybi => ?_
        refine Ends.ite hs ?_
        cases cometAction args (s.polling.request r).body with
        | none => exact hs
        | some action =>
          refine Ends.ite (hs.reply (hs.built_of hs Polling.reserved_nil)) ?_
          exact cometAct_civil hs args action

/-! ### Broadcasts and commands -/

lemma publishFrom_civil (n : Nat) (i : Option SubId) :
    Gives (Civil cfg came) (publishFrom cfg env m n i s) := by
  induction n generalizing i s with
  | zero =>
    cases i with
    | none => exact hs
    | some i => trivial
  | succ n ih =>
    cases i with
    | none => exact hs
    | some i =>
      rw [publishFrom]
      cases s.topics.sub.get i with
      | none => trivial
      | some sub => exact (doSend_civil hs).bind fun s' hs' => ih hs' _

lemma sendEach_civil (p : Hybi → Bool) (ks : List Nat) :
    Gives (Civil cfg came) (sendEach cfg env p m ks s) := by
  induction ks generalizing s with
  | nil => exact hs
  | cons k ks ih =>
    rw [sendEach]
    split
    · refine .after _ fun hybi => ?_
      dsimp only
      split_ifs
      · exact (doSend_civil hs).bind fun s' hs' => ih hs'
      · exact ih hs
    · exact ih hs

lemma pauseWebsockets_civil (on : Bool) :
    Gives (Civil cfg came) (pauseWebsockets cfg env on s) := by
  rw [pauseWebsockets]
  exact Ends.ite hs ((sendEach_civil hs _ _).bind fun s' hs' => hs')

lemma withConnection_civil {sized : Bool} {f : HybiId → List Bytes → Except Fault Server}
    (hf : ∀ h rest, Gives (Civil cfg came) (f h rest)) :
    Gives (Civil cfg came) (s.withConnection route sized frames f) := by
  rcases frames with _ | ⟨uid, _ | ⟨frame, rest⟩⟩
  · exact hs
  · exact hs
  · rw [withConnection]
    refine Ends.ite hs (.after _ fun found => ?_)
    cases found with
    | none => exact hs
    | some h => exact .after _ fun hybi => Ends.ite hs (hf h _)

lemma disconnect_civil : Gives (Civil cfg came) (disconnect cfg env route frames s) := by
  rcases frames with _ | ⟨uid, _ | ⟨frame, rest⟩⟩
  · exact hs
  · rw [disconnect]
    refine .after _ fun found => ?_
    cases found with
    | none => exact hs
    | some h =>
      refine .after _ fun hybi => Ends.ite hs ?_
      cases hybi.type with
      | comet => exact cometClose_civil hs
      | websocket => exact hybiStop_civil hs
  · exact hs

/-- A command that sends or closes nothing. -/
lemma withConnection_plain {sized : Bool} {f : HybiId → List Bytes → Except Fault Server}
    (hf : ∀ h rest, Gives (fun s' => s'.polling = s.polling) (f h rest)) :
    Gives (Civil cfg came) (s.withConnection route sized frames f) := by
  exact withConnection_civil hs fun h rest => (hf h rest).mono (fun _ => id) fun s' =>
    civil_of_eq hs

lemma publish_civil : Gives (Civil cfg came) (publish cfg env route frames s) := by
  rw [publish.eq_def]
  split
  · split
    · exact publishFrom_civil hs _ _
    · exact hs
  · exact hs

lemma addOutput_civil : Gives (Civil cfg came) (addOutput cfg route frames s) := by
  refine withConnection_plain hs fun h rest => ?_
  split
  · split <;> rfl
  · rfl

lemma websockProcess_civil : Gives (Civil cfg came) (websockProcess cfg env route frames s) := by
  cases frames with
  | nil => exact hs
  | cons cmd rest =>
    rw [websockProcess.eq_def]
    dsimp only
    refine Ends.ite (withConnection_plain hs fun h rest => ?_) ?_
    · rcases rest with _ | ⟨name, _ | _⟩ <;> rfl
    refine Ends.ite (withConnection_plain hs fun h rest => ?_) ?_
    · rcases rest with _ | ⟨name, _ | _⟩ <;> rfl
    refine Ends.ite (publish_civil hs) ?_
    refine Ends.ite (withConnection_civil hs fun h rest => ?_) ?_
    · split
      · exact doSend_civil hs
      · exact hs
    refine Ends.ite ?_ (Ends.ite ?_ (Ends.ite (addOutput_civil hs) ?_))
    · rw [clone.eq_def]
      split <;> exact hs
    · rw [drop.eq_def]
      split <;> exact hs
    refine Ends.ite (withConnection_plain hs fun h rest => ?_) ?_
    · rcases rest with _ | ⟨name, _ | _⟩ <;> rfl
    refine Ends.ite (withConnection_plain hs fun h rest => ?_) ?_
    · rcases rest with _ | ⟨name, _ | _⟩ <;> rfl
    refine Ends.ite ?_ (Ends.ite (disconnect_civil hs) (.ok hs))
    split
    · exact sendEach_civil hs _ _
    · exact hs

/-! ### Events -/

lemma requestFinish_civil : Gives (Civil cfg came) (requestFinish r s) := by
  rw [requestFinish]
  have hfinished : (s.polling.setRequest r { s.polling.request r with finished := true }).Polite
      cfg came := hs.touch rfl rfl rfl
  split
  · trivial
  · exact .after _ fun hybi => hfinished.requestAborted.bind fun P hP => hP
  · exact hfinished.decref

lemma requestRelease_civil : (s.requestRelease k r).Civil cfg came := by
  rw [requestRelease]
  split_ifs
  · exact hs.touch Request.decref_route Polling.decref_origin Request.decref_replies
  · exact hs

lemma pollingTimeout_civil : Gives (Civil cfg came) (pollingTimeout cfg env r s) := by
  rw [pollingTimeout]
  split
  · trivial
  · exact .after _ fun hybi => hs.pollingTimeout.bind fun P hP => hP

lemma sendLater_civil : Gives (Civil cfg came) (sendLater cfg env h s) := by
  rw [sendLater]
  exact .after _ fun hybi => hs.sendLater.bind fun P hP => hP

lemma inactivityTimeout_civil : Gives (Civil cfg came) (inactivityTimeout h s) := by
  rw [inactivityTimeout]
  exact .after _ fun hybi => freeComet_civil (hs.setComet _)

/-- A new request comes with its own route and origin, and has not been replied to. -/
lemma newRequest_civil (route : RouteId) (method body : Bytes) (origin : Option Bytes)
    (date : Bytes) :
    (s.newRequest route method body origin date).2.Civil cfg
      (Function.update came s.polling.next (route, origin)) := by
  have hrequest : ∀ r, r ≠ s.polling.next →
      (s.newRequest route method body origin date).2.polling.request r = s.polling.request r :=
    fun r hr => Polling.setRequest_request_of_ne hr _
  have hnew := newRequest_request (s := s) route method body origin date
  refine ⟨fun r => ?_, fun r => ?_, fun r rep hrep => ?_⟩
  · by_cases hr : r = s.polling.next
    · rw [hr, hnew, Function.update_self]
    · rw [hrequest r hr, Function.update_of_ne hr, hs.route]
  · by_cases hr : r = s.polling.next
    · rw [hr, hnew, Function.update_self]
    · rw [hrequest r hr, Function.update_of_ne hr, hs.origin]
  · by_cases hr : r = s.polling.next
    · rw [hr, hnew] at hrep
      cases hrep
    · rw [hrequest r hr] at hrep ⊢
      exact hs.replies r rep hrep

/-- One event. -/
lemma handle_civil (i : Input) : Gives (fun s' => ∃ came, s'.Civil cfg came) (handle cfg i s) := by
  have hsame : ∀ {m : Except Fault Server}, Gives (Civil cfg came) m →
      Gives (fun s' => ∃ came, s'.Civil cfg came) m :=
    fun hm => hm.mono (fun _ => id) fun _ hs' => ⟨came, hs'⟩
  rw [handle]
  cases i.event with
  | cometRequest route method body origin date args =>
    have hnew := newRequest_civil hs route method body origin date
    exact (cometRequest_civil hnew args).bind fun p hp => ⟨_, hp⟩
  | requestFinish r => exact hsame (Ends.ite (requestFinish_civil hs) (.ok hs))
  | requestRelease k r => exact ⟨came, requestRelease_civil hs⟩
  | pollingTimeout r => exact hsame (Ends.ite (pollingTimeout_civil hs) (.ok hs))
  | inactivityTimeout h => exact hsame (Ends.ite (inactivityTimeout_civil hs) (.ok hs))
  | sendLater h => exact hsame (Ends.ite (sendLater_civil hs) (.ok hs))
  | websockStart route =>
    exact hybiStart_polling.bind fun p hp => ⟨came, civil_of_eq hs hp⟩
  | websockMessage h data => exact hsame (Ends.ite (websockMessage_civil hs) (.ok hs))
  | websockStop h => exact hsame (Ends.ite (hybiStop_civil hs) (.ok hs))
  | command route frames => exact hsame (websockProcess_civil hs)
  | backendUnqueue k pollout => exact .after _ fun b => ⟨came, hs⟩
  | pause on => exact hsame (pauseWebsockets_civil hs on)

end

/-! ### Runs -/

/-- In every reachable state, every reply has the headers of `set_headers`. -/
lemma built_of_reachable (hr : Reachable (step cfg) (init cfg) s) {rep : Reply}
    (hrep : rep ∈ (s.polling.request r).replies) :
    Polling.Built cfg (s.polling.request r) rep := by
  have hcivil : ∃ came, s.Civil cfg came := by
    refine hr.invariant (I := fun s => ∃ came, s.Civil cfg came) ?_ ?_
    · exact ⟨fun _ => (0, none), fun _ => rfl, fun _ => rfl, fun _ _ hrep => by cases hrep⟩
    · rintro i s s' - ⟨came, hs⟩ hstep
      have hexpecting : (s.expecting i.env).Civil cfg came := hs
      exact (handle_civil hexpecting i).result hstep
  obtain ⟨came, hs⟩ := hcivil
  exact hs.replies r rep hrep

/-- A client of an origin that is not allowed asks for a new connection. -/
def ConnectsUnlisted (cfg : Config) (i : Input) : Prop :=
  ∃ route method body o date args,
    i.event = .cometRequest route method body (some o) date (some args) ∧
    args.action = .connect ∧ (cfg.route route).allowOrigins ≠ [] ∧
    o ∉ (cfg.route route).allowOrigins

variable (env) in
lemma cometRequest_unlisted {args : CometArgs} {o : Bytes} (hconnect : args.action = .connect)
    (horigin : (s.polling.request r).origin = some o)
    (hlist : (cfg.route (s.polling.request r).route).allowOrigins ≠ [])
    (ho : o ∉ (cfg.route (s.polling.request r).route).allowOrigins) :
    cometRequest cfg env r (some args) s = .ok (-1, s) := by
  rw [cometRequest]
  dsimp only
  rw [if_pos hconnect, horigin]
  cases horigins : (cfg.route (s.polling.request r).route).allowOrigins with
  | nil => exact absurd horigins hlist
  | cons a as =>
    rw [horigins] at ho
    exact if_neg fun hmem => ho (List.contains_iff_mem.mp hmem)

/-- The request is refused. -/
lemma step_of_connectsUnlisted {i : Input} (hi : ConnectsUnlisted cfg i) :
    ∃ s', step cfg i s = .ok s' ∧ s'.sieve = s.sieve ∧ s'.next = s.next ∧ s'.info = s.info := by
  obtain ⟨route, method, body, o, date, args, hi, hconnect, hlist, ho⟩ := hi
  refine ⟨((s.expecting i.env).newRequest route method body (some o) date).2, ?_, rfl, rfl,
    rfl⟩
  have hrequest := newRequest_request (s := s.expecting i.env) route method body (some o) date
  have hroute := congrArg Request.route hrequest
  have hrefused := cometRequest_unlisted i.env hconnect (congrArg Request.origin hrequest)
    (by rwa [hroute]) (by rwa [hroute])
  rw [step, handle, hi]
  exact bind_eq_ok.mpr ⟨_, hrefused, rfl⟩

/-- In every reachable state, every reply on a route with allowed origins grants access only to
these if and only if its request has no other origin and the configured headers grant nothing else;
and no request from another origin opens a connection. -/
theorem origins_granted_iff (hr : Reachable (step cfg) (init cfg) s) :
    (∀ r, ∀ rep ∈ (s.polling.request r).replies,
      (cfg.route (s.polling.request r).route).allowOrigins ≠ [] →
      ((∀ o, Grants rep.headers o → o ∈ (cfg.route (s.polling.request r).route).allowOrigins) ↔
        (∀ line ∈ (cfg.route (s.polling.request r).route).headers, IsGrant line.1 →
          line.2 ∈ (cfg.route (s.polling.request r).route).allowOrigins) ∧
        ∀ o, (s.polling.request r).origin = some o →
          o ∈ (cfg.route (s.polling.request r).route).allowOrigins)) ∧
    ∀ i, ConnectsUnlisted cfg i →
      ∃ s', step cfg i s = .ok s' ∧ s'.sieve = s.sieve ∧ s'.next = s.next ∧ s'.info = s.info := by
  refine ⟨fun r rep hrep hlist => ?_, fun i hi => step_of_connectsUnlisted hi⟩
  have hbuilt := built_of_reachable hr hrep
  constructor
  · intro hgrants
    refine ⟨fun line hline hname => ?_, fun o horigin => ?_⟩
    · exact hgrants _ ((hbuilt _).mpr (Or.inl ⟨line, hline, hname, rfl⟩))
    · exact hgrants _ ((hbuilt _).mpr (Or.inr ⟨hlist, horigin⟩))
  · rintro ⟨hheaders, horigins⟩ o hgrants
    rcases (hbuilt o).mp hgrants with ⟨line, hline, hname, rfl⟩ | ⟨-, horigin⟩
    · exact hheaders line hline hname
    · exact horigins o horigin

/-- The small server, open to one origin. -/
def listedConfig : Config :=
  { smallConfig with
    route := fun _ => { smallRoute with allowOrigins := [str "http://zerogw.com"] } }

/-- A long-poll request arrives from a page of an origin. -/
def arrivesFrom (o : String) (method : String) (args : CometArgs) : Input :=
  ⟨.cometRequest 0 (str method) [] (some (str o)) [] (some args), stalledEnv⟩

/-- A page of the listed origin opens a connection. -/
theorem origins_granted_iff_listed : ∃ s : Server, ∃ rep ∈ (s.polling.request 0).replies,
    ∀ o, Grants rep.headers o → o ∈ [str "http://zerogw.com"] := by
  have hrun : (run (step listedConfig) [arrivesFrom "http://zerogw.com" "GET" connectArgs]
      (init listedConfig)).map (fun s => ((s.polling.request 0).replies.isEmpty,
        (s.polling.request 0).route, (s.polling.request 0).origin))
      = .ok (false, 0, some (str "http://zerogw.com")) := rfl
  obtain ⟨s, hr, hview⟩ := exists_of_run (C := fun _ _ => True) _ (fun _ _ _ => trivial) hrun
  simp only [Prod.mk.injEq] at hview
  obtain ⟨hreplied, hroute, horigin⟩ := hview
  cases hreplies : (s.polling.request 0).replies with
  | nil =>
    rw [hreplies] at hreplied
    cases hreplied
  | cons rep reps =>
    have hiff := (origins_granted_iff hr).1 0 rep (hreplies ▸ List.mem_cons_self)
      (hroute ▸ List.cons_ne_nil _ _)
    rw [hroute, horigin] at hiff
    refine ⟨s, rep, hreplies ▸ List.mem_cons_self, hiff.mpr ⟨fun _ hline => ?_, fun o ho => ?_⟩⟩
    · cases hline
    · cases ho
      exact List.mem_singleton_self _

/-- A page of another origin asks whether it may use a connection, and is told that it may. -/
theorem foreign_origin_granted : ¬ ∀ (cfg : Config) (s : Server),
    Reachable (step cfg) (init cfg) s → ∀ r, ∀ rep ∈ (s.polling.request r).replies,
      (cfg.route (s.polling.request r).route).allowOrigins ≠ [] → ∀ o, Grants rep.headers o →
      o ∈ (cfg.route (s.polling.request r).route).allowOrigins := by
  intro hall
  have hrun : (run (step listedConfig) [arrivesFrom "http://zerogw.com" "GET" connectArgs,
      arrivesFrom "http://example.com" "OPTIONS" (pollArgs 0 3 .single .single)]
      (init listedConfig)).map (fun s => ((s.polling.request 1).replies.isEmpty,
        (s.polling.request 1).route, (s.polling.request 1).origin))
      = .ok (false, 0, some (str "http://example.com")) := rfl
  obtain ⟨s, hr, hview⟩ := exists_of_run (C := fun _ _ => True) _ (fun _ _ _ => trivial) hrun
  simp only [Prod.mk.injEq] at hview
  obtain ⟨hreplied, hroute, horigin⟩ := hview
  cases hreplies : (s.polling.request 1).replies with
  | nil =>
    rw [hreplies] at hreplied
    cases hreplied
  | cons rep reps =>
    have hmem : rep ∈ (s.polling.request 1).replies := hreplies ▸ List.mem_cons_self
    have hlist : (listedConfig.route (s.polling.request 1).route).allowOrigins ≠ [] :=
      List.cons_ne_nil _ _
    have hgrants := (built_of_reachable hr hmem (str "http://example.com")).mpr
      (Or.inr ⟨hlist, horigin⟩)
    have hlisted := hall listedConfig s hr 1 rep hmem hlist _ hgrants
    exact absurd (List.mem_singleton.mp hlisted) (by decide)

end Server

end Zerogw
