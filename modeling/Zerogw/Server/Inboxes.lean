import Zerogw.Server.Numbering

/-!
# What the clients are sent

Every event brings every client a definite list of messages: publications on its topics, messages to
it or to its route, answers to its own frontend commands, and news of a pause. Nothing else is ever
sent, to anybody.
-/

namespace Zerogw

open Execution

namespace Server

variable {cfg : Config} {env : Env} {i : Input} {s s' : Server} {h g : HybiId} {r : ReqId}
  {m data : Bytes} {k : SockId} {msg : BackendMsg} {force : Bool} {route : RouteId}
  {type : HybiType} {l : List HybiId} {args : CometArgs} {action : Action} {P P' : Polling}
  {frames : List Bytes}

/-! ### What an event brings -/

/-- The answer of the server itself to a message of a client. -/
def answer (conf : RouteConf) (now data : Bytes) : List Bytes :=
  if conf.frontendCommands ∧ data.length ≥ 8 ∧ data.take 7 = str "ZEROGW:" then
    if data.length ≥ 11 ∧ (data.drop 7).take 4 = str "echo" then [data]
    else if data.length ≥ 16 ∧ (data.drop 7).take 9 = str "timestamp" then [data ++ now]
    else []
  else []

/-- The request brings a message of its client, and its ack is in order. -/
structure Carries (args : CometArgs) (method body : Bytes) (s : Server) (h : HybiId) : Prop where
  reaches : Reaches args method body s h
  action : cometAction args body = some .post ∨ cometAction args body = some .bidi
  format : args.inFormat = .single
  ack : ∃ P, s.polling.moveQueue h args.lastMessage = .ok (0, P)

/-- The messages a long-poll request brings a client. -/
noncomputable def requested (cfg : Config) (now : Bytes) (o : Option CometArgs)
    (method body : Bytes) (s : Server) (h : HybiId) : List Bytes :=
  open Classical in
  if ∃ args, o = some args ∧ Carries args method body s h then
    answer (cfg.route (s.info h).route) now body
  else []

/-- A backend command addresses the client. -/
def Addresses (route : RouteId) (cmd x : Bytes) (s : Server) (h : HybiId) : Prop :=
  cmd = str "publish" ∧ (h, route, x) ∈ s.topics.pairs ∨
  cmd = str "send" ∧ s.addressed route false x = some h

/-- The messages a backend command brings a client. -/
noncomputable def commanded (route : RouteId) (frames : List Bytes) (s : Server) (h : HybiId) :
    List Bytes :=
  open Classical in
  match frames with
  | [cmd, x, m] => if Addresses route cmd x s h then [m] else []
  | [cmd, m] => if cmd = str "sendall" ∧ s.Live h ∧ (s.info h).route = route then [m] else []
  | _ => []

/-- The messages an event brings a client. -/
noncomputable def brought (cfg : Config) (i : Input) (s : Server) (h : HybiId) : List Bytes :=
  open Classical in
  match i.event with
  | .command route frames => commanded route frames s h
  | .pause on =>
    if s.backend.paused ≠ on ∧ s.Live h ∧ (cfg.route (s.info h).route).frontendCommands ∧
        (cfg.route (s.info h).route).pausedCommand then
      [if on then str "ZEROGW:paused" else str "ZEROGW:resumed"]
    else []
  | .websockMessage g data =>
    if g = h ∧ s.isWebsocket h then answer (cfg.route (s.info h).route) i.env.now data else []
  | .cometRequest _ method body _ _ o => requested cfg i.env.now o method body s h
  | _ => []

/-! ### Nothing is sent -/

/-- Nothing is sent to any client. -/
abbrev Quiet (s : Server) (m : Except Fault Server) : Prop := Gives (fun s' => s'.sends = s.sends) m

lemma deref_gives : Gives (fun hybi => hybi = s.info h) (s.deref h) := by
  rw [deref]
  exact Ends.ite trivial rfl

lemma backendSend_sends : Gives (fun p => p.2.sends = s.sends) (s.backendSend k msg force) := by
  rw [backendSend]
  exact .after _ fun _ => rfl

lemma hybiStart_sends :
    Gives (fun p => p.2.sends = s.sends) (s.hybiStart cfg env route type) := by
  rw [hybiStart]
  refine Ends.ite rfl ?_
  split
  · rfl
  · refine backendSend_sends.bind fun p hp => ?_
    exact Ends.ite (.after _ fun _ => hp) hp

lemma stopOutputs_sends (os : List OutputId) : Quiet s (stopOutputs h os s) := by
  induction os generalizing s with
  | nil => exact rfl
  | cons o os ih =>
    rw [stopOutputs]
    cases s.outputs.out.get o with
    | none => trivial
    | some e =>
      dsimp only
      split_ifs
      · exact ih
      · have hnotice : Quiet s (Prod.snd <$> s.backendSend e.socket ⟨h, .disconnect⟩ true) :=
          Ends.map backendSend_sends
        exact hnotice.bind fun s₁ hs₁ => ih.mono (fun _ => id) fun s' hs' => hs'.trans hs₁

lemma hybiStop_sends : Quiet s (hybiStop h s) := by
  rw [hybiStop]
  refine .after _ fun _ => .after _ fun _ => backendSend_sends.bind fun p hp => ?_
  refine (stopOutputs_sends _).bind fun s₃ hs₃ => .after _ fun _ => ?_
  exact hs₃.trans hp

lemma freeComet_sends : Quiet s (freeComet h s) := by
  rw [freeComet]
  exact .after _ fun _ => .after _ fun _ => hybiStop_sends

lemma cometClose_sends : Quiet s (cometClose cfg env h s) := by
  rw [cometClose]
  refine .after _ fun _ => ?_
  rw [ite_bind]
  exact .after _ fun _ => freeComet_sends

lemma cometConnect_sends : Gives (fun p => p.2.sends = s.sends) (s.cometConnect cfg env r) := by
  rw [cometConnect]
  refine hybiStart_sends.bind fun p hp => ?_
  obtain ⟨_ | h, s₁⟩ := p
  · exact hp
  · exact hp

/-! ### One client is sent a message -/

lemma doSend_sends : Gives (fun s' => s'.sends = s.sends ++ [(h, m)]) (doSend cfg env h m s) := by
  rw [doSend]
  refine .after _ fun hybi => ?_
  dsimp only
  cases hybi.type with
  | websocket => exact Ends.ite hybiStop_sends rfl
  | comet =>
    dsimp only
    rw [cometSend]
    exact .after _ fun _ => Ends.ite cometClose_sends rfl

/-- A message of a client is answered, or not. -/
lemma websockResolve_sends : Gives (fun p => p.2.sends = s.sends ++
      (answer (cfg.route (s.info h).route) env.now data).map fun m => (h, m))
    (websockResolve cfg env h data s) := by
  rw [websockResolve]
  refine deref_gives.bind ?_
  rintro hybi rfl
  rw [answer]
  split_ifs
  · exact doSend_sends.bind fun _ hs' => hs'
  · exact doSend_sends.bind fun _ hs' => hs'
  · exact (List.append_nil _).symm
  · exact (List.append_nil _).symm

lemma websockMessage_sends : Gives (fun s' => s'.sends = s.sends ++
      (answer (cfg.route (s.info h).route) env.now data).map fun m => (h, m))
    (websockMessage cfg env h data s) := by
  rw [websockMessage]
  refine websockResolve_sends.bind fun p hp => ?_
  obtain ⟨_ | k, s₁⟩ := p
  · exact hp
  · exact backendSend_sends.bind fun p' hp' => hp'.trans hp

lemma sendMessage_sends : Gives (fun s' => s'.sends = s.sends ++
      (answer (cfg.route (s.info h).route) env.now (s.polling.request r).body).map fun m => (h, m))
    (sendMessage cfg env h r s) := by
  rw [sendMessage]
  refine websockResolve_sends.bind fun p hp => ?_
  obtain ⟨_ | k, s₁⟩ := p
  · exact hp
  · exact backendSend_sends.bind fun p' hp' => hp'.trans hp

/-! ### Long-poll requests -/

lemma decref_body {q : Request} : q.decref.body = q.body := by
  rw [Request.decref]
  split_ifs <;> rfl

/-- An answer without a message takes the parked request away, and changes no other data. -/
lemma dismiss_keeps (own : List Header) :
    Gives (fun P' => (∃ c, P'.comet h = { P.comet h with curRequest := c }) ∧
      ∀ r, (P'.request r).body = (P.request r).body) (P.dismiss cfg env own h) := by
  rw [Polling.dismiss]
  cases (P.comet h).curRequest with
  | none => trivial
  | some r' =>
    refine ⟨⟨none, Polling.setComet_comet_self _⟩, fun r => ?_⟩
    rw [Polling.setComet_request]
    by_cases hr : r = r'
    · subst hr
      rw [Polling.answer_request_self, decref_body]
    · rw [Polling.answer_request_of_ne hr]

/-- `move_queue` accepts an ack or refuses it, and touches no request. -/
lemma moveQueue_keeps (k : Nat) :
    Gives (fun p => (p.1 = 0 ∨ p.1 = -1) ∧ p.2.request = P.request) (P.moveQueue h k) := by
  rw [Polling.moveQueue]
  dsimp only
  split_ifs
  · exact ⟨Or.inl rfl, rfl⟩
  · exact ⟨Or.inr rfl, rfl⟩
  · exact ⟨Or.inl rfl, rfl⟩
  · exact ⟨Or.inl rfl, rfl⟩

/-- A message of client `h` is answered if it is taken for one, and nothing else is sent. -/
structure AnsweredIf (taken : Prop) (h : HybiId) (l : List Bytes) (s s' : Server) : Prop where
  yes : taken → s'.sends = s.sends ++ l.map fun m => (h, m)
  no : ¬ taken → s'.sends = s.sends

/-- The body of a request is a message if there is to be one and the ack is accepted. -/
lemma cometAct_sends : Gives (fun p => AnsweredIf ((action = .post ∨ action = .bidi) ∧
        args.inFormat = .single ∧ ∃ P, s.polling.moveQueue h args.lastMessage = .ok (0, P)) h
      (answer (cfg.route (s.info h).route) env.now (s.polling.request r).body) s p.2)
    (cometAct cfg env r args action h s) := by
  rw [cometAct]
  refine Ends.ite trivial ?_
  have hempty : Gives (fun P' => (∃ c, P'.comet h = { s.polling.comet h with curRequest := c }) ∧
        ∀ r, (P'.request r).body = (s.polling.request r).body)
      (if (action = .get ∨ action = .bidi ∨ action = .close) ∧
          (s.polling.comet h).curRequest.isSome then s.polling.emptyReply cfg env h
        else .ok s.polling) := Ends.ite (dismiss_keeps _) ⟨⟨_, rfl⟩, fun _ => rfl⟩
  rw [ite_bind]
  refine hempty.bind fun P₁ hP₁ => ?_
  obtain ⟨⟨c, hcomet⟩, hbody⟩ := hP₁
  have hqueue : Gives (fun p => (p.1 = 0 ∨ p.1 = -1) ∧ p.2.request = P₁.request ∧
      ((∃ P, s.polling.moveQueue h args.lastMessage = .ok (0, P)) ↔ p.1 = 0))
      (P₁.moveQueue h args.lastMessage) := by
    cases hmove : P₁.moveQueue h args.lastMessage with
    | error f => trivial
    | ok p =>
      obtain ⟨hrc, hrequest⟩ := (moveQueue_keeps args.lastMessage).result hmove
      obtain ⟨P', hmove', -⟩ := Polling.moveQueue_congr hcomet hmove
      refine ⟨hrc, hrequest, ?_⟩
      rw [hmove']
      constructor
      · rintro ⟨P, hP⟩
        exact congrArg Prod.fst (Except.ok.inj hP)
      · intro hzero
        exact ⟨P', by rw [hzero]⟩
  refine hqueue.bind fun p hp => ?_
  obtain ⟨rc, P₂⟩ := p
  obtain ⟨hrc, hrequest, hack⟩ := hp
  dsimp only at hrc hrequest hack ⊢
  rw [hack]
  by_cases hclose : rc < 0 ∨ action = .close
  · have hnot : ¬ ((action = .post ∨ action = .bidi) ∧ args.inFormat = .single ∧ rc = 0) := by
      rintro ⟨haction, -, rfl⟩
      rcases hclose with hneg | rfl
      · exact absurd hneg (lt_irrefl 0)
      · rcases haction with haction | haction <;> cases haction
    rw [if_pos hclose, ite_bind]
    refine .after _ fun _ => cometClose_sends.bind fun s' hs' => ?_
    exact ⟨fun htaken => absurd htaken hnot, fun _ => hs'⟩
  · have hzero : rc = 0 := hrc.resolve_right fun hneg => hclose (Or.inl (hneg ▸ neg_one_lt_zero))
    rw [if_neg hclose]
    by_cases hpass : (action = .post ∨ action = .bidi) ∧ args.inFormat ≠ .single
    · rw [if_pos hpass]
      exact ⟨fun htaken => absurd htaken.2.1 hpass.2, fun _ => rfl⟩
    · rw [if_neg hpass, ite_bind]
      have hsent : Gives (fun s' => AnsweredIf ((action = .post ∨ action = .bidi) ∧
            args.inFormat = .single ∧ rc = 0) h
          (answer (cfg.route (s.info h).route) env.now (s.polling.request r).body) s s')
          (if action = .post ∨ action = .bidi then sendMessage cfg env h r { s with polling := P₂ }
          else .ok { s with polling := P₂ }) := by
        by_cases haction : action = .post ∨ action = .bidi
        · rw [if_pos haction]
          refine sendMessage_sends.mono (fun _ => id) fun s' hs' => ⟨fun _ => ?_, fun hnot => ?_⟩
          · rw [hs']
            dsimp only
            rw [hrequest, hbody]
          · exact absurd ⟨haction, not_not.mp fun hf => hpass ⟨haction, hf⟩, hzero⟩ hnot
        · rw [if_neg haction]
          exact ⟨fun htaken => absurd htaken.1 haction, fun _ => rfl⟩
      refine hsent.bind fun s' hs' => ?_
      split_ifs
      · exact .after _ fun _ => ⟨hs'.yes, hs'.no⟩
      · exact ⟨hs'.yes, hs'.no⟩
      · exact ⟨hs'.yes, hs'.no⟩

/-- A request brings the same if the connection is the same. -/
lemma Carries.congr {method body : Bytes} (hinfo : s'.info = s.info)
    (hlive : s'.Live h ↔ s.Live h) (hcomet : s'.polling.comet h = s.polling.comet h) :
    Carries args method body s' h ↔ Carries args method body s h := by
  have hack : ∀ {P P' : Polling}, P.comet h = P'.comet h →
      (∃ Q, P.moveQueue h args.lastMessage = .ok (0, Q)) →
      ∃ Q, P'.moveQueue h args.lastMessage = .ok (0, Q) := by
    rintro P P' hsame ⟨Q, hQ⟩
    obtain ⟨Q', hQ', -⟩ := Polling.moveQueue_congr (c := (P'.comet h).curRequest) hsame hQ
    exact ⟨Q', hQ'⟩
  constructor
  · exact fun hc => ⟨hc.reaches.of_eq hinfo hlive.mp, hc.action, hc.format, hack hcomet hc.ack⟩
  · exact fun hc => ⟨hc.reaches.of_eq hinfo.symm hlive.mpr, hc.action, hc.format,
      hack hcomet.symm hc.ack⟩

lemma requested_congr {o : Option CometArgs} {method body now : Bytes} (hinfo : s'.info = s.info)
    (hlive : s'.Live h ↔ s.Live h) (hcomet : s'.polling.comet h = s.polling.comet h) :
    requested cfg now o method body s' h = requested cfg now o method body s h := by
  have hiff : (∃ args, o = some args ∧ Carries args method body s' h) ↔
      ∃ args, o = some args ∧ Carries args method body s h :=
    exists_congr fun _ => and_congr_right fun _ => Carries.congr hinfo hlive hcomet
  rw [requested, requested, hinfo]
  by_cases hc : ∃ args, o = some args ∧ Carries args method body s h
  · rw [if_pos (hiff.mpr hc), if_pos hc]
  · rw [if_neg fun hn => hc (hiff.mp hn), if_neg hc]

/-- What a step sends to a client. -/
abbrev Sends (l : List Bytes) (h : HybiId) (s s' : Server) : Prop :=
  messagesFor h s'.sends = messagesFor h s.sends ++ l

lemma Sends.nothing (hsends : s'.sends = s.sends) : Sends [] h s s' := by
  rw [Sends, hsends, List.append_nil]

lemma messagesFor_map (l : List Bytes) :
    messagesFor h (l.map fun m => (g, m)) = if g = h then l else [] := by
  by_cases hg : g = h
  · rw [if_pos hg, messagesFor, List.filter_eq_self.mpr, List.map_map]
    · exact List.map_id l
    · rintro x hx
      obtain ⟨m, -, rfl⟩ := List.mem_map.mp hx
      exact decide_eq_true hg
  · rw [if_neg hg]
    refine messagesFor_eq_nil fun x hx => ?_
    obtain ⟨m, -, rfl⟩ := List.mem_map.mp hx
    exact hg

/-- Something is sent to one client. -/
lemma Sends.one {l : List Bytes} (hsends : s'.sends = s.sends ++ l.map fun m => (g, m)) :
    Sends (if g = h then l else []) h s s' := by
  rw [Sends, hsends, messagesFor_append, messagesFor_map]

lemma messagesFor_toAll (hnodup : l.Nodup) :
    messagesFor h (toAll m l) = if h ∈ l then [m] else [] := by
  induction l with
  | nil => rfl
  | cons g l ih =>
    obtain ⟨hnew, hnodup⟩ := List.nodup_cons.mp hnodup
    rw [toAll, List.map_cons, ← List.singleton_append, messagesFor_append]
    change _ ++ messagesFor h (toAll m l) = _
    rw [ih hnodup]
    by_cases hg : h = g
    · subst hg
      rw [messagesFor_self, if_neg hnew, if_pos List.mem_cons_self]
      rfl
    · rw [messagesFor_of_ne hg, List.nil_append]
      simp only [List.mem_cons, hg, false_or]

/-- The same message is sent to some clients. -/
lemma Sends.broadcast (hd : Deliveries cfg env (toAll m l) s s') (hnodup : l.Nodup) :
    Sends (if h ∈ l then [m] else []) h s s' := by
  rw [Sends, hd.sends_eq, messagesFor_append, messagesFor_toAll hnodup]

/-- `comet_request` sends the client of its connection an answer to the body, if it answers it. -/
lemma cometRequest_sends (hcore : s.Core cfg) (o : Option CometArgs) :
    Gives (fun p => ∀ h, Sends (requested cfg env.now o (s.polling.request r).method
      (s.polling.request r).body s h) h s p.2) (s.cometRequest cfg env r o) := by
  have hnothing : ∀ s' : Server, s'.sends = s.sends →
      (∀ h args, o = some args →
        ¬ Carries args (s.polling.request r).method (s.polling.request r).body s h) →
      ∀ h, Sends (requested cfg env.now o (s.polling.request r).method
        (s.polling.request r).body s h) h s s' := by
    intro s' hsends hnot h
    rw [requested, if_neg fun ⟨args, ho, hc⟩ => hnot h args ho hc]
    exact .nothing hsends
  cases o with
  | none => exact hnothing s rfl fun _ _ ho => nomatch ho
  | some args =>
    rw [cometRequest]
    dsimp only
    by_cases hconnect : args.action = .connect
    · have hnot : ∀ h args', some args = some args' →
          ¬ Carries args' (s.polling.request r).method (s.polling.request r).body s h := by
        rintro h _ ⟨⟩ hc
        exact hc.reaches.action hconnect
      have hquiet : Gives (fun p : Int × Server => ∀ h, Sends (requested cfg env.now (some args)
          (s.polling.request r).method (s.polling.request r).body s h) h s p.2)
          (s.cometConnect cfg env r) :=
        cometConnect_sends.mono (fun _ => id) fun p hp => hnothing p.2 hp hnot
      rw [if_pos hconnect]
      split
      · exact Ends.ite hquiet (hnothing s rfl hnot)
      · exact hquiet
    · rw [if_neg hconnect]
      -- a connection that carries the request is the one that is found
      have hcarries : ∀ {h args'}, some args = some args' →
          Carries args' (s.polling.request r).method (s.polling.request r).body s h →
          s.hybiFind args.uid = .ok (some h) := by
        rintro h _ ⟨⟩ hc
        exact hybiFind_of_live hcore hc.reaches.live args.uid_length hc.reaches.uid
      cases hfind : s.hybiFind args.uid with
      | error f => trivial
      | ok found =>
        rw [ok_bind]
        rw [hfind] at hcarries
        cases found with
        | none =>
          refine hnothing s rfl fun h args' ho hc => ?_
          cases hcarries ho hc
        | some g =>
          have honly : ∀ {h args'}, some args = some args' → Carries args'
              (s.polling.request r).method (s.polling.request r).body s h → g = h :=
            fun ho hc => Option.some.inj (Except.ok.inj (hcarries ho hc))
          have hfound := (hybiFind_spec hcore args.uid).result hfind g rfl
          dsimp only
          refine deref_gives.bind ?_
          rintro hybi rfl
          by_cases ht : (s.info g).type ≠ .comet
          · rw [if_pos ht]
            refine hnothing s rfl fun h args' ho hc => ht ?_
            rw [honly ho hc]
            exact hc.reaches.type
          rw [if_neg ht]
          cases haction : cometAction args (s.polling.request r).body with
          | none =>
            refine hnothing s rfl fun h args' ho hc => ?_
            obtain rfl := Option.some.inj ho
            have hknown := hc.reaches.known
            rw [haction] at hknown
            cases hknown
          | some action =>
            dsimp only
            by_cases hoptions : (s.polling.request r).method = str "OPTIONS"
            · rw [if_pos hoptions]
              exact hnothing _ rfl fun h args' ho hc => hc.reaches.method hoptions
            rw [if_neg hoptions]
            refine cometAct_sends.mono (fun _ => id) fun p hp h => ?_
            have hiff : (∃ args', some args = some args' ∧
                Carries args' (s.polling.request r).method (s.polling.request r).body s h) ↔
                  g = h ∧ (action = .post ∨ action = .bidi) ∧ args.inFormat = .single ∧
                    ∃ P, s.polling.moveQueue g args.lastMessage = .ok (0, P) := by
              constructor
              · rintro ⟨_, ⟨⟩, hc⟩
                obtain rfl := honly rfl hc
                have hpost := hc.action
                rw [haction, Option.some.injEq, Option.some.injEq] at hpost
                exact ⟨rfl, hpost, hc.format, hc.ack⟩
              · rintro ⟨rfl, hpost, hformat, hack⟩
                have huid : (s.info g).uid = args.uid :=
                  hfound.2.trans (List.take_of_length_le args.uid_length.le)
                refine ⟨args, rfl, ⟨hconnect, hoptions, by rw [haction]; rfl, hfound.1, huid,
                  not_not.mp ht⟩, ?_, hformat, hack⟩
                rw [haction, Option.some.injEq, Option.some.injEq]
                exact hpost
            rw [requested]
            by_cases htaken : (action = .post ∨ action = .bidi) ∧ args.inFormat = .single ∧
                ∃ P, s.polling.moveQueue g args.lastMessage = .ok (0, P)
            · have hsends := Sends.one (h := h) (hp.yes htaken)
              by_cases hg : g = h
              · subst hg
                rw [if_pos (hiff.mpr ⟨rfl, htaken⟩)]
                rwa [if_pos rfl] at hsends
              · rw [if_neg fun hn => hg (hiff.mp hn).1]
                rwa [if_neg hg] at hsends
            · rw [if_neg fun hn => htaken (hiff.mp hn).2]
              exact .nothing (hp.no htaken)

/-! ### Backend commands -/

lemma commanded_eq_nil {cmd : Bytes} (hpublish : cmd ≠ str "publish") (hsend : cmd ≠ str "send")
    (hall : cmd ≠ str "sendall") : commanded route (cmd :: frames) s h = [] := by
  unfold commanded
  split
  · next heq =>
    obtain ⟨rfl, -⟩ := List.cons.inj heq
    exact if_neg fun hn => hn.elim (fun hn => hpublish hn.1) fun hn => hsend hn.1
  · next heq =>
    obtain ⟨rfl, -⟩ := List.cons.inj heq
    exact if_neg fun hn => hall hn.1
  · rfl

/-- A command that looks its connection up sends nothing if what it does then sends nothing. -/
lemma withConnection_sends {sized : Bool} {f : HybiId → List Bytes → Except Fault Server}
    (hf : ∀ h rest, Quiet s (f h rest)) : Quiet s (s.withConnection route sized frames f) := by
  unfold withConnection
  split
  · refine Ends.ite rfl (.after _ fun o => ?_)
    cases o with
    | none => exact rfl
    | some h => exact .after _ fun _ => Ends.ite rfl (hf h _)
  · exact rfl

lemma setCookie_sends : Quiet s (setCookie route frames s) := by
  rw [setCookie]
  refine withConnection_sends fun h rest => ?_
  split <;> exact rfl

lemma disconnect_sends : Quiet s (disconnect cfg env route frames s) := by
  unfold disconnect
  split
  · refine .after _ fun o => ?_
    cases o with
    | none => exact rfl
    | some h =>
      refine .after _ fun hybi => Ends.ite rfl ?_
      cases hybi.type with
      | comet => exact cometClose_sends
      | websocket => exact hybiStop_sends
  · exact rfl

section commands

variable (hs : s.Core cfg)

include hs

/-- The subscribers of a topic are sent what is published on it. -/
lemma publish_sends :
    Gives (fun s' => ∀ h, Sends (commanded route (str "publish" :: frames) s h) h s s')
      (publish cfg env route frames s) := by
  have hnone : ∀ h, (∀ x m, frames = [x, m] → (h, route, x) ∉ s.topics.pairs) →
      Sends (commanded route (str "publish" :: frames) s h) h s s := by
    intro h hnot
    have hnil : commanded route (str "publish" :: frames) s h = [] := by
      unfold commanded
      split
      · next heq =>
        obtain ⟨rfl, hframes⟩ := List.cons.inj heq
        refine if_neg fun hn => hn.elim (fun hn => hnot _ _ hframes hn.2) fun hn => ?_
        exact absurd hn.1 (by decide)
      · next heq =>
        obtain ⟨rfl, -⟩ := List.cons.inj heq
        exact if_neg fun hn => absurd hn.1 (by decide)
      · rfl
    rw [hnil]
    exact .nothing rfl
  unfold publish
  split
  · next name m =>
    rcases Topics.findTopic_false route name (hashSize cfg) hs.topics.toWF with
      ⟨t, hfind, ht⟩ | ⟨hfind, hmissing⟩
    · rw [hfind]
      refine (topicPublish_spec env hs).mono (fun _ _ => trivial) fun s' hd h => ?_
      have hiff : Addresses route (str "publish") name s h ↔ h ∈ s.audience t := by
        rw [Addresses, Topics.mem_pairs_of_key hs.topics.toWF ht, mem_audience hs]
        constructor
        · rintro (⟨-, i, hi⟩ | ⟨hsend, -⟩)
          · exact ⟨i, _, hi, rfl, rfl⟩
          · exact absurd hsend (by decide)
        · rintro ⟨i, sub, hi, rfl, rfl⟩
          exact Or.inl ⟨rfl, i, hi⟩
      have hsends := Sends.broadcast (h := h) hd (nodup_audience hs)
      have hcommanded : commanded route [str "publish", name, m] s h =
          if h ∈ s.audience t then [m] else [] := by
        unfold commanded
        dsimp only
        by_cases hmem : h ∈ s.audience t
        · rw [if_pos (hiff.mpr hmem), if_pos hmem]
        · rw [if_neg fun hn => hmem (hiff.mp hn), if_neg hmem]
      rw [hcommanded]
      exact hsends
    · rw [hfind]
      refine fun h => hnone h ?_
      rintro x m' ⟨⟩ hmem
      obtain ⟨i, sub, -, -, hkey⟩ := Topics.mem_pairs.mp hmem
      exact hmissing _ hkey
  · next hne => exact fun h => hnone h fun x m hframes => absurd hframes (hne x m)

/-- The connection of an id is sent the message. -/
lemma send_sends :
    Gives (fun s' => ∀ h, Sends (commanded route (str "send" :: frames) s h) h s s')
      (send cfg env route frames s) := by
  have hone : ∀ id m h, commanded route [str "send", id, m] s h =
      if s.addressed route false id = some h then [m] else [] := by
    intro id m h
    unfold commanded
    dsimp only
    have hiff : Addresses route (str "send") id s h ↔ s.addressed route false id = some h :=
      ⟨fun hn => hn.elim (fun hn => absurd hn.1 (by decide)) And.right, fun hn => Or.inr ⟨rfl, hn⟩⟩
    by_cases hh : s.addressed route false id = some h
    · rw [if_pos (hiff.mpr hh), if_pos hh]
    · rw [if_neg fun hn => hh (hiff.mp hn), if_neg hh]
  have hlength : (∀ id m, frames ≠ [id, m]) →
      ∀ h, commanded route (str "send" :: frames) s h = [] := by
    intro hnot h
    unfold commanded
    split
    · next heq => exact absurd (List.cons.inj heq).2 (hnot _ _)
    · next heq =>
      obtain ⟨rfl, -⟩ := List.cons.inj heq
      exact if_neg fun hn => absurd hn.1 (by decide)
    · rfl
  refine withConnection_spec hs (fun _ _ _ _ _ _ _ => trivial) (fun hnone h => ?_)
    fun id rest g hframes hrest haddr => ?_
  · by_cases hlen : ∃ id m, frames = [id, m]
    · obtain ⟨id, m, rfl⟩ := hlen
      rw [hone, hnone id [m] rfl (List.cons_ne_nil _ _)]
      exact .nothing rfl
    · rw [hlength (fun id m hframes => hlen ⟨id, m, hframes⟩) h]
      exact .nothing rfl
  · clear hrest
    split
    · next m =>
      obtain ⟨s', hsend, hd⟩ := doSend_ok env hs (addressed_live hs haddr).1 m
      refine .of_eq_ok hsend fun h => ?_
      rw [hframes, hone, haddr]
      have hsends := Sends.one (h := h) (l := [m]) hd.sends_eq
      by_cases hg : g = h
      · subst hg
        rwa [if_pos rfl] at hsends ⊢
      · rw [if_neg hg] at hsends
        rwa [if_neg fun heq => hg (Option.some.inj heq)]
    · next hne =>
      refine fun h => ?_
      rw [hlength (fun id' m hframes' => ?_) h]
      · exact .nothing rfl
      · rw [hframes] at hframes'
        exact hne m (List.cons.inj hframes').2

/-- The connections of the route are sent the message. -/
lemma sendAll_sends : Gives (fun s' => ∀ h, Sends (commanded route [str "sendall", m] s h) h s s')
    (sendAll cfg env route m s) := by
  obtain ⟨s', hall, hd⟩ := sendSelected_ok env (p := fun hybi => hybi.route = route) (m := m) hs
  refine .of_eq_ok hall fun h => ?_
  have hiff : h ∈ s.selected (fun hybi => hybi.route = route) ↔
      s.Live h ∧ (s.info h).route = route := by
    rw [mem_selected hs, decide_eq_true_eq]
  have hsends := Sends.broadcast (h := h) hd (nodup_selected hs)
  have hcommanded : commanded route [str "sendall", m] s h =
      if h ∈ s.selected (fun hybi => hybi.route = route) then [m] else [] := by
    unfold commanded
    dsimp only
    by_cases hmem : h ∈ s.selected fun hybi => hybi.route = route
    · rw [if_pos ⟨rfl, hiff.mp hmem⟩, if_pos hmem]
    · rw [if_neg fun hn => hmem (hiff.mpr hn.2), if_neg hmem]
  rw [hcommanded]
  exact hsends

/-- `websock_process` sends what its command says. -/
lemma websockProcess_sends : Gives (fun s' => ∀ h, Sends (commanded route frames s h) h s s')
    (websockProcess cfg env route frames s) := by
  cases frames with
  | nil => exact fun h => .nothing rfl
  | cons cmd frames =>
    have hquiet : ∀ {c : Except Fault Server}, cmd ≠ str "publish" → cmd ≠ str "send" →
        cmd ≠ str "sendall" → Quiet s c →
        Gives (fun s' => ∀ h, Sends (commanded route (cmd :: frames) s h) h s s') c := by
      intro c hpublish hsend hall hc
      refine hc.mono (fun _ => id) fun s' hs' h => ?_
      rw [commanded_eq_nil hpublish hsend hall]
      exact .nothing hs'
    by_cases htable : IsTable cmd
    · have hspec : Ends Memory (Obeys cfg route cmd frames s)
          (websockProcess cfg env route (cmd :: frames) s) :=
        (tables_spec hs htable).mono (fun _ => And.left) fun _ => id
      refine hquiet ?_ ?_ ?_ (hspec.mono (fun _ _ => trivial) fun s' hs' => by rw [hs'.eq])
      · rintro rfl
        exact absurd htable (by unfold IsTable; decide)
      · rintro rfl
        exact absurd htable (by unfold IsTable; decide)
      · rintro rfl
        exact absurd htable (by unfold IsTable; decide)
    · simp only [IsTable, not_or] at htable
      obtain ⟨h₁, h₂, h₃, h₄, h₅, h₆⟩ := htable
      unfold websockProcess
      dsimp only
      rw [if_neg h₁, if_neg h₂]
      by_cases hpublish : cmd = str "publish"
      · subst hpublish
        rw [if_pos rfl]
        exact publish_sends hs
      rw [if_neg hpublish]
      by_cases hsend : cmd = str "send"
      · subst hsend
        rw [if_pos rfl]
        exact send_sends hs
      rw [if_neg hsend, if_neg h₃, if_neg h₄, if_neg h₅, if_neg h₆]
      by_cases hall : cmd = str "sendall"
      · subst hall
        rw [if_neg (by decide), if_pos rfl]
        split
        · exact sendAll_sends hs
        · next hne =>
          intro h
          have hnil : commanded route (str "sendall" :: frames) s h = [] := by
            unfold commanded
            split
            · next heq =>
              obtain ⟨rfl, -⟩ := List.cons.inj heq
              refine if_neg fun hn => ?_
              rcases hn with ⟨hcmd, -⟩ | ⟨hcmd, -⟩ <;> exact absurd hcmd (by decide)
            · next heq => exact absurd (List.cons.inj heq).2 (hne _)
            · rfl
          rw [hnil]
          exact .nothing rfl
      · refine hquiet hpublish hsend hall ?_
        rw [if_neg hall]
        exact Ends.ite setCookie_sends (Ends.ite disconnect_sends rfl)

/-- `pause_websockets` tells the clients of some routes. -/
lemma pauseWebsockets_sends {on : Bool} (hi : i.event = .pause on) :
    Gives (fun s' => ∀ h, Sends (brought cfg i s h) h s s') (pauseWebsockets cfg env on s) := by
  rw [pauseWebsockets]
  by_cases hsame : s.backend.paused = on
  · rw [if_pos hsame]
    intro h
    simp only [brought, hi]
    rw [if_neg fun hn => hn.1 hsame]
    exact .nothing rfl
  · rw [if_neg hsame]
    dsimp only
    obtain ⟨s', hall, hd⟩ := sendSelected_ok env hs
    rw [hall, ok_bind]
    intro h
    have hsends := Sends.broadcast (h := h) hd (nodup_selected hs)
    refine hsends.trans (congrArg _ ?_)
    simp only [brought, hi]
    by_cases hmem : h ∈ s.selected fun hybi =>
        (cfg.route hybi.route).frontendCommands && (cfg.route hybi.route).pausedCommand
    · obtain ⟨hl, htold⟩ := (mem_selected hs).mp hmem
      rw [Bool.and_eq_true] at htold
      exact (if_pos hmem).trans (if_pos ⟨hsame, hl, htold⟩).symm
    · refine (if_neg hmem).trans (if_neg fun hn => hmem ?_).symm
      refine (mem_selected hs).mpr ⟨hn.2.1, ?_⟩
      rw [Bool.and_eq_true]
      exact hn.2.2

end commands

/-! ### Every event -/

/-- An event brings every client what it brings, and nothing else. -/
lemma sends_of_step (hs : s.Sound cfg) (hstep : step cfg i s = .ok s') (h : HybiId) :
    Sends (brought cfg i s h) h s s' := by
  have hcore : (s.expecting i.env).Core cfg := hs.core.switched _ _ _
  refine Ends.result (E := fun _ => True) (Q := fun s' => ∀ h, Sends (brought cfg i s h) h s s')
    ?_ hstep h
  rw [step, handle]
  have hquiet : ∀ {m : Except Fault Server}, (∀ h, brought cfg i s h = []) →
      Gives (fun s' => s'.sends = s.sends) m →
      Gives (fun s' => ∀ h, Sends (brought cfg i s h) h s s') m := by
    intro m hnil hm
    refine hm.mono (fun _ => id) fun s' hs' h => ?_
    rw [hnil]
    exact .nothing hs'
  cases hi : i.event with
  | cometRequest route method body origin date o =>
    let s₁ := ((s.expecting i.env).newRequest route method body origin date).2
    have hcore₁ : s₁.Core cfg := hcore.withPolling _
    have hrequest := newRequest_request (s := s.expecting i.env) route method body origin date
    refine (cometRequest_sends hcore₁ o).bind fun p hp h => ?_
    have hbrought : brought cfg i s h = requested cfg i.env.now o method body s h := by
      simp only [brought, hi]
    have hsame : requested cfg i.env.now o method body s₁ h =
        requested cfg i.env.now o method body s h := requested_congr rfl Iff.rfl rfl
    have hrequested := hp h
    rw [show s₁.polling.request _ = _ from hrequest, hsame] at hrequested
    rw [hbrought]
    exact hrequested
  | requestFinish r =>
    refine hquiet (fun h => by simp only [brought, hi]) (Ends.ite ?_ rfl)
    rw [requestFinish]
    split
    · trivial
    · exact .after _ fun _ => .after _ fun _ => rfl
    · exact rfl
  | requestRelease k r =>
    refine hquiet (fun h => by simp only [brought, hi]) ?_
    show (requestRelease k r (s.expecting i.env)).sends = s.sends
    unfold requestRelease
    dsimp only
    split_ifs <;> rfl
  | pollingTimeout r =>
    refine hquiet (fun h => by simp only [brought, hi]) (Ends.ite ?_ rfl)
    rw [pollingTimeout]
    split
    · trivial
    · exact .after _ fun _ => .after _ fun _ => rfl
  | inactivityTimeout g =>
    refine hquiet (fun h => by simp only [brought, hi]) (Ends.ite ?_ rfl)
    rw [inactivityTimeout]
    exact .after _ fun _ => freeComet_sends
  | sendLater g =>
    refine hquiet (fun h => by simp only [brought, hi]) (Ends.ite ?_ rfl)
    rw [sendLater]
    exact .after _ fun _ => .after _ fun _ => rfl
  | websockStart route =>
    exact hquiet (fun h => by simp only [brought, hi]) (hybiStart_sends.bind fun _ hp => hp)
  | websockMessage g data =>
    have hsame : (s.expecting i.env).isWebsocket g = s.isWebsocket g := rfl
    have hbrought : ∀ h, brought cfg i s h = if g = h then
          if s.isWebsocket g then answer (cfg.route (s.info g).route) i.env.now data else []
        else [] := by
      intro h
      simp only [brought, hi]
      by_cases hg : g = h
      · subst hg
        simp
      · rw [if_neg hg, if_neg fun hn => hg hn.1]
    dsimp only
    rw [hsame]
    by_cases hopened : s.isWebsocket g
    · rw [if_pos hopened]
      refine websockMessage_sends.mono (fun _ => id) fun s' hs' h => ?_
      rw [hbrought, if_pos hopened]
      exact .one hs'
    · rw [if_neg hopened]
      refine hquiet (fun h => ?_) rfl
      rw [hbrought, if_neg hopened, ite_self]
  | websockStop g =>
    exact hquiet (fun h => by simp only [brought, hi]) (Ends.ite hybiStop_sends rfl)
  | command route frames =>
    have hbrought : ∀ h, brought cfg i s h = commanded route frames s h := fun h => by
      simp only [brought, hi]
    simp only [hbrought]
    exact websockProcess_sends hcore
  | backendUnqueue k pollout =>
    exact hquiet (fun h => by simp only [brought, hi]) (.after _ fun _ => rfl)
  | pause on =>
    have hsame : ∀ h, brought cfg i (s.expecting i.env) h = brought cfg i s h := by
      intro h
      simp only [brought, hi]
      rfl
    simp only [← hsame]
    exact pauseWebsockets_sends hcore hi

/-- What a client has been sent, in every run, is what the events have brought it, in this order:
nothing is lost, repeated, made up or sent to somebody else. -/
theorem inboxes_exact {L : HybiId → List Bytes}
    (hl : Lockstep (step cfg) (fun i s _ L h => L h ++ brought cfg i s h) (init cfg)
      (fun _ => []) s L)
    (h : HybiId) : messagesFor h s.sends = L h := by
  have hsends : (fun h => messagesFor h s.sends) = L :=
    hl.refines (fun (s : Server) h => messagesFor h s.sends) rfl fun i s s' hr hstep => by
      funext h
      exact sends_of_step (sound_of_reachable hr) hstep h
  exact congrFun hsends h

/-- A websocket subscribes to a topic, hears what is published on it, and gets its own echo. -/
theorem inboxes_exact_echo : ∃ (s : Server) (L : HybiId → List Bytes),
    L 0 = [[1], str "ZEROGW:echo"] ∧ L 1 = [] ∧ s.next = 2 := by
  obtain ⟨s, hr, hview⟩ := exists_of_small_run (C := fun _ _ => True)
    [⟨.websockStart 0, stalledEnv⟩, ⟨.websockStart 0, stalledEnv⟩,
      ⟨.command 0 [str "subscribe", firstUid, str "news"], stalledEnv⟩,
      ⟨.command 0 [str "publish", str "news", [1]], stalledEnv⟩,
      ⟨.websockMessage 0 (str "ZEROGW:echo"), stalledEnv⟩]
    (fun s => (s.next, messagesFor 0 s.sends, messagesFor 1 s.sends))
    (2, [[1], str "ZEROGW:echo"], []) (fun _ _ _ => trivial) (by decide +kernel)
  simp only [Prod.mk.injEq] at hview
  obtain ⟨hnext, hzero, hone⟩ := hview
  obtain ⟨L, hl⟩ := Lockstep.exists_of_reachable
    (fun i s _ L h => L h ++ brought smallConfig i s h) (fun _ => []) hr
  exact ⟨s, L, (inboxes_exact hl 0).symm.trans hzero, (inboxes_exact hl 1).symm.trans hone, hnext⟩

end Server

end Zerogw
