import Zerogw.Server.Commands

/-!
# Long-poll requests as sequences of moves

`comet_request` and the callbacks of requests and watchers, as moves of the server, with the inputs
on which they make the marked moves; and from these, one step of the server.
-/

namespace Zerogw

open Execution

namespace Polling

variable {cfg : Config} {env : Env} {P P₁ P' : Polling} {h : HybiId} {r : ReqId} {rc : Int}
  {msgid : Nat}

variable (cfg env) in
/-- The parked request is answered without a message. -/
lemma dismiss_ok (own : List Header) (hcur : (P.comet h).curRequest = some r) :
    ∃ rep, P.dismiss cfg env own h = .ok
      ((P.answer r rep).setComet h { P.comet h with curRequest := none }) :=
  ⟨okReply cfg env r (P.request r) own [], by simp only [dismiss, hcur, answer_comet]⟩

/-- `move_queue` takes some messages off the queue, or leaves it alone. -/
lemma moveQueue_ok (P : Polling) (h : HybiId) (msgid : Nat) :
    ∃ rc P', P.moveQueue h msgid = .ok (rc, P') ∧ (rc = 0 ∨ rc = -1) ∧
      (P' = P ∨ rc = 0 ∧ ∃ n first, IsInt first ∧ P' = P.setComet h
        { P.comet h with queue := (P.comet h).queue.drop n, firstIndex := first }) := by
  rw [moveQueue]
  dsimp only
  split_ifs with h₁ h₂ h₃
  · exact ⟨0, P, rfl, Or.inl rfl, Or.inl rfl⟩
  · exact ⟨-1, P, rfl, Or.inr rfl, Or.inl rfl⟩
  · exact ⟨0, P, rfl, Or.inl rfl, Or.inl rfl⟩
  · exact ⟨0, _, rfl, Or.inl rfl, Or.inr ⟨rfl, _, _, isInt_toInt _, rfl⟩⟩

/-- Whether a request is parked does not matter to `move_queue`. -/
lemma moveQueue_congr {c : Option ReqId}
    (hcomet : P₁.comet h = { P.comet h with curRequest := c })
    (hmove : P₁.moveQueue h msgid = .ok (rc, P')) :
    ∃ P'', P.moveQueue h msgid = .ok (rc, P'') ∧
      (P''.comet h).queue = (P'.comet h).queue ∧
      (P''.comet h).capacity = (P'.comet h).capacity ∧
      (P''.comet h).firstIndex = (P'.comet h).firstIndex := by
  unfold moveQueue at hmove ⊢
  simp only [hcomet] at hmove ⊢
  split_ifs at hmove ⊢ with h₁ h₂ h₃
  · cases hmove
    exact ⟨P, rfl, by rw [hcomet], by rw [hcomet], by rw [hcomet]⟩
  · cases hmove
    exact ⟨P, rfl, by rw [hcomet], by rw [hcomet], by rw [hcomet]⟩
  · cases hmove
    exact ⟨P, rfl, by rw [hcomet], by rw [hcomet], by rw [hcomet]⟩
  · cases hmove
    exact ⟨_, rfl, by simp, by simp, by simp⟩

variable (cfg env) in
/-- Closing a connection that has just taken over request `r` answers that request. -/
lemma shut_adopted (hcur : (P.comet h).curRequest = none) (hh : (P.request r).hybi = none)
    (ht : (P.request r).timeout = false) (href : 0 < (P.request r).refcnt) :
    ∃ rep, (((P.incref r).setComet h { P.comet h with curRequest := some r }).shut cfg env h)
      = (P.reply r rep).shut cfg env h := by
  refine ⟨okReply cfg env r (P.request r)
    [text "X-Messages" "0", text "X-Connection" "close"] [], ?_⟩
  rw [shut_of_some (r := r) (by simp), shut_of_none (by simpa using hcur)]
  have hne : (P.request r).refcnt ≠ 0 := by omega
  simp only [setComet, setRequest, answer, incref, reply, Request.decref, add_sub_cancel_right, hne,
    hh, ht, hcur, Function.update_self, Function.update_idem, if_false]
  rfl

end Polling

namespace Server

variable {cfg : Config} {env : Env} {s s' : Server} {h g : HybiId} {r : ReqId} {m : Bytes}
  {allow : Mark → Prop} {w w' : Option HybiId} {P : Polling} {args : CometArgs}

/-! ### The marked moves -/

/-- The event is a request that sends a message on connection `h` and waits for others, and its ack
is accepted; `P` is the long-poll state after the ack. -/
structure Bidi (i : Input) (s : Server) (h : HybiId) (args : CometArgs) (body : Bytes)
    (P : Polling) : Prop where
  event : ∃ route method origin date, method ≠ str "OPTIONS" ∧
    i.event = .cometRequest route method body origin date (some args)
  live : s.Live h
  uid : (s.info h).uid = args.uid
  type : (s.info h).type = .comet
  action : cometAction args body = some .bidi
  ack : s.polling.moveQueue h args.lastMessage = .ok (0, P)

/-- The message is a frontend command whose answer finds the queue of its own connection full. -/
def ClosesItself (cfg : Config) (i : Input) (s : Server) : Prop :=
  ∃ h args body P, Bidi i s h args body P ∧ args.inFormat = .single ∧
    answersSelf (cfg.route (s.info h).route) body = true ∧
    (P.comet h).capacity ≤ (P.comet h).queue.length

/-- The message is in a format that is refused after the old request has been answered, and no
inactivity timer is left over. -/
def RefusesFormat (i : Input) (s : Server) : Prop :=
  ∃ h args body P, Bidi i s h args body P ∧ args.inFormat ≠ .single ∧
    (s.polling.comet h).curRequest ≠ none ∧ (s.polling.comet h).inactivity = false

/-- The idle watcher of `h` finds request `r`, but the queue has been emptied by an ack. -/
structure Vain (i : Input) (s : Server) (h : HybiId) (r : ReqId) : Prop where
  event : i.event = .sendLater h
  sendlater : (s.polling.comet h).sendlater = true
  curRequest : (s.polling.comet h).curRequest = some r
  queue : (s.polling.comet h).queue = []

def WakesInVain (i : Input) (s : Server) : Prop := ∃ h r, Vain i s h r

/-- Moreover, the request has no timer. -/
def LeavesUnwatched (i : Input) (s : Server) : Prop :=
  ∃ h r, Vain i s h r ∧ (s.polling.request r).timeout = false

/-- A long-poll request is carried out on connection `h`. -/
structure Reaches (args : CometArgs) (method body : Bytes) (s : Server) (h : HybiId) : Prop where
  action : args.action ≠ .connect
  method : method ≠ str "OPTIONS"
  known : (cometAction args body).isSome = true
  live : s.Live h
  uid : (s.info h).uid = args.uid
  type : (s.info h).type = .comet

lemma Reaches.of_eq {args : CometArgs} {method body : Bytes} (hr : Reaches args method body s h)
    (hinfo : s.info = s'.info) (hl : s.Live h → s'.Live h) : Reaches args method body s' h :=
  ⟨hr.action, hr.method, hr.known, hl hr.live, hinfo ▸ hr.uid, hinfo ▸ hr.type⟩

/-- A long-poll request with ack `msgid` is carried out on a connection. -/
def Names (i : Input) (s : Server) (route : RouteId) (h : HybiId) (msgid : Nat) : Prop :=
  ∃ method body origin date args,
    i.event = .cometRequest route method body origin date (some args) ∧
    args.lastMessage = msgid ∧ Reaches args method body s h

/-- A long-poll request is carried out on a connection of another route. -/
def Astray (i : Input) (s : Server) : Prop :=
  ∃ route h msgid, Names i s route h msgid ∧ (s.info h).route ≠ route

/-- The routes that a command or a long-poll request is about: its own, and that of the connection
it names. -/
def Concerns (i : Input) (s : Server) (route : RouteId) : Prop :=
  match i.event with
  | .command own _ => route = own
  | .cometRequest own _ _ _ _ _ =>
    route = own ∨ ∃ h msgid, Names i s own h msgid ∧ route = (s.info h).route
  | _ => True

/-- libwebsite gives up request `r`, which is parked. -/
def Aborts (r : ReqId) (i : Input) (s : Server) : Prop :=
  i.event = .requestFinish r ∧ ∃ h, (s.polling.request r).ParkedAt h

/-- A backend sets the cookie of a connection. -/
def Bakes (i : Input) (s : Server) (h : HybiId) : Prop :=
  ∃ route id cookie, i.event = .command route [str "set_cookie", id, cookie] ∧
    s.addressed route false id = some h

/-- A long-poll request offers its body to a backend: its ack has been accepted, and the body is no
frontend command. -/
structure Offers (cfg : Config) (args : CometArgs) (method body : Bytes) (s : Server) (h : HybiId) :
    Prop where
  reaches : Reaches args method body s h
  action : cometAction args body = some .post ∨ cometAction args body = some .bidi
  format : args.inFormat = .single
  ack : ∃ P, s.polling.moveQueue h args.lastMessage = .ok (0, P)
  forwarded : isForwarded (cfg.route (s.info h).route) body = true

/-- The body that the next request offers to a backend cannot be sent at once, and there is no
memory to queue it. -/
def Leaks (cfg : Config) (r : ReqId) (i : Input) (s : Server) : Prop :=
  r = s.polling.next ∧ ∃ route method body origin date args h,
    i.event = .cometRequest route method body origin date (some args) ∧
    Offers cfg args method body s h ∧
    Backend.Stalled (s.resolved h body) (s.expecting i.env).backend ∧
    (s.expecting i.env).backend.hasMemory = false

/-- The inactivity timer of a connection that has been stopped fires, and stops it again. -/
def StopsAgain (h : HybiId) (i : Input) (s : Server) : Prop :=
  i.event = .inactivityTimeout h ∧ (s.polling.comet h).inactivity = true ∧ ¬ s.Running h

/-- Some stopped connection is stopped again. -/
def Restops (i : Input) (s : Server) : Prop := ∃ h, StopsAgain h i s

/-- The inputs that lead to the marked moves. -/
def Shows (cfg : Config) (i : Input) (s : Server) : Mark → Prop
  | .deadPark => ClosesItself cfg i s
  | .wokenInVain => WakesInVain i s
  | .unwatched => LeavesUnwatched i s
  | .refused => RefusesFormat i s
  | .tables => ∃ route cmd args, i.event = .command route (cmd :: args) ∧ IsTable cmd
  | .aborted r => Aborts r i s
  | .cookie h => Bakes i s h
  | .ack h msgid => ∃ route, Names i s route h msgid
  | .astray => Astray i s
  | .restops h => StopsAgain h i s
  | .leaks r => Leaks cfg r i s
  | .acts route => Concerns i s route

/-! ### The body of a request -/

/-- References have no part in what is sent. -/
lemma render_incref : render { s with polling := s.polling.incref r } = s.render := by
  have hbody : ∀ r', ((s.polling.incref r).request r').body = (s.polling.request r').body := by
    intro r'
    by_cases hr' : r' = r
    · subst hr'
      simp [Polling.incref]
    · rw [Polling.incref, Polling.setRequest_request_of_ne hr']
  funext msg
  simp only [render, hbody]

/-- What `send_message` leaves of a pending request and its connection. -/
structure Passed (cfg : Config) (body : Bytes) (h : HybiId) (r : ReqId) (s s' : Server) : Prop where
  finished : (s'.polling.request r).finished = false
  hybi : (s'.polling.request r).hybi = none
  route : (s'.polling.request r).route = (s.polling.request r).route
  info : s'.info = s.info
  next : s'.next = s.next
  curRequest : (s.polling.comet h).curRequest = none → (s'.polling.comet h).curRequest = none
  firstIndex : (s'.polling.comet h).firstIndex = (s.polling.comet h).firstIndex
  live : s'.Live h ∨ answersSelf (cfg.route (s.info h).route) body = true ∧
    (s.polling.comet h).capacity ≤ (s.polling.comet h).queue.length ∧ ¬ s'.Running h ∧
    (s'.polling.comet h).closed = true ∧ (s'.polling.comet h).queue ≠ []

variable (env w) in
lemma sendMessage_ok (ha : allow (.acts (s.info h).route))
    (har : allow (.acts (s.polling.request r).route)) (hs : s.Sound cfg) (hl : s.Live h)
    (ht : (s.info h).type = .comet) (hf : (s.polling.request r).finished = false)
    (hh : (s.polling.request r).hybi = none)
    (hleak : isForwarded (cfg.route (s.info h).route) (s.polling.request r).body = true →
      Backend.Stalled (s.resolved h (s.polling.request r).body) s.backend →
      s.backend.hasMemory = false → allow (.leaks r)) :
    ∃ s', sendMessage cfg env h r s = .ok s' ∧ Path cfg env allow (w, s) (w, s') ∧
      Passed cfg (s.polling.request r).body h r s s' := by
  have hcore := hs.core
  rw [sendMessage]
  obtain ⟨o, s', hres, hresolved⟩ :=
    websockResolve_ok env hcore hl (s.polling.request r).body
  cases hresolved with
  | socket hforward =>
    obtain ⟨status, b, hsend, hcore', hpost, -⟩ :=
      (hcore.withPolling (s.polling.incref r)).backendSend (m := ⟨h, .request r⟩)
        (hcore.running hl) (s.resolved h (s.polling.request r).body) false
    rw [render_incref] at hpost
    have hstatus : status ≠ .refused ∨ allow (.leaks r) := by
      by_cases hr : status = .refused
      · subst hr
        obtain ⟨hst, hmem⟩ := Backend.stalled_of_refused hpost
        exact Or.inr (hleak hforward hst hmem)
      · exact Or.inl hr
    refine ⟨_, by rw [hres, ok_bind]; simp only [hsend, ok_bind]; rfl, ?_, ?_⟩
    · exact Path.single (.offered ha har hl (resolved_route hcore _) hf hpost hstatus) hcore'
    · refine ⟨?_, ?_, ?_, rfl, rfl, id, rfl, Or.inl hl⟩
      · simpa [Polling.incref] using hf
      · simpa [Polling.incref] using hh
      · simp [Polling.incref]
  | ignored =>
    exact ⟨s, by rw [hres, ok_bind]; rfl, .refl, hf, hh, rfl, rfl, rfl, id, rfl, Or.inl hl⟩
  | @answered m s' hself hd =>
    refine ⟨s', by rw [hres, ok_bind]; rfl, hd.path ha, ?_⟩
    have hpolling := hd.polling_eq
    by_cases hc : Closes env s h
    · have hshut : s'.polling = s.polling.shut cfg env h := by
        rw [hpolling, pollingAfter, ht]
        exact if_pos hc
      have hrequest : s'.polling.request r = s.polling.request r := by
        rw [hshut, Polling.shut_request_of_not_parked hs.links]
        simp [Request.ParkedAt, hh]
      have hcomet : s'.polling.comet h = { s.polling.comet h with
          curRequest := none, sendlater := false, inactivity := false, closed := true } := by
        rw [hshut, Polling.shut_comet_self]
      have hfull : (s.polling.comet h).capacity ≤ (s.polling.comet h).queue.length := by
        simpa only [Closes, ht] using hc
      refine ⟨by rw [hrequest, hf], by rw [hrequest, hh], by rw [hrequest], hd.info_eq, hd.next_eq,
        fun _ => by rw [hcomet], by rw [hcomet], Or.inr ⟨hself, hfull, ?_, by rw [hcomet], ?_⟩⟩
      · exact fun hr' => (hd.running_iff.mp hr').2 ⟨rfl, hc⟩
      · rw [hcomet]
        intro hq
        have hcap := (hs.comets h).capacity (hcore.running hl) ht
        have := (cfg.route (s.info h).route).queueLimit_ge
        rw [show (s.polling.comet h).queue = [] from hq, hcap] at hfull
        simp only [List.length_nil] at hfull
        omega
    · have hpush : s'.polling = s.polling.push h m := by
        rw [hpolling, pollingAfter, ht]
        exact if_neg hc
      refine ⟨by rw [hpush]; exact hf, by rw [hpush]; exact hh, by rw [hpush]; rfl, hd.info_eq,
        hd.next_eq, fun hcur => ?_, ?_, Or.inl ((hd.live_iff hl).mpr ⟨hl, fun hn => hc hn.2⟩)⟩
      · rw [hpush, Polling.push, Polling.setComet_comet_self]
        exact hcur
      · rw [hpush, Polling.push, Polling.setComet_comet_self]

/-! ### Handling a request on a live connection -/

/-- In the middle of `comet_request`: the new request is pending, and if the old one has been
answered, no request is parked. -/
structure Handling (cfg : Config) (env : Env) (allow : Mark → Prop) (s : Server) (h : HybiId)
    (r : ReqId) (w : Option HybiId) (P : Polling) : Prop where
  acts : allow (.acts (s.info h).route)
  own : allow (.acts (s.polling.request r).route)
  path : Path cfg env allow (none, s) (w, { s with polling := P })
  working : ∀ g, w = some g →
    g = h ∧ (P.comet h).curRequest = none ∧ (s.polling.comet h).curRequest ≠ none
  parked : (P.comet h).curRequest ≠ none → (s.polling.comet h).curRequest ≠ none
  request : P.request r = s.polling.request r
  finished : (P.request r).finished = false
  hybi : (P.request r).hybi = none

namespace Handling

lemma start (ha : allow (.acts (s.info h).route)) (har : allow (.acts (s.polling.request r).route))
    (hf : (s.polling.request r).finished = false) (hh : (s.polling.request r).hybi = none) :
    Handling cfg env allow s h r none s.polling :=
  ⟨ha, har, .refl, by simp, id, rfl, hf, hh⟩

section

variable (hH : Handling cfg env allow s h r w P) (hs : s.Sound cfg)

include hH hs

lemma sound : Sound cfg { s with polling := P } := hH.path.sound hs

/-- The old request is answered without a message. -/
lemma dismiss {r' : ReqId} (hcur : (P.comet h).curRequest = some r') (rep : Reply) :
    Handling cfg env allow s h r (some h)
      ((P.answer r' rep).setComet h { P.comet h with curRequest := none }) := by
  have hsound := hH.sound hs
  have hold : w = none := by
    cases hw : w with
    | none => rfl
    | some g =>
      obtain ⟨-, hnone, -⟩ := hH.working g hw
      simp [hcur] at hnone
  have hne : r ≠ r' := by
    rintro rfl
    have hpark : (P.request r).hybi = some h := ((hsound.links.parked h r).mp hcur).1
    simp [hH.hybi] at hpark
  subst hold
  refine ⟨hH.acts, hH.own, hH.path.trans (Path.polling hsound.core (.dismissed hH.acts rfl hcur)),
    ?_, ?_, ?_, ?_, ?_⟩
  · rintro g ⟨⟩
    exact ⟨rfl, by simp, hH.parked (by simp [hcur])⟩
  · simp
  · rw [Polling.setComet_request, Polling.answer_request_of_ne hne]
    exact hH.request
  · rw [Polling.setComet_request, Polling.answer_request_of_ne hne]
    exact hH.finished
  · rw [Polling.setComet_request, Polling.answer_request_of_ne hne]
    exact hH.hybi

end

variable (env) in
/-- The old request is answered if the new one may take its place. -/
lemma dismissOld (p : Prop) [Decidable p] (ha : allow (.acts (s.info h).route))
    (har : allow (.acts (s.polling.request r).route)) (hs : s.Sound cfg)
    (hf : (s.polling.request r).finished = false) (hh : (s.polling.request r).hybi = none) :
    ∃ w P, (if p ∧ (s.polling.comet h).curRequest.isSome then s.polling.emptyReply cfg env h
        else .ok s.polling) = .ok P ∧ Handling cfg env allow s h r w P ∧
      (p → (P.comet h).curRequest = none) ∧ (¬ p → w = none) ∧
      P.comet h = { s.polling.comet h with curRequest := (P.comet h).curRequest } := by
  have hH : Handling cfg env allow s h r none s.polling := .start ha har hf hh
  cases hcur : (s.polling.comet h).curRequest with
  | none => exact ⟨none, s.polling, by simp, hH, fun _ => hcur, fun _ => rfl, rfl⟩
  | some r' =>
    by_cases hp : p
    · obtain ⟨rep, hempty⟩ := Polling.dismiss_ok cfg env
        [Polling.text "X-Messages" "0"] hcur
      exact ⟨_, _, (if_pos ⟨hp, rfl⟩).trans hempty, hH.dismiss hs hcur rep, fun _ => by simp,
        fun hn => absurd hp hn, by simp⟩
    · exact ⟨none, s.polling, by rw [if_neg (by simp [hp])], hH, fun hp' => absurd hp' hp,
        fun _ => rfl, rfl⟩

section

variable (hH : Handling cfg env allow s h r w P) (hs : s.Sound cfg)

include hH hs

/-- `move_queue` for the ack of the request. -/
lemma moveQueue {msgid : Nat} (hack : allow (.ack h msgid)) (hl : s.Live h)
    (ht : (s.info h).type = .comet) :
    ∃ rc P', P.moveQueue h msgid = .ok (rc, P') ∧ (rc = 0 ∨ rc = -1) ∧
      Handling cfg env allow s h r w P' ∧
      (P'.comet h).curRequest = (P.comet h).curRequest ∧
      (P'.comet h).inactivity = (P.comet h).inactivity := by
  have hsound := hH.sound hs
  obtain ⟨rc, P', hmove, hrc, rfl | ⟨rfl, n, first, hfirst, rfl⟩⟩ :=
    Polling.moveQueue_ok P h msgid
  · exact ⟨rc, _, hmove, hrc, hH, rfl, rfl⟩
  · refine ⟨0, _, hmove, hrc, ⟨hH.acts, hH.own, hH.path.trans (Path.polling hsound.core
      (.acked hH.acts hack hl ht hfirst hmove)), ?_, ?_, hH.request, hH.finished, hH.hybi⟩, ?_, ?_⟩
    · simpa using hH.working
    · simpa using hH.parked
    · simp
    · simp

/-- A request that is still waiting is told that the connection is closed. -/
lemma closeOld : ∃ w' P',
    (if (P.comet h).curRequest.isSome = true then P.closeReply cfg env h else .ok P) = .ok P' ∧
      Handling cfg env allow s h r w' P' ∧ (P'.comet h).curRequest = none := by
  cases hcur : (P.comet h).curRequest with
  | none => exact ⟨w, P, rfl, hH, hcur⟩
  | some r' =>
    obtain ⟨rep, hclosed⟩ := Polling.dismiss_ok cfg env
      [Polling.text "X-Messages" "0", Polling.text "X-Connection" "close"] hcur
    exact ⟨_, _, hclosed, hH.dismiss hs hcur rep, by simp⟩

/-- The body of the request is passed on, if it is a message. -/
lemma passBody (p : Prop) [Decidable p] (hl : s.Live h) (ht : (s.info h).type = .comet)
    (hleak : p → isForwarded (cfg.route (s.info h).route) (s.polling.request r).body = true →
      Backend.Stalled (s.resolved h (s.polling.request r).body) s.backend →
      s.backend.hasMemory = false → allow (.leaks r)) :
    ∃ s', (if p then sendMessage cfg env h r { s with polling := P }
        else .ok { s with polling := P }) = .ok s' ∧
      Path cfg env allow (w, { s with polling := P }) (w, s') ∧
      Passed cfg (s.polling.request r).body h r { s with polling := P } s' ∧ (p ∨ s'.Live h) := by
  by_cases hbody : p
  · have har : allow (.acts (P.request r).route) := by
      rw [hH.request]
      exact hH.own
    obtain ⟨s', hsend, hpath, hpass⟩ :=
      sendMessage_ok (s := { s with polling := P }) env w hH.acts har (hH.sound hs) hl ht
        hH.finished hH.hybi (by
          dsimp only
          rw [hH.request]
          exact hleak hbody)
    dsimp only at hpass
    rw [hH.request] at hpass
    exact ⟨s', by rw [if_pos hbody, hsend], hpath, hpass, Or.inl hbody⟩
  · exact ⟨_, if_neg hbody, .refl,
      ⟨hH.finished, hH.hybi, rfl, rfl, rfl, id, rfl, Or.inl hl⟩, Or.inr hl⟩

/-- The connection takes over the request and is closed. -/
lemma close (hl : s.Live h) (ht : (s.info h).type = .comet)
    (hcur : (P.comet h).curRequest = none) :
    ∃ s', cometClose cfg env h { s with
        polling := (P.incref r).setComet h { P.comet h with curRequest := some r } } = .ok s' ∧
      Path cfg env allow (none, s) (none, s') ∧ ¬ s'.Running h := by
  have hsound := hH.sound hs
  have hr := hs.core.running hl
  have htimer : (P.request r).timeout = false := by
    by_contra hn
    obtain ⟨g, hg, -⟩ := hsound.links.timer r (by simpa using hn)
    simp [hH.hybi] at hg
  obtain ⟨rep, hshut⟩ := Polling.shut_adopted cfg env hcur hH.hybi htimer
    ((hsound.refs r).refcnt_pos hH.finished)
  obtain ⟨s', hclose, hcore, hst⟩ := cometClose_ok env
    (hs.core.withPolling ((P.incref r).setComet h { P.comet h with curRequest := some r })) hl
  dsimp only at hst
  rw [hshut] at hst
  have hreplied : Path cfg env allow (none, s) (w, { s with polling := P.reply r rep }) :=
    hH.path.trans (Path.polling hsound.core (.replied (hH.request ▸ hH.own) hH.finished))
  have hgone : Path cfg env allow (none, s) (w, s') :=
    hreplied.trans (Path.single (.gone (s := { s with polling := P.reply r rep }) hH.acts
      (Or.inl hr) (Or.inr ⟨ht, rfl⟩) (Or.inl rfl) hst) hcore)
  have hdead : ¬ s'.Running h := fun hr' => (hst.running_iff.mp hr').2 rfl
  refine ⟨s', hclose, ?_, hdead⟩
  cases hw : w with
  | none => exact hw ▸ hgone
  | some g =>
    obtain rfl := (hH.working g hw).1
    exact (hw ▸ hgone).trans (Path.single (.settled rfl (Or.inl hdead)) hcore)

/-- The request is parked after its body has been passed on. -/
lemma park {s' : Server} (hroute : (s.polling.request r).route = (s.info h).route ∨ allow .astray)
    (ht : (s.info h).type = .comet)
    (hborn : h < s.next) (hcur : (P.comet h).curRequest = none) (hlimit : args.limit ≠ 0)
    (hpath : Path cfg env allow (w, { s with polling := P }) (w, s')) {body : Bytes}
    (hpass : Passed cfg body h r { s with polling := P } s')
    (hallow : ¬ s'.Running h → answersSelf (cfg.route (s.info h).route) body = true →
      (P.comet h).capacity ≤ (P.comet h).queue.length → allow .deadPark) :
    Path cfg env allow (none, s) (none,
      { s' with polling := s'.polling.park (cfg.route (s'.info h).route) r args h }) := by
  have hsound := hpath.sound (hH.sound hs)
  have hinfo : s'.info = s.info := hpass.info
  have hnext : s'.next = s.next := hpass.next
  have hown : (s'.polling.request r).route = (s.polling.request r).route :=
    hpass.route.trans (congrArg Request.route hH.request)
  refine (hH.path.trans hpath).trans (Path.polling hsound.core (.parked ?_ ?_ ?_ hpass.finished
    hpass.hybi (hpass.curRequest hcur) hlimit ?_ ?_ ?_))
  · rw [hinfo]
    exact hH.acts
  · rw [hinfo, hown]
    exact hroute.imp_right fun hastray => ⟨hastray, hH.own⟩
  · exact fun g hg => (hH.working g hg).1
  · rw [hinfo]
    exact ht
  · rw [hnext]
    exact hborn
  · obtain hl | ⟨hself, hfull, hdead⟩ := hpass.live
    · exact Or.inl hl
    · exact Or.inr ⟨hallow hdead.1 hself hfull, hdead⟩

end

end Handling

/-- If the connection is still running, its first number is what `move_queue` has made of it. -/
def Acked (s s' : Server) (h : HybiId) (msgid : Nat) : Prop :=
  s'.Running h → ∃ rc P, s.polling.moveQueue h msgid = .ok (rc, P) ∧
    (s'.polling.comet h).firstIndex = (P.comet h).firstIndex

/-- `comet_request` on a live connection, for every action but `CONNECT`. It fails only if the
connection closes itself and is freed. -/
lemma cometAct_spec {action : Action} (ha : allow (.acts (s.info h).route))
    (har : allow (.acts (s.polling.request r).route))
    (hroute : (s.polling.request r).route = (s.info h).route ∨ allow .astray)
    (hack : allow (.ack h args.lastMessage)) (hs : s.Sound cfg) (hl : s.Live h)
    (ht : (s.info h).type = .comet) (hf : (s.polling.request r).finished = false)
    (hh : (s.polling.request r).hybi = none)
    (hlimit : action = .get ∨ action = .bidi → args.limit ≠ 0)
    (hdead : ∀ P, action = .bidi → args.inFormat = .single →
      s.polling.moveQueue h args.lastMessage = .ok (0, P) →
      answersSelf (cfg.route (s.info h).route) (s.polling.request r).body = true →
      (P.comet h).capacity ≤ (P.comet h).queue.length → allow .deadPark)
    (hrefused : ∀ P, action = .bidi → args.inFormat ≠ .single →
      s.polling.moveQueue h args.lastMessage = .ok (0, P) →
      (s.polling.comet h).curRequest ≠ none → (s.polling.comet h).inactivity = false →
      allow .refused)
    (hleak : ∀ P, action = .post ∨ action = .bidi → args.inFormat = .single →
      s.polling.moveQueue h args.lastMessage = .ok (0, P) →
      isForwarded (cfg.route (s.info h).route) (s.polling.request r).body = true →
      Backend.Stalled (s.resolved h (s.polling.request r).body) s.backend →
      s.backend.hasMemory = false → allow (.leaks r)) :
    Ends (fun f => Memory f ∧ allow .deadPark)
      (fun p => Path cfg env allow (none, s) (none, p.2) ∧ Acked s p.2 h args.lastMessage)
      (cometAct cfg env r args action h s) := by
  have hne : (s.polling.comet h).curRequest ≠ some r := by
    intro hcur
    have hpark : (s.polling.request r).hybi = some h := ((hs.links.parked h r).mp hcur).1
    simp [hh] at hpark
  obtain ⟨w, P₁, hdismiss, hH₁, hcur₁, hw, hcomet⟩ :=
    Handling.dismissOld env
      (action = .get ∨ action = .bidi ∨ action = .close) ha har hs hf hh
  obtain ⟨rc, P₂, hmove, hrc, hH₂, hcur₂, hinactivity⟩ := hH₁.moveQueue hs hack hl ht
  obtain ⟨P₂', hmove', hqueue, hcap, hfirst⟩ := Polling.moveQueue_congr hcomet hmove
  have hacked : ∀ {t : Server}, (t.polling.comet h).firstIndex = (P₂.comet h).firstIndex →
      Acked s t h args.lastMessage := fun ht _ => ⟨rc, P₂', hmove', ht.trans hfirst.symm⟩
  rw [cometAct, if_neg hne]
  dsimp only
  rw [ite_bind, hdismiss, ok_bind, hmove, ok_bind]
  dsimp only
  by_cases hclose : rc < 0 ∨ action = .close
  · rw [if_pos hclose]
    obtain ⟨w', P₃, hanswer, hH₃, hcur₃⟩ := hH₂.closeOld hs
    obtain ⟨s', hend, hpath, hdead'⟩ := hH₃.close hs hl ht hcur₃
    rw [ite_bind, hanswer, ok_bind, Polling.incref_comet, hend, ok_bind]
    exact ⟨hpath, fun hr' => absurd hr' hdead'⟩
  · rw [if_neg hclose]
    obtain ⟨hrc₀, hnc⟩ := not_or.mp hclose
    obtain rfl : rc = 0 := by omega
    by_cases hformat : (action = .post ∨ action = .bidi) ∧ args.inFormat ≠ .single
    · rw [if_pos hformat]
      refine ⟨?_, hacked rfl⟩
      cases hw' : w with
      | none => exact hw' ▸ hH₂.path
      | some g =>
        obtain ⟨rfl, hnone, hparked⟩ := hH₂.working g hw'
        have hbidi : action = .bidi := by
          refine hformat.1.resolve_left ?_
          rintro rfl
          simp [hw (by simp)] at hw'
        rw [hcomet] at hinactivity
        refine (hw' ▸ hH₂.path).trans (Path.single (.settled rfl (Or.inr ⟨hnone, ?_⟩))
          (hH₂.sound hs).core)
        cases hi : (s.polling.comet g).inactivity with
        | true => exact Or.inl (hinactivity.trans hi)
        | false => exact Or.inr (hrefused P₂' hbidi hformat.2 hmove' hparked hi)
    · rw [if_neg hformat, ite_bind]
      obtain ⟨s', hsend, hpath, hpass, hlive⟩ :=
        hH₂.passBody hs (action = .post ∨ action = .bidi) hl ht fun hbody =>
          hleak P₂' hbody (by_contra fun hsingle => hformat ⟨hbody, hsingle⟩) hmove'
      rw [hsend, ok_bind]
      have hcore := (hpath.sound (hH₂.sound hs)).core
      by_cases hpark : action = .get ∨ action = .bidi
      · rw [if_pos hpark]
        have hgone : ¬ s'.Running h →
            answersSelf (cfg.route (s.info h).route) (s.polling.request r).body = true →
            (P₂.comet h).capacity ≤ (P₂.comet h).queue.length → allow .deadPark := by
          intro hdead' hself hfull
          have hbidi : action = .bidi := by
            refine hpark.resolve_left ?_
            rintro rfl
            exact hdead' (hcore.running (hlive.resolve_left (by simp)))
          refine hdead P₂' hbidi ?_ hmove' hself (by rwa [hqueue, hcap])
          by_contra hsingle
          exact hformat ⟨Or.inr hbidi, hsingle⟩
        by_cases href : s'.backend.refcnt h = 0
        · rw [deref, if_pos href]
          refine ⟨Or.inl rfl, ?_⟩
          obtain hl' | ⟨hself, hfull, hdead', -⟩ := hpass.live
          · exact absurd href (hcore.refcnt_ne_zero (hcore.running hl'))
          · exact hgone hdead' hself hfull
        · rw [deref, if_neg href, ok_bind]
          refine ⟨hH₂.park hs hroute ht (hs.core.lt_next_of_live hl) ?_ (hlimit hpark) hpath hpass
            hgone, hacked ?_⟩
          · rw [hcur₂]
            exact hcur₁ (hpark.imp_right Or.inl)
          · dsimp only
            rw [Polling.park_comet_self]
            exact hpass.firstIndex
      · rw [if_neg hpark]
        have hw' : w = none := hw (by
          rintro (rfl | rfl | rfl)
          · exact hpark (Or.inl rfl)
          · exact hpark (Or.inr rfl)
          · exact hnc rfl)
        subst hw'
        by_cases hpost : action = .post
        · rw [if_pos hpost]
          refine ⟨(hH₂.path.trans hpath).trans (Path.polling hcore (.replied ?_ hpass.finished)),
            hacked hpass.firstIndex⟩
          rw [hpass.route]
          exact hH₂.request ▸ har
        · rw [if_neg hpost]
          exact ⟨hH₂.path.trans hpath, hacked hpass.firstIndex⟩

/-- A request that is going to be parked can take a message. -/
lemma cometAction_limit {body : Bytes} {action : Action} (ha : cometAction args body = some action)
    (hpark : action = .get ∨ action = .bidi) : args.limit ≠ 0 := by
  have hparsed := args.action_parsed
  unfold cometAction at ha
  split_ifs at ha with h₁ h₂ h₃ h₄
  · cases ha
    obtain hp | hp := hpark <;> simp [hp] at hparsed
  · exact h₃
  · cases ha
    simp at hpark
  · exact h₄

/-- `comet_connect` never fails. -/
lemma cometConnect_spec {E : Fault → Prop} (har : allow (.acts (s.polling.request r).route))
    (hs : s.Sound cfg) (hf : (s.polling.request r).finished = false) :
    Ends E (fun p => Path cfg env allow (none, s) (none, p.2)) (cometConnect cfg env r s) := by
  obtain ⟨res, s₁, hstart, hcore, hst⟩ :=
    hybiStart_ok env hs.core (s.polling.request r).route .comet
  rw [cometConnect]
  dsimp only
  rw [hstart, ok_bind]
  cases res with
  | none => exact Path.single (.unstarted har hst) hcore
  | some h =>
    have hpolling : s₁.polling = s.polling := by cases hst; assumption
    obtain rfl : h = s.next := by cases hst; rfl
    refine Relation.ReflTransGen.trans (b := (none, { s₁ with
      polling := s₁.polling.openComet (cfg.route (s.polling.request r).route) s.next })) ?_ ?_
    · refine Path.single (.started har hst (Or.inr ⟨rfl, by rw [hpolling]⟩)) (hcore.withPolling _)
    · refine Path.polling (hcore.withPolling _) (.replied ?_ ?_)
      · dsimp only
        rw [hpolling]
        exact har
      · dsimp only
        rw [hpolling]
        exact hf

/-- The faults of `comet_request`: its id is read out of bounds, or the connection closes itself and
is freed. -/
def Loses (allow : Mark → Prop) (args : Option CometArgs) (s : Server) (f : Fault) : Prop :=
  Memory f ∧ ((∃ a, args = some a ∧ a.action ≠ .connect ∧ ¬ s.InBounds a.uid) ∨ allow .deadPark)

variable (env) in
/-- `comet_request` -/
lemma cometRequest_spec (args : Option CometArgs)
    (har : allow (.acts (s.polling.request r).route))
    (hnames : ∀ h a, args = some a →
      Reaches a (s.polling.request r).method (s.polling.request r).body s h →
      allow (.acts (s.info h).route) ∧ allow (.ack h a.lastMessage) ∧
        ((s.polling.request r).route = (s.info h).route ∨ allow .astray)) (hs : s.Sound cfg)
    (hf : (s.polling.request r).finished = false) (hh : (s.polling.request r).hybi = none)
    (hdead : ∀ h a P, args = some a → (s.polling.request r).method ≠ str "OPTIONS" →
      s.Live h → (s.info h).uid = a.uid → (s.info h).type = .comet →
      cometAction a (s.polling.request r).body = some .bidi → a.inFormat = .single →
      s.polling.moveQueue h a.lastMessage = .ok (0, P) →
      answersSelf (cfg.route (s.info h).route) (s.polling.request r).body = true →
      (P.comet h).capacity ≤ (P.comet h).queue.length → allow .deadPark)
    (hrefused : ∀ h a P, args = some a → (s.polling.request r).method ≠ str "OPTIONS" →
      s.Live h → (s.info h).uid = a.uid → (s.info h).type = .comet →
      cometAction a (s.polling.request r).body = some .bidi → a.inFormat ≠ .single →
      s.polling.moveQueue h a.lastMessage = .ok (0, P) →
      (s.polling.comet h).curRequest ≠ none → (s.polling.comet h).inactivity = false →
      allow .refused)
    (hleak : ∀ h a, args = some a →
      Offers cfg a (s.polling.request r).method (s.polling.request r).body s h →
      Backend.Stalled (s.resolved h (s.polling.request r).body) s.backend →
      s.backend.hasMemory = false → allow (.leaks r)) :
    Ends (s.Loses allow args) (fun p => Path cfg env allow (none, s) (none, p.2) ∧
        ∀ h a, args = some a →
          Reaches a (s.polling.request r).method (s.polling.request r).body s h →
          Acked s p.2 h a.lastMessage)
      (cometRequest cfg env r args s) := by
  -- the request does not get as far as a connection
  have hnever : ∀ {m : Except Fault (Int × Server)}, (∀ h a, args = some a →
        ¬ Reaches a (s.polling.request r).method (s.polling.request r).body s h) →
      Ends (s.Loses allow args) (fun p => Path cfg env allow (none, s) (none, p.2)) m →
      Ends (s.Loses allow args) (fun p => Path cfg env allow (none, s) (none, p.2) ∧
        ∀ h a, args = some a →
          Reaches a (s.polling.request r).method (s.polling.request r).body s h →
        Acked s p.2 h a.lastMessage) m := by
    intro m hno hm
    exact hm.mono (fun _ => id) fun _ hp => ⟨hp, fun h a ha hreach => absurd hreach (hno h a ha)⟩
  unfold cometRequest
  cases args with
  | none => exact hnever (fun _ _ ha => by cases ha) (.ok .refl)
  | some a =>
    dsimp only
    by_cases hconnect : a.action = .connect
    · rw [if_pos hconnect]
      refine hnever (fun h _ ha hreach => ?_) ?_
      · cases ha
        exact hreach.action hconnect
      · split
        · split_ifs
          · exact cometConnect_spec har hs hf
          · exact .ok .refl
        · exact cometConnect_spec har hs hf
    · rw [if_neg hconnect]
      have hfinds : ∀ {g}, Reaches a (s.polling.request r).method (s.polling.request r).body s g →
          s.hybiFind a.uid = .ok (some g) :=
        fun hreach => hybiFind_of_live hs.core hreach.live a.uid_length hreach.uid
      have hspec := hybiFind_spec hs.core a.uid
      cases hfind : s.hybiFind a.uid with
      | error f =>
        rw [hfind] at hspec
        exact ⟨hspec.1, Or.inl ⟨a, rfl, hconnect, hspec.2⟩⟩
      | ok o =>
        rw [ok_bind]
        cases o with
        | none =>
          refine hnever (fun h _ ha hreach => ?_) (.ok .refl)
          cases ha
          rw [hfinds hreach] at hfind
          cases hfind
        | some h =>
          rw [hfind] at hspec
          obtain ⟨hl, huid⟩ := hspec h rfl
          rw [List.take_of_length_le a.uid_length.le] at huid
          have hfound : ∀ {g},
              Reaches a (s.polling.request r).method (s.polling.request r).body s g → g = h := by
            intro g hreach
            rw [hfinds hreach] at hfind
            exact Option.some.inj (Except.ok.inj hfind)
          simp only [hs.core.deref_eq (hs.core.running hl), ok_bind]
          by_cases ht : (s.info h).type = .comet
          · rw [if_neg (not_not.mpr ht)]
            cases haction : cometAction a (s.polling.request r).body with
            | none =>
              refine hnever (fun g _ ha hreach => ?_) (.ok .refl)
              cases ha
              have hknown := hreach.known
              rw [haction] at hknown
              cases hknown
            | some action =>
              dsimp only
              by_cases hmethod : (s.polling.request r).method = str "OPTIONS"
              · rw [if_pos hmethod]
                refine hnever (fun g _ ha hreach => ?_)
                  (.ok (Path.polling hs.core (.replied har hf)))
                cases ha
                exact hreach.method hmethod
              · rw [if_neg hmethod]
                have hreaches : Reaches a (s.polling.request r).method
                    (s.polling.request r).body s h :=
                  ⟨hconnect, hmethod, by rw [haction]; rfl, hl, huid, ht⟩
                obtain ⟨ha, hack, hroute⟩ := hnames h a rfl hreaches
                refine (cometAct_spec ha har hroute hack hs hl ht hf hh
                  (cometAction_limit haction) ?_ ?_ ?_).mono (fun _ hf => hf.imp_right Or.inr)
                  fun p hp => ⟨hp.1, ?_⟩
                · rintro P rfl hformat hmove
                  exact hdead h a P rfl hmethod hl huid ht haction hformat hmove
                · rintro P rfl hformat hmove
                  exact hrefused h a P rfl hmethod hl huid ht haction hformat hmove
                · rintro P hbody hformat hmove hforward hst hmem
                  refine hleak h a rfl ⟨hreaches, ?_, hformat, ⟨P, hmove⟩, hforward⟩ hst hmem
                  rw [haction]
                  exact hbody.imp (congrArg some) (congrArg some)
                · rintro g _ ⟨⟩ hreach
                  exact hfound hreach ▸ hp.2
          · rw [if_pos ht]
            refine hnever (fun g _ ha hreach => ?_) (.ok .refl)
            cases ha
            exact ht (hfound hreach ▸ hreach.type)

/-! ### Callbacks -/

/-- The finish callback of a request. -/
lemma requestFinish_spec (ha : ∀ route, allow (.acts route))
    (habort : ∀ h, (s.polling.request r).ParkedAt h → allow (.aborted r)) (hs : s.Sound cfg)
    (hf : (s.polling.request r).finished = false) :
    Ends Memory (fun s' => Path cfg env allow (none, s) (none, s')) (requestFinish r s) := by
  rw [requestFinish]
  cases hh : (s.polling.request r).hybi with
  | none =>
    have hpath : Path cfg env allow (none, s) (none, { s with
        polling := s.polling.setRequest r { s.polling.request r with finished := true }.decref }) :=
      Path.polling hs.core (.finished (ha _) hf hh)
    split
    · rename_i hn
      cases hn
    · rename_i hn
      cases hn
    · simp only [Polling.decref, Polling.setRequest_request_self, Polling.setRequest_setRequest]
      simp only [hh] at hpath
      exact hpath
  | some h =>
    have hcur := (hs.links.parked h r).mpr ⟨hh, hf⟩
    have hcb := hs.links.callback r (by simp [hh])
    have hpath : Path cfg env allow (none, s) (none, _) :=
      Path.polling hs.core (.aborted (ha _) (habort h ⟨hh, hf⟩) hcur)
    simp only [hh, hcb] at hpath ⊢
    by_cases href : s.backend.refcnt h = 0
    · rw [deref, if_pos href]
      exact Or.inl rfl
    · rw [deref, if_neg href, ok_bind, Polling.requestAborted, if_pos (by simpa using hcur)]
      simp only [Polling.setRequest_request_self, Polling.setRequest_setRequest,
        Polling.setRequest_comet, ok_bind]
      exact hpath

/-- ZeroMQ gives back only what it has been given. -/
lemma requestRelease_path (ha : ∀ route, allow (.acts route)) (hs : s.Sound cfg) (k : SockId)
    (r : ReqId) :
    Path cfg env allow (none, s) (none, s.requestRelease k r) := by
  unfold requestRelease
  dsimp only
  split_ifs with hrel
  · have hle := hs.core.inOrder.countP_sent_le k fun m => m.msg = .request r
    exact Path.polling hs.core (.released (ha _) (hrel.trans_le hle))
  · exact .refl

/-- The timer of a request. -/
lemma pollingTimeout_spec (ha : ∀ route, allow (.acts route)) (hs : s.Sound cfg)
    (ht : (s.polling.request r).timeout = true) :
    Ends Memory (fun s' => Path cfg env allow (none, s) (none, s'))
      (pollingTimeout cfg env r s) := by
  obtain ⟨h, hpark⟩ := hs.links.timer r ht
  have hcur := (hs.links.parked h r).mpr hpark
  rw [pollingTimeout]
  simp only [hpark.1]
  by_cases href : s.backend.refcnt h = 0
  · rw [deref, if_pos href]
    exact Or.inl rfl
  · obtain ⟨rep, hempty⟩ := Polling.dismiss_ok cfg env
        [Polling.text "X-Messages" "0"] hcur
    rw [deref, if_neg href, ok_bind, Polling.pollingTimeout, if_pos hcur, Polling.emptyReply,
      hempty]
    simp only [ok_bind, Polling.setComet_comet_self, Polling.setComet_setComet]
    exact Path.polling hs.core (.served (ha _) hcur)

/-- The idle watcher of a connection. -/
lemma sendLater_spec (ha : ∀ route, allow (.acts route)) (hs : s.Sound cfg)
    (hlater : (s.polling.comet h).sendlater = true)
    (hvain : ∀ r, (s.polling.comet h).curRequest = some r → (s.polling.comet h).queue = [] →
      allow .wokenInVain ∧ ((s.polling.request r).timeout = true ∨ allow .unwatched)) :
    Ends Memory (fun s' => Path cfg env allow (none, s) (none, s')) (sendLater cfg env h s) := by
  rw [sendLater]
  by_cases href : s.backend.refcnt h = 0
  · rw [deref, if_pos href]
    exact Or.inl rfl
  · rw [deref, if_neg href, ok_bind, Polling.sendLater]
    dsimp only
    cases hcur : (s.polling.comet h).curRequest with
    | none =>
      have hpath : Path cfg env allow (none, s) (none, _) :=
        Path.polling hs.core (.woken (ha _) hlater hcur)
      simp only [hcur] at hpath
      exact hpath
    | some r =>
      dsimp only
      by_cases hq : (s.polling.comet h).queue = []
      · rw [if_pos (by simp [hq])]
        obtain ⟨hallow, htimer⟩ := hvain r hcur hq
        have hpath : Path cfg env allow (none, s) (none, _) :=
          Path.polling hs.core (.wokenInVain (ha _) hcur hq hallow htimer)
        simp only [hcur] at hpath
        exact hpath
      · rw [if_neg (by simpa using hq)]
        by_cases hclosed : (s.polling.comet h).closed = true
        · rw [if_pos hclosed]
          exact Or.inr (Or.inl rfl)
        · rw [if_neg hclosed]
          exact Path.polling hs.core (.served (ha _) hcur)

variable (env) in
/-- The inactivity timer of a connection closes it, unless a request is parked there. If it has been
stopped before, it is stopped again. -/
lemma inactivityTimeout_spec (ha : ∀ route, allow (.acts route)) (hs : s.Sound cfg)
    (hinactivity : (s.polling.comet h).inactivity = true)
    (hagain : ¬ s.Running h → allow (.restops h)) :
    Ends (fun f => Memory f ∨ f = .assertion .freeComet ∧ (s.polling.comet h).curRequest ≠ none ∨
        f = .assertion .sieveEmpty ∧ ¬ s.Live h)
      (fun s' => Path cfg env allow (none, s) (none, s')) (inactivityTimeout h s) := by
  have hbusy : ¬ (s.polling.comet h).Quiet := fun hq => by simp [hq.inactivity] at hinactivity
  obtain ⟨ht, hborn, -⟩ := (hs.comets h).of_not_quiet hbusy
  have hr : s.Running h ∨ allow (.restops h) ∧ ¬ s.Running h ∧
      (s.polling.comet h).inactivity = true := by
    by_cases hr : s.Running h
    · exact Or.inl hr
    · exact Or.inr ⟨hagain hr, hr, hinactivity⟩
  rw [inactivityTimeout]
  by_cases href : s.backend.refcnt h = 0
  · rw [deref, if_pos href]
    exact Or.inl (Or.inl rfl)
  · rw [deref, if_neg href, ok_bind]
    cases hcur : (s.polling.comet h).curRequest with
    | some r =>
      rw [freeComet, deref, if_neg href, ok_bind, Polling.freeComet]
      simp only [Polling.setComet_comet_self, hcur, Option.isSome_some, if_true]
      exact Or.inr (Or.inl ⟨rfl, by simp⟩)
    | none =>
      have hfree := freeComet_spec env (h := h) (hs.core.withPolling (s.polling.setComet h
        { s.polling.comet h with inactivity := false })) hborn href (by simpa using hcur)
      rw [Polling.shut_of_none (by simpa using hcur), Polling.setComet_comet_self,
        Polling.setComet_setComet] at hfree
      rw [← hcur]
      refine hfree.mono (fun f hf => Or.inr (Or.inr hf)) fun s' hs' => ?_
      obtain ⟨hcore, hst⟩ := hs'
      refine Path.single (.gone (ha _) hr (Or.inr ⟨ht, rfl⟩) (Or.inl rfl) ?_) hcore
      rw [Polling.shut_of_none hcur]
      exact hst

/-! ### One step -/

/-- The faults that a step can end with. An empty slot is found only if a running connection has
lost its slot, or if a stopped one is stopped again. -/
def Expected (i : Input) (s : Server) (f : Fault) : Prop :=
  Memory f ∨ (f = .assertion .freeComet ∧ ∃ h, i.event = .inactivityTimeout h ∧
    (s.polling.comet h).inactivity = true ∧ (s.polling.comet h).curRequest ≠ none) ∨
  f = .assertion .sieveEmpty ∧ (s.Intact → Restops i s)

variable (env) in
/-- A request that has just arrived. -/
lemma newRequest_path {route : RouteId} (ha : allow (.acts route)) (hs : s.Sound cfg)
    (method body : Bytes) (origin : Option Bytes) (date : Bytes) :
    Path cfg env allow (none, s) (none, (s.newRequest route method body origin date).2) :=
  Path.single (.polling (.arrived ha rfl rfl rfl rfl rfl rfl))
    (hs.core.withPolling _)

lemma newRequest_request (route : RouteId) (method body : Bytes) (origin : Option Bytes)
    (date : Bytes) :
    (s.newRequest route method body origin date).2.polling.request s.polling.next =
      { Polling.noRequest with
        route := route, method := method, body := body, origin := origin, date := date
        refcnt := 1, finished := false } :=
  Polling.setRequest_request_self _

variable (env allow) in
lemma cometRequest_step {route : RouteId} {method body : Bytes} {origin : Option Bytes}
    {date : Bytes} {args : Option CometArgs} {i : Input} (hs : s.Sound cfg)
    (hexpect : s.expecting i.env = s)
    (hi : i.event = .cometRequest route method body origin date args)
    (hallow : ∀ x, Shows cfg i s x → allow x) :
    Ends (s.Loses allow args) (fun p => Path cfg env allow (none, s) (none, p.2) ∧
        ∀ h msgid, Names i s route h msgid → Acked s p.2 h msgid)
      ((s.newRequest route method body origin date).2.cometRequest cfg env s.polling.next
        args) := by
  have hself : allow (.acts route) := by
    refine hallow (.acts route) ?_
    rw [Shows, Concerns, hi]
    exact Or.inl rfl
  have hpath := newRequest_path env hself hs method body origin date
  have hsound := hpath.sound hs
  have hreq := newRequest_request (s := s) route method body origin date
  generalize hs₁ : (s.newRequest route method body origin date).2 = s₁ at hpath hsound hreq ⊢
  have hcomet : ∀ h, s₁.polling.comet h =
      { s.polling.comet h with curRequest := (s.polling.comet h).curRequest } := by
    rw [← hs₁]
    exact fun _ => rfl
  have hlive : ∀ h, s₁.Live h ↔ s.Live h := by
    rw [← hs₁]
    exact fun _ => Iff.rfl
  have hinfo : s₁.info = s.info := by
    rw [← hs₁]
    rfl
  have hbidi : ∀ h a P, args = some a → method ≠ str "OPTIONS" → s₁.Live h →
      (s₁.info h).uid = a.uid → (s₁.info h).type = .comet → cometAction a body = some .bidi →
      s₁.polling.moveQueue h a.lastMessage = .ok (0, P) →
      ∃ P', Bidi i s h a body P' ∧ (P'.comet h).queue = (P.comet h).queue ∧
        (P'.comet h).capacity = (P.comet h).capacity := by
    rintro h a P rfl hmethod hl huid ht haction hmove
    obtain ⟨P', hmove', hqueue, hcap, -⟩ := Polling.moveQueue_congr (hcomet h) hmove
    rw [hinfo] at huid ht
    exact ⟨P', ⟨⟨route, method, origin, date, hmethod, hi⟩, (hlive h).mp hl, huid, ht, haction,
      hmove'⟩,
      hqueue, hcap⟩
  have hown : allow (.acts (s₁.polling.request s.polling.next).route) := by
    rw [hreq]
    exact hself
  have hreaches : ∀ {h a}, Reaches a (s₁.polling.request s.polling.next).method
      (s₁.polling.request s.polling.next).body s₁ h → Reaches a method body s h := by
    intro h a hreach
    rw [hreq] at hreach
    exact hreach.of_eq hinfo (hlive h).mp
  have hloses : ∀ f, Loses allow args s₁ f → Loses allow args s f := by
    rintro f ⟨hf, ⟨a, ha, hact, hout⟩ | hdead⟩
    · refine ⟨hf, Or.inl ⟨a, ha, hact, fun hin => hout ?_⟩⟩
      rw [← hs₁]
      exact ⟨hin.slot, hin.hole, hin.uid⟩
    · exact ⟨hf, Or.inr hdead⟩
  refine (cometRequest_spec env args hown ?_ hsound (by rw [hreq]) (by rw [hreq]; rfl) ?_ ?_
    ?_).mono hloses fun p hp => ⟨hpath.trans hp.1, ?_⟩
  · rintro h a rfl hreach
    have hnames : Names i s route h a.lastMessage :=
      ⟨method, body, origin, date, a, hi, rfl, hreaches hreach⟩
    rw [hinfo, hreq]
    refine ⟨hallow _ ?_, hallow _ ⟨route, hnames⟩, ?_⟩
    · rw [Shows, Concerns, hi]
      exact Or.inr ⟨h, _, hnames, rfl⟩
    · by_cases hroute : (s.info h).route = route
      · exact Or.inl hroute.symm
      · exact Or.inr (hallow _ ⟨route, h, _, hnames, hroute⟩)
  · intro h a P hargs hmethod hl huid ht haction hformat hmove hself hfull
    rw [hreq] at hmethod haction hself
    rw [hinfo] at hself
    obtain ⟨P', hB, hqueue, hcap⟩ := hbidi h a P hargs hmethod hl huid ht haction hmove
    exact hallow .deadPark ⟨h, a, body, P', hB, hformat, hself, by rwa [hqueue, hcap]⟩
  · intro h a P hargs hmethod hl huid ht haction hformat hmove hcur hinactivity
    rw [hreq] at hmethod haction
    rw [hcomet h] at hcur hinactivity
    obtain ⟨P', hB, -, -⟩ := hbidi h a P hargs hmethod hl huid ht haction hmove
    exact hallow .refused ⟨h, a, body, P', hB, hformat, hcur, hinactivity⟩
  · rintro h a rfl hoffer hst hmem
    obtain ⟨hreach, haction, hformat, ⟨P, hmove⟩, hforward⟩ := hoffer
    obtain ⟨P', hmove', -, -, -⟩ := Polling.moveQueue_congr (hcomet h) hmove
    have hsame : s₁.resolved h body = s.resolved h body ∧ s₁.backend = s.backend := by
      rw [← hs₁]
      exact ⟨rfl, rfl⟩
    rw [hreq] at haction hforward hst
    rw [hinfo] at hforward
    rw [hsame.1, hsame.2] at hst
    rw [hsame.2] at hmem
    refine hallow (.leaks _) ⟨rfl, route, method, body, origin, date, a, h, hi,
      ⟨hreaches hreach, haction, hformat, ⟨P', hmove'⟩, hforward⟩, ?_⟩
    rw [hexpect]
    exact ⟨hst, hmem⟩
  · rintro h msgid ⟨method', body', origin', date', a, hi', rfl, hreach⟩ hl
    rw [hi] at hi'
    cases hi'
    obtain ⟨rc, P, hmove, hfirst⟩ := hp.2 h a rfl
      (by rw [hreq]; exact hreach.of_eq hinfo.symm (hlive h).mpr) hl
    obtain ⟨P', hmove', -, -, hfirst'⟩ := Polling.moveQueue_congr (hcomet h) hmove
    exact ⟨rc, P', hmove', hfirst.trans hfirst'.symm⟩

/-- Handling one event is a path, and a fault is one of those expected. -/
lemma handle_spec (hs : s.Sound cfg) (i : Input) (hexpect : s.expecting i.env = s)
    (hallow : ∀ x, Shows cfg i s x → allow x) :
    Ends (Expected i s) (fun s' => Path cfg i.env allow (none, s) (none, s'))
      (handle cfg i s) := by
  have hcore := hs.core
  have hmem : ∀ {m : Except Fault Server},
      Ends Memory (fun s' => Path cfg i.env allow (none, s) (none, s')) m →
      Ends (Expected i s) (fun s' => Path cfg i.env allow (none, s) (none, s')) m :=
    fun hm => hm.mono (fun _ => Or.inl) fun _ => id
  -- a fault that only a connection without a slot can cause
  have hslot : ∀ {g : HybiId} {m : Except Fault Server}, s.Running g →
      Ends (fun f => f = .assertion .sieveEmpty ∧ ¬ s.Live g)
        (fun s' => Path cfg i.env allow (none, s) (none, s')) m →
      Ends (Expected i s) (fun s' => Path cfg i.env allow (none, s) (none, s')) m :=
    fun hr hm => hm.mono (fun _ hf => Or.inr (Or.inr ⟨hf.1, fun hi => absurd (hi _ hr) hf.2⟩))
      fun _ => id
  have hall : ∀ {route : RouteId}, Concerns i s route → allow (.acts route) := fun hc => hallow _ hc
  rw [handle]
  cases hi : i.event with
  | cometRequest route method body origin date args =>
    have hspec := cometRequest_step i.env allow hs hexpect hi hallow
    exact Ends.bind (hspec.mono (fun _ hf => Or.inl hf.1) fun _ => id) fun p hp => hp.1
  | requestFinish r =>
    dsimp only
    split_ifs with hr
    · refine hmem (requestFinish_spec (fun _ => hall (by simp only [Concerns, hi])) (fun h hp => ?_)
        hs hr.2)
      exact hallow (.aborted r) ⟨hi, h, hp⟩
    · exact .refl
  | requestRelease k r =>
    exact requestRelease_path (fun _ => hall (by simp only [Concerns, hi])) hs k r
  | pollingTimeout r =>
    dsimp only
    split_ifs with ht
    · exact hmem (pollingTimeout_spec (fun _ => hall (by simp only [Concerns, hi])) hs ht)
    · exact .refl
  | inactivityTimeout h =>
    dsimp only
    split_ifs with ht
    · refine (inactivityTimeout_spec i.env (fun _ => hall (by simp only [Concerns, hi])) hs ht
        fun hr => hallow (.restops h) ⟨hi, ht, hr⟩).mono ?_ fun _ => id
      rintro f (hf | ⟨hf, hcur⟩ | ⟨hf, hl⟩)
      · exact Or.inl hf
      · exact Or.inr (Or.inl ⟨hf, h, hi, ht, hcur⟩)
      · exact Or.inr (Or.inr ⟨hf, fun hI => ⟨h, hi, ht, fun hr => hl (hI h hr)⟩⟩)
    · exact .refl
  | sendLater h =>
    dsimp only
    split_ifs with ht
    · refine hmem (sendLater_spec (fun _ => hall (by simp only [Concerns, hi])) hs ht
        fun r hcur hq => ?_)
      have hv : Vain i s h r := ⟨hi, ht, hcur, hq⟩
      refine ⟨hallow .wokenInVain ⟨h, r, hv⟩, ?_⟩
      by_cases htimer : (s.polling.request r).timeout = true
      · exact Or.inl htimer
      · exact Or.inr (hallow .unwatched ⟨h, r, hv, by simpa using htimer⟩)
    · exact .refl
  | websockStart route =>
    obtain ⟨res, s₁, hstart, hcore₁, hst⟩ := hybiStart_ok i.env hcore route .websocket
    dsimp only
    rw [hstart, ok_bind]
    cases res with
    | none => exact Path.single (.unstarted (hall (by simp only [Concerns, hi])) hst) hcore₁
    | some h =>
      have hpolling : s₁.polling = s.polling := by cases hst; assumption
      obtain rfl : h = s.next := by cases hst; rfl
      have hpath : Path cfg i.env allow (none, s)
          (none, { s₁ with polling := s₁.polling }) :=
        Path.single (.started (hall (by simp only [Concerns, hi])) hst (Or.inl ⟨rfl, hpolling⟩))
          hcore₁
      exact hpath
  | websockMessage h data =>
    dsimp only
    split_ifs with hws
    · simp only [isWebsocket, Bool.and_eq_true, decide_eq_true_eq] at hws
      exact hslot hws.1 (websockMessage_path i.env _ (hall (by simp only [Concerns, hi])) hcore
        hws.1 data)
    · exact .refl
  | websockStop h =>
    dsimp only
    split_ifs with hws
    · simp only [isWebsocket, Bool.and_eq_true, decide_eq_true_eq, beq_iff_eq] at hws
      exact hslot hws.1 (hybiStop_path i.env _ (hall (by simp only [Concerns, hi])) hcore
        hws.1 hws.2)
    · exact .refl
  | command route frames =>
    dsimp only
    cases frames with
    | nil => exact .refl
    | cons cmd args =>
      have hself : allow (.acts route) := hall (by simp only [Concerns, hi])
      by_cases hcmd : IsTable cmd
      · refine hmem ((tables_spec hcore hcmd).mono (fun _ => And.left) fun s' hT => ?_)
        obtain ⟨htopics, houtputs⟩ := hT.confined
        rw [hT.eq]
        exact Path.single
          (.tables hself (hallow .tables ⟨route, cmd, args, hi, hcmd⟩) htopics houtputs)
          (hT.eq ▸ hT.core)
      · refine (others_spec hcore hself hcmd ?_).mono ?_ fun _ => id
        · rintro id cookie h rfl rfl haddr
          exact hallow (.cookie h) ⟨route, id, cookie, hi, haddr⟩
        · rintro f (⟨hf, -⟩ | ⟨hf, hi⟩)
          · exact Or.inl hf
          · exact Or.inr (Or.inr ⟨hf, fun hI => absurd hI hi⟩)
  | backendUnqueue k pollout =>
    dsimp only
    obtain ⟨b, hunq, hD⟩ | ⟨hunq, -⟩ := hcore.counts.unqueue s.render k pollout
    case inr =>
      rw [hunq]
      exact Or.inl (Or.inl rfl)
    have hb := hcore.withBackend hD.counts (hcore.inOrder.unqueue hunq)
      fun j x hx => hcore.entries j x (hD.entries j x hx)
    rw [hunq, ok_bind]
    exact Path.single (.other (.drained (fun _ => hall (by simp only [Concerns, hi])) hunq)) hb
  | pause on =>
    obtain ⟨s', hpause, hpath⟩ := pauseWebsockets_path i.env _ hcore
      (fun _ => hall (by simp only [Concerns, hi])) on
    exact .of_eq_ok hpause hpath

lemma names_expecting {i : Input} {route : RouteId} {msgid : Nat} :
    Names i (s.expecting env) route h msgid ↔ Names i s route h msgid := by
  constructor
  · rintro ⟨method, body, origin, date, args, hi, hack, hreach⟩
    exact ⟨method, body, origin, date, args, hi, hack, hreach.of_eq rfl id⟩
  · rintro ⟨method, body, origin, date, args, hi, hack, hreach⟩
    exact ⟨method, body, origin, date, args, hi, hack, hreach.of_eq rfl id⟩

/-- The answers of ZeroMQ and the allocator are known before the event. -/
lemma shows_of_expecting {i : Input} (x : Mark)
    (hx : Shows cfg i (s.expecting i.env) x) : Shows cfg i s x := by
  cases x with
  | deadPark =>
    obtain ⟨h, args, body, P, hB, hrest⟩ := hx
    exact ⟨h, args, body, P, ⟨hB.event, hB.live, hB.uid, hB.type, hB.action, hB.ack⟩, hrest⟩
  | wokenInVain =>
    obtain ⟨h, r, hV⟩ := hx
    exact ⟨h, r, hV.event, hV.sendlater, hV.curRequest, hV.queue⟩
  | unwatched =>
    obtain ⟨h, r, hV, hrest⟩ := hx
    exact ⟨h, r, ⟨hV.event, hV.sendlater, hV.curRequest, hV.queue⟩, hrest⟩
  | refused =>
    obtain ⟨h, args, body, P, hB, hrest⟩ := hx
    exact ⟨h, args, body, P, ⟨hB.event, hB.live, hB.uid, hB.type, hB.action, hB.ack⟩, hrest⟩
  | ack h msgid =>
    obtain ⟨route, hn⟩ := hx
    exact ⟨route, names_expecting.mp hn⟩
  | astray =>
    obtain ⟨route, h, msgid, hn, hroute⟩ := hx
    exact ⟨route, h, msgid, names_expecting.mp hn, hroute⟩
  | leaks r =>
    obtain ⟨hr, route, method, body, origin, date, args, h, hi, hO, hst, hmem⟩ := hx
    exact ⟨hr, route, method, body, origin, date, args, h, hi,
      ⟨hO.reaches.of_eq rfl id, hO.action, hO.format, hO.ack, hO.forwarded⟩, hst, hmem⟩
  | acts route =>
    rw [Shows, Concerns] at hx ⊢
    cases hi : i.event with
    | cometRequest own method body origin date args =>
      rw [hi] at hx
      refine hx.imp_right ?_
      rintro ⟨h, msgid, hn, hroute⟩
      exact ⟨h, msgid, names_expecting.mp hn, hroute⟩
    | command own frames =>
      rw [hi] at hx
      exact hx
    | _ => trivial
  | _ => exact hx

/-- One step of the server is a path, and a fault is one of those expected. -/
theorem step_spec (hs : s.Sound cfg) (i : Input) :
    Ends (Expected i s) (fun s' => Path cfg i.env (Shows cfg i s) (none, s) (none, s'))
      (step cfg i s) := by
  have hpath : Path cfg i.env (Shows cfg i s) (none, s) (none, s.expecting i.env) :=
    Path.switched hs.core _ i.env.outcomes i.env.memory
  exact (handle_spec (hpath.sound hs) i rfl shows_of_expecting).mono (fun _ => id)
    fun _ hp => hpath.trans hp

end Server

end Zerogw
