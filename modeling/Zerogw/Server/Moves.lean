import Zerogw.Server.Delivery
import Zerogw.Topics.Routes

/-!
# Moves of the server

Every handler is a sequence of small moves. Each of them changes one request, one comet, or the set
of running connections, and all of them keep one invariant. What a handler may do wrong is a move
with a mark of its own.
-/

namespace Zerogw

open Execution

namespace Server

variable {cfg : Config} {env : Env} {s s' : Server} {h g : HybiId} {r : ReqId}

/-- How often the backends have accepted the body of a request. -/
def taken (s : Server) (r : ReqId) : Nat :=
  s.backend.calls.countP fun c => c.msg.msg = .request r && c.status != .refused

/-- The invariant of the server between the moves. -/
structure Sound (cfg : Config) (s : Server) : Prop where
  core : s.Core cfg
  links : s.polling.Links
  comets : ∀ h, (s.polling.comet h).Sound (cfg.route (s.info h).route).queueLimit
    ((s.info h).type = .comet) (s.Running h) (h < s.next)
  refs : ∀ r, (s.polling.request r).Counted (s.taken r)

/-! ### The moves -/

/-- What a move may need permission for: parking a request on a stopped connection; the idle watcher
finding a request but no message, and then leaving the request without a timer; ending a
`comet_request` that answered the old request without parking a new one; changing topics or outputs
other than by stopping a connection; libwebsite giving up a parked request; a new cookie; taking
messages off a queue for an ack; parking a request on a connection of another route; stopping a
connection that is not running; giving a request a reference for a backend that does not get it;
anything that has to do with a route. -/
inductive Mark where
  | deadPark
  | wokenInVain
  | unwatched
  | refused
  | tables
  | aborted (r : ReqId)
  | cookie (h : HybiId)
  | ack (h : HybiId) (msgid : Nat)
  | astray
  | restops (h : HybiId)
  | leaks (r : ReqId)
  | acts (route : RouteId)
  deriving DecidableEq

/-- Moves of the long-poll state. The connection `w` is one where `comet_request` has answered the
old request and not parked the new one yet. -/
inductive PollMove (cfg : Config) (allow : Mark → Prop) (s : Server) (w : Option HybiId) :
    Polling → Option HybiId → Prop
  | arrived {q : Request} (ha : allow (.acts q.route)) (hh : q.hybi = none)
      (hf : q.finished = false) (ht : q.timeout = false) (href : q.refcnt = 1)
      (hrel : q.released = 0) (hfreed : q.freed = 0) :
      PollMove cfg allow s w
        { s.polling.setRequest s.polling.next q with next := s.polling.next + 1 } w
  | replied {r : ReqId} {rep : Reply} (ha : allow (.acts (s.polling.request r).route))
      (hf : (s.polling.request r).finished = false) :
      PollMove cfg allow s w (s.polling.reply r rep) w
  | dismissed {h : HybiId} {r : ReqId} {rep : Reply} (ha : allow (.acts (s.info h).route))
      (hw : w = none) (hcur : (s.polling.comet h).curRequest = some r) :
      PollMove cfg allow s w ((s.polling.answer r rep).setComet h
        { s.polling.comet h with curRequest := none }) (some h)
  | acked {h : HybiId} {msgid n : Nat} {first : Int} (ha : allow (.acts (s.info h).route))
      (hack : allow (.ack h msgid)) (hl : s.Live h) (ht : (s.info h).type = .comet)
      (hfirst : IsInt first)
      (hmove : s.polling.moveQueue h msgid = .ok (0, s.polling.setComet h
        { s.polling.comet h with
          queue := (s.polling.comet h).queue.drop n, firstIndex := first })) :
      PollMove cfg allow s w (s.polling.setComet h
        { s.polling.comet h with
          queue := (s.polling.comet h).queue.drop n, firstIndex := first }) w
  | parked {h : HybiId} {r : ReqId} {args : CometArgs} (ha : allow (.acts (s.info h).route))
      (hroute : (s.polling.request r).route = (s.info h).route ∨
        allow .astray ∧ allow (.acts (s.polling.request r).route))
      (hw : ∀ g, w = some g → g = h)
      (hf : (s.polling.request r).finished = false) (hh : (s.polling.request r).hybi = none)
      (hcur : (s.polling.comet h).curRequest = none) (hlimit : args.limit ≠ 0)
      (ht : (s.info h).type = .comet) (hborn : h < s.next)
      (hl : s.Live h ∨ allow .deadPark ∧ ¬ s.Running h ∧ (s.polling.comet h).closed = true ∧
        (s.polling.comet h).queue ≠ []) :
      PollMove cfg allow s w (s.polling.park (cfg.route (s.info h).route) r args h) none
  | woken {h : HybiId} (ha : allow (.acts (s.info h).route))
      (hlater : (s.polling.comet h).sendlater = true)
      (hcur : (s.polling.comet h).curRequest = none) :
      PollMove cfg allow s w
        (s.polling.setComet h { s.polling.comet h with sendlater := false }) w
  | wokenInVain {h : HybiId} {r : ReqId} (ha : allow (.acts (s.info h).route))
      (hcur : (s.polling.comet h).curRequest = some r)
      (hq : (s.polling.comet h).queue = []) (hallow : allow .wokenInVain)
      (htimer : (s.polling.request r).timeout = true ∨ allow .unwatched) :
      PollMove cfg allow s w
        (s.polling.setComet h { s.polling.comet h with sendlater := false, inactivity := true }) w
  | served {h : HybiId} {r : ReqId} {rep : Reply} {later : Bool}
      (ha : allow (.acts (s.info h).route)) (hcur : (s.polling.comet h).curRequest = some r) :
      PollMove cfg allow s w ((s.polling.answer r rep).setComet h
        { s.polling.comet h with curRequest := none, sendlater := later, inactivity := true }) w
  | aborted {h : HybiId} {r : ReqId} (ha : allow (.acts (s.info h).route))
      (hallow : allow (.aborted r)) (hcur : (s.polling.comet h).curRequest = some r) :
      PollMove cfg allow s w
        ((s.polling.setRequest r
            { s.polling.request r with finished := true, timeout := false }.decref).setComet h
          { s.polling.comet h with curRequest := none, inactivity := true }) w
  | finished {r : ReqId} (ha : allow (.acts (s.polling.request r).route))
      (hf : (s.polling.request r).finished = false) (hh : (s.polling.request r).hybi = none) :
      PollMove cfg allow s w
        (s.polling.setRequest r { s.polling.request r with finished := true }.decref) w
  | released {r : ReqId} (ha : allow (.acts (s.polling.request r).route))
      (hrel : (s.polling.request r).released < s.taken r) :
      PollMove cfg allow s w
        (s.polling.setRequest r
          { s.polling.request r with
            released := (s.polling.request r).released + 1 }.decref) w

/-- Connections, topics and outputs are the same; cookies may differ. -/
structure Same (s s' : Server) : Prop where
  live : ∀ g, s'.Live g ↔ s.Live g
  uid : ∀ g, (s'.info g).uid = (s.info g).uid
  started : s'.started = s.started
  stops : s'.stops = s.stops
  type : ∀ g, (s'.info g).type = (s.info g).type
  route : ∀ g, (s'.info g).route = (s.info g).route
  next : s'.next = s.next
  topics : s'.topics = s.topics
  outputs : s'.outputs = s.outputs

/-- Acts that have nothing to do with long polling: a message from a websocket is sent to a backend,
queued messages are handed over, websockets are paused or ZeroMQ and the allocator change their
mind, a websocket gets a message, a connection gets a cookie. -/
inductive Act (allow : Mark → Prop) (s : Server) : Server → Prop
  | posted {b : Backend} {k : SockId} {h : HybiId} {data : Bytes} {force : Bool}
      {status : SendStatus} (ha : allow (.acts (s.info h).route)) (hr : s.Running h)
      (hk : k.route = (s.info h).route)
      (hsend : s.backend.send s.render k ⟨h, .message data⟩ force = .ok (status, b)) :
      Act allow s { s with backend := b }
  | drained {b : Backend} {k : SockId} {pollout : Bool} (ha : ∀ route, allow (.acts route))
      (hb : s.backend.unqueue s.render k pollout = .ok b) : Act allow s { s with backend := b }
  | switched (paused : Bool) (outcomes : List SendResult) (memory : List Bool) :
      Act allow s { s with backend :=
        { s.backend with paused := paused, outcomes := outcomes, memory := memory } }
  | told {h : HybiId} {m : Bytes} (ha : allow (.acts (s.info h).route)) (hr : s.Running h)
      (ht : (s.info h).type = .websocket) : Act allow s { s with sends := s.sends ++ [(h, m)] }
  | baked {h : HybiId} {cookie : Bytes} (ha : allow (.acts (s.info h).route))
      (hallow : allow (.cookie h)) (hl : s.Live h) :
      Act allow s
        { s with info := Function.update s.info h { s.info h with cookie := some cookie } }

/-- One move. -/
inductive Move (cfg : Config) (env : Env) (allow : Mark → Prop) (w : Option HybiId) (s : Server) :
    Option HybiId → Server → Prop
  | polling {P : Polling} {w' : Option HybiId} (hP : PollMove cfg allow s w P w') :
      Move cfg env allow w s w' { s with polling := P }
  | other {s' : Server} (hact : Act allow s s') : Move cfg env allow w s w s'
  | pushed {h : HybiId} {m : Bytes} (ha : allow (.acts (s.info h).route)) (hr : s.Running h)
      (ht : (s.info h).type = .comet)
      (hroom : (s.polling.comet h).queue.length < (s.polling.comet h).capacity) :
      Move cfg env allow w s w
        { s with sends := s.sends ++ [(h, m)], polling := s.polling.push h m }
  | offered {b : Backend} {k : SockId} {h : HybiId} {r : ReqId} {status : SendStatus}
      (ha : allow (.acts (s.info h).route)) (har : allow (.acts (s.polling.request r).route))
      (hl : s.Live h) (hk : k.route = (s.info h).route)
      (hf : (s.polling.request r).finished = false)
      (hsend : s.backend.send s.render k ⟨h, .request r⟩ false = .ok (status, b))
      (hstatus : status ≠ .refused ∨ allow (.leaks r)) :
      Move cfg env allow w s w { s with polling := s.polling.incref r, backend := b }
  | gone {h : HybiId} {P : Polling} {l : List (HybiId × Bytes)} {s' : Server}
      (ha : allow (.acts (s.info h).route))
      (hr : s.Running h ∨ allow (.restops h) ∧ ¬ s.Running h ∧
        (s.polling.comet h).inactivity = true)
      (hP : (s.info h).type = .websocket ∧ P = s.polling ∨
        (s.info h).type = .comet ∧ P = s.polling.shut cfg env h)
      (hlog : l = s.sends ∨ ∃ m, l = s.sends ++ [(h, m)])
      (hst : Stopped h { s with polling := P, sends := l } s') : Move cfg env allow w s w s'
  | started {route : RouteId} {type : HybiType} {s₁ : Server} {P : Polling}
      (ha : allow (.acts route)) (hst : Started cfg route type s (some s.next) s₁)
      (hP : type = .websocket ∧ P = s.polling ∨
        type = .comet ∧ P = s.polling.openComet (cfg.route route) s.next) :
      Move cfg env allow w s w { s₁ with polling := P }
  | unstarted {route : RouteId} {type : HybiType} {s' : Server} (ha : allow (.acts route))
      (hst : Started cfg route type s none s') : Move cfg env allow w s w s'
  | tables {T : Topics} {O : Outputs} {route : RouteId} (ha : allow (.acts route))
      (hallow : allow .tables)
      (hT : Topics.SameBut route (fun g => (s.info g).route = route) s.topics T)
      (hO : Outputs.SameBut route (fun g => (s.info g).route = route) s.outputs O) :
      Move cfg env allow w s w { s with topics := T, outputs := O }
  | settled {h : HybiId} (hw : w = some h)
      (hl : ¬ s.Running h ∨ (s.polling.comet h).curRequest = none ∧
        ((s.polling.comet h).inactivity = true ∨ allow .refused)) : Move cfg env allow w s none s

/-- A move between states that keep the invariant of the connections. -/
def Hop (cfg : Config) (env : Env) (allow : Mark → Prop) (a b : Option HybiId × Server) : Prop :=
  Move cfg env allow a.1 a.2 b.1 b.2 ∧ b.2.Core cfg

/-- Any number of moves. -/
abbrev Path (cfg : Config) (env : Env) (allow : Mark → Prop) :
    Option HybiId × Server → Option HybiId × Server → Prop :=
  Relation.ReflTransGen (Hop cfg env allow)

/-! ### The invariant of the long-poll state -/

namespace Sound

variable (hs : s.Sound cfg)

include hs

lemma opened (hr : s.Running h) : (s.polling.comet h).closed = false := (hs.comets h).opened hr

/-- One comet and one request change. -/
lemma update {P : Polling} (hlinks : P.Links) (h : HybiId) (r : ReqId)
    (hcomets : ∀ g, g ≠ h → P.comet g = s.polling.comet g)
    (hcomet : (P.comet h).Sound (cfg.route (s.info h).route).queueLimit
      ((s.info h).type = .comet) (s.Running h) (h < s.next))
    (hrequests : ∀ r', r' ≠ r → P.request r' = s.polling.request r')
    (hrequest : (P.request r).Counted (s.taken r)) : Sound cfg { s with polling := P } := by
  refine ⟨hs.core.withPolling P, hlinks, fun g => ?_, fun r' => ?_⟩
  · by_cases hg : g = h
    · subst hg
      exact hcomet
    · have := hs.comets g
      rw [← hcomets g hg] at this
      exact this
  · by_cases hr' : r' = r
    · subst hr'
      exact hrequest
    · have := hs.refs r'
      rw [← hrequests r' hr'] at this
      exact this

/-- One comet changes. -/
lemma updateComet {c : Comet} (hcur : c.curRequest = (s.polling.comet h).curRequest)
    (hcomet : c.Sound (cfg.route (s.info h).route).queueLimit
      ((s.info h).type = .comet) (s.Running h) (h < s.next)) :
    Sound cfg { s with polling := s.polling.setComet h c } := by
  refine hs.update (hs.links.setComet hcur) h 0
    (fun g hg => Polling.setComet_comet_of_ne hg c) ?_ (fun _ _ => rfl) (hs.refs 0)
  rwa [Polling.setComet_comet_self]

/-- One request changes. -/
lemma updateRequest {q : Request} (hr : r < s.polling.next)
    (hp : ∀ g, q.ParkedAt g ↔ (s.polling.request r).ParkedAt g)
    (hcb : q.hybi ≠ none → q.finishCb = .cometRequestSent)
    (htimer : q.timeout = true → (s.polling.request r).timeout = true)
    (hq : q.Counted (s.taken r)) : Sound cfg { s with polling := s.polling.setRequest r q } := by
  refine hs.update (hs.links.setRequest hr hp hcb htimer) 0 r (fun _ _ => rfl) (hs.comets 0)
    (fun r' hr' => Polling.setRequest_request_of_ne hr' q) ?_
  rwa [Polling.setRequest_request_self]

/-- The parked request of a connection is taken away. -/
lemma unpark {c : Comet} {q : Request}
    (hlinks : ((s.polling.setRequest r q).setComet h c).Links)
    (hcomet : c.Sound (cfg.route (s.info h).route).queueLimit
      ((s.info h).type = .comet) (s.Running h) (h < s.next))
    (hcount : q.Counted (s.taken r)) :
    Sound cfg { s with polling := (s.polling.setRequest r q).setComet h c } := by
  refine hs.update hlinks h r (fun g hg => Polling.setComet_comet_of_ne hg c) ?_
    (fun r' hr' => Polling.setRequest_request_of_ne hr' q) ?_
  · rwa [Polling.setComet_comet_self]
  · rw [Polling.setComet_request, Polling.setRequest_request_self]
    exact hcount

/-- The parked request of a connection is answered. -/
lemma answer {c : Comet} {rep : Reply} (hcur : (s.polling.comet h).curRequest = some r)
    (hnone : c.curRequest = none)
    (hcomet : c.Sound (cfg.route (s.info h).route).queueLimit
      ((s.info h).type = .comet) (s.Running h) (h < s.next)) :
    Sound cfg { s with polling := (s.polling.answer r rep).setComet h c } :=
  hs.unpark (hs.links.answer hcur hnone rep) hcomet
    ((hs.refs r).decref_parked ((hs.links.parked h r).mp hcur) (Or.inl rfl) rfl rfl)

end Sound

/-- Moves of the long-poll state keep the invariant. -/
lemma PollMove.sound {allow : Mark → Prop} {w w' : Option HybiId} {P : Polling}
    (hs : s.Sound cfg) (hm : PollMove cfg allow s w P w') : Sound cfg { s with polling := P } := by
  cases hm with
  | @arrived q ha hh hf ht href hrel hfreed =>
    have hfresh := hs.refs s.polling.next
    rw [hs.links.fresh _ le_rfl] at hfresh
    refine hs.update (hs.links.arrive hh ht) 0 s.polling.next (fun _ _ => rfl) (hs.comets 0)
      (fun r' hr' => Polling.setRequest_request_of_ne hr' q) ?_
    change ((s.polling.setRequest s.polling.next q).request s.polling.next).Counted _
    rw [Polling.setRequest_request_self]
    have hrefs := hfresh.refs
    have hle := hfresh.released_le
    simp only [Request.owed, Polling.noRequest, if_true] at hrefs hle
    refine ⟨?_, by omega⟩
    simp only [Request.owed, hh, hf, href, hrel, Option.isSome_none, Bool.false_eq_true, if_false]
    omega
  | @replied r rep ha hf =>
    exact hs.updateRequest (hs.links.lt_next hf) (fun _ => Iff.rfl) (hs.links.callback r) id
      ((hs.refs r).mono rfl rfl le_rfl rfl)
  | @dismissed h r rep ha hw hcur =>
    refine hs.answer hcur rfl ((hs.comets h).of_eq (Comet.Sound.not_quiet_of_parked hcur) rfl rfl
      rfl (fun hn => absurd rfl hn) rfl)
  | @acked h msgid n first ha hack hl ht hfirst hmove =>
    have hc := hs.comets h
    have hr := hs.core.running hl
    refine hs.updateComet rfl (hc.change ht (hs.core.lt_next hr) (absurd hr) rfl hfirst ?_
      hc.limited rfl)
    exact (List.length_drop ▸ Nat.sub_le _ _).trans hc.room
  | @parked h r args ha hroute hw hf hh hcur hlimit ht hborn hl =>
    have hc := hs.comets h
    refine hs.update (hs.links.park hf hh hcur args) h r
      (fun g hg => Polling.park_comet_of_ne hg args) ?_
      (fun r' hr' => Polling.park_request_of_ne hr' args) ?_
    · rw [Polling.park_comet_self]
      refine hc.change ht hborn ?_ rfl hc.firstIndex hc.room
        (fun _ => Polling.one_le_limitFor hlimit) rfl
      intro hdead
      obtain hl | ⟨-, -, hclosed⟩ := hl
      · exact absurd (hs.core.running hl) hdead
      · exact hclosed
    · rw [Polling.park_request_self]
      exact (hs.refs r).park hf hh rfl rfl
  | @woken h ha hlater hcur =>
    refine hs.updateComet rfl ((hs.comets h).of_eq (fun hq => ?_) rfl rfl rfl
      (hs.comets h).limited rfl)
    simp [hq.sendlater] at hlater
  | @wokenInVain h r ha hcur hq hallow htimer =>
    exact hs.updateComet rfl ((hs.comets h).of_eq (Comet.Sound.not_quiet_of_parked hcur) rfl rfl
      rfl (hs.comets h).limited rfl)
  | @served h r rep later ha hcur =>
    exact hs.answer hcur rfl ((hs.comets h).of_eq (Comet.Sound.not_quiet_of_parked hcur) rfl rfl
      rfl (fun hn => absurd rfl hn) rfl)
  | @aborted h r ha hallow hcur =>
    have hpark := (hs.links.parked h r).mp hcur
    refine hs.unpark (hs.links.unpark hcur rfl (fun g hg => by simpa using hg.2) ?_
      (Request.decref_timeout_of_false rfl)) ((hs.comets h).of_eq
      (Comet.Sound.not_quiet_of_parked hcur) rfl rfl rfl (fun hn => absurd rfl hn) rfl)
      ((hs.refs r).decref_parked hpark (Or.inr rfl) rfl rfl)
    rw [Request.decref_finishCb]
    exact hs.links.callback r (by simp [hpark.1])
  | @finished r ha hf hh =>
    refine hs.updateRequest (hs.links.lt_next hf) (fun g => ?_) (fun hn => ?_)
      (fun ht => (Request.timeout_of_decref ht :)) ((hs.refs r).finish hf)
    · simp [Request.ParkedAt, hh]
    · simp [hh] at hn
  | @released r ha hrel =>
    have hborn : r < s.polling.next := by
      by_contra hr
      have hfresh := (hs.refs r).refs
      rw [hs.links.fresh r (Nat.not_lt.mp hr)] at hfresh hrel
      simp only [Request.owed, Polling.noRequest, if_true] at hfresh hrel
      omega
    refine hs.updateRequest hborn (fun g => ?_) (fun hn => ?_)
      (fun ht => (Request.timeout_of_decref ht :)) ((hs.refs r).release hrel)
    · simp [Request.ParkedAt]
    · rw [Request.decref_finishCb]
      exact hs.links.callback r (by simpa using hn)

/-! ### The invariant under every move -/

lemma taken_append {cs : List Call} (hcalls : s'.backend.calls = s.backend.calls ++ cs)
    (hcs : ∀ c ∈ cs, c.msg.msg ≠ .request r) : s'.taken r = s.taken r := by
  rw [taken, taken, hcalls, List.countP_append, Nat.add_eq_left, List.countP_eq_zero]
  intro c hc
  simp [hcs c hc]

lemma Stopped.taken_eq (hst : Stopped h s s') (r : ReqId) : s'.taken r = s.taken r := by
  obtain ⟨cs, hcalls, hcs, -⟩ := hst.notices
  refine taken_append hcalls fun c hc hmsg => ?_
  have hmem := List.mem_map_of_mem (f := fun c : Call => (c.sock, c.msg, c.force)) hc
  rw [hcs, List.mem_map] at hmem
  obtain ⟨k, -, hk⟩ := hmem
  simp only [Prod.mk.injEq] at hk
  rw [← hk.2.1] at hmsg
  cases hmsg

/-- The body of a request is sent to a backend: it is taken at once or queued, unless there is no
memory for it. -/
lemma taken_of_offer {b : Backend} {k : SockId} {status : SendStatus}
    (hsend : s.backend.send s.render k ⟨h, .request r⟩ false = .ok (status, b)) :
    taken { s with backend := b } r = s.taken r + (if status = .refused then 0 else 1) ∧
      ∀ r', r' ≠ r → taken { s with backend := b } r' = s.taken r' := by
  have hcalls := Backend.calls_of_send hsend
  refine ⟨?_, fun r' hr' => taken_append hcalls (by simp [Ne.symm hr'])⟩
  simp only [taken, hcalls, List.countP_append, List.countP_singleton]
  by_cases hstatus : status = .refused
  · simp [hstatus]
  · simp [hstatus]

lemma Same.running (hsame : Same s s') (g : HybiId) : s'.Running g ↔ s.Running g := by
  rw [Running, hsame.started, hsame.stops, Running]

namespace Act

variable {allow : Mark → Prop} (hact : Act allow s s')

include hact

lemma polling : s'.polling = s.polling := by cases hact <;> rfl

/-- Ids, types and routes of connections stay. -/
lemma info_eq (g : HybiId) : (s'.info g).uid = (s.info g).uid ∧ (s'.info g).type = (s.info g).type ∧
    (s'.info g).route = (s.info g).route := by
  cases hact with
  | @baked h cookie =>
    by_cases hg : g = h
    · subst hg
      simp
    · simp [hg]
  | _ => exact ⟨rfl, rfl, rfl⟩

lemma same : Same s s' := by
  refine ⟨fun g => ?_, fun g => (hact.info_eq g).1, ?_, ?_, fun g => (hact.info_eq g).2.1,
    fun g => (hact.info_eq g).2.2, ?_, ?_, ?_⟩
  · have hslot : s'.slot g = s.slot g := by rw [slot, slot, (hact.info_eq g).1]
    have hsieve : s'.sieve = s.sieve := by cases hact <;> rfl
    rw [Live, Live, hslot, hsieve]
  · cases hact <;> rfl
  · cases hact <;> rfl
  · cases hact <;> rfl
  · cases hact <;> rfl
  · cases hact <;> rfl

lemma taken (r : ReqId) : s'.taken r = s.taken r := by
  cases hact with
  | posted ha hl hk hsend => exact taken_append (Backend.calls_of_send hsend) (by simp)
  | drained ha hb => simp only [Server.taken, Backend.calls_of_unqueue hb]
  | _ => rfl

end Act

namespace Sound

variable (hs : s.Sound cfg)

include hs

lemma same (hcore : s'.Core cfg) (hsame : Same s s') (hlinks : s'.polling.Links)
    (hcomet : s'.polling.comet = s.polling.comet)
    (hrefs : ∀ r, (s'.polling.request r).Counted (s'.taken r)) : s'.Sound cfg := by
  refine ⟨hcore, hlinks, fun g => ?_, hrefs⟩
  rw [hcomet, hsame.route, hsame.type, propext (hsame.running g), hsame.next]
  exact hs.comets g

/-- A connection stops: a websocket, or a comet that has been shut. -/
lemma gone {P : Polling} (hcore : s'.Core cfg) (hh : h < s.next)
    (hP : (s.info h).type = .websocket ∧ P = s.polling ∨
      (s.info h).type = .comet ∧ P = s.polling.shut cfg env h)
    {l : List (HybiId × Bytes)} (hst : Stopped h { s with polling := P, sends := l } s') :
    s'.Sound cfg := by
  have hpolling : s'.polling = P := hst.polling
  have hlinks : P.Links := by
    obtain ⟨-, rfl⟩ | ⟨-, rfl⟩ := hP
    · exact hs.links
    · exact hs.links.shut
  have hrefs : ∀ r, (P.request r).Counted (s.taken r) := by
    obtain ⟨-, rfl⟩ | ⟨-, rfl⟩ := hP
    · exact hs.refs
    · exact Polling.counted_shut hs.links hs.refs
  have hother : ∀ g, g ≠ h → P.comet g = s.polling.comet g := by
    obtain ⟨-, rfl⟩ | ⟨-, rfl⟩ := hP
    · exact fun _ _ => rfl
    · exact fun g hg => Polling.shut_comet_of_ne hg
  refine ⟨hcore, by rwa [hpolling], fun g => ?_, fun r => ?_⟩
  · have hinfo : s'.info g = s.info g := congrFun hst.info g
    have hnext : s'.next = s.next := hst.next
    have hc := hs.comets g
    rw [hpolling, hinfo, hnext, propext hst.running_iff]
    by_cases hg : g = h
    · subst hg
      have hdead : ¬ (Running { s with polling := P, sends := l } g ∧ g ≠ g) := fun hn => hn.2 rfl
      obtain ⟨ht, rfl⟩ | ⟨ht, rfl⟩ := hP
      · exact ⟨fun hn => absurd hn hdead, hc.unborn, hc.websocket,
          fun _ => Or.inl (hc.websocket (by simp [ht])), hc.firstIndex, hc.room, hc.limited,
          fun hn => absurd hn hdead⟩
      · rw [Polling.shut_comet_self]
        exact ⟨fun hn => absurd hn hdead, fun hn => absurd hh hn,
          fun hn => absurd ht hn, fun _ => Or.inl ⟨rfl, rfl, rfl⟩, hc.firstIndex, hc.room,
          fun hn => absurd rfl hn, fun hn => absurd hn hdead⟩
    · rw [hother g hg, propext (and_iff_left hg)]
      exact hc
  · rw [hpolling, hst.taken_eq]
    exact hrefs r

/-- The comet of an address that has not been handed out. -/
lemma comet_next : s.polling.comet s.next = Polling.noComet :=
  (hs.comets s.next).unborn (Nat.lt_irrefl _)

/-- A connection starts. -/
lemma started {route : RouteId} {type : HybiType} {s₁ : Server} {P : Polling}
    (hcore : Core cfg { s₁ with polling := P })
    (hst : Started cfg route type s (some s.next) s₁)
    (hP : type = .websocket ∧ P = s.polling ∨
      type = .comet ∧ P = s.polling.openComet (cfg.route route) s.next) :
    Sound cfg { s₁ with polling := P } := by
  obtain _ | _ | ⟨hdead, hlive, hnext, hinfo, hstarted, hstops, htype, hroute, -, -, -, -, -, -,
    status, -, hcalls⟩ := hst
  have hnew := hs.comet_next
  have hlinks : P.Links := by
    obtain ⟨-, rfl⟩ | ⟨-, rfl⟩ := hP
    · exact hs.links
    · exact hs.links.setComet (by rw [hnew]; rfl)
  have hrequest : P.request = s.polling.request := by
    obtain ⟨-, rfl⟩ | ⟨-, rfl⟩ := hP <;> rfl
  have hother : ∀ g, g ≠ s.next → P.comet g = s.polling.comet g := by
    obtain ⟨-, rfl⟩ | ⟨-, rfl⟩ := hP
    · exact fun _ _ => rfl
    · exact fun g hg => Polling.setComet_comet_of_ne hg _
  refine ⟨hcore, hlinks, fun g => ?_, fun r => ?_⟩
  · change (P.comet g).Sound (cfg.route (s₁.info g).route).queueLimit
      ((s₁.info g).type = .comet) (s₁.Running g) (g < s₁.next)
    by_cases hg : g = s.next
    · subst hg
      have hl : s₁.Running s.next := by
        rw [Running, hstarted, hstops]
        exact ⟨Function.update_self _ _ _, (hs.core.fresh _ le_rfl).2⟩
      have hborn : s.next < s₁.next := by rw [hnext]; exact Nat.lt_succ_self _
      rw [htype, hroute]
      obtain ⟨rfl, rfl⟩ | ⟨rfl, rfl⟩ := hP
      · rw [hnew]
        exact ⟨fun _ => rfl, fun hn => absurd hborn hn, fun _ => quiet_noComet,
          fun hn => absurd hl hn, isInt_zero, le_rfl, fun hn => absurd rfl hn,
          fun _ hn => by cases hn⟩
      · rw [Polling.openComet, Polling.setComet_comet_self]
        exact ⟨fun _ => rfl, fun hn => absurd hborn hn, fun hn => absurd rfl hn,
          fun hn => absurd hl hn, isInt_one, Nat.zero_le _, fun hn => absurd rfl hn,
          fun _ _ => rfl⟩
    · have hborn : g < s₁.next ↔ g < s.next := by
        rw [hnext, Nat.lt_succ_iff_lt_or_eq]
        exact or_iff_left hg
      have hrunning : s₁.Running g ↔ s.Running g := by
        rw [Running, hstarted, hstops, Function.update_of_ne hg, Running]
      rw [hother g hg, hinfo g hg, propext hrunning, propext hborn]
      exact hs.comets g
  · change (P.request r).Counted (s₁.taken r)
    rw [hrequest, taken_append hcalls (by simp)]
    exact hs.refs r

/-- A connection could not be started. -/
lemma unstarted {route : RouteId} {type : HybiType} (hcore : s'.Core cfg)
    (hst : Started cfg route type s none s') : s'.Sound cfg := by
  obtain _ | ⟨hlive, hnext, hinfo, hstarted, hstops, hpolling, -, -, -, -, -, hcalls, -⟩ := hst
  · exact ⟨hcore, hs.links, hs.comets, hs.refs⟩
  · refine ⟨hcore, by rw [hpolling]; exact hs.links, fun g => ?_, fun r => ?_⟩
    · have hrunning : s'.Running g ↔ s.Running g := by rw [Running, hstarted, hstops, Running]
      by_cases hg : g = s.next
      · subst hg
        have hdead : ¬ s'.Running s.next := fun hr =>
          absurd (hs.core.lt_next (hrunning.mp hr)) (Nat.lt_irrefl _)
        rw [hpolling, hs.comet_next]
        exact ⟨fun hr => absurd hr hdead, fun _ => rfl, fun _ => quiet_noComet,
          fun _ => Or.inl quiet_noComet, isInt_zero, le_rfl, fun hn => absurd rfl hn,
          fun hr => absurd hr hdead⟩
      · have hborn : g < s'.next ↔ g < s.next := by
          rw [hnext, Nat.lt_succ_iff_lt_or_eq]
          exact or_iff_left hg
        rw [hpolling, hinfo g hg, propext hrunning, propext hborn]
        exact hs.comets g
    · rw [hpolling, taken_append hcalls (by simp)]
      exact hs.refs r

end Sound

/-- A connection that is stopped has been handed out. -/
lemma Sound.lt_next_of_stop {allow : Mark → Prop} (hs : s.Sound cfg)
    (hr : s.Running h ∨ allow (.restops h) ∧ ¬ s.Running h ∧
      (s.polling.comet h).inactivity = true) : h < s.next := by
  obtain hr | ⟨-, -, hi⟩ := hr
  · exact hs.core.lt_next hr
  · exact ((hs.comets h).of_not_quiet fun hq => by simp [hq.inactivity] at hi).2.1

/-- Every move keeps the invariant. -/
theorem Move.sound {allow : Mark → Prop} {w w' : Option HybiId} (hs : s.Sound cfg)
    (hcore : s'.Core cfg) (hm : Move cfg env allow w s w' s') : s'.Sound cfg := by
  cases hm with
  | polling hP => exact hP.sound hs
  | other hact =>
    refine hs.same hcore hact.same ?_ (by rw [hact.polling]) fun r => ?_
    · rw [hact.polling]
      exact hs.links
    · rw [hact.polling, hact.taken]
      exact hs.refs r
  | @pushed h m ha hr ht hroom =>
    have hc := hs.comets h
    have hpush := hs.updateComet (c := { s.polling.comet h with
        queue := (s.polling.comet h).queue ++ [m]
        sendlater := (s.polling.comet h).sendlater || (s.polling.comet h).curRequest.isSome }) rfl
      (hc.change ht (hs.core.lt_next hr) (absurd hr) rfl hc.firstIndex (by simpa using hroom)
        hc.limited rfl)
    exact ⟨hcore, hpush.links, hpush.comets, hpush.refs⟩
  | @offered b k h r status ha har hl hk hf hsend hstatus =>
    obtain ⟨hself, hother⟩ := taken_of_offer hsend
    refine hs.same hcore ⟨fun _ => Iff.rfl, fun _ => rfl, rfl, rfl, fun _ => rfl, fun _ => rfl, rfl,
      rfl, rfl⟩ ?_ rfl fun r' => ?_
    · exact hs.links.setRequest (hs.links.lt_next hf) (fun _ => Iff.rfl) (hs.links.callback r) id
    · show ((s.polling.incref r).request r').Counted (taken { s with backend := b } r')
      rw [Polling.incref]
      by_cases hr' : r' = r
      · subst hr'
        rw [Polling.setRequest_request_self, hself]
        refine (hs.refs r').offer (Nat.le_add_right _ _) (Nat.add_le_add_left ?_ _)
        split_ifs
        · exact Nat.zero_le 1
        · exact le_rfl
      · rw [Polling.setRequest_request_of_ne hr', hother r' hr']
        exact hs.refs r'
  | gone ha hr hP hlog hst => exact hs.gone hcore (hs.lt_next_of_stop hr) hP hst
  | started ha hst hP => exact hs.started hcore hst hP
  | unstarted ha hst => exact hs.unstarted hcore hst
  | tables => exact ⟨hcore, hs.links, hs.comets, hs.refs⟩
  | settled => exact hs

/-- Whatever every move keeps, a path keeps; so the invariant holds along the path. -/
lemma Path.keeps {allow : Mark → Prop} {a b : Option HybiId × Server}
    {I : Option HybiId → Server → Prop} (hp : Path cfg env allow a b) (hs : a.2.Sound cfg)
    (hI : ∀ w s w' s', s.Sound cfg → s'.Sound cfg → Move cfg env allow w s w' s' → I w s → I w' s')
    (h₀ : I a.1 a.2) : b.2.Sound cfg ∧ I b.1 b.2 := by
  induction hp with
  | refl => exact ⟨hs, h₀⟩
  | tail _ hm ih =>
    obtain ⟨hs', h'⟩ := ih
    have hs'' := hm.1.sound hs' hm.2
    exact ⟨hs'', hI _ _ _ _ hs' hs'' hm.1 h'⟩

lemma Path.sound {allow : Mark → Prop} {a b : Option HybiId × Server}
    (hp : Path cfg env allow a b) (hs : a.2.Sound cfg) : b.2.Sound cfg :=
  (hp.keeps hs (I := fun _ _ => True) (fun _ _ _ _ _ _ _ _ => trivial) trivial).1

end Server

end Zerogw
