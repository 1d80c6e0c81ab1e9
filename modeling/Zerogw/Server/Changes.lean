import Zerogw.Server.Runs

/-!
# Changes

What the moves do not tell apart: which reply goes to which request, where the request of an event
ends up, and which numbers new connections get. Every handler is a sequence of changes, in any state
and whatever fault it may end with.
-/

namespace Zerogw

open Execution

namespace Server

variable {cfg : Config} {i : Input} {s₀ s s' : Server} {h : HybiId} {r : ReqId} {q : Option ReqId}
  {k : SockId} {msg : BackendMsg} {force : Bool} {m data : Bytes} {route : RouteId}
  {type : HybiType} {frames : List Bytes} {args : CometArgs} {own : List Header} {c : Comet}
  {x : Request} {P : Polling} {a b : Option ReqId × Server}

/-- The event asks for a connection, or whether it may use one. -/
def AsksOnly (i : Input) : Prop :=
  ∃ route method body origin date args,
    i.event = .cometRequest route method body origin date (some args) ∧
    (args.action = .connect ∨ method = str "OPTIONS")

/-- The event asks for a connection. -/
def Starts (i : Input) : Prop :=
  (∃ route, i.event = .websockStart route) ∨ ∃ route method body origin date args,
    i.event = .cometRequest route method body origin date (some args) ∧ args.action = .connect

/-- The requests are the same, and so are the numbers and the ids of connections. -/
structure Alike (s s' : Server) : Prop where
  polling : s'.polling = s.polling
  index : s'.sieve.index = s.sieve.index
  max : s'.sieve.max = s.sieve.max
  next : s'.next = s.next
  uid : ∀ h, (s'.info h).uid = (s.info h).uid

lemma Alike.of_eq (hpolling : s'.polling = s.polling) (hsieve : s'.sieve = s.sieve)
    (hnext : s'.next = s.next) (hinfo : s'.info = s.info) : Alike s s' :=
  ⟨hpolling, congrArg Sieve.index hsieve, congrArg Sieve.max hsieve, hnext, fun _ => by rw [hinfo]⟩

/-- One change during event `i`, which comes in state `s₀`. The first component is the request the
event has brought, until it is answered or waits on a connection. -/
inductive Change (cfg : Config) (i : Input) (s₀ : Server) :
    Option ReqId × Server → Option ReqId × Server → Prop
  | arrived {s : Server} {route : RouteId} {method body date : Bytes} {origin : Option Bytes}
      {args : Option CometArgs} (hi : i.event = .cometRequest route method body origin date args)
      (hnext : s.polling.next = s₀.polling.next) :
      Change cfg i s₀ (none, s)
        (some s.polling.next, (s.newRequest route method body origin date).2)
  | replied {s : Server} {r : ReqId} (x : Request) {own : List Header} {body : Bytes}
      (hown : own = [] ∧ AsksOnly i ∨ own = [Polling.text "X-Messages" "0"] ∧ body = []) :
      Change cfg i s₀ (some r, s)
        (none, { s with polling := s.polling.reply r (Polling.okReply cfg i.env r x own body) })
  | seated {s : Server} {h : HybiId} {r : ReqId} {c : Comet} {route : RouteId}
      {method body date : Bytes} {origin : Option Bytes} {args : CometArgs}
      (hi : i.event = .cometRequest route method body origin date (some args))
      (hreach : Reaches args method body s₀ h) (hcur : c.curRequest = some r)
      (hformat : c.curFormat = (s.polling.comet h).curFormat ∨ c.curFormat = args.outFormat) :
      Change cfg i s₀ (some r, s) (none, { s with polling := s.polling.setComet h c })
  | dismissed {q : Option ReqId} {s : Server} {h : HybiId} {r : ReqId} {own : List Header}
      (hown : own = [Polling.text "X-Messages" "0"] ∨
        own = [Polling.text "X-Messages" "0", Polling.text "X-Connection" "close"])
      (hcur : (s.polling.comet h).curRequest = some r) :
      Change cfg i s₀ (q, s)
        (q, { s with
          polling := (s.polling.answer r
              (Polling.okReply cfg i.env r (s.polling.request r) own [])).setComet h
            { s.polling.comet h with curRequest := none } })
  | served {q : Option ReqId} {s : Server} {h : HybiId} {r : ReqId} {c : Comet}
      (hi : i.event = .sendLater h) (hcur : (s.polling.comet h).curRequest = some r)
      (hqueue : (s.polling.comet h).queue ≠ []) (hnone : c.curRequest = none)
      (hformat : c.curFormat = (s.polling.comet h).curFormat) :
      Change cfg i s₀ (q, s)
        (q, { s with
          polling := (s.polling.answer r (Polling.messageReply cfg i.env r (s.polling.request r)
            (s.polling.comet h))).setComet h c })
  | comet {q : Option ReqId} {s : Server} {h : HybiId} {c : Comet}
      (hcur : c.curRequest = none ∨ c.curRequest = (s.polling.comet h).curRequest)
      (hformat : c.curFormat = (s.polling.comet h).curFormat) :
      Change cfg i s₀ (q, s) (q, { s with polling := s.polling.setComet h c })
  | opened {q : Option ReqId} {s : Server} {conf : RouteConf} {h : HybiId} :
      Change cfg i s₀ (q, s) (q, { s with polling := s.polling.openComet conf h })
  | request {q : Option ReqId} {s : Server} {r : ReqId} {x : Request}
      (hreplies : x.replies = (s.polling.request r).replies) :
      Change cfg i s₀ (q, s) (q, { s with polling := s.polling.setRequest r x })
  | named {q : Option ReqId} {s : Server} {index hole : Nat} {sieve : Sieve HybiId}
      {random : Bytes} {type : HybiType} {route : RouteId} {backend : Backend}
      (hfind : s.sieve.findHole s.next = some (index, hole, sieve))
      (hrandom : random.length = uidNRandom) (hstart : Starts i) :
      Change cfg i s₀ (q, s)
        (q, { s with
          sieve := sieve
          next := s.next + 1
          info := Function.update s.info s.next
            ⟨type, mkUid cfg.instanceId hole index random, none, route⟩
          backend := backend })
  | other {q : Option ReqId} {s s' : Server} (hsame : Alike s s') : Change cfg i s₀ (q, s) (q, s')

/-- Any number of changes. -/
abbrev Changes (cfg : Config) (i : Input) (s₀ : Server) :
    Option ReqId × Server → Option ReqId × Server → Prop :=
  Relation.ReflTransGen (Change cfg i s₀)

/-- What every change keeps. -/
lemma Changes.keeps {I : Option ReqId × Server → Prop} (hab : Changes cfg i s₀ a b)
    (hI : ∀ a b, Change cfg i s₀ a b → I a → I b) (ha : I a) : I b := by
  induction hab with
  | refl => exact ha
  | tail _ hstep ih => exact hI _ _ hstep ih

namespace Changes

/-! ### Requests and comets -/

section

variable (hs : Changes cfg i s₀ a (q, s))

include hs

lemma comet (hcur : c.curRequest = none ∨ c.curRequest = (s.polling.comet h).curRequest)
    (hformat : c.curFormat = (s.polling.comet h).curFormat) :
    Changes cfg i s₀ a (q, { s with polling := s.polling.setComet h c }) :=
  hs.tail (.comet hcur hformat)

lemma request (hreplies : x.replies = (s.polling.request r).replies) :
    Changes cfg i s₀ a (q, { s with polling := s.polling.setRequest r x }) :=
  hs.tail (.request hreplies)

lemma other (hsame : Alike s s') : Changes cfg i s₀ a (q, s') := hs.tail (.other hsame)

/-- Ids and requests are as they were. -/
lemma of_eq (hpolling : s'.polling = s.polling) (hsieve : s'.sieve = s.sieve)
    (hnext : s'.next = s.next) (hinfo : s'.info = s.info) : Changes cfg i s₀ a (q, s') :=
  hs.other (.of_eq hpolling hsieve hnext hinfo)

lemma incref : Changes cfg i s₀ a (q, { s with polling := s.polling.incref r }) := hs.request rfl

lemma decref : Changes cfg i s₀ a (q, { s with polling := s.polling.decref r }) :=
  hs.request Request.decref_replies

lemma dismiss (hown : own = [Polling.text "X-Messages" "0"] ∨
      own = [Polling.text "X-Messages" "0", Polling.text "X-Connection" "close"]) :
    Gives (fun P => Changes cfg i s₀ a (q, { s with polling := P }))
      (s.polling.dismiss cfg i.env own h) := by
  rw [Polling.dismiss]
  cases hcur : (s.polling.comet h).curRequest with
  | none => trivial
  | some r => exact hs.tail (.dismissed hown hcur)

lemma emptyReply : Gives (fun P => Changes cfg i s₀ a (q, { s with polling := P }))
    (s.polling.emptyReply cfg i.env h) :=
  hs.dismiss (Or.inl rfl)

lemma closeReply : Gives (fun P => Changes cfg i s₀ a (q, { s with polling := P }))
    (s.polling.closeReply cfg i.env h) :=
  hs.dismiss (Or.inr rfl)

lemma moveQueue (msgid : Nat) : Gives (fun p => Changes cfg i s₀ a (q, { s with polling := p.2 }))
    (s.polling.moveQueue h msgid) := by
  rw [Polling.moveQueue]
  dsimp only
  split_ifs
  · exact hs
  · exact hs
  · exact hs
  · exact hs.comet (Or.inr rfl) rfl

lemma freeCometPart : Gives (fun P => Changes cfg i s₀ a (q, { s with polling := P }))
    (s.polling.freeComet h) := by
  rw [Polling.freeComet]
  split_ifs
  · trivial
  · exact hs.comet (Or.inr rfl) rfl

/-! ### Connections -/

lemma backendSend : Gives (fun p => Changes cfg i s₀ a (q, p.2)) (s.backendSend k msg force) := by
  rw [Server.backendSend]
  exact .after _ fun p => hs.of_eq rfl rfl rfl rfl

lemma cleared {hole : Nat} : Gives (fun sieve => Changes cfg i s₀ a (q, { s with sieve := sieve }))
    (s.sieve.clear hole) := by
  rw [Sieve.clear]
  split
  · exact hs.other ⟨rfl, rfl, List.length_set, rfl, fun _ => rfl⟩
  · trivial
  · trivial

lemma stopOutputs (os : List OutputId) :
    Gives (fun s' => Changes cfg i s₀ a (q, s')) (stopOutputs h os s) := by
  induction os generalizing s with
  | nil => exact hs
  | cons o os ih =>
    rw [Server.stopOutputs]
    cases s.outputs.out.get o with
    | none => trivial
    | some e =>
      dsimp only
      split_ifs
      · exact ih (hs.of_eq rfl rfl rfl rfl)
      · have hnotice : Gives (fun s₁ : Server => Changes cfg i s₀ a (q, s₁))
            (Prod.snd <$> s.backendSend e.socket ⟨h, .disconnect⟩ true) :=
          Ends.map hs.backendSend
        exact hnotice.bind fun s₁ hs₁ => ih (hs₁.of_eq rfl rfl rfl rfl)

lemma hybiStop : Gives (fun s' => Changes cfg i s₀ a (q, s')) (hybiStop h s) := by
  rw [Server.hybiStop]
  refine .after _ fun hybi => hs.cleared.bind fun sieve hsieve => ?_
  refine hsieve.backendSend.bind fun p hp => ?_
  have htopics : Changes cfg i s₀ a (q, { p.2 with topics := p.2.topics.stop h }) :=
    hp.of_eq rfl rfl rfl rfl
  refine (htopics.stopOutputs _).bind fun s₃ hs₃ => .after _ fun b => ?_
  exact hs₃.of_eq rfl rfl rfl rfl

lemma hybiStart (hstart : Starts i) (route : RouteId) (type : HybiType) :
    Gives (fun p => Changes cfg i s₀ a (q, p.2)) (s.hybiStart cfg i.env route type) := by
  rw [Server.hybiStart]
  obtain ⟨mem, b⟩ := s.backend.allocate
  dsimp only
  by_cases hmem : (!mem) = true
  · rw [if_pos hmem]
    exact hs.of_eq rfl rfl rfl rfl
  rw [if_neg hmem]
  cases hfind : s.sieve.findHole s.next with
  | none => exact hs.of_eq rfl rfl rfl rfl
  | some p =>
    obtain ⟨index, hole, sieve⟩ := p
    dsimp only
    have hrandom : (if type = .comet then i.env.random
        else List.replicate uidNRandom 0).length = uidNRandom := by
      split_ifs
      · exact i.env.random_length
      · exact List.length_replicate
    have hnamed : Changes cfg i s₀ a (q, { s with
        sieve := sieve
        next := s.next + 1
        info := Function.update s.info s.next ⟨type, mkUid cfg.instanceId hole index
          (if type = .comet then i.env.random else List.replicate uidNRandom 0), none, route⟩
        backend := { b with refcnt := Function.update b.refcnt s.next 1 } }) :=
      hs.tail (.named hfind hrandom hstart)
    refine hnamed.backendSend.bind fun p hp => ?_
    by_cases hrefused : p.1 = .refused
    · rw [if_pos hrefused]
      exact hp.cleared.bind fun sieve hsieve => hsieve.of_eq rfl rfl rfl rfl
    · rw [if_neg hrefused]
      exact hp.of_eq rfl rfl rfl rfl

/-! ### Messages -/

lemma freeComet : Gives (fun s' => Changes cfg i s₀ a (q, s')) (freeComet h s) := by
  rw [Server.freeComet]
  exact .after _ fun _ => hs.freeCometPart.bind fun P hP => hP.hybiStop

lemma cometClose : Gives (fun s' => Changes cfg i s₀ a (q, s')) (cometClose cfg i.env h s) := by
  rw [Server.cometClose]
  refine .after _ fun _ => ?_
  dsimp only
  split_ifs
  · exact hs.closeReply.bind fun P hP => hP.freeComet
  · exact hs.freeComet

lemma cometSend : Gives (fun s' => Changes cfg i s₀ a (q, s')) (cometSend cfg i.env h m s) := by
  rw [Server.cometSend]
  refine .after _ fun _ => ?_
  dsimp only
  split_ifs
  · exact hs.cometClose
  · exact hs.comet (Or.inr rfl) rfl

lemma doSend : Gives (fun s' => Changes cfg i s₀ a (q, s')) (doSend cfg i.env h m s) := by
  rw [Server.doSend]
  refine .after _ fun hybi => ?_
  have hsent : Changes cfg i s₀ a (q, { s with sends := s.sends ++ [(h, m)] }) :=
    hs.of_eq rfl rfl rfl rfl
  cases hybi.type with
  | websocket =>
    dsimp only
    split_ifs
    · exact hsent.hybiStop
    · exact hsent
  | comet => exact hsent.cometSend

lemma websockResolve (data : Bytes) :
    Gives (fun p => Changes cfg i s₀ a (q, p.2)) (websockResolve cfg i.env h data s) := by
  rw [Server.websockResolve]
  refine .after _ fun hybi => ?_
  split_ifs
  · exact hs.doSend.bind fun s' hs' => hs'
  · exact hs.doSend.bind fun s' hs' => hs'
  · exact hs
  · exact hs

lemma websockMessage (data : Bytes) :
    Gives (fun s' => Changes cfg i s₀ a (q, s')) (websockMessage cfg i.env h data s) := by
  rw [Server.websockMessage]
  refine (hs.websockResolve data).bind fun p hp => ?_
  obtain ⟨_ | k, s₁⟩ := p
  · exact hp
  · exact hp.backendSend.bind fun p' hp' => hp'

lemma sendMessage (r : ReqId) :
    Gives (fun s' => Changes cfg i s₀ a (q, s')) (sendMessage cfg i.env h r s) := by
  rw [Server.sendMessage]
  refine (hs.websockResolve _).bind fun p hp => ?_
  obtain ⟨_ | k, s₁⟩ := p
  · exact hp
  · exact hp.incref.backendSend.bind fun p' hp' => hp'

/-! ### Broadcasts and commands -/

lemma publishFrom (n : Nat) (j : Option SubId) :
    Gives (fun s' => Changes cfg i s₀ a (q, s')) (publishFrom cfg i.env m n j s) := by
  induction n generalizing j s with
  | zero =>
    cases j with
    | none => exact hs
    | some j => trivial
  | succ n ih =>
    cases j with
    | none => exact hs
    | some j =>
      rw [Server.publishFrom]
      cases s.topics.sub.get j with
      | none => trivial
      | some sub => exact hs.doSend.bind fun s' hs' => ih hs' _

lemma sendEach (p : Hybi → Bool) (ks : List Nat) :
    Gives (fun s' => Changes cfg i s₀ a (q, s')) (sendEach cfg i.env p m ks s) := by
  induction ks generalizing s with
  | nil => exact hs
  | cons k ks ih =>
    rw [Server.sendEach]
    split
    · refine .after _ fun hybi => ?_
      dsimp only
      split_ifs
      · exact hs.doSend.bind fun s' hs' => ih hs'
      · exact ih hs
    · exact ih hs

lemma pauseWebsockets (on : Bool) :
    Gives (fun s' => Changes cfg i s₀ a (q, s')) (pauseWebsockets cfg i.env on s) := by
  rw [Server.pauseWebsockets]
  exact Ends.ite hs ((hs.sendEach _ _).bind fun s' hs' => hs'.of_eq rfl rfl rfl rfl)

lemma withConnection {sized : Bool} {f : HybiId → List Bytes → Except Fault Server}
    (hf : ∀ h rest, Gives (fun s' => Changes cfg i s₀ a (q, s')) (f h rest)) :
    Gives (fun s' => Changes cfg i s₀ a (q, s')) (s.withConnection route sized frames f) := by
  rcases frames with _ | ⟨uid, _ | ⟨frame, rest⟩⟩
  · exact hs
  · exact hs
  · rw [Server.withConnection]
    refine Ends.ite hs (.after _ fun found => ?_)
    cases found with
    | none => exact hs
    | some h => exact .after _ fun hybi => Ends.ite hs (hf h _)

lemma disconnect :
    Gives (fun s' => Changes cfg i s₀ a (q, s')) (disconnect cfg i.env route frames s) := by
  rcases frames with _ | ⟨uid, _ | ⟨frame, rest⟩⟩
  · exact hs
  · rw [Server.disconnect]
    refine .after _ fun found => ?_
    cases found with
    | none => exact hs
    | some h =>
      refine .after _ fun hybi => Ends.ite hs ?_
      cases hybi.type with
      | comet => exact hs.cometClose
      | websocket => exact hs.hybiStop
  · exact hs

lemma publish :
    Gives (fun s' => Changes cfg i s₀ a (q, s')) (publish cfg i.env route frames s) := by
  rw [publish.eq_def]
  split
  · split
    · exact hs.publishFrom _ _
    · exact hs
  · exact hs

/-- A command that sends and closes nothing. -/
lemma plain {sized : Bool} {f : HybiId → List Bytes → Except Fault Server}
    (hf : ∀ h rest, Gives (Alike s) (f h rest)) :
    Gives (fun s' => Changes cfg i s₀ a (q, s')) (s.withConnection route sized frames f) :=
  hs.withConnection fun h rest => (hf h rest).mono (fun _ => id) fun _ => hs.other

end

lemma alike_refl : Alike s s := .of_eq rfl rfl rfl rfl

/-- A new cookie. -/
lemma alike_setCookie (cookie : Bytes) : Alike s
    { s with info := Function.update s.info h { s.info h with cookie := some cookie } } := by
  refine ⟨rfl, rfl, rfl, rfl, fun g => ?_⟩
  dsimp only
  by_cases hg : g = h
  · subst hg
    rw [Function.update_self]
  · rw [Function.update_of_ne hg]

section

variable (hs : Changes cfg i s₀ a (q, s))

include hs

lemma addOutput :
    Gives (fun s' => Changes cfg i s₀ a (q, s')) (addOutput cfg route frames s) := by
  refine hs.plain fun h rest => ?_
  split
  · split
    · exact .of_eq rfl rfl rfl rfl
    · exact alike_refl
  · exact alike_refl

lemma websockProcess :
    Gives (fun s' => Changes cfg i s₀ a (q, s')) (websockProcess cfg i.env route frames s) := by
  cases frames with
  | nil => exact hs
  | cons cmd rest =>
    rw [websockProcess.eq_def]
    dsimp only
    refine Ends.ite (hs.plain fun h rest => ?_) ?_
    · rcases rest with _ | ⟨name, _ | _⟩ <;> exact .of_eq rfl rfl rfl rfl
    refine Ends.ite (hs.plain fun h rest => ?_) ?_
    · rcases rest with _ | ⟨name, _ | _⟩ <;> exact .of_eq rfl rfl rfl rfl
    refine Ends.ite hs.publish (Ends.ite (hs.withConnection fun h rest => ?_) ?_)
    · split
      · exact hs.doSend
      · exact hs
    refine Ends.ite ?_ (Ends.ite ?_ (Ends.ite hs.addOutput ?_))
    · rw [clone.eq_def]
      split <;> exact hs.of_eq rfl rfl rfl rfl
    · rw [drop.eq_def]
      split <;> exact hs.of_eq rfl rfl rfl rfl
    refine Ends.ite (hs.plain fun h rest => ?_) (Ends.ite (hs.plain fun h rest => ?_) ?_)
    · rcases rest with _ | ⟨pre, _ | _⟩ <;> exact .of_eq rfl rfl rfl rfl
    · rcases rest with _ | ⟨cookie, _ | _⟩
      · exact alike_refl
      · exact alike_setCookie cookie
      · exact alike_refl
    refine Ends.ite ?_ (Ends.ite hs.disconnect hs)
    split
    · exact hs.sendEach _ _
    · exact hs

lemma requestAbortedPart : Gives (fun P => Changes cfg i s₀ a (q, { s with polling := P }))
    (s.polling.requestAborted r h) := by
  rw [Polling.requestAborted]
  split_ifs
  · have hrequest := hs.request (r := r)
      (x := { s.polling.request r with timeout := false }.decref) Request.decref_replies
    exact hrequest.tail (.comet (h := h) (c := { s.polling.comet h with
      curRequest := none, inactivity := true }) (Or.inl rfl) rfl)
  · trivial

lemma requestFinish : Gives (fun s' => Changes cfg i s₀ a (q, s')) (requestFinish r s) := by
  rw [Server.requestFinish]
  have hfinished : Changes cfg i s₀ a (q, { s with
      polling := s.polling.setRequest r { s.polling.request r with finished := true } }) :=
    hs.request rfl
  split
  · trivial
  · exact .after _ fun hybi => hfinished.requestAbortedPart.bind fun P hP => hP
  · exact hfinished.decref

lemma requestRelease : Changes cfg i s₀ a (q, s.requestRelease k r) := by
  rw [Server.requestRelease]
  split_ifs
  · exact hs.request Request.decref_replies
  · exact hs

lemma pollingTimeoutPart : Gives (fun P => Changes cfg i s₀ a (q, { s with polling := P }))
    (s.polling.pollingTimeout cfg i.env r h) := by
  rw [Polling.pollingTimeout]
  split_ifs
  · refine hs.emptyReply.bind fun P hP => ?_
    exact hP.comet (Or.inr rfl) rfl
  · trivial

lemma pollingTimeout :
    Gives (fun s' => Changes cfg i s₀ a (q, s')) (pollingTimeout cfg i.env r s) := by
  rw [Server.pollingTimeout]
  split
  · trivial
  · exact .after _ fun hybi => hs.pollingTimeoutPart.bind fun P hP => hP

lemma inactivityTimeout : Gives (fun s' => Changes cfg i s₀ a (q, s')) (inactivityTimeout h s) := by
  rw [Server.inactivityTimeout]
  refine .after _ fun _ => ?_
  have hcomet : Changes cfg i s₀ a (q, { s with
      polling := s.polling.setComet h { s.polling.comet h with inactivity := false } }) :=
    hs.comet (Or.inr rfl) rfl
  exact hcomet.freeComet

lemma sendLaterPart (hi : i.event = .sendLater h) :
    Gives (fun P => Changes cfg i s₀ a (q, { s with polling := P }))
      (s.polling.sendLater cfg i.env h) := by
  rw [Polling.sendLater]
  dsimp only
  cases hcur : (s.polling.comet h).curRequest with
  | none => exact hs.comet (Or.inl rfl) rfl
  | some r =>
    dsimp only
    by_cases hqueue : (s.polling.comet h).queue = []
    · rw [if_pos (List.isEmpty_iff.mpr hqueue)]
      exact hs.comet (Or.inr hcur.symm) rfl
    · rw [if_neg (mt List.isEmpty_iff.mp hqueue)]
      split_ifs
      · trivial
      · have hserved := hs.tail (.served hi hcur hqueue (c := { s.polling.comet h with
          curRequest := none, sendlater := false, inactivity := true }) rfl rfl)
        exact hserved

lemma sendLater (hi : i.event = .sendLater h) :
    Gives (fun s' => Changes cfg i s₀ a (q, s')) (sendLater cfg i.env h s) := by
  rw [Server.sendLater]
  exact .after _ fun hybi => (hs.sendLaterPart hi).bind fun P hP => hP

end

/-! ### Long-poll requests -/

section

variable {body : Bytes} {method date : Bytes} {origin : Option Bytes}
  (hs : Changes cfg i s₀ a (some r, s))

include hs

lemma cometConnect (hask : AsksOnly i) (hstart : Starts i) :
    Gives (fun p => ∃ q, Changes cfg i s₀ a (q, p.2)) (cometConnect cfg i.env r s) := by
  rw [Server.cometConnect]
  refine (hs.hybiStart hstart _ _).bind fun p hp => ?_
  obtain ⟨_ | h, s₁⟩ := p
  · exact ⟨_, hp⟩
  · exact ⟨_, (hp.tail .opened).tail (.replied _ (Or.inl ⟨rfl, hask⟩))⟩

/-- `comet_request` on a connection. -/
lemma cometAct {action : Action}
    (hi : i.event = .cometRequest route method body origin date (some args))
    (hreach : Reaches args method body s₀ h) :
    Gives (fun p => ∃ q, Changes cfg i s₀ a (q, p.2)) (cometAct cfg i.env r args action h s) := by
  rw [Server.cometAct]
  refine Ends.ite trivial ?_
  have hempty : Gives (fun P => Changes cfg i s₀ a (some r, { s with polling := P }))
      (if (action = .get ∨ action = .bidi ∨ action = .close) ∧
          (s.polling.comet h).curRequest.isSome then s.polling.emptyReply cfg i.env h
        else .ok s.polling) := Ends.ite hs.emptyReply hs
  rw [ite_bind]
  refine hempty.bind fun P₁ hP₁ => (hP₁.moveQueue _).bind fun p hp => ?_
  refine Ends.ite ?_ (Ends.ite ⟨_, hp⟩ ?_)
  · -- the connection takes over the request and is closed
    have hclose : Gives (fun P => Changes cfg i s₀ a (some r, { s with polling := P }))
        (if (p.2.comet h).curRequest.isSome then p.2.closeReply cfg i.env h else .ok p.2) :=
      Ends.ite hp.closeReply hp
    rw [ite_bind]
    refine hclose.bind fun P₂ hP₂ => ?_
    have hseated : Changes cfg i s₀ a (none, { s with
        polling := (P₂.incref r).setComet h { P₂.comet h with curRequest := some r } }) :=
      hP₂.incref.tail (.seated hi hreach rfl (Or.inl rfl))
    exact hseated.cometClose.bind fun s' hs' => ⟨_, hs'⟩
  · have hbody : Gives (fun s' => Changes cfg i s₀ a (some r, s'))
        (if action = .post ∨ action = .bidi then
          Server.sendMessage cfg i.env h r { s with polling := p.2 }
        else .ok { s with polling := p.2 }) := Ends.ite (hp.sendMessage r) hp
    rw [ite_bind]
    refine hbody.bind fun s₂ hs₂ => ?_
    dsimp only
    split_ifs
    · refine .after _ fun hybi => ⟨none, ?_⟩
      have hrequest := hs₂.request (r := r) (x := { s₂.polling.request r with
        refcnt := (s₂.polling.request r).refcnt + 1
        hybi := some h
        finishCb := .cometRequestSent
        timeout := (s₂.polling.request r).timeout || (s₂.polling.comet h).queue.isEmpty }) rfl
      exact hrequest.tail (.seated hi hreach rfl (Or.inr rfl))
    · exact ⟨none, hs₂.tail (.replied _ (Or.inr ⟨rfl, rfl⟩))⟩
    · exact ⟨_, hs₂⟩

lemma cometRequest {o : Option CometArgs} (hcore : s.Core cfg)
    (hi : i.event = .cometRequest route method body origin date o) (hinfo : s.info = s₀.info)
    (hlive : ∀ h, s.Live h → s₀.Live h) (hmethod : (s.polling.request r).method = method)
    (hbody : (s.polling.request r).body = body) :
    Gives (fun p => ∃ q, Changes cfg i s₀ a (q, p.2)) (s.cometRequest cfg i.env r o) := by
  cases o with
  | none => exact ⟨_, hs⟩
  | some args =>
    rw [Server.cometRequest]
    dsimp only
    by_cases hconnect : args.action = .connect
    · have hask : AsksOnly i := ⟨_, _, _, _, _, args, hi, Or.inl hconnect⟩
      have hstart : Starts i := Or.inr ⟨_, _, _, _, _, args, hi, hconnect⟩
      rw [if_pos hconnect]
      split
      · exact Ends.ite (hs.cometConnect hask hstart) ⟨_, hs⟩
      · exact hs.cometConnect hask hstart
    · rw [if_neg hconnect]
      have hfind : Gives (fun o => ∀ h, o = some h → s.Live h ∧ (s.info h).uid = args.uid)
          (s.hybiFind args.uid) := by
        refine (hybiFind_spec hcore args.uid).mono (fun _ _ => trivial) fun o ho h hh => ?_
        obtain ⟨hl, huid⟩ := ho h hh
        exact ⟨hl, huid.trans (List.take_of_length_le args.uid_length.le)⟩
      refine hfind.bind fun o ho => ?_
      cases o with
      | none => exact ⟨_, hs⟩
      | some h =>
        obtain ⟨hl, huid⟩ := ho h rfl
        have hybi : Gives (fun hybi => hybi = s.info h) (s.deref h) := by
          rw [hcore.deref_eq (hcore.running hl)]
          rfl
        refine hybi.bind fun hybi hybi' => ?_
        subst hybi'
        by_cases ht : (s.info h).type = .comet
        · rw [if_neg (not_not.mpr ht)]
          cases haction : cometAction args (s.polling.request r).body with
          | none => exact ⟨_, hs⟩
          | some action =>
            by_cases hoptions : (s.polling.request r).method = str "OPTIONS"
            · dsimp only
              rw [if_pos hoptions]
              have hask : AsksOnly i := ⟨_, _, _, _, _, args, hi, Or.inr (hmethod ▸ hoptions)⟩
              exact ⟨_, hs.tail (.replied _ (Or.inl ⟨rfl, hask⟩))⟩
            · dsimp only
              rw [if_neg hoptions]
              refine hs.cometAct hi ⟨hconnect, hmethod ▸ hoptions, ?_, hlive h hl, ?_, ?_⟩
              · rw [← hbody, haction]
                rfl
              · rw [← hinfo, huid]
              · rw [← hinfo, ht]
        · rw [if_pos ht]
          exact ⟨_, hs⟩

end

end Changes

/-- One event is a sequence of changes. -/
lemma changes_of_step (hcore : s.Core cfg) (hstep : step cfg i s = .ok s') :
    ∃ q, Changes cfg i s (none, s) (q, s') := by
  have hs : Changes cfg i s (none, s) (none, s.expecting i.env) :=
    Changes.of_eq .refl rfl rfl rfl rfl
  have hcore' : (s.expecting i.env).Core cfg := hcore.switched _ _ _
  generalize hs₁ : s.expecting i.env = s₁ at hs hcore'
  have hinfo : s₁.info = s.info := by
    rw [← hs₁]
    rfl
  have hnext : s₁.polling.next = s.polling.next := by
    rw [← hs₁]
    rfl
  have hlive : ∀ h, s₁.Live h → s.Live h := by
    rw [← hs₁]
    exact fun _ => id
  have hsame : ∀ {m : Except Fault Server},
      Gives (fun s' => Changes cfg i s (none, s) (none, s')) m →
      Gives (fun s' => ∃ q, Changes cfg i s (none, s) (q, s')) m :=
    fun hm => hm.mono (fun _ => id) fun _ hs' => ⟨none, hs'⟩
  have hhandle : Gives (fun s' => ∃ q, Changes cfg i s (none, s) (q, s')) (handle cfg i s₁) := by
    rw [handle]
    cases hi : i.event with
    | cometRequest route method body origin date o =>
      have hnew : Changes cfg i s (none, s) _ := hs.tail (.arrived hi hnext)
      have hrequest := newRequest_request (s := s₁) route method body origin date
      refine (hnew.cometRequest (hcore'.withPolling _) hi hinfo hlive ?_ ?_).bind fun p hp => hp
      · rw [hrequest]
      · rw [hrequest]
    | requestFinish r => exact hsame (Ends.ite hs.requestFinish (.ok hs))
    | requestRelease k r => exact ⟨none, hs.requestRelease⟩
    | pollingTimeout r => exact hsame (Ends.ite hs.pollingTimeout (.ok hs))
    | inactivityTimeout h => exact hsame (Ends.ite hs.inactivityTimeout (.ok hs))
    | sendLater h => exact hsame (Ends.ite (hs.sendLater hi) (.ok hs))
    | websockStart route =>
      exact (hs.hybiStart (Or.inl ⟨route, hi⟩) _ _).bind fun p hp => ⟨none, hp⟩
    | websockMessage h data => exact hsame (Ends.ite (hs.websockMessage data) (.ok hs))
    | websockStop h => exact hsame (Ends.ite hs.hybiStop (.ok hs))
    | command route frames => exact hsame hs.websockProcess
    | backendUnqueue k pollout => exact .after _ fun b => ⟨none, hs.of_eq rfl rfl rfl rfl⟩
    | pause on => exact hsame (hs.pauseWebsockets on)
  exact hhandle.result (hs₁ ▸ hstep)

end Server

end Zerogw
