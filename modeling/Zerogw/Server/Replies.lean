import Zerogw.Library.Desk
import Zerogw.Server.Changes
import Zerogw.Server.Numbering

/-!
# Replies

Every long-poll request is replied to at most once, and not before it stops waiting. Messages go out
by the idle watcher only; every other reply to a client that waits says that there are none.
-/

namespace Zerogw

open Execution

namespace Server

variable {cfg : Config} {i : Input} {s₀ s s' : Server} {h g : HybiId} {r : ReqId}
  {q : Option ReqId} {P : Polling} {c : Comet} {x : Request} {rep : Reply}
  {a b : Option ReqId × Server}

/-! ### The requests as tickets -/

/-- The requests, and on which connections they wait. -/
def desk (a : Option ReqId × Server) : Desk HybiId Reply where
  next := a.2.polling.next
  inHand := a.1
  waiting h := (a.2.polling.comet h).curRequest
  answers r := (a.2.polling.request r).replies

lemma desk_setComet (c : Comet) : desk (q, { s with polling := P.setComet h c }) =
    { desk (q, { s with polling := P }) with
      waiting := Function.update (fun g => (P.comet g).curRequest) h c.curRequest } := by
  have hwaiting : (fun g => ((P.setComet h c).comet g).curRequest) =
      Function.update (fun g => (P.comet g).curRequest) h c.curRequest := by
    funext g
    by_cases hg : g = h
    · rw [hg, Polling.setComet_comet_self, Function.update_self]
    · rw [Polling.setComet_comet_of_ne hg, Function.update_of_ne hg]
  rw [← hwaiting]
  rfl

lemma desk_setRequest (x : Request) : desk (q, { s with polling := P.setRequest r x }) =
    { desk (q, { s with polling := P }) with
      answers := Function.update (fun r => (P.request r).replies) r x.replies } := by
  have hanswers : (fun r' => ((P.setRequest r x).request r').replies) =
      Function.update (fun r => (P.request r).replies) r x.replies := by
    funext r'
    by_cases hr : r' = r
    · rw [hr, Polling.setRequest_request_self, Function.update_self]
    · rw [Polling.setRequest_request_of_ne hr, Function.update_of_ne hr]
  rw [← hanswers]
  rfl

/-- The request that waits on a connection is answered. -/
lemma desk_answer (rep : Reply) (hcur : c.curRequest = none) :
    desk (q, { s with polling := (s.polling.answer r rep).setComet h c }) =
      { desk (q, s) with
        waiting := Function.update (desk (q, s)).waiting h none
        answers :=
          Function.update (desk (q, s)).answers r ((desk (q, s)).answers r ++ [rep]) } := by
  rw [desk_setComet, Polling.answer, desk_setRequest, Request.decref_replies, hcur]
  rfl

/-- Changes are steps of the tickets. -/
lemma Change.desk (h : Change cfg i s₀ a b) (hfresh : ∀ r, a.2.polling.next ≤ r →
    (a.2.polling.request r).replies = []) : Desk.Step (desk a) (desk b) := by
  cases h with
  | @arrived s route method body date origin args hi hnext =>
    have hnew : Server.desk (some s.polling.next, (s.newRequest route method body origin date).2) =
        { Server.desk (none, s) with
          next := s.polling.next + 1
          inHand := some s.polling.next } := by
      have hanswers : (fun r => ((s.newRequest route method body origin date).2.polling.request
          r).replies) = fun r => (s.polling.request r).replies := by
        funext r
        by_cases hr : r = s.polling.next
        · rw [hr, newRequest_request, hfresh _ le_rfl]
          rfl
        · exact congrArg Request.replies (Polling.setRequest_request_of_ne hr _)
      rw [Server.desk, hanswers]
      rfl
    rw [hnew]
    exact .take
  | @replied s r x own body hown =>
    rw [Polling.reply, desk_setRequest]
    exact .reply (Polling.okReply cfg i.env r x own body) rfl
  | @seated s h r c route method body date origin args hi hreach hcur hformat =>
    rw [desk_setComet, hcur]
    exact .send h rfl
  | @dismissed q s h r own hown hcur =>
    rw [desk_answer _ rfl]
    exact .answer h _ hcur
  | @served q s h r c hi hcur hqueue hnone hformat =>
    rw [desk_answer _ hnone]
    exact .answer h _ hcur
  | @comet q s h c hcur hformat =>
    rw [desk_setComet]
    rcases hcur with hcur | hcur
    · rw [hcur]
      exact .clear h
    · rw [hcur, Function.update_eq_self]
      exact .stay
  | @opened q s conf h =>
    rw [Polling.openComet, desk_setComet]
    exact .clear h
  | @request q s r x hreplies =>
    rw [desk_setRequest, hreplies, Function.update_eq_self]
    exact .stay
  | named hfind hrandom => exact .stay
  | @other q s s' hsame =>
    have hsame' : Server.desk (q, s') = Server.desk (q, s) := by
      rw [Server.desk, hsame.polling]
      rfl
    rw [hsame']
    exact .stay

/-- Changes keep the tickets sound, and keep what has been replied. -/
lemma Changes.desk (hab : Changes cfg i s₀ a b) (ha : (Server.desk a).Sound) :
    (Server.desk b).Sound ∧
      ∀ r, (a.2.polling.request r).replies <+: (b.2.polling.request r).replies := by
  refine hab.keeps (I := fun b => (Server.desk b).Sound ∧
    ∀ r, (a.2.polling.request r).replies <+: (b.2.polling.request r).replies) ?_
    ⟨ha, fun r => List.prefix_rfl⟩
  rintro b c hbc ⟨hb, hpre⟩
  have hstep := hbc.desk fun r hr => (hb.fresh r hr).1
  exact ⟨hstep.sound hb, fun r => (hpre r).trans (hstep.answers_prefix r)⟩

/-- Between events no request is in hand, and each has at most one reply. -/
lemma desk_of_reachable (hr : Reachable (step cfg) (init cfg) s) : (desk (none, s)).Sound := by
  refine hr.invariant_of (J := fun s => (desk (none, s)).Sound)
    (fun _ hr => (sound_of_reachable hr).core) ?_ fun i s s' _ hcore hsound hstep => ?_
  · exact ⟨fun _ => Nat.zero_le _, nofun, nofun, nofun, fun _ _ => ⟨rfl, nofun, nofun⟩⟩
  · obtain ⟨q, hchanges⟩ := changes_of_step hcore hstep
    exact (hchanges.desk hsound).1.drop

/-! ### What replies say -/

/-- A reply that says that there are no messages. -/
def Silent (cfg : Config) (i : Input) (rep : Reply) : Prop :=
  ∃ r x own, rep = Polling.okReply cfg i.env r x own [] ∧
    (own = [Polling.text "X-Messages" "0"] ∨
      own = [Polling.text "X-Messages" "0", Polling.text "X-Connection" "close"])

/-- A reply to a request for a connection, or to the question whether one may be used. -/
def Admits (cfg : Config) (i : Input) (rep : Reply) : Prop :=
  AsksOnly i ∧ ∃ r x body, rep = Polling.okReply cfg i.env r x [] body

/-- A reply with messages, by the idle watcher. -/
def Hands (cfg : Config) (i : Input) (rep : Reply) : Prop :=
  ∃ h r x c, i.event = .sendLater h ∧ rep = Polling.messageReply cfg i.env r x c

/-- A reply to request `r` that is new since state `s₀`. -/
def IsNew (cfg : Config) (i : Input) (s₀ : Server) (r : ReqId) (rep : Reply) : Prop :=
  Silent cfg i rep ∨ r = s₀.polling.next ∧ Admits cfg i rep ∨ Hands cfg i rep

/-- The request in hand is the one that has come, and every reply is an old one or a new one. -/
structure Tells (cfg : Config) (i : Input) (s₀ : Server) (a : Option ReqId × Server) : Prop where
  inHand : ∀ r, a.1 = some r → r = s₀.polling.next
  replies : ∀ r, ∀ rep ∈ (a.2.polling.request r).replies,
    rep ∈ (s₀.polling.request r).replies ∨ IsNew cfg i s₀ r rep

/-- Some request changes. -/
lemma Tells.setRequest {q' : Option ReqId} (hs : Tells cfg i s₀ (q, s))
    (hq : ∀ r, q' = some r → r = s₀.polling.next) (hx : ∀ rep ∈ x.replies,
      rep ∈ (s.polling.request r).replies ∨ IsNew cfg i s₀ r rep) :
    Tells cfg i s₀ (q', { s with polling := s.polling.setRequest r x }) := by
  refine ⟨hq, fun r' rep hrep => ?_⟩
  dsimp only at hrep
  by_cases hr : r' = r
  · subst hr
    rw [Polling.setRequest_request_self] at hrep
    rcases hx rep hrep with hold | hnew
    · exact hs.replies _ rep hold
    · exact Or.inr hnew
  · rw [Polling.setRequest_request_of_ne hr] at hrep
    exact hs.replies r' rep hrep

/-- One more reply. -/
lemma Tells.append {q' : Option ReqId} (hs : Tells cfg i s₀ (q, s))
    (hq : ∀ r, q' = some r → r = s₀.polling.next) (hrep : IsNew cfg i s₀ r rep)
    (hx : x.replies = (s.polling.request r).replies ++ [rep]) :
    Tells cfg i s₀ (q', { s with polling := s.polling.setRequest r x }) := by
  refine hs.setRequest hq fun rep' hmem => ?_
  rw [hx, List.mem_append, List.mem_singleton] at hmem
  rcases hmem with hold | rfl
  · exact Or.inl hold
  · exact Or.inr hrep

/-- A request that waits is answered. -/
lemma Tells.answer (hs : Tells cfg i s₀ (q, s)) (hrep : IsNew cfg i s₀ r rep) :
    Tells cfg i s₀ (q, { s with polling := s.polling.answer r rep }) :=
  hs.append hs.inHand hrep Request.decref_replies

/-- Replies are as they were. -/
lemma Tells.same {q' : Option ReqId} (hs : Tells cfg i s₀ (q, s))
    (hq : ∀ r, q' = some r → r = s₀.polling.next)
    (hrequest : s'.polling.request = s.polling.request) : Tells cfg i s₀ (q', s') := by
  refine ⟨hq, fun r rep hrep => hs.replies r rep ?_⟩
  dsimp only at hrep
  rwa [hrequest] at hrep

lemma Change.tells (h : Change cfg i s₀ a b) (ha : Tells cfg i s₀ a) : Tells cfg i s₀ b := by
  cases h with
  | @arrived s route method body date origin args hi hnext =>
    have hhand : ∀ r, some s.polling.next = some r → r = s₀.polling.next := fun r hr =>
      (Option.some.inj hr).symm.trans hnext
    exact (ha.setRequest (r := s.polling.next) hhand fun rep hrep => by cases hrep).same hhand rfl
  | @replied s r x own body hown =>
    refine ha.append nofun ?_ rfl
    rcases hown with ⟨rfl, hask⟩ | ⟨rfl, rfl⟩
    · exact Or.inr (Or.inl ⟨ha.inHand r rfl, hask, r, x, body, rfl⟩)
    · exact Or.inl ⟨r, x, _, rfl, Or.inl rfl⟩
  | seated => exact ha.same nofun rfl
  | @dismissed q s h r own hown hcur =>
    exact (ha.answer (Or.inl ⟨r, s.polling.request r, own, rfl, hown⟩)).same ha.inHand rfl
  | @served q s h r c hi hcur hqueue hnone hformat =>
    exact (ha.answer (Or.inr (Or.inr ⟨h, r, s.polling.request r, s.polling.comet h, hi, rfl⟩))).same
      ha.inHand rfl
  | @request q s r x hreplies =>
    refine ha.setRequest ha.inHand fun rep hrep => Or.inl ?_
    rwa [hreplies] at hrep
  | other hsame => exact ha.same ha.inHand (by rw [hsame.polling])
  | comet => exact ha.same ha.inHand rfl
  | opened => exact ha.same ha.inHand rfl
  | named => exact ha.same ha.inHand rfl

lemma tells_of_step (hcore : s.Core cfg) (hstep : step cfg i s = .ok s') (hmem : rep ∈
    (s'.polling.request r).replies) :
    rep ∈ (s.polling.request r).replies ∨ IsNew cfg i s r rep := by
  obtain ⟨q, hchanges⟩ := changes_of_step hcore hstep
  have htells : Tells cfg i s (q, s') := hchanges.keeps (fun a b hab => hab.tells)
    ⟨nofun, fun r rep hrep => Or.inl hrep⟩
  exact htells.replies r rep hmem

/-- The idle watcher answers the request that waits if there are messages, and else it answers
nothing. -/
lemma polling_of_sendLater (hi : i.event = .sendLater h) (hstep : step cfg i s = .ok s') :
    s'.polling = s.polling ∨ (∃ c, s'.polling = s.polling.setComet h c) ∨
    ∃ r c, (s.polling.comet h).curRequest = some r ∧ (s.polling.comet h).queue ≠ [] ∧
      (s.polling.comet h).closed = false ∧
      s'.polling = (s.polling.answer r (Polling.messageReply cfg i.env r (s.polling.request r)
        (s.polling.comet h))).setComet h c := by
  rw [step, handle, hi] at hstep
  dsimp only at hstep
  split_ifs at hstep with hlater
  · obtain ⟨hybi, -, hrest⟩ := bind_eq_ok.mp hstep
    obtain ⟨P, hP, hret⟩ := bind_eq_ok.mp hrest
    cases hret
    rw [Polling.sendLater] at hP
    cases hcur : (s.polling.comet h).curRequest with
    | none =>
      rw [show ((s.expecting i.env).polling.comet h).curRequest = none from hcur] at hP
      cases hP
      exact Or.inr (Or.inl ⟨_, rfl⟩)
    | some r =>
      rw [show ((s.expecting i.env).polling.comet h).curRequest = some r from hcur] at hP
      dsimp only at hP
      split_ifs at hP with hqueue hclosed
      · cases hP
        exact Or.inr (Or.inl ⟨_, rfl⟩)
      · cases hP
        exact Or.inr (Or.inr ⟨r, _, rfl, mt List.isEmpty_iff.mpr hqueue,
          Bool.eq_false_iff.mpr hclosed, rfl⟩)
  · cases hstep
    exact Or.inl rfl

/-- A reply that is new in a step is the only one of its request. -/
lemma replies_of_step (hr : Reachable (step cfg) (init cfg) s) (hstep : step cfg i s = .ok s')
    (r : ReqId) : (s'.polling.request r).replies = (s.polling.request r).replies ∨
      (s.polling.request r).replies = [] ∧ ∃ rep, (s'.polling.request r).replies = [rep] ∧
        (Silent cfg i rep ∨ r = s.polling.next ∧ Admits cfg i rep ∨ ∃ h, i.event = .sendLater h ∧
          (s.polling.comet h).curRequest = some r ∧ (s.polling.comet h).queue ≠ [] ∧
          rep = Polling.messageReply cfg i.env r (s.polling.request r) (s.polling.comet h)) := by
  have hcore := (sound_of_reachable hr).core
  obtain ⟨q, hchanges⟩ := changes_of_step hcore hstep
  obtain ⟨new, hnew⟩ := (hchanges.desk (desk_of_reachable hr)).2 r
  have honce : (s'.polling.request r).replies.length ≤ 1 :=
    (desk_of_reachable (hr.step trivial hstep)).once r
  dsimp only at hnew
  cases new with
  | nil => exact Or.inl (by rw [← hnew, List.append_nil])
  | cons rep new =>
    rw [← hnew, List.length_append, List.length_cons] at honce
    have hold : (s.polling.request r).replies = [] := List.eq_nil_of_length_eq_zero (by omega)
    obtain rfl : new = [] := List.eq_nil_of_length_eq_zero (by omega)
    rw [hold, List.nil_append] at hnew
    refine Or.inr ⟨hold, rep, hnew.symm, ?_⟩
    have hmem : rep ∈ (s'.polling.request r).replies := hnew ▸ List.mem_singleton_self rep
    rcases tells_of_step hcore hstep hmem with hmem' | hsilent | hadmits | ⟨h, -, -, -, hi, -⟩
    · rw [hold] at hmem'
      cases hmem'
    · exact Or.inl hsilent
    · exact Or.inr (Or.inl hadmits)
    · refine Or.inr (Or.inr ⟨h, hi, ?_⟩)
      have hsame : (s'.polling.request r).replies ≠ (s.polling.request r).replies := by
        rw [← hnew, hold]
        exact List.cons_ne_nil _ _
      rcases polling_of_sendLater hi hstep with hP | ⟨c, hP⟩ | ⟨r', c, hcur, hqueue, -, hP⟩
      · exact absurd (by rw [hP]) hsame
      · exact absurd (by rw [hP]; rfl) hsame
      · by_cases hr' : r = r'
        · subst hr'
          rw [hP, Polling.setComet_request, Polling.answer_request_self,
            Request.decref_replies, hold] at hnew
          exact ⟨hcur, hqueue, (List.cons.inj hnew).1⟩
        · refine absurd ?_ hsame
          rw [hP, Polling.setComet_request, Polling.answer_request_of_ne hr']

/-- In every run, each long-poll request has at most one reply, and none while it waits, which it
does on one connection only. A reply that is new in a step is the only one of its request; it says
that there are no messages, or admits the client of a request that has just come, or it has the
messages of the connection where the request waited, and the idle watcher of that connection has
run. -/
theorem replied_once (hr : Reachable (step cfg) (init cfg) s) :
    (∀ r, (s.polling.request r).replies.length ≤ 1) ∧
    (∀ h r, (s.polling.comet h).curRequest = some r → (s.polling.request r).replies = [] ∧
      ∀ g, (s.polling.comet g).curRequest = some r → g = h) ∧
    ∀ i s', step cfg i s = .ok s' → ∀ r,
      (s'.polling.request r).replies = (s.polling.request r).replies ∨
      (s.polling.request r).replies = [] ∧ ∃ rep, (s'.polling.request r).replies = [rep] ∧
        (Silent cfg i rep ∨ r = s.polling.next ∧ Admits cfg i rep ∨ ∃ h, i.event = .sendLater h ∧
          (s.polling.comet h).curRequest = some r ∧ (s.polling.comet h).queue ≠ [] ∧
          rep = Polling.messageReply cfg i.env r (s.polling.request r) (s.polling.comet h)) := by
  have hsound := desk_of_reachable hr
  exact ⟨hsound.once, fun h r hcur => ⟨hsound.waits h r hcur, fun g hg =>
    hsound.alone g h r hg hcur⟩, fun i s' hstep => replies_of_step hr hstep⟩

/-- The idle watcher of the first connection runs. -/
def wakes : Input := ⟨.sendLater 0, stalledEnv⟩

/-- A client connects and waits, a message comes in, and the idle watcher hands it out. -/
theorem replied_once_run : ∃ s s' : Server, step smallConfig wakes s = .ok s' ∧
    (s.polling.request 1).replies = [] ∧ (s'.polling.request 1).replies ≠ [] ∧
    ∀ r, (s.polling.request r).replies.length ≤ 1 := by
  obtain ⟨s, hr, hview⟩ := exists_of_small_run (C := fun _ _ => True)
    [arrives connectArgs [], arrives (pollArgs 0 3 .single .single) [], tells [1]]
    (fun s => ((s.polling.comet 0).curRequest,
      (step smallConfig wakes s).map fun s' => (s'.polling.request 1).replies.length))
    (some 1, .ok 1) (fun _ _ _ => trivial) rfl
  simp only [Prod.mk.injEq] at hview
  obtain ⟨s', hstep, hlen⟩ := exists_of_map_eq_ok hview.2
  obtain ⟨honce, hwaits, -⟩ := replied_once hr
  refine ⟨s, s', hstep, (hwaits 0 1 hview.1).1, fun hnil => ?_, honce⟩
  rw [hnil] at hlen
  cases hlen

/-! ### Where requests wait -/

/-- A long-poll request is carried out on a connection. -/
def CarriedOut (i : Input) (s : Server) (h : HybiId) (args : CometArgs) : Prop :=
  ∃ route method body origin date,
    i.event = .cometRequest route method body origin date (some args) ∧ Reaches args method body s h

lemma ackOf_of_carriedOut {args : CometArgs} (hh : CarriedOut i s h args) :
    ackOf i s h = some args.lastMessage := by
  obtain ⟨route, method, body, origin, date, hi, hreach⟩ := hh
  exact ackOf_eq_some.mpr ⟨route, method, body, origin, date, args, hi, rfl, hreach⟩

/-- The request neither is the one that comes nor waits. -/
def Absent (s : Server) (r : ReqId) : Prop :=
  r ≠ s.polling.next ∧ ∀ h, (s.polling.comet h).curRequest ≠ some r

/-- A connection has the request and the format that it had, or those of a request that is carried
out on it, or it is new. Other requests are left alone. -/
structure Seats (i : Input) (s₀ : Server) (a : Option ReqId × Server) : Prop where
  inHand : ∀ r, a.1 = some r → r = s₀.polling.next
  spares : ∀ r, s₀.Absent r → (a.2.polling.request r).replies = (s₀.polling.request r).replies
  waits : ∀ h r, (a.2.polling.comet h).curRequest = some r →
    (s₀.polling.comet h).curRequest = some r ∨
      r = s₀.polling.next ∧ ∃ args, CarriedOut i s₀ h args
  formats : ∀ h, (a.2.polling.comet h).curFormat = (s₀.polling.comet h).curFormat ∨
    (a.2.polling.comet h).curFormat = .single ∨
      ∃ args, CarriedOut i s₀ h args ∧ (a.2.polling.comet h).curFormat = args.outFormat

/-- One comet changes. -/
lemma Seats.setComet {q' : Option ReqId} (hs : Seats i s₀ (q, s))
    (hq : ∀ r, q' = some r → r = s₀.polling.next)
    (hcur : ∀ r, c.curRequest = some r → (s.polling.comet h).curRequest = some r ∨
      r = s₀.polling.next ∧ ∃ args, CarriedOut i s₀ h args)
    (hformat : c.curFormat = (s.polling.comet h).curFormat ∨ c.curFormat = .single ∨
      ∃ args, CarriedOut i s₀ h args ∧ c.curFormat = args.outFormat) :
    Seats i s₀ (q', { s with polling := s.polling.setComet h c }) := by
  refine ⟨hq, hs.spares, fun g r hr => ?_, fun g => ?_⟩
  · dsimp only at hr
    by_cases hg : g = h
    · subst hg
      rw [Polling.setComet_comet_self] at hr
      rcases hcur r hr with hold | hnew
      · exact hs.waits g r hold
      · exact Or.inr hnew
    · rw [Polling.setComet_comet_of_ne hg] at hr
      exact hs.waits g r hr
  · dsimp only
    by_cases hg : g = h
    · subst hg
      rw [Polling.setComet_comet_self]
      rcases hformat with hold | hnew
      · rw [hold]
        exact hs.formats g
      · exact Or.inr hnew
    · rw [Polling.setComet_comet_of_ne hg]
      exact hs.formats g

/-- Comets are as they were. -/
lemma Seats.same {q' : Option ReqId} (hs : Seats i s₀ (q, s))
    (hq : ∀ r, q' = some r → r = s₀.polling.next)
    (hspares : ∀ r, s₀.Absent r → (s'.polling.request r).replies = (s.polling.request r).replies)
    (hcomet : s'.polling.comet = s.polling.comet) : Seats i s₀ (q', s') := by
  refine ⟨hq, fun r hr => (hspares r hr).trans (hs.spares r hr), ?_, ?_⟩
  · dsimp only
    rw [hcomet]
    exact hs.waits
  · dsimp only
    rw [hcomet]
    exact hs.formats

/-- One request changes. -/
lemma Seats.setRequest {q' : Option ReqId} (hs : Seats i s₀ (q, s))
    (hq : ∀ r, q' = some r → r = s₀.polling.next)
    (hx : x.replies = (s.polling.request r).replies ∨ ¬ s₀.Absent r) :
    Seats i s₀ (q', { s with polling := s.polling.setRequest r x }) := by
  refine hs.same hq (fun r' hr' => ?_) rfl
  dsimp only
  by_cases heq : r' = r
  · subst heq
    rw [Polling.setRequest_request_self]
    exact hx.resolve_right (not_not.mpr hr')
  · rw [Polling.setRequest_request_of_ne heq]

/-- The request that waits on a connection has just come, or it waited there before. -/
lemma Seats.not_absent (hs : Seats i s₀ (q, s)) (hcur : (s.polling.comet h).curRequest = some r) :
    ¬ s₀.Absent r := by
  rintro ⟨hne, hwaits⟩
  rcases hs.waits h r hcur with hold | ⟨hnew, -⟩
  · exact hwaits h hold
  · exact hne hnew

lemma Change.seats (h : Change cfg i s₀ a b) (ha : Seats i s₀ a) : Seats i s₀ b := by
  cases h with
  | @arrived s route method body date origin args hi hnext =>
    have hhand : ∀ r, some s.polling.next = some r → r = s₀.polling.next := fun r hr =>
      (Option.some.inj hr).symm.trans hnext
    refine (ha.setRequest (r := s.polling.next) hhand (Or.inr ?_)).same hhand (fun _ _ => rfl) rfl
    exact fun habsent => habsent.1 hnext
  | @replied s r x own body hown =>
    exact ha.setRequest nofun (Or.inr fun habsent => habsent.1 (ha.inHand r rfl))
  | @seated s h r c route method body date origin args hi hreach hcur hformat =>
    have hcarried : CarriedOut i s₀ h args := ⟨route, method, body, origin, date, hi, hreach⟩
    refine ha.setComet nofun (fun r' hr' => Or.inr ⟨?_, args, hcarried⟩) ?_
    · rw [hcur] at hr'
      exact (Option.some.inj hr').symm.trans (ha.inHand r rfl)
    · exact hformat.imp_right fun hargs => Or.inr ⟨args, hcarried, hargs⟩
  | @dismissed q s h r own hown hcur =>
    exact (ha.setRequest ha.inHand (Or.inr (ha.not_absent hcur))).setComet ha.inHand nofun
      (Or.inl rfl)
  | @served q s h r c hi hcur hqueue hnone hformat =>
    refine (ha.setRequest ha.inHand (Or.inr (ha.not_absent hcur))).setComet ha.inHand
      (fun r hr => ?_)
      (Or.inl hformat)
    rw [hnone] at hr
    cases hr
  | @comet q s h c hcur hformat =>
    refine ha.setComet ha.inHand (fun r hr => Or.inl ?_) (Or.inl hformat)
    rcases hcur with hcur | hcur
    · rw [hcur] at hr
      cases hr
    · rwa [hcur] at hr
  | opened => exact ha.setComet ha.inHand nofun (Or.inr (Or.inl rfl))
  | request hreplies => exact ha.setRequest ha.inHand (Or.inl hreplies)
  | named => exact ha.same ha.inHand (fun _ _ => rfl) rfl
  | other hsame =>
    exact ha.same ha.inHand (fun _ _ => by rw [hsame.polling]) (by rw [hsame.polling])

lemma seats_of_step (hcore : s.Core cfg) (hstep : step cfg i s = .ok s') :
    ∃ q, Seats i s (q, s') := by
  obtain ⟨q, hchanges⟩ := changes_of_step hcore hstep
  exact ⟨q, hchanges.keeps (I := Seats i s) (fun a b hab => hab.seats)
    ⟨nofun, fun r hr => rfl, fun h r hr => Or.inl hr, fun h => Or.inl rfl⟩⟩

/-- Messages go out on running connections only. -/
lemma running_of_sendLater (hs : s.Sound cfg) (hi : i.event = .sendLater h)
    (hstep : step cfg i s = .ok s')
    (hnew : (s'.polling.request r).replies ≠ (s.polling.request r).replies) : s.Running h := by
  rcases polling_of_sendLater hi hstep with hP | ⟨c, hP⟩ | ⟨r', c, hcur, -, hopen, -⟩
  · exact absurd (by rw [hP]) hnew
  · exact absurd (by rw [hP]; rfl) hnew
  · by_contra hl
    rcases (hs.comets h).dead hl with hquiet | ⟨hclosed, -⟩
    · rw [hquiet.1] at hcur
      cases hcur
    · rw [hopen] at hclosed
      cases hclosed

/-! ### The numbers of requests -/

lemma Changes.next_le (hab : Changes cfg i s₀ a b) : a.2.polling.next ≤ b.2.polling.next := by
  refine hab.keeps (I := fun b => a.2.polling.next ≤ b.2.polling.next) ?_ le_rfl
  rintro b c hbc hle
  cases hbc with
  | arrived => exact Nat.le_succ_of_le hle
  | other hsame =>
    dsimp only
    rw [hsame.polling]
    exact hle
  | _ => exact hle

lemma next_le_of_step (hcore : s.Core cfg) (hstep : step cfg i s = .ok s') :
    s.polling.next ≤ s'.polling.next := by
  obtain ⟨q, hchanges⟩ := changes_of_step hcore hstep
  exact hchanges.next_le

/-- A request gets the next number. -/
lemma next_lt_of_step {route : RouteId} {method body date : Bytes} {origin : Option Bytes}
    {args : Option CometArgs} (hcore : s.Core cfg)
    (hi : i.event = .cometRequest route method body origin date args)
    (hstep : step cfg i s = .ok s') : s.polling.next < s'.polling.next := by
  let s₁ := ((s.expecting i.env).newRequest route method body origin date).2
  have hnew := newRequest_request (s := s.expecting i.env) route method body origin date
  have hcore₁ : s₁.Core cfg :=
    (hcore.switched s.backend.paused i.env.outcomes i.env.memory).withPolling _
  rw [step, handle, hi] at hstep
  obtain ⟨p, hp, hret⟩ := bind_eq_ok.mp hstep
  cases hret
  have hstart : Changes cfg i s (some s.polling.next, s₁) (some s.polling.next, s₁) := .refl
  obtain ⟨q, hq⟩ := (hstart.cometRequest hcore₁ hi rfl (fun _ => id) (congrArg Request.method hnew)
    (congrArg Request.body hnew)).result hp
  exact hq.next_le

end Server

end Zerogw
