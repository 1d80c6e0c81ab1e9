import Zerogw.Polling.Basic

/-!
# Requests and their connections

What each update does to the requests and comets, the invariant that ties a parked request to its
connection, and the references on a request.
-/

namespace Zerogw

/-! ### Requests -/

namespace Request

variable {q : Request} {h : HybiId} {taken : Nat}

/-- The request waits for an answer through connection `h`. -/
def ParkedAt (q : Request) (h : HybiId) : Prop := q.hybi = some h ∧ q.finished = false

@[simp] lemma decref_refcnt : q.decref.refcnt = q.refcnt - 1 := by
  rw [decref]
  split_ifs with hq
  · exact hq.symm
  · rfl

@[simp] lemma decref_hybi : q.decref.hybi = q.hybi := by rw [decref]; split_ifs <;> rfl
@[simp] lemma decref_finished : q.decref.finished = q.finished := by
  rw [decref]; split_ifs <;> rfl
@[simp] lemma decref_route : q.decref.route = q.route := by rw [decref]; split_ifs <;> rfl
@[simp] lemma decref_finishCb : q.decref.finishCb = q.finishCb := by
  rw [decref]; split_ifs <;> rfl
@[simp] lemma decref_released : q.decref.released = q.released := by
  rw [decref]; split_ifs <;> rfl
@[simp] lemma decref_replies : q.decref.replies = q.replies := by
  rw [decref]; split_ifs <;> rfl

lemma timeout_of_decref (ht : q.decref.timeout = true) : q.timeout = true := by
  unfold decref at ht
  split_ifs at ht
  exact ht

lemma decref_timeout_of_false (ht : q.timeout = false) : q.decref.timeout = false := by
  rw [decref]
  split_ifs
  · rfl
  · exact ht

/-- The timer runs on unless the last reference is dropped. -/
lemma decref_timeout (hq : q.refcnt ≠ 1) : q.decref.timeout = q.timeout := by
  rw [decref]
  rw [if_neg (by omega)]

/-- The references that the server itself holds: one until the finish callback has run, and one
while the request is parked. -/
def owed (q : Request) : Int :=
  if q.finished then 0 else if q.hybi.isSome then 2 else 1

/-- Every reference that is owed to somebody is counted; `taken` is how often the backends have
accepted the body. -/
structure Counted (taken : Nat) (q : Request) : Prop where
  refs : q.owed + taken ≤ q.refcnt + q.released
  released_le : q.released ≤ taken

lemma Counted.mono {q' : Request} (hq : q.Counted taken) (hf : q'.finished = q.finished)
    (hh : q'.hybi = q.hybi) (hr : q.refcnt ≤ q'.refcnt) (hrel : q'.released = q.released) :
    q'.Counted taken := by
  refine ⟨?_, hrel ▸ hq.released_le⟩
  have := hq.refs
  simp only [owed, hf, hh] at this ⊢
  omega

/-- The own reference of a request is there. -/
lemma Counted.refcnt_pos (hq : q.Counted taken) (hf : q.finished = false) : 0 < q.refcnt := by
  have hrefs := hq.refs
  have hrel := hq.released_le
  simp only [owed, hf, Bool.false_eq_true, if_false] at hrefs
  split_ifs at hrefs <;> omega

lemma Counted.decref_parked {q' : Request} (hq : q.Counted taken) (hp : q.ParkedAt h)
    (hh : q'.hybi = none ∨ q'.finished = true) (hr : q'.refcnt = q.refcnt)
    (hrel : q'.released = q.released) : q'.decref.Counted taken := by
  have hrefs := hq.refs
  simp only [owed, hp.1, hp.2, Option.isSome_some, Bool.false_eq_true, if_false, if_true] at hrefs
  refine ⟨?_, by rw [decref_released, hrel]; exact hq.released_le⟩
  simp only [owed, decref_finished, decref_hybi, decref_refcnt, decref_released, hr, hrel]
  rcases hh with hh | hh
  · simp only [hh, Option.isSome_none, Bool.false_eq_true, if_false]
    split_ifs <;> omega
  · simp only [hh, if_true]
    omega

lemma Counted.park {q' : Request} (hq : q.Counted taken) (hf : q.finished = false)
    (hh : q.hybi = none) (hr : q'.refcnt = q.refcnt + 1) (hrel : q'.released = q.released) :
    q'.Counted taken := by
  have hrefs := hq.refs
  simp only [owed, hf, hh, Option.isSome_none, Bool.false_eq_true, if_false] at hrefs
  refine ⟨?_, hrel ▸ hq.released_le⟩
  simp only [owed, hr, hrel]
  split_ifs <;> omega

lemma Counted.finish (hq : q.Counted taken) (hf : q.finished = false) :
    ({ q with finished := true }.decref).Counted taken := by
  have hrefs := hq.refs
  refine ⟨?_, by simpa using hq.released_le⟩
  simp only [owed, hf, Bool.false_eq_true, if_false] at hrefs
  simp only [owed, decref_finished, if_true, decref_refcnt, decref_released]
  split_ifs at hrefs <;> omega

lemma Counted.release (hq : q.Counted taken) (hrel : q.released < taken) :
    ({ q with released := q.released + 1 }.decref).Counted taken := by
  have hrefs := hq.refs
  refine ⟨?_, by simpa using hrel⟩
  simp only [owed, decref_finished, decref_hybi, decref_refcnt, decref_released] at hrefs ⊢
  push_cast
  omega

/-- The body of a request may have been accepted once more if it got one more reference. -/
lemma Counted.offer {taken' : Nat} (hq : q.Counted taken) (h₁ : taken ≤ taken')
    (h₂ : taken' ≤ taken + 1) : ({ q with refcnt := q.refcnt + 1 }).Counted taken' := by
  have hrefs := hq.refs
  refine ⟨?_, hq.released_le.trans h₁⟩
  simp only [owed] at hrefs ⊢
  omega

end Request

/-! ### Comets -/

/-- No watcher of the connection is active, and no request is parked there. -/
structure Comet.Quiet (c : Comet) : Prop where
  curRequest : c.curRequest = none
  sendlater : c.sendlater = false
  inactivity : c.inactivity = false

lemma quiet_noComet : Polling.noComet.Quiet := ⟨rfl, rfl, rfl⟩

/-- The invariant of one comet, given the `queue-limit` of its route, the type of its connection,
and whether that is running and has been allocated at all. A stopped connection is quiet unless its
queue was full when it was closed. -/
structure Comet.Sound (limit : Nat) (isComet running born : Prop) (c : Comet) : Prop where
  opened : running → c.closed = false
  unborn : ¬ born → c = Polling.noComet
  websocket : ¬ isComet → c.Quiet
  dead : ¬ running → c.Quiet ∨ c.closed = true ∧ c.queue ≠ []
  firstIndex : IsInt c.firstIndex
  room : c.queue.length ≤ c.capacity
  limited : c.curRequest ≠ none → 1 ≤ c.curLimit
  capacity : running → isComet → c.capacity = limit

namespace Comet.Sound

variable {limit : Nat} {isComet running born : Prop} {c c' : Comet}

/-- A connection with a parked request or an active watcher is a comet, and if it is not running,
its closed queue is not empty. -/
lemma of_not_quiet (hc : c.Sound limit isComet running born) (hn : ¬ c.Quiet) :
    isComet ∧ born ∧ (¬ running → c.closed = true ∧ c.queue ≠ []) := by
  refine ⟨?_, ?_, fun hl => (hc.dead hl).resolve_left hn⟩
  · by_contra hcomet
    exact hn (hc.websocket hcomet)
  · by_contra hborn
    rw [hc.unborn hborn] at hn
    exact hn quiet_noComet

lemma not_quiet_of_parked {r : ReqId} (hcur : c.curRequest = some r) : ¬ c.Quiet := fun hq => by
  simp [hq.curRequest] at hcur

/-- A comet changes that is running, or stays closed with messages. -/
lemma change (hc : c.Sound limit isComet running born) (hcomet : isComet) (hborn : born)
    (hdead : ¬ running → c'.closed = true ∧ c'.queue ≠ []) (hclosed : c'.closed = c.closed)
    (hfirst : IsInt c'.firstIndex) (hroom : c'.queue.length ≤ c'.capacity)
    (hlimited : c'.curRequest ≠ none → 1 ≤ c'.curLimit) (hcap : c'.capacity = c.capacity) :
    c'.Sound limit isComet running born where
  opened hl := hclosed.trans (hc.opened hl)
  unborn hn := absurd hborn hn
  websocket hn := absurd hcomet hn
  dead hl := Or.inr (hdead hl)
  firstIndex := hfirst
  room := hroom
  limited := hlimited
  capacity hl _ := hcap.trans (hc.capacity hl hcomet)

/-- Only the request and the watchers of a busy comet change. -/
lemma of_eq (hc : c.Sound limit isComet running born) (hn : ¬ c.Quiet)
    (hclosed : c'.closed = c.closed)
    (hfirst : c'.firstIndex = c.firstIndex) (hqueue : c'.queue = c.queue)
    (hlimited : c'.curRequest ≠ none → 1 ≤ c'.curLimit) (hcap : c'.capacity = c.capacity) :
    c'.Sound limit isComet running born := by
  obtain ⟨hcomet, hborn, hdead⟩ := hc.of_not_quiet hn
  refine hc.change hcomet hborn ?_ hclosed (hfirst ▸ hc.firstIndex) ?_ hlimited hcap
  · rw [hclosed, hqueue]
    exact hdead
  · rw [hqueue, hcap]
    exact hc.room

end Comet.Sound

/-! ### All requests and comets -/

namespace Polling

variable {cfg : Config} {env : Env} {conf : RouteConf} {P P' : Polling} {h g : HybiId}
  {r r' : ReqId} {c : Comet} {q : Request}

section updates

@[simp] lemma setComet_comet_self (c : Comet) : (P.setComet h c).comet h = c := by simp [setComet]

lemma setComet_comet_of_ne (hg : g ≠ h) (c : Comet) : (P.setComet h c).comet g = P.comet g := by
  simp [setComet, hg]

@[simp] lemma setComet_setComet (c c' : Comet) :
    (P.setComet h c).setComet h c' = P.setComet h c' := by
  simp [setComet]

/-- What holds of all comets still holds when one of them changes. -/
lemma forall_setComet {p : HybiId → Comet → Prop} (hP : ∀ g, p g (P.comet g)) (hc : p h c)
    (g : HybiId) :
    p g ((P.setComet h c).comet g) := by
  by_cases hg : g = h
  · subst hg
    rwa [setComet_comet_self]
  · rw [setComet_comet_of_ne hg]
    exact hP g

@[simp] lemma setComet_request (c : Comet) : (P.setComet h c).request = P.request := rfl
@[simp] lemma setComet_next (c : Comet) : (P.setComet h c).next = P.next := rfl

@[simp] lemma setRequest_request_self (q : Request) : (P.setRequest r q).request r = q := by
  simp [setRequest]

lemma setRequest_request_of_ne (hr : r' ≠ r) (q : Request) :
    (P.setRequest r q).request r' = P.request r' := by
  simp [setRequest, hr]

@[simp] lemma setRequest_comet (q : Request) : (P.setRequest r q).comet = P.comet := rfl
@[simp] lemma setRequest_next (q : Request) : (P.setRequest r q).next = P.next := rfl
@[simp] lemma setRequest_setRequest (q q' : Request) :
    (P.setRequest r q).setRequest r q' = P.setRequest r q' := by
  simp [setRequest]

@[simp] lemma answer_comet (rep : Reply) : (P.answer r rep).comet = P.comet := rfl
@[simp] lemma answer_next (rep : Reply) : (P.answer r rep).next = P.next := rfl
lemma answer_request_self (rep : Reply) : (P.answer r rep).request r =
    { P.request r with
      timeout := false
      replies := (P.request r).replies ++ [rep]
      hybi := none }.decref := by
  rw [answer, setRequest_request_self]

lemma answer_request_of_ne (hr : r' ≠ r) (rep : Reply) :
    (P.answer r rep).request r' = P.request r' := setRequest_request_of_ne hr _

@[simp] lemma reply_comet (rep : Reply) : (P.reply r rep).comet = P.comet := rfl
@[simp] lemma reply_next (rep : Reply) : (P.reply r rep).next = P.next := rfl
@[simp] lemma incref_comet : (P.incref r).comet = P.comet := rfl
@[simp] lemma incref_next : (P.incref r).next = P.next := rfl

lemma park_comet_self (args : CometArgs) : (P.park conf r args h).comet h =
    { P.comet h with
      curRequest := some r
      curFormat := args.outFormat
      curLimit := limitFor conf args.limit
      sendlater := (P.comet h).sendlater || !(P.comet h).queue.isEmpty
      inactivity := false } := by
  rw [park, setComet_comet_self]

lemma park_comet_of_ne (hg : g ≠ h) (args : CometArgs) :
    (P.park conf r args h).comet g = P.comet g := by
  rw [park, setComet_comet_of_ne hg, setRequest_comet]

lemma park_request_self (args : CometArgs) : (P.park conf r args h).request r =
    { P.request r with
      refcnt := (P.request r).refcnt + 1
      hybi := some h
      finishCb := .cometRequestSent
      timeout := (P.request r).timeout || (P.comet h).queue.isEmpty } := by
  rw [park, setComet_request, setRequest_request_self]

lemma park_request_of_ne (hr : r' ≠ r) (args : CometArgs) :
    (P.park conf r args h).request r' = P.request r' := by
  rw [park, setComet_request, setRequest_request_of_ne hr]

end updates

/-! ### Parked requests -/

/-- A request is parked at a connection exactly if the connection points at it, its finish callback
is the one of long polling, and only parked requests have a timer. -/
structure Links (P : Polling) : Prop where
  parked : ∀ h r, (P.comet h).curRequest = some r ↔ (P.request r).ParkedAt h
  callback : ∀ r, (P.request r).hybi ≠ none → (P.request r).finishCb = .cometRequestSent
  timer : ∀ r, (P.request r).timeout = true → ∃ h, (P.request r).ParkedAt h
  fresh : ∀ r, P.next ≤ r → P.request r = noRequest

namespace Links

lemma lt_next (hP : P.Links) (hf : (P.request r).finished = false) : r < P.next := by
  by_contra hr
  rw [hP.fresh r (Nat.not_lt.mp hr)] at hf
  simp [noRequest] at hf

/-- A request is parked at one connection at most. -/
lemma inj (hP : P.Links) (hh : (P.comet h).curRequest = some r)
    (hg : (P.comet g).curRequest = some r) : g = h := by
  have := ((hP.parked g r).mp hg).1
  rw [((hP.parked h r).mp hh).1] at this
  exact (Option.some.inj this).symm

/-- One comet and one request change together. -/
lemma update (hP : P.Links) (hr : r < P.next)
    (hc : ∀ r', (P.comet h).curRequest = some r' → r' = r)
    (hq : ∀ g, (P.request r).ParkedAt g → g = h)
    (hnew : c.curRequest = some r ∧ q.ParkedAt h ∨ c.curRequest = none ∧ ∀ g, ¬ q.ParkedAt g)
    (hcb : q.hybi ≠ none → q.finishCb = .cometRequestSent)
    (htimer : q.timeout = true → ∃ g, q.ParkedAt g) :
    ((P.setRequest r q).setComet h c).Links := by
  constructor
  · intro g r'
    by_cases hg : g = h <;> by_cases hr' : r' = r
    · subst hg hr'
      rw [setComet_comet_self, setComet_request, setRequest_request_self]
      rcases hnew with ⟨h₁, h₂⟩ | ⟨h₁, h₂⟩
      · exact iff_of_true h₁ h₂
      · exact iff_of_false (by simp [h₁]) (h₂ g)
    · subst hg
      rw [setComet_comet_self, setComet_request, setRequest_request_of_ne hr']
      refine iff_of_false (fun h₁ => ?_) fun h₂ => hr' (hc r' ((hP.parked g r').mpr h₂))
      rcases hnew with ⟨h₂, -⟩ | ⟨h₂, -⟩
      · exact hr' (Option.some.inj (h₁.symm.trans h₂))
      · simp [h₁] at h₂
    · subst hr'
      rw [setComet_comet_of_ne hg, setRequest_comet, setComet_request, setRequest_request_self]
      refine iff_of_false (fun h₁ => hg (hq g ((hP.parked g r').mp h₁))) fun h₂ => ?_
      rcases hnew with ⟨-, h₁⟩ | ⟨-, h₁⟩
      · exact hg (Option.some.inj (h₂.1.symm.trans h₁.1))
      · exact h₁ g h₂
    · rw [setComet_comet_of_ne hg, setRequest_comet, setComet_request,
        setRequest_request_of_ne hr']
      exact hP.parked g r'
  · intro r'
    by_cases hr' : r' = r
    · subst hr'
      simpa using hcb
    · simpa [setRequest_request_of_ne hr'] using hP.callback r'
  · intro r'
    by_cases hr' : r' = r
    · subst hr'
      simpa using htimer
    · simpa [setRequest_request_of_ne hr'] using hP.timer r'
  · intro r' hr'
    have hne : r' ≠ r := by
      rintro rfl
      exact Nat.not_lt.mpr hr' hr
    simpa [setRequest_request_of_ne hne] using hP.fresh r' hr'

/-- The parked request of a connection is taken away. -/
lemma unpark (hP : P.Links) (hcur : (P.comet h).curRequest = some r) (hc : c.curRequest = none)
    (hq : ∀ g, ¬ q.ParkedAt g) (hf : q.finishCb = .cometRequestSent) (ht : q.timeout = false) :
    ((P.setRequest r q).setComet h c).Links := by
  have hpark := (hP.parked h r).mp hcur
  exact hP.update (hP.lt_next hpark.2) (fun r' hr' => Option.some.inj (hr'.symm.trans hcur))
    (fun g hg => Option.some.inj (hg.1.symm.trans hpark.1)) (Or.inr ⟨hc, hq⟩) (fun _ => hf)
    (fun htrue => by simp [ht] at htrue)

/-- The parked request of a connection is answered. -/
lemma answer (hP : P.Links) (hcur : (P.comet h).curRequest = some r) (hc : c.curRequest = none)
    (rep : Reply) : ((P.answer r rep).setComet h c).Links := by
  have hpark := (hP.parked h r).mp hcur
  refine hP.unpark hcur hc (fun g hg => by simpa using hg.1) ?_
    (Request.decref_timeout_of_false rfl)
  rw [Request.decref_finishCb]
  exact hP.callback r (by simp [hpark.1])

/-- A comet changes, but not the request that is parked there. -/
lemma setComet (hP : P.Links) (hc : c.curRequest = (P.comet h).curRequest) :
    (P.setComet h c).Links := by
  refine ⟨fun g r' => ?_, hP.callback, hP.timer, hP.fresh⟩
  by_cases hg : g = h
  · subst hg
    rw [setComet_comet_self, hc]
    exact hP.parked g r'
  · rw [setComet_comet_of_ne hg]
    exact hP.parked g r'

/-- A request changes, but not where it is parked. -/
lemma setRequest (hP : P.Links) (hr : r < P.next)
    (hp : ∀ g, q.ParkedAt g ↔ (P.request r).ParkedAt g)
    (hcb : q.hybi ≠ none → q.finishCb = .cometRequestSent)
    (htimer : q.timeout = true → (P.request r).timeout = true) : (P.setRequest r q).Links := by
  constructor
  · intro g r'
    rw [setRequest_comet, hP.parked g r']
    by_cases hr' : r' = r
    · subst hr'
      rw [setRequest_request_self, hp]
    · rw [setRequest_request_of_ne hr']
  · intro r'
    by_cases hr' : r' = r
    · subst hr'
      simpa using hcb
    · simpa [setRequest_request_of_ne hr'] using hP.callback r'
  · intro r'
    by_cases hr' : r' = r
    · subst hr'
      intro ht
      rw [setRequest_request_self] at ht ⊢
      simp only [hp]
      exact hP.timer r' (htimer ht)
    · simpa [setRequest_request_of_ne hr'] using hP.timer r'
  · intro r' hr'
    have hne : r' ≠ r := by
      rintro rfl
      exact Nat.not_lt.mpr hr' hr
    simpa [setRequest_request_of_ne hne] using hP.fresh r' hr'

/-- A request is parked. -/
lemma park (hP : P.Links) (hf : (P.request r).finished = false) (hh : (P.request r).hybi = none)
    (hcur : (P.comet h).curRequest = none) (args : CometArgs) :
    (P.park conf r args h).Links := by
  rw [Polling.park]
  exact hP.update (hP.lt_next hf) (fun r' hr' => by simp [hcur] at hr')
    (fun g hg => by simp [hg.1] at hh) (Or.inl ⟨rfl, rfl, hf⟩) (fun _ => rfl)
    (fun _ => ⟨h, rfl, hf⟩)

/-- A request arrives. -/
lemma arrive (hP : P.Links) (hh : q.hybi = none) (ht : q.timeout = false) :
    Links { P.setRequest P.next q with next := P.next + 1 } := by
  constructor
  · intro g r'
    change (P.comet g).curRequest = some r' ↔ ((P.setRequest P.next q).request r').ParkedAt g
    rw [hP.parked g r']
    by_cases hr' : r' = P.next
    · subst hr'
      rw [setRequest_request_self, hP.fresh P.next le_rfl]
      simp [Request.ParkedAt, noRequest, hh]
    · rw [setRequest_request_of_ne hr']
  · intro r'
    change ((P.setRequest P.next q).request r').hybi ≠ none →
      ((P.setRequest P.next q).request r').finishCb = _
    by_cases hr' : r' = P.next
    · subst hr'
      simp [hh]
    · rw [setRequest_request_of_ne hr']
      exact hP.callback r'
  · intro r'
    change ((P.setRequest P.next q).request r').timeout = true →
      ∃ h, ((P.setRequest P.next q).request r').ParkedAt h
    by_cases hr' : r' = P.next
    · subst hr'
      simp [ht]
    · rw [setRequest_request_of_ne hr']
      exact hP.timer r'
  · intro r' hr'
    change (P.setRequest P.next q).request r' = noRequest
    rw [setRequest_request_of_ne (Nat.ne_of_gt hr')]
    exact hP.fresh r' (Nat.le_of_succ_le hr')

end Links

/-! ### Limits -/

/-- A parked request can take at least one message. -/
lemma one_le_limitFor {limit : Int} (hl : limit ≠ 0) : 1 ≤ limitFor conf limit := by
  have := conf.queueLimit_ge
  rw [limitFor]
  split_ifs <;> omega

/-! ### Closing -/

/-- The long-poll state after `comet_close`: the parked request is answered, the watchers are off,
and the queued messages are closed. -/
def shut (cfg : Config) (env : Env) (h : HybiId) (P : Polling) : Polling :=
  let P' :=
    match (P.comet h).curRequest with
    | some r => P.answer r (okReply cfg env r (P.request r)
        [text "X-Messages" "0", text "X-Connection" "close"] [])
    | none => P
  P'.setComet h
    { P.comet h with curRequest := none, sendlater := false, inactivity := false, closed := true }

lemma shut_comet_of_ne (hg : g ≠ h) : (P.shut cfg env h).comet g = P.comet g := by
  rw [shut, setComet_comet_of_ne hg]
  cases (P.comet h).curRequest <;> rfl

lemma shut_comet_self : (P.shut cfg env h).comet h = { P.comet h with
    curRequest := none, sendlater := false, inactivity := false, closed := true } := by
  rw [shut, setComet_comet_self]

@[simp] lemma shut_next : (P.shut cfg env h).next = P.next := by
  rw [shut, setComet_next]
  cases (P.comet h).curRequest <;> rfl

lemma shut_of_none (hcur : (P.comet h).curRequest = none) : P.shut cfg env h = P.setComet h
    { P.comet h with sendlater := false, inactivity := false, closed := true } := by
  simp only [shut, hcur]

lemma shut_of_some (hcur : (P.comet h).curRequest = some r) : P.shut cfg env h =
    (P.answer r (okReply cfg env r (P.request r)
      [text "X-Messages" "0", text "X-Connection" "close"] [])).setComet h
    { P.comet h with
      curRequest := none, sendlater := false, inactivity := false, closed := true } := by
  simp only [shut, hcur]

lemma Links.shut (hP : P.Links) : (P.shut cfg env h).Links := by
  cases hcur : (P.comet h).curRequest with
  | none =>
    rw [shut_of_none hcur]
    exact hP.setComet rfl
  | some r =>
    rw [shut_of_some hcur]
    exact hP.answer hcur rfl _

/-- Requests that are not parked at the connection do not change. -/
lemma shut_request_of_not_parked (hP : P.Links) (hr : ¬ (P.request r).ParkedAt h) :
    (P.shut cfg env h).request r = P.request r := by
  cases hcur : (P.comet h).curRequest with
  | none => rw [shut_of_none hcur, setComet_request]
  | some r' =>
    have hne : r ≠ r' := by
      rintro rfl
      exact hr ((hP.parked h r).mp hcur)
    rw [shut_of_some hcur, setComet_request, answer_request_of_ne hne]

lemma counted_shut {taken : ReqId → Nat} (hP : P.Links)
    (hq : ∀ r, (P.request r).Counted (taken r)) (r : ReqId) :
    ((P.shut cfg env h).request r).Counted (taken r) := by
  by_cases hr : (P.request r).ParkedAt h
  · rw [shut_of_some ((hP.parked h r).mpr hr), setComet_request, answer_request_self]
    exact (hq r).decref_parked hr (Or.inl rfl) rfl rfl
  · rw [shut_request_of_not_parked hP hr]
    exact hq r

end Polling

end Zerogw
