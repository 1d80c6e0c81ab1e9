import Zerogw.Http.DiskJobs
import Zerogw.Http.Retries

/-!
# How often a request is forwarded

A request that nobody answers is forwarded again whenever its timer fires. `request_timeout` counts
the firings and gives up as soon as there are as many of them as `count` says, so that the last
retry is missing unless `count` is zero.
-/

namespace Zerogw

open Execution

/-- The attempts that the configuration asks for: the first one and `count` retries. -/
def ForwardConf.documentedAttempts (conf : ForwardConf) : ℕ :=
  if conf.retryMode = .noRetry then 1 else conf.retryCount + 1

/-- The attempts that are made. -/
def ForwardConf.actualAttempts (conf : ForwardConf) : ℕ :=
  if conf.retryMode = .noRetry then 1 else max conf.retryCount 1

/-- Another attempt is made as long as there have been fewer firings than `count`. -/
lemma ForwardConf.lt_actualAttempts {conf : ForwardConf} {k : ℕ} (hk : 0 < k) :
    k < conf.actualAttempts ↔ conf.retryMode ≠ .noRetry ∧ k < conf.retryCount := by
  rw [actualAttempts]
  split_ifs with hmode
  · exact iff_of_false (Nat.not_lt.mpr hk) fun h => h.1 hmode
  · rw [lt_max_iff, and_iff_right hmode]
    exact or_iff_left (Nat.not_lt.mpr hk)

namespace Http

variable {cfg : HttpConfig} {H H' H₁ H₂ : Http} {r : ReqId} {e : Event} {route : RouteId}
  {values : List Bytes} {k n : ℕ}

/-- How often a request has been forwarded. -/
def forwards (H : Http) (r : ReqId) : ℕ := H.attempts.countP fun a => a.req = r

/-- A request arrives on the route, there is room for it, and it is forwarded. -/
def Arrives (route : RouteId) (e : Event) (H : Http) : Prop :=
  H.requests.sieve.full = false ∧
    ∃ uri method body ip date header,
      e = .request (.route route) uri method body ip date header .accepted

/-- No reply to request `r` arrives, it is forwarded whenever it is tried, and the client waits for
the response. -/
def Undisturbed (r : ReqId) (e : Event) (H : Http) : Prop :=
  match e with
  | .request .. => True
  | .reply _ frames | .diskReply frames => frames.head? ≠ some (H.requests.uid r)
  | .timeout r' result => r' = r → result = .accepted
  | .finish r' => r' = r → (H.request r).responses ≠ []
  | .release _ => True

/-- The request has been forwarded `n` times, answered once with `gateway-timeout`, and has left the
sieve. -/
structure GivenUp (cfg : HttpConfig) (route : RouteId) (r : ReqId) (n : ℕ) (H : Http) : Prop where
  forwards : H.forwards r = n
  responses : (H.request r).responses
    = [staticReply (H.request r) (cfg.route route).responses.gatewayTimeout]
  inSieve : (H.request r).inSieve = false
  timer : (H.request r).timer = false

/-- The request waits, it has not been forwarded more than `n` times, and when its timer fires it is
forwarded once more or given up. -/
structure Waits (cfg : HttpConfig) (route : RouteId) (r : ReqId) (n : ℕ) (H : Http) : Prop where
  forwards : H.forwards r ≤ n
  responses : (H.request r).responses = []
  timer : (H.request r).timer = true
  expires : ∃ H', step cfg (.timeout r .accepted) H = .ok H' ∧
    (H'.forwards r = H.forwards r + 1 ∨ GivenUp cfg route r n H')

/-- On this route a request is forwarded `n` times and then given up, if nothing else happens to
it. -/
def ForwardedTimes (cfg : HttpConfig) (route : RouteId) (n : ℕ) : Prop :=
  ∀ H e H₁ H₂, Reachable (step cfg) (init cfg) H → Arrives route e H → step cfg e H = .ok H₁ →
    ReachableVia (step cfg) (Undisturbed H.next) H₁ H₂ →
      Waits cfg route H.next n H₂ ∨ GivenUp cfg route H.next n H₂

/-! ### What is forwarded -/

lemma attempts_of_forwards (h : Forwards r H H') :
    H'.attempts = H.attempts ∨ ∃ a : Attempt, a.req = r ∧ H'.attempts = H.attempts ++ [a] := by
  rcases h with h | ⟨-, -, values, h⟩
  · exact Or.inl h.attempts
  · exact Or.inr ⟨_, rfl, h⟩

lemma attempts_of_issues {uid : Bytes} (h : Issues r uid H H') :
    H'.attempts = H.attempts ∨ ∃ a : Attempt, a.req = r ∧ H'.attempts = H.attempts ++ [a] := by
  rcases h.attempts with h | ⟨-, values, h⟩
  · exact Or.inl h
  · exact Or.inr ⟨_, rfl, h⟩

lemma attempts_of_timeout {result : ForwardResult} (h : H.requestTimeout cfg result r = .ok H') :
    H'.attempts = H.attempts ∨ ∃ a : Attempt, a.req = r ∧ H'.attempts = H.attempts ++ [a] := by
  rw [requestTimeout] at h
  split at h
  · cases h
  · dsimp only at h
    generalize hH₁ : H.setRequest r _ = H₁ at h
    have hsame : H₁.attempts = H.attempts := by
      rw [← hH₁]
      rfl
    rw [← hsame]
    split at h
    · exact Or.inl (steady_close h).1.attempts
    · split_ifs at h
      exact attempts_of_forwards (forwards_retry h)
    · split_ifs at h
      obtain ⟨requests, -, hretry⟩ := bind_eq_ok.mp h
      have hforwards := attempts_of_forwards (forwards_retry hretry)
      exact hforwards

/-- The ids of requests are given out one after the other. -/
lemma next_of_step (hs : H.Sound cfg) (hstep : step cfg e H = .ok H') :
    H'.next = (H.prepared e).next := by
  cases e with
  | request target uri method body ip date header result =>
    obtain ⟨p, hp, hret⟩ := bind_eq_ok.mp hstep
    cases hret
    have hnew : IsNew ((H.newRequest uri method body ip date header).request H.next) := by
      rw [show (H.newRequest uri method body ip date header).request H.next = _ from
        Function.update_self _ _ _]
      exact ⟨rfl, rfl, rfl, one_ne_zero, rfl⟩
    exact ((httpRequest_spec (newRequest_sound hs) (Nat.lt_succ_self H.next) hnew).result hp).next
  | _ =>
    rcases (step_spec hs _).result hstep with ⟨-, -, hnext⟩ | ⟨r, -, hacts⟩
    · exact hnext
    · exact hacts.next

/-- Only the request that an event is about is forwarded. -/
lemma attempts_of_step (hs : H.Sound cfg) (hstep : step cfg e H = .ok H') :
    H'.attempts = H.attempts ∨ ∃ a : Attempt,
      e.Concerns H a.req ∧ a.req < H'.next ∧ H'.attempts = H.attempts ++ [a] := by
  have hnext := next_of_step hs hstep
  cases e with
  | request target uri method body ip date header result =>
    obtain ⟨p, hp, hret⟩ := bind_eq_ok.mp hstep
    cases hret
    have hnone : ((H.newRequest uri method body ip date header).request H.next).route = none := by
      show (Function.update H.request H.next _ H.next).route = none
      rw [Function.update_self]
      rfl
    have hadds : p.2.attempts = H.attempts ∨
        ∃ a : Attempt, a.req = H.next ∧ p.2.attempts = H.attempts ++ [a] := by
      rcases issues_httpRequest (newRequest_sound hs) hnone hp with h | ⟨uid, h⟩
      · exact Or.inl h.attempts
      · have hissues := attempts_of_issues h
        exact hissues
    rcases hadds with h | ⟨a, ha, h⟩
    · exact Or.inl h
    · exact Or.inr ⟨a, ha, hnext ▸ ha ▸ Nat.lt_succ_self _, h⟩
  | reply route frames => exact Or.inl (steady_httpProcess hstep).attempts
  | diskReply frames => exact Or.inl (steady_diskProcess hstep).attempts
  | timeout r result =>
    rw [step] at hstep
    split_ifs at hstep with htimer
    · rcases attempts_of_timeout hstep with h | ⟨a, ha, h⟩
      · exact Or.inl h
      · have hlt := hs.lt_next_of_inSieve ((hs.requests r).timer htimer)
        exact Or.inr ⟨a, ⟨ha, htimer⟩, hnext ▸ ha ▸ hlt, h⟩
    · cases hstep
      exact Or.inl rfl
  | finish r =>
    rw [step] at hstep
    split_ifs at hstep
    · cases hstep
      exact Or.inl rfl
    · exact Or.inl (steady_decref hstep).attempts
  | release r =>
    rw [step] at hstep
    split_ifs at hstep
    · cases hstep
      exact Or.inl rfl
    · exact Or.inl (steady_decref hstep).attempts

/-- A request that an event is not about is not forwarded. -/
lemma forwards_of_step (hs : H.Sound cfg) (hstep : step cfg e H = .ok H')
    (hother : ¬ e.Concerns H r) : H'.forwards r = H.forwards r := by
  rcases attempts_of_step hs hstep with h | ⟨a, ha, -, h⟩
  · rw [forwards, forwards, h]
  · have hne : a.req ≠ r := by
      rintro rfl
      exact hother ha
    rw [forwards, forwards, h, List.countP_append]
    simp [hne]

/-! ### A request that waits -/

/-- Request `r` has been forwarded `k` times and waits for a reply. -/
structure Pending (cfg : HttpConfig) (route : RouteId) (r : ReqId) (k : ℕ) (H : Http) : Prop where
  routed : (H.request r).route = some route
  timer : (H.request r).timer = true
  forwards : H.forwards r = k
  retries : (H.request r).retries + 1 = k
  contents : (cfg.route route).zmqForward.contents ≠ []
  values : ∃ values, (cfg.route route).zmqForward.contents.mapM (H.request r).getField = .ok values
  finished : (H.request r).finished = false
  refs : (H.request r).held < (H.request r).refcnt

/-- `do_forward` succeeds if every field has a value. -/
lemma doForward_accepted (hroute : (H.request r).route = some route)
    (hcontents : (cfg.route route).zmqForward.contents ≠ [])
    (hvalues : (cfg.route route).zmqForward.contents.mapM (H.request r).getField = .ok values) :
    ∃ H', H.doForward cfg .accepted r = .ok (true, H') := by
  rw [doForward, hroute]
  dsimp only
  rw [if_neg hcontents, hvalues]
  exact ⟨_, rfl⟩

/-- A request that has just been forwarded waits, once its timer runs. -/
lemma pending_of_doForward {sent : Bool} (h : H.doForward cfg .accepted r = .ok (sent, H'))
    (hroute : (H.request r).route = some route) (hforwards : H.forwards r + 1 = k)
    (hretries : (H.request r).retries + 1 = k) (hfinished : (H.request r).finished = false)
    (hrefs : (H.request r).held < (H.request r).refcnt) : sent = true ∧
      Pending cfg route r k (H'.setRequest r { H'.request r with timer := true }) := by
  rw [doForward] at h
  split at h
  · cases h
  · next route' hroute' =>
    cases hroute.symm.trans hroute'
    dsimp only at h
    split_ifs at h with hcontents
    obtain ⟨values, hvalues, hret⟩ := bind_eq_ok.mp h
    cases hret
    refine ⟨rfl, ?_, ?_, ?_, ?_, hcontents, ⟨values, ?_⟩, ?_, ?_⟩
    all_goals try simp only [setRequest_self]
    · exact hroute
    · show List.countP _ (H.attempts ++ _) = k
      rw [List.countP_append, ← hforwards]
      simp [forwards]
    · exact hretries
    · rw [← hvalues]
      congr 1
    · exact hfinished
    · exact Nat.add_lt_add_right hrefs _

lemma request_of_finish (h : H.requestFinish r = .ok H') :
    H'.request r = { H.request r with inSieve := false, timer := false } := by
  rw [requestFinish, ite_bind] at h
  obtain ⟨requests, -, hret⟩ := bind_eq_ok.mp h
  cases hret
  exact setRequest_self

lemma request_of_close {resp : StaticResponse} (h : H.close r resp = .ok H') :
    H'.request r = { H.request r with
      responses := (H.request r).responses ++ [staticReply (H.request r) resp]
      inSieve := false
      timer := false } := by
  rw [close] at h
  rw [request_of_finish h, staticResponse, respond, setRequest_self]

namespace Pending

/-- The request is tried once more, with its id or with another. -/
lemma retry (h : Pending cfg route r k H)
    (hreq : H₁.request r = { H.request r with retries := (H.request r).retries + 1 })
    (hattempts : H₁.attempts = H.attempts) :
    ∃ H', H₁.retry cfg .accepted r = .ok H' ∧ Pending cfg route r (k + 1) H' := by
  obtain ⟨values, hvalues⟩ := h.values
  have hfields : (H₁.request r).getField = (H.request r).getField := by
    rw [hreq]
    funext field
    cases field <;> rfl
  have hroute : (H₁.request r).route = some route := by
    rw [hreq]
    exact h.routed
  obtain ⟨H', hsent⟩ := doForward_accepted hroute h.contents (hfields ▸ hvalues)
  obtain ⟨-, hpending⟩ := pending_of_doForward (k := k + 1) hsent hroute
    (by rw [Http.forwards, hattempts, ← h.forwards, Http.forwards]) (by rw [hreq, ← h.retries])
    (by rw [hreq]; exact h.finished) (by rw [hreq]; exact h.refs)
  refine ⟨_, ?_, hpending⟩
  rw [Http.retry, hsent]
  rfl

/-- ZeroMQ releases a frame of an earlier attempt. -/
lemma release (h : Pending cfg route r k H) (hstep : step cfg (.release r) H = .ok H') :
    Pending cfg route r k H' := by
  rw [Http.step] at hstep
  split_ifs at hstep with hheld
  · cases hstep
    exact h
  · have hrefs := h.refs
    have hmore : 1 < (H.request r).refcnt :=
      Nat.lt_of_le_of_lt (Nat.one_le_iff_ne_zero.mpr hheld) hrefs
    rw [decref_of_more (by rw [setRequest_self]; exact hmore), setRequest_self,
      setRequest_setRequest] at hstep
    cases hstep
    refine ⟨?_, ?_, h.forwards, ?_, h.contents, ?_, ?_, ?_⟩
    all_goals rw [setRequest_self]
    · exact h.routed
    · exact h.timer
    · exact h.retries
    · exact h.values
    · exact h.finished
    · show (H.request r).held - 1 < (H.request r).refcnt - 1
      exact Nat.sub_lt_sub_right (Nat.one_le_iff_ne_zero.mpr hheld) hrefs

variable (hs : H.Sound cfg) (h : Pending cfg route r k H)

include hs h

lemma inSieve : (H.request r).inSieve = true := (hs.requests r).timer h.timer

lemma unanswered : (H.request r).responses = [] :=
  (hs.requests r).unanswered (h.inSieve hs) ((hs.requests r).routed h.timer)

/-- The timer fires. -/
lemma timeout : ∃ H', step cfg (.timeout r .accepted) H = .ok H' ∧
    if k < (cfg.route route).zmqForward.actualAttempts then Pending cfg route r (k + 1) H'
    else GivenUp cfg route r k H' := by
  have hin := h.inSieve hs
  have hmore : k < (cfg.route route).zmqForward.actualAttempts ↔ _ :=
    ForwardConf.lt_actualAttempts (Nat.lt_of_lt_of_eq (Nat.succ_pos _) h.retries)
  have hcount := hs.acts_set (A := fun _ => False)
    (q := { H.request r with retries := (H.request r).retries + 1 }) (hs.lt_next_of_inSieve hin) rfl
    ⟨(hs.requests r).alive, (hs.requests r).timer, (hs.requests r).message, (hs.requests r).routed,
      (hs.requests r).answered⟩ rfl
  rw [step, if_pos h.timer, requestTimeout, h.routed]
  dsimp only at hcount ⊢
  have hreq : (H.setRequest r { H.request r with retries := (H.request r).retries + 1 }).request r
    = { H.request r with retries := (H.request r).retries + 1 } := setRequest_self
  have hattempts : (H.setRequest r
    { H.request r with retries := (H.request r).retries + 1 }).attempts = H.attempts := rfl
  dsimp only at hreq hattempts
  generalize H.setRequest r _ = H₁ at hcount hreq hattempts ⊢
  rw [h.retries]
  by_cases hlt : k < (cfg.route route).zmqForward.actualAttempts
  · obtain ⟨hmode, hlt'⟩ := hmore.mp hlt
    simp only [if_pos hlt, if_neg (Nat.not_le.mpr hlt')]
    cases hm : (cfg.route route).zmqForward.retryMode with
    | noRetry => exact absurd hm hmode
    | retryFirst =>
      dsimp only
      rw [if_pos hin]
      exact h.retry hreq hattempts
    | retryLast =>
      dsimp only
      rw [if_pos hin]
      obtain ⟨requests, hempty, -, hsame⟩ := renew_spec (A := fun _ => False) hcount.sound
        (by rw [hreq]; exact hin)
      rw [hempty, ok_bind]
      exact h.retry ((congrFun hsame r).trans hreq) hattempts
  · have hlast : (if k ≥ (cfg.route route).zmqForward.retryCount then RetryMode.noRetry
        else (cfg.route route).zmqForward.retryMode) = .noRetry := by
      split_ifs with hge
      · rfl
      · by_contra hmode
        exact hlt (hmore.mpr ⟨hmode, Nat.not_le.mp hge⟩)
    rw [hlast]
    simp only [if_neg hlt]
    have hnone := h.unanswered hs
    obtain ⟨H', hclose, -⟩ := close_spec hcount.sound (hcount.next ▸ hs.lt_next_of_inSieve hin)
      (fun _ => by rw [hreq]; exact hnone) (cfg.route route).responses.gatewayTimeout
    have hdone := request_of_close hclose
    rw [hreq] at hdone
    refine ⟨H', hclose, ?_, ?_, by rw [hdone], by rw [hdone]⟩
    · rw [Http.forwards, (steady_close hclose).1.attempts, hattempts, ← h.forwards, Http.forwards]
    · rw [hdone]
      dsimp only
      rw [hnone]
      rfl

/-- Any event that disturbs neither the request nor the client. -/
lemma step (hr : Undisturbed r e H) (hstep : step cfg e H = .ok H') :
    Pending cfg route r k H' ∨ k < (cfg.route route).zmqForward.actualAttempts ∧
      Pending cfg route r (k + 1) H' ∨
      ¬ k < (cfg.route route).zmqForward.actualAttempts ∧ GivenUp cfg route r k H' := by
  by_cases hconcerns : e.Concerns H r
  · cases e with
    | request =>
      exact absurd hconcerns (ne_of_lt (hs.lt_next_of_inSieve (h.inSieve hs)))
    | reply | diskReply => exact absurd hconcerns.1 hr
    | timeout r' result =>
      obtain ⟨rfl, -⟩ := hconcerns
      obtain rfl := hr rfl
      obtain ⟨H'', hstep', hnext⟩ := h.timeout hs
      cases hstep.symm.trans hstep'
      split_ifs at hnext with hlt
      · exact Or.inr (Or.inl ⟨hlt, hnext⟩)
      · exact Or.inr (Or.inr ⟨hlt, hnext⟩)
    | finish r' =>
      cases hconcerns
      exact absurd (h.unanswered hs) (hr rfl)
    | release r' =>
      cases hconcerns
      exact Or.inl (h.release hstep)
  · left
    obtain ⟨hreq, -⟩ := unchanged hs hstep (hs.lt_next_of_inSieve (h.inSieve hs)) hconcerns
    have hsame := forwards_of_step hs hstep hconcerns
    refine ⟨?_, ?_, hsame.trans h.forwards, ?_, h.contents, ?_, ?_, ?_⟩
    all_goals rw [hreq]
    · exact h.routed
    · exact h.timer
    · exact h.retries
    · exact h.values
    · exact h.finished
    · exact h.refs

end Pending

namespace GivenUp

/-- A reference is dropped. -/
lemma decref (h : GivenUp cfg route r n H) (hdecref : H.decref r = .ok H') :
    GivenUp cfg route r n H' := by
  have hforwards : H'.forwards r = n := by
    rw [Http.forwards, (steady_decref hdecref).attempts, ← h.forwards, Http.forwards]
  rw [Http.decref] at hdecref
  split_ifs at hdecref
  · have hreq := request_of_finish hdecref
    rw [setRequest_self] at hreq
    exact ⟨hforwards, by rw [hreq]; exact h.responses, by rw [hreq], by rw [hreq]⟩
  · cases hdecref
    refine ⟨hforwards, ?_, ?_, ?_⟩
    all_goals rw [setRequest_self]
    · exact h.responses
    · exact h.inSieve
    · exact h.timer

lemma set {q : HttpRequest} (h : GivenUp cfg route r n H) (hresponses : q.responses
    = (H.request r).responses) (hdate : q.date = (H.request r).date)
    (hin : q.inSieve = (H.request r).inSieve) (htimer : q.timer = (H.request r).timer) :
    GivenUp cfg route r n (H.setRequest r q) := by
  refine ⟨h.forwards, ?_, ?_, ?_⟩
  all_goals rw [setRequest_self]
  · rw [hresponses, h.responses, staticReply, staticReply, hdate]
  · exact hin.trans h.inSieve
  · exact htimer.trans h.timer

/-- Nothing more happens to the request. -/
lemma step (hs : H.Sound cfg) (h : GivenUp cfg route r n H) (hstep : step cfg e H = .ok H') :
    GivenUp cfg route r n H' := by
  have hlt : r < H.next := hs.lt_next fun hnone => by
    have := h.responses
    rw [hnone] at this
    cases this
  by_cases hconcerns : e.Concerns H r
  · cases e with
    | request => exact absurd hconcerns (ne_of_lt hlt)
    | reply | diskReply => exact absurd (h.inSieve.symm.trans hconcerns.2) Bool.false_ne_true
    | timeout =>
      obtain ⟨rfl, htimer⟩ := hconcerns
      exact absurd (h.timer.symm.trans htimer) Bool.false_ne_true
    | finish r' =>
      cases hconcerns
      rw [Http.step] at hstep
      split_ifs at hstep
      · cases hstep
        exact h
      · refine decref ?_ hstep
        exact h.set rfl rfl rfl rfl
    | release r' =>
      cases hconcerns
      rw [Http.step] at hstep
      split_ifs at hstep
      · cases hstep
        exact h
      · refine decref ?_ hstep
        exact h.set rfl rfl rfl rfl
  · obtain ⟨hreq, -⟩ := unchanged hs hstep hlt hconcerns
    refine ⟨(forwards_of_step hs hstep hconcerns).trans h.forwards, ?_, ?_, ?_⟩
    all_goals rw [hreq]
    · exact h.responses
    · exact h.inSieve
    · exact h.timer

end GivenUp

/-! ### Runs -/

/-- Every attempt is that of a request that has arrived. -/
lemma lt_next_of_attempt (hr : Reachable (step cfg) (init cfg) H) :
    ∀ a ∈ H.attempts, a.req < H.next := by
  apply hr.invariant_of (J := fun H => ∀ a ∈ H.attempts, a.req < H.next)
    (fun H => sound_of_reachable)
  · intro a ha
    cases ha
  · intro e H H' _ hs ih hstep a ha
    have hnext : H.next ≤ H'.next := by
      rw [next_of_step hs hstep]
      cases e with
      | request => exact Nat.le_succ _
      | _ => exact le_rfl
    rcases attempts_of_step hs hstep with h | ⟨a', -, ha', h⟩
    · exact (ih a (h ▸ ha)).trans_le hnext
    · rw [h, List.mem_append, List.mem_singleton] at ha
      rcases ha with ha | rfl
      · exact (ih a ha).trans_le hnext
      · exact ha'

/-- `http_request` on a route that forwards. -/
lemma pending_of_httpRequest (hs : H.Sound cfg) (hroom : H.requests.sieve.full = false)
    (hnew : (H.request r).finished = false ∧ (H.request r).held < (H.request r).refcnt ∧
      (H.request r).retries = 0) (hnever : H.forwards r = 0)
    (henabled : (cfg.route route).zmqForward.enabled = true)
    (htimeout : (cfg.route route).zmqForward.timeout ≠ 0) {p : Int × Http}
    (h : H.httpRequest cfg (.route route) .accepted r = .ok p) : Pending cfg route r 1 p.2 := by
  have hfound : ((H.setRequest r { H.request r with route := some route }).makeUid cfg r).1
      = true := by
    refine hs.registry.make_fst.mpr ?_
    simpa [Sieve.full] using hroom
  have hself : ((H.setRequest r { H.request r with route := some route }).makeUid cfg r).2.request r
      = { H.request r with route := some route } := setRequest_self
  rw [httpRequest, if_neg (Bool.eq_false_iff.mp hroom)] at h
  dsimp only at h hfound hself
  rw [if_pos henabled, hfound, hself] at h
  obtain ⟨⟨sent, H₂⟩, hsent, hret⟩ := bind_eq_ok.mp h
  obtain ⟨hfinished, hrefs, hretries⟩ := hnew
  obtain ⟨rfl, hpending⟩ := pending_of_doForward hsent (by rw [setRequest_self])
    (congrArg (· + 1) hnever) (by rw [setRequest_self]; exact congrArg (· + 1) hretries)
    (by rw [setRequest_self]; exact hfinished) (by rw [setRequest_self]; exact hrefs)
  dsimp only at hret
  rw [if_pos ⟨rfl, htimeout⟩] at hret
  cases hret
  exact hpending

/-- The request that has just arrived. -/
lemma pending_of_arrives (hr : Reachable (step cfg) (init cfg) H) (harrives : Arrives route e H)
    (henabled : (cfg.route route).zmqForward.enabled = true)
    (htimeout : (cfg.route route).zmqForward.timeout ≠ 0) (hstep : step cfg e H = .ok H₁) :
    Pending cfg route H.next 1 H₁ := by
  have hs := sound_of_reachable hr
  obtain ⟨hroom, uri, method, body, ip, date, header, rfl⟩ := harrives
  obtain ⟨p, hrequest, hret⟩ := bind_eq_ok.mp hstep
  cases hret
  have hself : (H.newRequest uri method body ip date header).request H.next = _ :=
    Function.update_self _ _ _
  refine pending_of_httpRequest (newRequest_sound hs) hroom ?_ ?_ henabled htimeout hrequest
  · rw [hself]
    exact ⟨rfl, Nat.zero_lt_one, rfl⟩
  · refine List.countP_eq_zero.mpr fun a ha => ?_
    simpa using ne_of_lt (lt_next_of_attempt hr a ha)

/-- A request that nobody answers waits or has been given up. -/
lemma waits_or_givenUp (hr : Reachable (step cfg) (init cfg) H) (harrives : Arrives route e H)
    (henabled : (cfg.route route).zmqForward.enabled = true)
    (htimeout : (cfg.route route).zmqForward.timeout ≠ 0) (hstep : step cfg e H = .ok H₁)
    (hrun : ReachableVia (step cfg) (Undisturbed H.next) H₁ H₂) :
    H₂.Sound cfg ∧ ((∃ k ≤ (cfg.route route).zmqForward.actualAttempts,
      Pending cfg route H.next k H₂) ∨
      GivenUp cfg route H.next (cfg.route route).zmqForward.actualAttempts H₂) := by
  apply hrun.invariant (I := fun H₂ => H₂.Sound cfg ∧
    ((∃ k ≤ (cfg.route route).zmqForward.actualAttempts, Pending cfg route H.next k H₂) ∨
      GivenUp cfg route H.next (cfg.route route).zmqForward.actualAttempts H₂))
  · refine ⟨sound_of_reachable (hr.step trivial hstep), Or.inl ⟨1, ?_,
      pending_of_arrives hr harrives henabled htimeout hstep⟩⟩
    rw [ForwardConf.actualAttempts]
    split_ifs
    · exact le_rfl
    · exact le_max_right _ _
  · rintro e' H₃ H₄ hquiet ⟨hs, ⟨k, hk, h⟩ | h⟩ hstep'
    · refine ⟨hs.step hstep', ?_⟩
      rcases h.step hs hquiet hstep' with h | ⟨hlt, h⟩ | ⟨hlast, h⟩
      · exact Or.inl ⟨k, hk, h⟩
      · exact Or.inl ⟨k + 1, hlt, h⟩
      · exact Or.inr (Nat.le_antisymm hk (Nat.not_lt.mp hlast) ▸ h)
    · exact ⟨hs.step hstep', Or.inr (h.step hs hstep')⟩

/-- The attempts that are made. -/
lemma forwardedTimes_actual (henabled : (cfg.route route).zmqForward.enabled = true)
    (htimeout : (cfg.route route).zmqForward.timeout ≠ 0) :
    ForwardedTimes cfg route (cfg.route route).zmqForward.actualAttempts := by
  intro H e H₁ H₂ hr harrives hstep hrun
  obtain ⟨hs, ⟨k, hk, h⟩ | h⟩ := waits_or_givenUp hr harrives henabled htimeout hstep hrun
  · refine Or.inl ⟨h.forwards ▸ hk, h.unanswered hs, h.timer, ?_⟩
    obtain ⟨H', hstep', hnext⟩ := h.timeout hs
    refine ⟨H', hstep', ?_⟩
    split_ifs at hnext with hlt
    · exact Or.inl (by rw [hnext.forwards, h.forwards])
    · exact Or.inr (Nat.le_antisymm hk (Nat.not_lt.mp hlt) ▸ hnext)
  · exact Or.inr h

/-- If only its timer fires, the request is given up in the end. -/
lemma exists_givenUp (hr : Reachable (step cfg) (init cfg) H) (harrives : Arrives route e H)
    (hstep : step cfg e H = .ok H₁) (hcount : ForwardedTimes cfg route n) :
    ∃ H₂, ReachableVia (step cfg) (Undisturbed H.next) H₁ H₂ ∧ GivenUp cfg route H.next n H₂ := by
  suffices hmore : ∀ k H₂, n < H₂.forwards H.next + k →
      ReachableVia (step cfg) (Undisturbed H.next) H₁ H₂ →
      ∃ H₃, ReachableVia (step cfg) (Undisturbed H.next) H₁ H₃ ∧ GivenUp cfg route H.next n H₃ from
    hmore (n + 1) H₁ (Nat.lt_of_lt_of_le n.lt_succ_self (Nat.le_add_left _ _)) .init
  intro k
  induction k with
  | zero =>
    intro H₂ hlt hrun
    rcases hcount H e H₁ H₂ hr harrives hstep hrun with h | h
    · exact absurd h.forwards (Nat.not_le.mpr hlt)
    · exact ⟨H₂, hrun, h⟩
  | succ k ih =>
    intro H₂ hlt hrun
    rcases hcount H e H₁ H₂ hr harrives hstep hrun with h | h
    · obtain ⟨H', hstep', hnext⟩ := h.expires
      have hquiet : Undisturbed H.next (.timeout H.next .accepted) H₂ := fun _ => rfl
      have hrun' := hrun.step hquiet hstep'
      rcases hnext with hnext | hnext
      · exact ih H' (by rw [hnext, Nat.add_assoc, Nat.add_comm 1]; exact hlt) hrun'
      · exact ⟨H', hrun', hnext⟩
    · exact ⟨H₂, hrun, h⟩

/-- No other number of attempts is made. -/
lemma forwardedTimes_unique (hr : Reachable (step cfg) (init cfg) H) (harrives : Arrives route e H)
    (hstep : step cfg e H = .ok H₁) {m : ℕ} (hn : ForwardedTimes cfg route n)
    (hm : ForwardedTimes cfg route m) : m = n := by
  obtain ⟨H₂, hrun, hgiven⟩ := exists_givenUp hr harrives hstep hn
  rcases hm H e H₁ H₂ hr harrives hstep hrun with h | h
  · exact absurd (hgiven.timer.symm.trans h.timer) Bool.false_ne_true
  · rw [← h.forwards, hgiven.forwards]

/-- The count of retries is honoured if and only if it is zero or nothing is retried. `hsends` says
that the route sends something, and that there are requests with all the fields it sends. -/
theorem retries_exact_iff (henabled : (cfg.route route).zmqForward.enabled = true)
    (htimeout : (cfg.route route).zmqForward.timeout ≠ 0)
    (hsends : ∃ H e H₁, Reachable (step cfg) (init cfg) H ∧ Arrives route e H ∧
      step cfg e H = .ok H₁) :
    ForwardedTimes cfg route (cfg.route route).zmqForward.documentedAttempts ↔
      (cfg.route route).zmqForward.retryMode = .noRetry ∨
        (cfg.route route).zmqForward.retryCount = 0 := by
  have hactual := forwardedTimes_actual henabled htimeout
  obtain ⟨H, e, H₁, hr, harrives, hstep⟩ := hsends
  have hiff : ForwardedTimes cfg route (cfg.route route).zmqForward.documentedAttempts ↔
      (cfg.route route).zmqForward.documentedAttempts
        = (cfg.route route).zmqForward.actualAttempts :=
    ⟨forwardedTimes_unique hr harrives hstep hactual, fun h => h ▸ hactual⟩
  rw [hiff, ForwardConf.documentedAttempts, ForwardConf.actualAttempts]
  split_ifs with hmode
  · exact iff_of_true rfl (Or.inl hmode)
  · rw [or_iff_right hmode]
    omega

/-- Requests are retried on timeouts, `count` times. -/
def countingGateway (count : Fin 101) : HttpConfig :=
  { smallGateway with
    route := fun _ =>
      { smallGateway.route 0 with
        zmqForward := ⟨true, [.body], 1, .retryFirst, count, Nat.le_of_lt_succ count.isLt⟩ } }

theorem retries_exact_iff_zero : ForwardedTimes (countingGateway 0) 0 1 :=
  (retries_exact_iff rfl one_ne_zero ⟨_, arrives, _, .init, ⟨rfl, _, _, _, _, _, _, rfl⟩, rfl⟩).mpr
    (Or.inr rfl)

/-- A request that may be retried once is never retried. -/
theorem single_retry_missing : ¬ ForwardedTimes (countingGateway 1) 0
    ((countingGateway 1).route 0).zmqForward.documentedAttempts := by
  intro h
  have hrun : (step (countingGateway 1) arrives (init (countingGateway 1)) >>=
      step (countingGateway 1) (.timeout 0 .accepted)).map
        (fun H => (H.forwards 0, (H.request 0).timer)) = .ok (1, false) := rfl
  obtain ⟨H₂, hrun, hview⟩ := exists_of_map_eq_ok hrun
  obtain ⟨H₁, hstep, hstep'⟩ := bind_eq_ok.mp hrun
  obtain ⟨hforwards, htimer⟩ := Prod.mk.inj hview
  have harrives : Arrives 0 arrives (init (countingGateway 1)) :=
    ⟨rfl, _, _, _, _, _, _, rfl⟩
  have hquiet : Undisturbed 0 (.timeout 0 .accepted) H₁ := fun _ => rfl
  rcases h _ arrives H₁ H₂ .init harrives hstep (.step .init hquiet hstep') with h | h
  · cases htimer.symm.trans h.timer
  · cases hforwards.symm.trans h.forwards

end Http

end Zerogw
