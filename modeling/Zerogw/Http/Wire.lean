import Zerogw.Http.Answers
import Zerogw.Http.Retries

/-!
# Ids on the wire

The frame with the id of a forwarded request refers to the memory of the request, and ZeroMQ reads
it when it transmits the frame. `RetryLast` writes a new id there. So an attempt carries its own id
if it is transmitted before the request is tried again, and the id of a later attempt otherwise.
-/

namespace Zerogw

open Execution

namespace Http

variable {cfg : HttpConfig} {H H' : Http} {r : ReqId} {e : Event} {uid : Bytes}

/-! ### Attempts -/

/-- Attempts belong to requests with a route, and carry ids that were issued for them. -/
def Known (H : Http) : Prop :=
  ∀ a ∈ H.attempts, (a.uid, a.req) ∈ H.requests.issued ∧ (H.request a.req).route ≠ none

lemma Ids.route (h : Ids cfg e H H') (hroute : (H.request r).route ≠ none) :
    (H'.request r).route = (H.request r).route := by
  cases h with
  | same h _ => exact h.route r hroute
  | again h _ _ _ => exact h.keeps.route r hroute
  | new h _ _ => exact h.route r hroute
  | renewed h _ => exact h.route r hroute

lemma Ids.onRetryLast (h : Ids cfg e H H') (hroute : (H.request r).route ≠ none)
    (hlast : OnRetryLast cfg H' r) : OnRetryLast cfg H r := by
  obtain ⟨route, hroute', hmode⟩ := hlast
  exact ⟨route, (h.route hroute).symm.trans hroute', hmode⟩

/-- Ids stay issued. -/
lemma Ids.issued (h : Ids cfg e H H') : ∃ new, H'.requests.issued = H.requests.issued ++ new := by
  cases h with
  | same h _ => exact ⟨[], by rw [h.issued, List.append_nil]⟩
  | again h _ _ _ => exact ⟨[], by rw [h.keeps.issued, List.append_nil]⟩
  | new h _ _ => exact ⟨_, h.issued⟩
  | renewed h _ => exact ⟨_, h.issued⟩

/-- A new id is different from those issued before. -/
lemma Issues.fresh (h : Issues r uid H H') (hs : H'.Sound cfg)
    (hfew : H'.requests.issued.length < 2 ^ 64) {a : ReqId} {old : Bytes}
    (hold : (old, a) ∈ H.requests.issued) : uid ≠ old := by
  have hnodup := hs.registry.nodup hfew
  rw [h.issued, List.map_append, List.nodup_append] at hnodup
  rintro rfl
  exact hnodup.2.2 uid (List.mem_map_of_mem hold) uid (by simp) rfl

section

variable (hs' : H'.Sound cfg) (hfew : H'.requests.issued.length < 2 ^ 64) (hknown : Known H)

include hs' hfew hknown

/-- The request of an attempt keeps its id, or gets another one as it is tried again. -/
lemma Ids.uid_eq_or (h : Ids cfg e H H') {a : Attempt} (ha : a ∈ H.attempts) :
    (H'.requests.uid a.req = H.requests.uid a.req ∧
      ((H'.request a.req).inSieve = true → (H.request a.req).inSieve = true)) ∨
    (e.Renews cfg H a.req ∧ H'.requests.uid a.req ≠ a.uid) := by
  obtain ⟨hissued, hroute⟩ := hknown a ha
  cases h with
  | same h _ => exact Or.inl ⟨congrFun h.uid _, h.leaves _⟩
  | again h _ _ _ => exact Or.inl ⟨congrFun h.keeps.uid _, h.keeps.leaves _⟩
  | @new r uid h hnone _ =>
    have hne : a.req ≠ r := by
      rintro rfl
      exact hroute hnone
    exact Or.inl ⟨by rw [h.ids, Function.update_of_ne hne], h.leaves _ hne⟩
  | @renewed r uid h hrenews =>
    by_cases hr : a.req = r
    · subst hr
      refine Or.inr ⟨hrenews, ?_⟩
      rw [h.ids, Function.update_self]
      exact h.fresh hs' hfew hissued
    · exact Or.inl ⟨by rw [h.ids, Function.update_of_ne hr], h.leaves _ hr⟩

/-- When the time of a request is up, it has left the sieve or got another id. -/
lemma Ids.late (h : Ids cfg e H H') {a : Attempt} (ha : a ∈ H.attempts)
    (htimes : e.TimesOut H a.req) (hlast : OnRetryLast cfg H' a.req)
    (hin : (H'.request a.req).inSieve = true) : H'.requests.uid a.req ≠ a.uid := by
  obtain ⟨hissued, hroute⟩ := hknown a ha
  have hlast := h.onRetryLast hroute hlast
  cases h with
  | same h hlate =>
    rw [hlate _ htimes hlast] at hin
    cases hin
  | again h hmode _ hlate =>
    rw [hlate _ htimes] at hlast
    exact absurd hlast hmode
  | new h _ hlate => exact absurd htimes (hlate _)
  | @renewed r uid h hrenews =>
    obtain ⟨⟨_, he, -⟩, -⟩ := hrenews
    obtain ⟨_, he', -⟩ := htimes
    cases he.symm.trans he'
    rw [h.ids, Function.update_self]
    exact h.fresh hs' hfew hissued

/-- A new attempt carries the id that its request has then, which no earlier attempt of the request
carries on a route with `RetryLast`. -/
lemma Ids.attempts (h : Ids cfg e H H') (hs : H.Sound cfg) :
    ∃ new : Option Attempt, H'.attempts = H.attempts ++ new.toList ∧
      ∀ a ∈ new, H'.requests.uid a.req = a.uid ∧ (a.uid, a.req) ∈ H'.requests.issued ∧
        (H'.request a.req).route ≠ none ∧
        ∀ b ∈ H.attempts, b.req = a.req → OnRetryLast cfg H' b.req → b.uid ≠ a.uid := by
  have hnone : H'.attempts = H.attempts →
      H'.attempts = H.attempts ++ (none : Option Attempt).toList :=
    fun h => by rw [h, Option.toList_none, List.append_nil]
  have hissues : ∀ {r uid}, Issues r uid H H' →
      ∃ new : Option Attempt, H'.attempts = H.attempts ++ new.toList ∧
        ∀ a ∈ new, H'.requests.uid a.req = a.uid ∧ (a.uid, a.req) ∈ H'.requests.issued ∧
          (H'.request a.req).route ≠ none ∧
          ∀ b ∈ H.attempts, b.req = a.req → OnRetryLast cfg H' b.req → b.uid ≠ a.uid := by
    intro r uid h
    rcases h.attempts with hsame | ⟨hroute, values, happend⟩
    · exact ⟨none, hnone hsame, fun a ha => by cases ha⟩
    · refine ⟨some ⟨r, uid, values⟩, happend, fun a ha => ?_⟩
      cases ha
      refine ⟨?_, ?_, hroute, fun b hb _ _ => ?_⟩
      · rw [h.ids, Function.update_self]
      · rw [h.issued]
        simp
      · exact (h.fresh hs' hfew (hknown b hb).1).symm
  cases h with
  | same h _ => exact ⟨none, hnone h.attempts, fun a ha => by cases ha⟩
  | @again r h hmode hin hlate =>
    rcases h with hsteady | ⟨hkeeps, hroute, values, happend⟩
    · exact ⟨none, hnone hsteady.attempts, fun a ha => by cases ha⟩
    · refine ⟨some ⟨r, H.requests.uid r, values⟩, happend, fun a ha => ?_⟩
      cases ha
      refine ⟨congrFun hkeeps.uid r, ?_, ?_, fun b hb hreq hlast => ?_⟩
      · obtain ⟨k, hk⟩ := (hs.sieve r).mp hin
        rw [hkeeps.issued]
        exact Registry.mem_issued_of_stays (hs.registry.named k r hk).2
      · rwa [hkeeps.route r hroute]
      · obtain ⟨route, hroute', hlast⟩ := hlast
        obtain rfl : b.req = r := hreq
        rw [hkeeps.route _ hroute] at hroute'
        exact absurd ⟨route, hroute', hlast⟩ hmode
  | new h _ _ => exact hissues h
  | renewed h _ => exact hissues h

end

/-! ### The wire -/

/-- The requests, the attempts whose id ZeroMQ has not transmitted yet, those that it has
transmitted with the id on the wire, and for every timer that fired the request and the number of
attempts until then. Attempts are numbered as in `attempts`. -/
structure Wire where
  http : Http
  queued : List Nat
  sent : List (Nat × Bytes)
  timeouts : List (ReqId × Nat)

namespace Wire

/-- An event of the gateway, or ZeroMQ transmits the id of one of the attempts that wait for it. -/
inductive Input where
  | event (e : Event)
  | transmit (k : Nat)

def init (cfg : HttpConfig) : Wire := ⟨.init cfg, [], [], []⟩

/-- The timer that fires, with the number of attempts. -/
def fired (e : Event) (H : Http) : List (ReqId × Nat) :=
  match e with
  | .timeout r _ => if (H.request r).timer then [(r, H.attempts.length)] else []
  | _ => []

/-- ZeroMQ reads the id from the memory of the request. -/
def step (cfg : HttpConfig) (x : Input) (W : Wire) : Except Fault Wire :=
  match x with
  | .event e => do
    let H ← Http.step cfg e W.http
    return { W with
      http := H
      queued := W.queued ++
        List.range' W.http.attempts.length (H.attempts.length - W.http.attempts.length)
      timeouts := W.timeouts ++ fired e W.http }
  | .transmit k =>
    match W.queued[k]? with
    | none => .ok W
    | some i => match W.http.attempts[i]? with
      | none => .ok W
      | some a => .ok { W with
          queued := W.queued.eraseIdx k
          sent := W.sent ++ [(i, W.http.requests.uid a.req)] }

/-- Attempt `i` belongs to request `r`. -/
def Of (W : Wire) (i : Nat) (r : ReqId) : Prop :=
  ∃ a, W.http.attempts[i]? = some a ∧ a.req = r

/-- The time of attempt `i` is up. -/
def Late (W : Wire) (i : Nat) : Prop :=
  ∃ r n, (r, n) ∈ W.timeouts ∧ W.Of i r ∧ i < n

/-- No request is tried again with a new id while an attempt of it waits to be transmitted. -/
def Prompt (cfg : HttpConfig) : Input → Wire → Prop
  | .event e, W => ∀ r, e.Renews cfg W.http r → ∀ i ∈ W.queued, ¬ W.Of i r
  | .transmit _, _ => True

/-! ### The invariant -/

/-- Attempts that wait have the current id of their request, and those that have been transmitted
carried their own. With `RetryLast`, the attempts of a request have different ids, and one whose
time is up has not the current id of its request, if that is in the sieve. -/
structure Sound (cfg : HttpConfig) (W : Wire) : Prop where
  http : W.http.Sound cfg
  known : Known W.http
  apart : W.http.attempts.Pairwise fun a b =>
    a.req = b.req → OnRetryLast cfg W.http a.req → a.uid ≠ b.uid
  queued : ∀ i ∈ W.queued, ∃ a, W.http.attempts[i]? = some a ∧ W.http.requests.uid a.req = a.uid
  sent : ∀ i u, (i, u) ∈ W.sent → ∃ a, W.http.attempts[i]? = some a ∧ u = a.uid
  bounds : ∀ r n, (r, n) ∈ W.timeouts → n ≤ W.http.attempts.length
  late : ∀ i a, W.http.attempts[i]? = some a → W.Late i → OnRetryLast cfg W.http a.req →
    (W.http.request a.req).inSieve = true → W.http.requests.uid a.req ≠ a.uid

variable {W W' : Wire} {x : Input}

lemma Sound.init : (init cfg).Sound cfg := by
  refine ⟨.init cfg, fun a ha => ?_, List.Pairwise.nil, fun i hi => ?_, fun i u hu => ?_,
    fun r n hn => ?_, fun i a ha => ?_⟩
  · cases ha
  · cases hi
  · cases hu
  · cases hn
  · cases ha

lemma Sound.transmit (hW : W.Sound cfg) {k : Nat} (h : step cfg (.transmit k) W = .ok W') :
    W'.Sound cfg := by
  rw [step] at h
  split at h
  · cases h
    exact hW
  · next i hi =>
    obtain ⟨a, ha, huid⟩ := hW.queued i (List.mem_of_getElem? hi)
    rw [ha] at h
    cases h
    refine ⟨hW.http, hW.known, hW.apart, fun j hj => hW.queued j (List.mem_of_mem_eraseIdx hj),
      fun j u hu => ?_, hW.bounds, hW.late⟩
    rcases List.mem_append.mp hu with hu | hu
    · exact hW.sent j u hu
    · cases List.mem_singleton.mp hu
      exact ⟨a, ha, huid⟩

lemma mem_fired {n : Nat} (h : (r, n) ∈ fired e H) : e.TimesOut H r ∧ n = H.attempts.length := by
  cases e with
  | timeout r' result =>
    by_cases htimer : (H.request r').timer = true
    · rw [fired, if_pos htimer, List.mem_singleton] at h
      cases h
      exact ⟨⟨result, rfl, htimer⟩, rfl⟩
    · rw [fired, if_neg htimer] at h
      cases h
  | _ => cases h

lemma Sound.event (hW : W.Sound cfg) (hC : Prompt cfg (.event e) W)
    (h : step cfg (.event e) W = .ok W') (hfew : W'.http.requests.issued.length < 2 ^ 64) :
    W'.Sound cfg := by
  obtain ⟨H, hstep, hret⟩ := bind_eq_ok.mp h
  cases hret
  dsimp only at hfew
  have hs' := hW.http.step hstep
  have hids := ids_of_step hW.http hstep
  obtain ⟨new, happend, hnew⟩ := hids.attempts hs' hfew hW.known hW.http
  obtain ⟨issued, hissued⟩ := hids.issued
  have hold : ∀ {i : Nat} {a}, W.http.attempts[i]? = some a → H.attempts[i]? = some a := by
    intro i a ha
    rw [happend, List.getElem?_append_left (List.getElem?_eq_some_iff.mp ha).1, ha]
  have hback : ∀ {i : Nat} {a}, H.attempts[i]? = some a → i < W.http.attempts.length →
      W.http.attempts[i]? = some a := by
    intro i a ha hi
    rwa [happend, List.getElem?_append_left hi] at ha
  refine ⟨hs', fun a ha => ?_, ?_, fun i hi => ?_, fun i u hu => ?_, fun r n hn => ?_,
    fun i a ha hlate hlast hin => ?_⟩
  · rw [happend, List.mem_append, Option.mem_toList] at ha
    rcases ha with ha | ha
    · refine ⟨?_, ?_⟩
      · rw [hissued]
        exact List.mem_append_left _ (hW.known a ha).1
      · rw [hids.route (hW.known a ha).2]
        exact (hW.known a ha).2
    · exact ⟨(hnew a ha).2.1, (hnew a ha).2.2.1⟩
  · rw [happend, List.pairwise_append]
    refine ⟨hW.apart.imp_of_mem fun ha _ hne hreq hlast => ?_, ?_, fun a ha b hb hreq hlast => ?_⟩
    · exact hne hreq (hids.onRetryLast (hW.known _ ha).2 hlast)
    · cases new with
      | none => exact List.Pairwise.nil
      | some a => exact List.pairwise_singleton _ a
    · exact (hnew b (Option.mem_toList.mp hb)).2.2.2 a ha hreq hlast
  · rcases List.mem_append.mp hi with hi | hi
    · obtain ⟨a, ha, huid⟩ := hW.queued i hi
      have hcases := hids.uid_eq_or hs' hfew hW.known (List.mem_of_getElem? ha)
      rcases hcases with ⟨hsame, -⟩ | ⟨hrenews, -⟩
      · exact ⟨a, hold ha, hsame.trans huid⟩
      · exact absurd ⟨a, ha, rfl⟩ (hC a.req hrenews i hi)
    · cases new with
      | none =>
        rw [happend, Option.toList_none, List.append_nil, Nat.sub_self] at hi
        cases hi
      | some a =>
        rw [happend, List.length_append, Nat.add_sub_cancel_left] at hi
        obtain rfl := List.mem_singleton.mp hi
        exact ⟨a, by rw [happend]; exact List.getElem?_concat_length, (hnew a rfl).1⟩
  · obtain ⟨a, ha, huid⟩ := hW.sent i u hu
    exact ⟨a, hold ha, huid⟩
  · rw [happend, List.length_append]
    rcases List.mem_append.mp hn with hn | hn
    · exact (hW.bounds r n hn).trans (Nat.le_add_right _ _)
    · rw [(mem_fired hn).2]
      exact Nat.le_add_right _ _
  · obtain ⟨r, n, hn, ⟨a', ha', rfl⟩, hi⟩ := hlate
    cases ha.symm.trans ha'
    rcases List.mem_append.mp hn with hn | hn
    · have ha := hback ha (hi.trans_le (hW.bounds _ n hn))
      have hroute := (hW.known a (List.mem_of_getElem? ha)).2
      have hcases := hids.uid_eq_or hs' hfew hW.known (List.mem_of_getElem? ha)
      rcases hcases with ⟨hsame, hleaves⟩ | ⟨-, hne⟩
      · rw [hsame]
        exact hW.late i a ha ⟨_, n, hn, ⟨a, ha, rfl⟩, hi⟩ (hids.onRetryLast hroute hlast)
          (hleaves hin)
      · exact hne
    · obtain ⟨htimes, rfl⟩ := mem_fired hn
      exact hids.late hs' hfew hW.known (List.mem_of_getElem? (hback ha hi)) htimes hlast hin

/-- The requests are sound after every run, and the ids that are issued stay issued. -/
lemma http_of_step (hs : W.http.Sound cfg) (h : step cfg x W = .ok W') :
    W'.http.Sound cfg ∧ W.http.requests.issued.length ≤ W'.http.requests.issued.length := by
  cases x with
  | event e =>
    obtain ⟨H, hstep, hret⟩ := bind_eq_ok.mp h
    cases hret
    obtain ⟨issued, hissued⟩ := (ids_of_step hs hstep).issued
    refine ⟨hs.step hstep, ?_⟩
    rw [hissued, List.length_append]
    exact Nat.le_add_right _ _
  | transmit k =>
    rw [step] at h
    split at h
    · cases h
      exact ⟨hs, le_rfl⟩
    · split at h <;> cases h <;> exact ⟨hs, le_rfl⟩

lemma sound_of_reachable (hr : ReachableVia (step cfg) (Prompt cfg) (init cfg) W)
    (hfew : W.http.requests.issued.length < 2 ^ 64) : W.Sound cfg := by
  have hinv : W.http.Sound cfg ∧ (W.http.requests.issued.length < 2 ^ 64 → W.Sound cfg) := by
    refine hr.invariant (I := fun W : Wire => W.http.Sound cfg ∧
      (W.http.requests.issued.length < 2 ^ 64 → W.Sound cfg)) ⟨.init cfg, fun _ => .init⟩ ?_
    intro x W W' hC hI h
    obtain ⟨hs', hle⟩ := http_of_step hI.1 h
    refine ⟨hs', fun hfew => ?_⟩
    have hW := hI.2 (hle.trans_lt hfew)
    cases x with
    | event e => exact hW.event hC h hfew
    | transmit k => exact hW.transmit h
  exact hinv.2 hfew

/-- The attempts of a request on a route with `RetryLast` carry different ids. -/
lemma Sound.ne_of_sent (hW : W.Sound cfg) {i j : Nat} {u v : Bytes} (hu : (i, u) ∈ W.sent)
    (hv : (j, v) ∈ W.sent) (hi : W.Of i r) (hj : W.Of j r) (hlast : OnRetryLast cfg W.http r)
    (hij : i < j) : u ≠ v := by
  obtain ⟨a, ha, rfl⟩ := hi
  obtain ⟨b, hb, hreq⟩ := hj
  obtain ⟨a', ha', rfl⟩ := hW.sent i u hu
  obtain ⟨b', hb', rfl⟩ := hW.sent j v hv
  cases ha.symm.trans ha'
  cases hb.symm.trans hb'
  obtain ⟨hi, rfl⟩ := List.getElem?_eq_some_iff.mp ha
  obtain ⟨hj, rfl⟩ := List.getElem?_eq_some_iff.mp hb
  exact List.pairwise_iff_getElem.mp hW.apart i j hi hj hij hreq.symm hlast

/-- In every run in which no request is tried again with a new id while an earlier attempt of it
waits to be transmitted, and in which fewer than 2^64 ids have been issued: on a route with
`RetryLast`, two attempts of one request carry different ids on the wire, and a reply of two parts
or more to the id that an attempt carried is an orphan once its time is up. -/
theorem superseded_never_answered (hr : ReachableVia (step cfg) (Prompt cfg) (init cfg) W)
    (hfew : W.http.requests.issued.length < 2 ^ 64) {i : Nat} {u : Bytes} (hu : (i, u) ∈ W.sent)
    (hi : W.Of i r) (hlast : OnRetryLast cfg W.http r) :
    (∀ j v, (j, v) ∈ W.sent → W.Of j r → i ≠ j → u ≠ v) ∧
    (W.Late i → ∀ route part rest, Http.step cfg (.reply route (u :: part :: rest)) W.http
      = .ok { W.http with orphans := W.http.orphans + 1 }) := by
  have hW := sound_of_reachable hr hfew
  refine ⟨fun j v hv hj hne => ?_, fun hlate route part rest => ?_⟩
  · rcases Nat.lt_or_gt_of_ne hne with hij | hji
    · exact hW.ne_of_sent hu hv hi hj hlast hij
    · exact (hW.ne_of_sent hv hu hj hi hlast hji).symm
  · obtain ⟨a, ha, rfl⟩ := hi
    obtain ⟨a', ha', rfl⟩ := hW.sent i u hu
    cases ha.symm.trans ha'
    have hissued := (hW.known a (List.mem_of_getElem? ha)).1
    exact reply_eq_orphan hW.http hfew hissued (fun hin => hW.late i a ha hlate hlast hin)
      route part rest

/-! ### A gateway that retries -/

/-- Requests are tried three times. -/
def retryingGateway : HttpConfig :=
  { smallGateway with
    route := fun _ =>
      { smallGateway.route 0 with
        zmqForward := ⟨true, [.body], 1, .retryLast, 3, by decide⟩ } }

/-- What is seen of a run. -/
def summary (W : Wire) : List (Nat × Bytes) × List (ReqId × Nat) × List ReqId × Option RouteId ×
    Nat :=
  (W.sent, W.timeouts, W.http.attempts.map Attempt.req, (W.http.request 0).route,
    W.http.requests.issued.length)

lemma onRetryLast_of_route (h : (W.http.request 0).route = some 0) :
    OnRetryLast retryingGateway W.http 0 := ⟨0, h, rfl⟩

lemma of_of_map {i : Nat} {reqs : List ReqId} (h : W.http.attempts.map Attempt.req = reqs)
    (hi : reqs[i]? = some r) : W.Of i r := by
  rw [← h, List.getElem?_map] at hi
  exact Option.map_eq_some_iff.mp hi

lemma prompt_of_not_timesOut (h : ∀ H r, ¬ e.TimesOut H r) : Prompt cfg (.event e) W :=
  fun r hrenews => absurd hrenews.1 (h W.http r)

/-- A first attempt that is transmitted in time, and a second one: the reply to the first one is an
orphan. -/
theorem superseded_never_answered_prompt : ∃ W : Wire, ∃ u v, (0, u) ∈ W.sent ∧ (1, v) ∈ W.sent ∧
    u ≠ v ∧ Http.step retryingGateway (.reply 0 [u, [], str "Hello"]) W.http
      = .ok { W.http with orphans := W.http.orphans + 1 } := by
  have harrives : ∀ W, Prompt retryingGateway (.event arrives) W := by
    refine fun W => prompt_of_not_timesOut ?_
    rintro H r ⟨_, he, -⟩
    cases he
  have hfirst : (run (step retryingGateway) [.event arrives, .transmit 0]
      (init retryingGateway)).map Wire.queued = .ok [] := rfl
  obtain ⟨W₂, hrun₂, hqueued⟩ := exists_of_map_eq_ok hfirst
  have hrest : ((run (step retryingGateway) [.event arrives, .transmit 0] (init retryingGateway) >>=
      run (step retryingGateway) [.event (.timeout 0 .accepted), .transmit 0])).map summary
      = .ok ([(0, mkUid (List.replicate 16 0) 0 0 (List.replicate 8 0)),
          (1, mkUid (List.replicate 16 0) 1 1 (List.replicate 8 0))],
        [(0, 1)], [0, 0], some 0, 2) := rfl
  rw [hrun₂, ok_bind] at hrest
  obtain ⟨W, hrun, hview⟩ := exists_of_map_eq_ok hrest
  obtain ⟨W₃, htimeout, hlast⟩ := bind_eq_ok.mp hrun
  have hr₂ : ReachableVia (step retryingGateway) (Prompt retryingGateway)
      (init retryingGateway) W₂ := by
    refine .of_run .init (fun x hx W => ?_) hrun₂
    simp only [List.mem_cons, List.not_mem_nil, or_false] at hx
    rcases hx with rfl | rfl
    · exact harrives W
    · trivial
  have hprompt : Prompt retryingGateway (.event (.timeout 0 .accepted)) W₂ := by
    intro r _ i hi
    rw [hqueued] at hi
    cases hi
  have hr := (hr₂.step hprompt htimeout).of_run (fun x hx W => ?_) hlast
  swap
  · cases List.mem_singleton.mp hx
    trivial
  simp only [summary, Prod.mk.injEq] at hview
  obtain ⟨hsent, htimeouts, hreqs, hroute, hissued⟩ := hview
  have hof : W.Of 0 0 := of_of_map hreqs rfl
  have hmem₀ : (0, mkUid (List.replicate 16 0) 0 0 (List.replicate 8 0)) ∈ W.sent := by simp [hsent]
  have hmem₁ : (1, mkUid (List.replicate 16 0) 1 1 (List.replicate 8 0)) ∈ W.sent := by simp [hsent]
  obtain ⟨hne, horphan⟩ := superseded_never_answered hr (by rw [hissued]; norm_num) hmem₀ hof
    (onRetryLast_of_route hroute)
  refine ⟨W, _, _, hmem₀, hmem₁, hne 1 _ hmem₁ (of_of_map hreqs rfl) (by decide), ?_⟩
  exact horphan ⟨0, 1, by simp [htimeouts], hof, by decide⟩ 0 [] [str "Hello"]

/-- Both attempts are transmitted after the time of the first one is up: they carry the same id, and
the reply to the first one is the response. -/
theorem superseded_attempt_answered : ∃ W : Wire, ∃ u,
    Reachable (step retryingGateway) (init retryingGateway) W ∧
    (0, u) ∈ W.sent ∧ (1, u) ∈ W.sent ∧ W.Of 0 0 ∧ W.Of 1 0 ∧ W.Late 0 ∧
    OnRetryLast retryingGateway W.http 0 ∧
    (Http.step retryingGateway (.reply 0 [u, [], str "Hello"]) W.http).map
      (fun H => (H.request 0).responses.map Response.body) = .ok [str "Hello"] := by
  have hrun : (run (step retryingGateway)
      [.event arrives, .event (.timeout 0 .accepted), .transmit 0, .transmit 0]
      (init retryingGateway)).map (fun W => (summary W,
        (Http.step retryingGateway (.reply 0
          [mkUid (List.replicate 16 0) 1 1 (List.replicate 8 0), [], str "Hello"]) W.http).map
          fun H => (H.request 0).responses.map Response.body))
      = .ok (([(0, mkUid (List.replicate 16 0) 1 1 (List.replicate 8 0)),
          (1, mkUid (List.replicate 16 0) 1 1 (List.replicate 8 0))],
        [(0, 1)], [0, 0], some 0, 2), .ok [str "Hello"]) := rfl
  obtain ⟨W, hr, hview⟩ := exists_of_run _ (fun _ _ _ => trivial) hrun
  simp only [summary, Prod.mk.injEq] at hview
  obtain ⟨⟨hsent, htimeouts, hreqs, hroute, -⟩, hreply⟩ := hview
  have hof : W.Of 0 0 := of_of_map hreqs rfl
  refine ⟨W, _, hr, ?_, ?_, hof, of_of_map hreqs rfl, ?_, onRetryLast_of_route hroute, hreply⟩
  · simp [hsent]
  · simp [hsent]
  · exact ⟨0, 1, by simp [htimeouts], hof, by decide⟩

end Wire

end Http

end Zerogw
