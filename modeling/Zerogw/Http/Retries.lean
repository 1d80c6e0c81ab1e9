import Zerogw.Http.Answers

/-!
# Retries

What every event does to the ids of requests and to the attempts that have been forwarded with them:
a request gets an id when it arrives and, on a route with `RetryLast`, when it is tried again.
-/

namespace Zerogw

open Execution

namespace Http

variable {cfg : HttpConfig} {H H' H₁ : Http} {r : ReqId} {q : HttpRequest} {e : Event}
  {route : RouteId} {result : ForwardResult} {uid : Bytes}

/-! ### Handlers that issue no id -/

/-- No id is issued, requests keep their routes, and they only leave the sieve. -/
structure Keeps (H H' : Http) : Prop where
  uid : H'.requests.uid = H.requests.uid
  issued : H'.requests.issued = H.requests.issued
  route : ∀ r, (H.request r).route ≠ none → (H'.request r).route = (H.request r).route
  leaves : ∀ r, (H'.request r).inSieve = true → (H.request r).inSieve = true

/-- Nothing is forwarded either. -/
structure Steady (H H' : Http) : Prop extends Keeps H H' where
  attempts : H'.attempts = H.attempts

lemma Keeps.trans (h₁ : Keeps H H₁) (h₂ : Keeps H₁ H') : Keeps H H' := by
  refine ⟨h₂.uid.trans h₁.uid, h₂.issued.trans h₁.issued, fun r h => ?_,
    fun r h => h₁.leaves r (h₂.leaves r h)⟩
  have hsame := h₁.route r h
  exact (h₂.route r (hsame ▸ h)).trans hsame

lemma Steady.refl : Steady H H := ⟨⟨rfl, rfl, fun _ _ => rfl, fun _ => id⟩, rfl⟩

lemma Steady.trans (h₁ : Steady H H₁) (h₂ : Steady H₁ H') : Steady H H' :=
  ⟨h₁.toKeeps.trans h₂.toKeeps, h₂.attempts.trans h₁.attempts⟩

lemma steady_set (hroute : (H.request r).route ≠ none → q.route = (H.request r).route)
    (hin : q.inSieve = true → (H.request r).inSieve = true) : Steady H (H.setRequest r q) := by
  refine ⟨⟨rfl, rfl, fun r' h => ?_, fun r' h => ?_⟩, rfl⟩
  · by_cases hr : r' = r
    · subst hr
      rw [setRequest_self, hroute h]
    · rw [setRequest_of_ne hr]
  · by_cases hr : r' = r
    · subst hr
      rw [setRequest_self] at h
      exact hin h
    · rwa [setRequest_of_ne hr] at h

/-- A request changes, but neither its route nor whether it is in the sieve. -/
lemma steady_update (hroute : q.route = (H.request r).route)
    (hin : q.inSieve = (H.request r).inSieve) : Steady H (H.setRequest r q) :=
  steady_set (fun _ => hroute) fun h => hin ▸ h

lemma uid_of_empty {R R' : Registry ReqId} {hole : Nat} (h : R.empty hole = .ok R') :
    R'.uid = R.uid ∧ R'.issued = R.issued := by
  rw [Registry.empty] at h
  split at h
  · cases h
  · cases h
    simp [Registry.issued]

/-- `request_finish`; the request has left the sieve. -/
lemma steady_finish (h : H.requestFinish r = .ok H') :
    Steady H H' ∧ (H'.request r).inSieve = false := by
  have hset := steady_set (q := { H.request r with inSieve := false, timer := false })
    (fun _ => rfl) fun h => by cases h
  rw [requestFinish, ite_bind] at h
  obtain ⟨requests, hempty, hret⟩ := bind_eq_ok.mp h
  cases hret
  have hsame : requests.uid = H.requests.uid ∧ requests.issued = H.requests.issued := by
    split_ifs at hempty
    · exact uid_of_empty hempty
    · cases hempty
      exact ⟨rfl, rfl⟩
  refine ⟨⟨⟨hsame.1, hsame.2, hset.route, hset.leaves⟩, hset.attempts⟩, ?_⟩
  show ((H.setRequest r _).request r).inSieve = false
  rw [setRequest_self]

lemma steady_close {resp : StaticResponse} (h : H.close r resp = .ok H') :
    Steady H H' ∧ (H'.request r).inSieve = false := by
  obtain ⟨hfinish, hout⟩ := steady_finish h
  refine ⟨Steady.trans ?_ hfinish, hout⟩
  exact steady_update rfl rfl

lemma steady_reply {status body : Bytes} {headers own : List (Bytes × Bytes)}
    (h : H.reply r status headers own body = .ok H') : Steady H H' := by
  rw [reply] at h
  split_ifs at h
  refine Steady.trans ?_ (steady_finish h).1
  exact steady_update rfl rfl

lemma steady_decref (h : H.decref r = .ok H') : Steady H H' := by
  rw [decref] at h
  split_ifs at h
  · refine Steady.trans ?_ (steady_finish h).1
    exact steady_update rfl rfl
  · cases h
    exact steady_update rfl rfl

lemma steady_httpProcess {frames : List Bytes} (h : H.httpProcess cfg route frames = .ok H') :
    Steady H H' := by
  unfold httpProcess at h
  split at h
  · next id sentinel rest =>
    dsimp only at h
    by_cases hlen : id.length ≠ uidLen
    · rw [if_pos hlen] at h
      cases h
      exact .refl
    · rw [if_neg hlen] at h
      obtain ⟨o, -, h⟩ := bind_eq_ok.mp h
      cases o with
      | none =>
        cases h
        exact ⟨⟨rfl, rfl, fun _ _ => rfl, fun _ h => h⟩, rfl⟩
      | some r =>
        dsimp only at h
        by_cases hshort : rest = [] ∨ sentinel ≠ []
        · rw [if_pos hshort] at h
          cases h
          exact .refl
        · rw [if_neg hshort] at h
          split at h
          · cases h
            exact .refl
          · exact steady_reply h
          · exact steady_reply h
          · exact steady_reply h
          · exact (steady_close h).1
  · cases h
    exact .refl

lemma steady_diskAnswer {sentinel : Bytes} {rest : List Bytes}
    (h : H.diskAnswer cfg r sentinel rest = .ok H') : Steady H H' := by
  unfold diskAnswer at h
  dsimp only at h
  by_cases hrest : rest = []
  · rw [if_pos hrest] at h
    cases h
    exact .refl
  rw [if_neg hrest] at h
  by_cases hsentinel : sentinel ≠ []
  · rw [if_pos hsentinel] at h
    cases h
  rw [if_neg hsentinel] at h
  split at h
  · cases h
    exact .refl
  · exact (steady_close h).1
  · exact steady_reply h
  · exact steady_reply h
  · exact (steady_close h).1

lemma steady_diskProcess {frames : List Bytes} (h : H.diskProcess cfg frames = .ok H') :
    Steady H H' := by
  unfold diskProcess at h
  split at h
  · next id sentinel rest =>
    by_cases hlen : id.length ≠ uidLen
    · rw [if_pos hlen] at h
      cases h
    · rw [if_neg hlen] at h
      obtain ⟨o, -, h⟩ := bind_eq_ok.mp h
      cases o with
      | none => cases h
      | some r =>
        obtain ⟨H₁, hanswer, hdecref⟩ := bind_eq_ok.mp h
        refine Steady.trans ?_ ((steady_diskAnswer hanswer).trans (steady_decref hdecref))
        exact steady_update rfl rfl
  · cases h

/-! ### Handlers that issue ids or forward requests -/

/-- A call of `make_hole_uid` that finds a slot. -/
lemma makeUid_eq (h : (H.makeUid cfg r).1 = true) : ∃ uid,
    (H.makeUid cfg r).2.requests.uid = Function.update H.requests.uid r uid ∧
    (H.makeUid cfg r).2.requests.issued = H.requests.issued ++ [(uid, r)] := by
  rw [makeUid, Registry.make] at h ⊢
  cases hmake : H.requests.sieve.makeHoleUid cfg.instanceId (List.replicate uidNRandom 0) r with
  | none =>
    rw [hmake] at h
    cases h
  | some found => exact ⟨found.1, rfl, by simp [Registry.issued]⟩

/-- Request `r` is forwarded with its id, or answered at once. -/
def Forwards (r : ReqId) (H H' : Http) : Prop :=
  Steady H H' ∨ Keeps H H' ∧ (H.request r).route ≠ none ∧
    ∃ values, H'.attempts = H.attempts ++ [⟨r, H.requests.uid r, values⟩]

lemma Forwards.then (h₁ : Forwards r H H₁) (h₂ : Steady H₁ H') : Forwards r H H' := by
  rcases h₁ with h₁ | ⟨h₁, hroute, values, hattempts⟩
  · exact Or.inl (h₁.trans h₂)
  · exact Or.inr ⟨h₁.trans h₂.toKeeps, hroute, values, h₂.attempts.trans hattempts⟩

lemma Forwards.after (h₁ : Steady H H₁) (hroute : (H.request r).route ≠ none)
    (h₂ : Forwards r H₁ H') : Forwards r H H' := by
  rcases h₂ with h₂ | ⟨h₂, -, values, hattempts⟩
  · exact Or.inl (h₁.trans h₂)
  · refine Or.inr ⟨h₁.toKeeps.trans h₂, hroute, values, ?_⟩
    rw [hattempts, h₁.attempts, h₁.uid]

lemma Forwards.keeps (h : Forwards r H H') : Keeps H H' := by
  rcases h with h | ⟨h, -⟩
  · exact h.toKeeps
  · exact h

lemma forwards_doForward {sent : Bool} (h : H.doForward cfg result r = .ok (sent, H')) :
    Forwards r H H' := by
  have hclose : ∀ {resp : StaticResponse}, (do
      let H ← H.close r resp
      return (false, H)) = Except.ok (sent, H') → Forwards r H H' := by
    intro resp hresp
    obtain ⟨H₁, hclose, hret⟩ := bind_eq_ok.mp hresp
    cases hret
    exact Or.inl (steady_close hclose).1
  rw [doForward] at h
  split at h
  · cases h
  · next route hroute =>
    cases result with
    | eagain => exact hclose h
    | failed => exact hclose h
    | accepted =>
      dsimp only at h
      split_ifs at h
      obtain ⟨values, -, hret⟩ := bind_eq_ok.mp h
      cases hret
      have hset := steady_update (H := H) (r := r) (q := { H.request r with
        refcnt := (H.request r).refcnt + (1 + values.length)
        held := (H.request r).held + (1 + values.length) }) rfl rfl
      refine Or.inr ⟨⟨hset.uid, hset.issued, hset.route, hset.leaves⟩, ?_, values, rfl⟩
      rw [hroute]
      simp

lemma forwards_retry (h : H.retry cfg result r = .ok H') : Forwards r H H' := by
  obtain ⟨⟨sent, H₁⟩, hforward, hret⟩ := bind_eq_ok.mp h
  have hforwards := forwards_doForward hforward
  cases sent with
  | false =>
    cases hret
    exact hforwards
  | true =>
    cases hret
    exact hforwards.then (steady_update rfl rfl)

/-- Request `r` gets the id `uid`, and may be forwarded with it. -/
structure Issues (r : ReqId) (uid : Bytes) (H H' : Http) : Prop where
  ids : H'.requests.uid = Function.update H.requests.uid r uid
  issued : H'.requests.issued = H.requests.issued ++ [(uid, r)]
  route : ∀ r', (H.request r').route ≠ none → (H'.request r').route = (H.request r').route
  leaves : ∀ r', r' ≠ r → (H'.request r').inSieve = true → (H.request r').inSieve = true
  attempts : H'.attempts = H.attempts ∨ (H'.request r).route ≠ none ∧
    ∃ values, H'.attempts = H.attempts ++ [⟨r, uid, values⟩]

lemma issues_of_make (h : (H.makeUid cfg r).1 = true) :
    ∃ uid, Issues r uid H (H.makeUid cfg r).2 ∧ (H.makeUid cfg r).2.attempts = H.attempts := by
  obtain ⟨uid, huid, hissued⟩ := makeUid_eq h
  exact ⟨uid, ⟨huid, hissued, fun _ _ => rfl, fun _ _ h => h, Or.inl rfl⟩, rfl⟩

lemma Issues.of_steady (h₁ : Steady H H₁) (h₂ : Issues r uid H₁ H') : Issues r uid H H' := by
  refine ⟨h₁.uid ▸ h₂.ids, h₁.issued ▸ h₂.issued, fun r' h => ?_,
    fun r' hr' h => h₁.leaves r' (h₂.leaves r' hr' h), h₁.attempts ▸ h₂.attempts⟩
  have hsame := h₁.route r' h
  exact (h₂.route r' (hsame ▸ h)).trans hsame

lemma Issues.steady (h₁ : Issues r uid H H₁) (h₂ : Steady H₁ H') : Issues r uid H H' := by
  refine ⟨h₂.uid.trans h₁.ids, h₂.issued.trans h₁.issued, fun r' h => ?_,
    fun r' hr' h => h₁.leaves r' hr' (h₂.leaves r' h), ?_⟩
  · have hsame := h₁.route r' h
    exact (h₂.route r' (hsame ▸ h)).trans hsame
  · rw [h₂.attempts]
    refine h₁.attempts.imp_right fun ⟨hroute, hvalues⟩ => ⟨?_, hvalues⟩
    rwa [h₂.route r hroute]

/-- The request changes, but not its route. -/
lemma Issues.set (h : Issues r uid H H₁) (hroute : q.route = (H₁.request r).route) :
    Issues r uid H (H₁.setRequest r q) := by
  refine ⟨h.ids, h.issued, fun r' hr' => ?_, fun r' hr' hin => ?_, ?_⟩
  · by_cases hr : r' = r
    · subst hr
      rw [setRequest_self, hroute, h.route r' hr']
    · rw [setRequest_of_ne hr, h.route r' hr']
  · rw [setRequest_of_ne hr'] at hin
    exact h.leaves r' hr' hin
  · rw [setRequest_self, hroute]
    exact h.attempts

/-- The request is forwarded with its new id. -/
lemma Issues.forwards (h : Issues r uid H H₁) (hattempts : H₁.attempts = H.attempts)
    (h' : Forwards r H₁ H') : Issues r uid H H' := by
  have hkeeps := h'.keeps
  refine ⟨hkeeps.uid.trans h.ids, hkeeps.issued.trans h.issued, fun r' hr' => ?_,
    fun r' hr' hin => h.leaves r' hr' (hkeeps.leaves r' hin), ?_⟩
  · have hsame := h.route r' hr'
    exact (hkeeps.route r' (hsame ▸ hr')).trans hsame
  · rcases h' with h' | ⟨-, hroute, values, happend⟩
    · exact Or.inl (h'.attempts.trans hattempts)
    · refine Or.inr ⟨hkeeps.route r hroute ▸ hroute, values, ?_⟩
      rw [happend, hattempts, h.ids, Function.update_self]

lemma steady_staticResponse (resp : StaticResponse) : Steady H (H.staticResponse r resp) :=
  steady_update rfl rfl

lemma issues_diskRequest (h : (H.makeUid cfg r).1 = true) :
    Steady H (H.diskRequest cfg result r) ∨ ∃ uid, Issues r uid H (H.diskRequest cfg result r) := by
  obtain ⟨uid, hissues, -⟩ := issues_of_make h
  rw [diskRequest]
  split_ifs
  · exact Or.inl (steady_staticResponse _)
  · right
    refine ⟨uid, ?_⟩
    have hset := hissues.set (q := { (H.makeUid cfg r).2.request r with inSieve := true }) rfl
    cases result with
    | accepted => exact hissues.set rfl
    | eagain => exact hset.steady (steady_staticResponse _)
    | failed => exact hset.steady (steady_staticResponse _)

/-- `http_request`: a request with a route that needs one gets an id. -/
lemma issues_httpRequest (hs : H.Sound cfg) (hnone : (H.request r).route = none) {target : Target}
    {p : Int × Http} (h : H.httpRequest cfg target result r = .ok p) :
    Steady H p.2 ∨ ∃ uid, Issues r uid H p.2 := by
  have hclose : ∀ {H₁ : Http} {resp : StaticResponse}, Steady H H₁ → (do
      let H ← H₁.close r resp
      return ((0 : Int), H)) = Except.ok p → Steady H p.2 := by
    intro H₁ resp hsteady hresp
    obtain ⟨H₂, hclose, hret⟩ := bind_eq_ok.mp hresp
    cases hret
    exact hsteady.trans (steady_close hclose).1
  unfold httpRequest at h
  by_cases hfull : H.requests.sieve.full = true
  · rw [if_pos hfull] at h
    exact Or.inl (hclose .refl h)
  rw [if_neg hfull] at h
  cases target with
  | notFound route => exact Or.inl (hclose .refl h)
  | route route =>
    have hrouted : Steady H (H.setRequest r { H.request r with route := some route }) :=
      steady_set (fun h => absurd hnone h) id
    have hfound : ((H.setRequest r { H.request r with route := some route }).makeUid cfg r).1
        = true := by
      refine hs.registry.make_fst.mpr ?_
      simpa [Sieve.full] using hfull
    dsimp only at h hrouted hfound
    generalize hH₁ : H.setRequest r _ = H₁ at h hrouted hfound
    by_cases hforward : (cfg.route route).zmqForward.enabled = true
    · obtain ⟨uid, hissues, hattempts⟩ := issues_of_make hfound
      rw [if_pos hforward, hfound] at h
      obtain ⟨⟨sent, H₂⟩, hsent, hret⟩ := bind_eq_ok.mp h
      have hset := hissues.set (q := { (H₁.makeUid cfg r).2.request r with inSieve := true }) rfl
      have hforwarded := hset.forwards hattempts (forwards_doForward hsent)
      refine Or.inr ⟨uid, .of_steady hrouted ?_⟩
      dsimp only at hret
      split_ifs at hret <;> cases hret
      · exact hforwarded.set rfl
      · exact hforwarded
    · rw [if_neg hforward] at h
      by_cases hstatic : (cfg.route route).staticEnabled = true
      · rw [if_pos hstatic] at h
        cases h
        rcases issues_diskRequest hfound with hsteady | ⟨uid, hissues⟩
        · exact Or.inl (hrouted.trans hsteady)
        · exact Or.inr ⟨uid, .of_steady hrouted hissues⟩
      · rw [if_neg hstatic] at h
        exact Or.inl (hclose hrouted h)

/-! ### What an event does to the ids -/

/-- The request belongs to a route with `RetryLast`. -/
def OnRetryLast (cfg : HttpConfig) (H : Http) (r : ReqId) : Prop :=
  ∃ route, (H.request r).route = some route ∧
    (cfg.route route).zmqForward.retryMode = .retryLast

/-- The timer of the request fires. -/
def Event.TimesOut (e : Event) (H : Http) (r : ReqId) : Prop :=
  ∃ result, e = .timeout r result ∧ (H.request r).timer = true

/-- The request is tried again with a new id. -/
def Event.Renews (cfg : HttpConfig) (e : Event) (H : Http) (r : ReqId) : Prop :=
  e.TimesOut H r ∧ OnRetryLast cfg H r ∧ ∃ route, (H.request r).route = some route ∧
    (H.request r).retries + 1 < (cfg.route route).zmqForward.retryCount

/-- No id is issued, and a request whose last time is up has left the sieve; or a request is
forwarded again with its id, but not on a route with `RetryLast`; or a request gets a new id, as it
has just arrived or is tried again. -/
inductive Ids (cfg : HttpConfig) (e : Event) (H H' : Http) : Prop
  | same (h : Steady H H')
      (hlate : ∀ r, e.TimesOut H r → OnRetryLast cfg H r → (H'.request r).inSieve = false)
  | again {r : ReqId} (h : Forwards r H H') (hmode : ¬ OnRetryLast cfg H r)
      (hin : (H.request r).inSieve = true) (hlate : ∀ r', e.TimesOut H r' → r' = r)
  | new {r : ReqId} {uid : Bytes} (h : Issues r uid H H') (hnone : (H.request r).route = none)
      (hlate : ∀ r', ¬ e.TimesOut H r')
  | renewed {r : ReqId} {uid : Bytes} (h : Issues r uid H H') (hrenews : e.Renews cfg H r)

lemma steady_newRequest (hs : H.Sound cfg) {uri method body ip date : Bytes}
    {header : Bytes → Option Bytes} : Steady H (H.newRequest uri method body ip date header) := by
  have hset := steady_set (H := H) (r := H.next) (q := { noRequest with
    uri := uri, method := method, header := header, body := body, ip := ip, date := date
    refcnt := 1, finished := false }) (fun h => absurd (by rw [hs.fresh _ le_rfl]; rfl) h)
    fun h => by cases h
  exact ⟨⟨rfl, rfl, hset.route, hset.leaves⟩, rfl⟩

lemma ids_of_timeout (hs : H.Sound cfg) (htimer : (H.request r).timer = true)
    (h : H.requestTimeout cfg result r = .ok H') : Ids cfg (.timeout r result) H H' := by
  have hin := (hs.requests r).timer htimer
  have htimes : (Event.timeout r result).TimesOut H r := ⟨result, rfl, htimer⟩
  have honly : ∀ r', (Event.timeout r result).TimesOut H r' → r' = r := by
    rintro r' ⟨_, he, -⟩
    cases he
    rfl
  rw [requestTimeout] at h
  split at h
  · cases h
  · next route hroute =>
    have hcount : Steady H
        (H.setRequest r { H.request r with retries := (H.request r).retries + 1 }) :=
      steady_update rfl rfl
    dsimp only at h hcount
    generalize hH₁ : H.setRequest r _ = H₁ at h hcount
    split at h
    · obtain ⟨hclosed, hout⟩ := steady_close h
      refine .same (hcount.trans hclosed) fun r' htimes _ => ?_
      rwa [honly r' htimes]
    · next hmode =>
      rw [if_pos hin] at h
      refine .again (.after hcount (by simp [hroute]) (forwards_retry h)) ?_ hin honly
      rintro ⟨route', hroute', hlast⟩
      cases hroute.symm.trans hroute'
      split_ifs at hmode
      cases hlast.symm.trans hmode
    · next hmode =>
      rw [if_pos hin] at h
      obtain ⟨requests, hempty, hretry⟩ := bind_eq_ok.mp h
      have hemptied : Steady H₁ { H₁ with requests := requests } := by
        obtain ⟨huid, hissued⟩ := uid_of_empty hempty
        exact ⟨⟨huid, hissued, fun _ _ => rfl, fun _ h => h⟩, rfl⟩
      have hfound : (makeUid cfg r { H₁ with requests := requests }).1 = true := by
        subst hH₁
        exact room_of_empty hs hin hempty
      obtain ⟨uid, hissues, hattempts⟩ := issues_of_make hfound
      refine .renewed (.of_steady (hcount.trans hemptied)
        (hissues.forwards hattempts (forwards_retry hretry))) ⟨htimes, ?_⟩
      split_ifs at hmode with hlast
      exact ⟨⟨route, hroute, hmode⟩, route, hroute, Nat.not_le.mp hlast⟩

lemma ids_of_step (hs : H.Sound cfg) (hstep : step cfg e H = .ok H') : Ids cfg e H H' := by
  have hsteady : (∀ r, ¬ e.TimesOut H r) → Steady H H' → Ids cfg e H H' :=
    fun hlate h => .same h fun r htimes => absurd htimes (hlate r)
  have hnot : (∀ r result, e ≠ .timeout r result) → ∀ r, ¬ e.TimesOut H r := by
    rintro hne r ⟨result, he, -⟩
    exact hne r result he
  cases e with
  | request target uri method body ip date header result =>
    obtain ⟨p, hp, hret⟩ := bind_eq_ok.mp hstep
    cases hret
    have hlate := hnot fun _ _ => Event.noConfusion
    have hnew : Steady H (H.newRequest uri method body ip date header) := steady_newRequest hs
    have hnone : ((H.newRequest uri method body ip date header).request H.next).route = none := by
      show (Function.update H.request H.next _ H.next).route = none
      rw [Function.update_self]
      rfl
    rcases issues_httpRequest (newRequest_sound hs) hnone hp with h | ⟨uid, h⟩
    · exact hsteady hlate (hnew.trans h)
    · refine .new (.of_steady hnew h) ?_ hlate
      rw [hs.fresh _ le_rfl]
      rfl
  | reply route frames =>
    exact hsteady (hnot fun _ _ => Event.noConfusion) (steady_httpProcess hstep)
  | diskReply frames =>
    exact hsteady (hnot fun _ _ => Event.noConfusion) (steady_diskProcess hstep)
  | timeout r result =>
    rw [step] at hstep
    by_cases htimer : (H.request r).timer = true
    · rw [if_pos htimer] at hstep
      exact ids_of_timeout hs htimer hstep
    · rw [if_neg htimer] at hstep
      cases hstep
      refine hsteady ?_ .refl
      rintro r' ⟨_, he, htimer'⟩
      cases he
      exact htimer htimer'
  | finish r =>
    refine hsteady (hnot fun _ _ => Event.noConfusion) ?_
    rw [step] at hstep
    by_cases hfinished : (H.request r).finished = true
    · rw [if_pos hfinished] at hstep
      cases hstep
      exact .refl
    · rw [if_neg hfinished] at hstep
      refine Steady.trans ?_ (steady_decref hstep)
      exact steady_update rfl rfl
  | release r =>
    refine hsteady (hnot fun _ _ => Event.noConfusion) ?_
    rw [step] at hstep
    by_cases hheld : (H.request r).held = 0
    · rw [if_pos hheld] at hstep
      cases hstep
      exact .refl
    · rw [if_neg hheld] at hstep
      refine Steady.trans ?_ (steady_decref hstep)
      exact steady_update rfl rfl

end Http

end Zerogw
