import Zerogw.Http.Basic

/-!
# Answers to HTTP requests

Every event changes one request, and leaves it consistent with the sieve: a request that has been
answered has left the sieve and its timer is off. Requests for files are the exception, since
`disk_request` answers without finishing them.
-/

namespace Zerogw

open Execution

namespace Http

variable {cfg : HttpConfig} {H H' : Http} {r r' : ReqId} {q : HttpRequest} {route : RouteId}
  {A : Response → Prop} {result : ForwardResult} {frames : List Bytes} {uid : Bytes}

/-! ### The invariant -/

/-- The request is served from the disk. -/
def FromDisk (cfg : HttpConfig) (q : HttpRequest) : Prop :=
  ∃ route, q.route = some route ∧ (cfg.route route).zmqForward.enabled = false ∧
    (cfg.route route).staticEnabled = true

/-- What holds of a request by itself. -/
structure Consistent (cfg : HttpConfig) (q : HttpRequest) : Prop where
  alive : q.inSieve = true → q.refcnt ≠ 0
  timer : q.timer = true → q.inSieve = true
  message : q.hasMessage = true → q.inSieve = false
  routed : q.timer = true → ¬ FromDisk cfg q
  answered : ¬ FromDisk cfg q → q.responses ≠ [] → q.responses.length = 1 ∧ q.inSieve = false

lemma consistent_noRequest : Consistent cfg noRequest :=
  ⟨fun _ => by contradiction, fun _ => by contradiction, fun _ => rfl, fun _ => by contradiction,
    fun _ h => absurd rfl h⟩

/-- The invariant of the requests. -/
structure Sound (cfg : HttpConfig) (H : Http) : Prop where
  registry : Registry.Sound cfg.maxRequests H.requests
  fresh : ∀ r, H.next ≤ r → H.request r = noRequest
  sieve : ∀ r, (H.request r).inSieve = true ↔ ∃ k, H.requests.sieve.Holds k r
  requests : ∀ r, Consistent cfg (H.request r)
  lengths : ∀ uid r, (uid, r) ∈ H.requests.issued → uid.length = uidLen

/-- What an event does to request `r`: the others stay as they are, and `r` gets no response or one
that `A` allows. -/
structure Acts (cfg : HttpConfig) (r : ReqId) (A : Response → Prop) (H H' : Http) : Prop where
  sound : H'.Sound cfg
  next : H'.next = H.next
  others : ∀ r', r' ≠ r → H'.request r' = H.request r' ∧ H'.requests.uid r' = H.requests.uid r' ∧
    ∀ k, H'.requests.sieve.Holds k r' ↔ H.requests.sieve.Holds k r'
  responses : (H'.request r).responses = (H.request r).responses ∨
    ∃ rep, A rep ∧ (H'.request r).responses = (H.request r).responses ++ [rep]

lemma Sound.init (cfg : HttpConfig) : (Http.init cfg).Sound cfg := by
  refine ⟨.init, fun _ _ => rfl, fun r => ?_, fun _ => consistent_noRequest,
    fun uid r h => by simp [Http.init, Registry.init, Registry.issued] at h⟩
  refine iff_of_false (fun h => by cases h) ?_
  rintro ⟨k, hk⟩
  simp [Http.init, Registry.init, Sieve.prepare, Sieve.Holds, List.getElem?_replicate] at hk

@[simp] lemma setRequest_self : (H.setRequest r q).request r = q := Function.update_self _ _ _

lemma setRequest_of_ne (h : r' ≠ r) : (H.setRequest r q).request r' = H.request r' :=
  Function.update_of_ne h _ _

@[simp] lemma setRequest_requests : (H.setRequest r q).requests = H.requests := rfl

lemma setRequest_setRequest (q₁ q₂ : HttpRequest) :
    (H.setRequest r q₁).setRequest r q₂ = H.setRequest r q₂ := by
  simp only [setRequest, Function.update_idem]

namespace Sound

variable (hs : H.Sound cfg)

include hs

lemma lt_next (h : H.request r ≠ noRequest) : r < H.next := by
  by_contra hr
  exact h (hs.fresh r (Nat.not_lt.mp hr))

lemma lt_next_of_inSieve (hin : (H.request r).inSieve = true) : r < H.next := by
  refine hs.lt_next fun h => ?_
  rw [h] at hin
  cases hin

/-- A request in the sieve is in the slot its id names. -/
lemma holds_iff {k : Nat} : H.requests.sieve.Holds k r ↔
    (H.request r).inSieve = true ∧ uidHole (H.requests.uid r) = k := by
  constructor
  · intro hk
    exact ⟨(hs.sieve r).mpr ⟨k, hk⟩, (hs.registry.named k r hk).1⟩
  · rintro ⟨hin, rfl⟩
    obtain ⟨k, hk⟩ := (hs.sieve r).mp hin
    rw [(hs.registry.named k r hk).1]
    exact hk

/-- A request changes, but not whether it is in the sieve. -/
lemma set (hr : r < H.next) (hin : q.inSieve = (H.request r).inSieve) (hq : Consistent cfg q) :
    (H.setRequest r q).Sound cfg := by
  refine ⟨hs.registry, fun r' hr' => ?_, fun r' => ?_, fun r' => ?_, hs.lengths⟩
  · rw [setRequest_of_ne (ne_of_gt (hr.trans_le hr'))]
    exact hs.fresh r' hr'
  · by_cases h : r' = r
    · subst h
      rw [setRequest_self, hin]
      exact hs.sieve r'
    · rw [setRequest_of_ne h]
      exact hs.sieve r'
  · by_cases h : r' = r
    · subst h
      rwa [setRequest_self]
    · rw [setRequest_of_ne h]
      exact hs.requests r'

end Sound

/-! ### Leaving and entering the sieve -/

/-- `request_finish`: the request has left the sieve, and its timer is off. -/
lemma Sound.requestFinish (hs : H.Sound cfg) (hr : r < H.next)
    (hin : q.inSieve = (H.request r).inSieve)
    (hq : Consistent cfg { q with inSieve := false, timer := false }) :
    ∃ requests, (H.setRequest r q).requestFinish r =
        .ok { H.setRequest r { q with inSieve := false, timer := false } with
          requests := requests } ∧
      Sound cfg { H.setRequest r { q with inSieve := false, timer := false } with
        requests := requests } ∧
      requests.uid = H.requests.uid ∧ requests.issued = H.requests.issued ∧
      ∀ r', r' ≠ r → ∀ k, requests.sieve.Holds k r' ↔ H.requests.sieve.Holds k r' := by
  rw [Http.requestFinish]
  simp only [setRequest_self, setRequest_requests, setRequest_setRequest]
  cases hflag : q.inSieve with
  | false =>
    rw [hflag] at hin
    refine ⟨H.requests, rfl, ?_, rfl, rfl, fun _ _ _ => Iff.rfl⟩
    exact hs.set hr hin hq
  | true =>
    rw [hflag] at hin
    have hslot := hs.holds_iff.mpr ⟨hin.symm, rfl⟩
    obtain ⟨requests, hempty, huid, hissued, -, hholds⟩ := Registry.empty_of_holds hslot
    have hother : ∀ r', r' ≠ r → ∀ k,
        requests.sieve.Holds k r' ↔ H.requests.sieve.Holds k r' := by
      intro r' hr' k
      rw [hholds]
      refine and_iff_left_of_imp fun hk => ?_
      rintro rfl
      exact hr' (hk.unique hslot)
    have hgone : ¬ ∃ k, requests.sieve.Holds k r := by
      rintro ⟨k, hk⟩
      obtain ⟨hk, hne⟩ := (hholds k r).mp hk
      exact hne (hs.registry.named k r hk).1.symm
    refine ⟨requests, ?_, ⟨hs.registry.empty hempty, fun r' hr' => ?_, fun r' => ?_, fun r' => ?_,
      hissued ▸ hs.lengths⟩, huid, hissued, hother⟩
    · rw [if_pos rfl, hempty]
      rfl
    · rw [show ∀ f : Registry ReqId, ({ H.setRequest r _ with requests := f } : Http).request r'
        = H.request r' from fun _ => setRequest_of_ne (ne_of_gt (hr.trans_le hr'))]
      exact hs.fresh r' hr'
    · dsimp only
      by_cases h : r' = r
      · subst h
        rw [setRequest_self]
        exact iff_of_false (by simp) hgone
      · rw [setRequest_of_ne h, hs.sieve r']
        exact exists_congr fun k => (hother r' h k).symm
    · dsimp only
      by_cases h : r' = r
      · subst h
        rwa [setRequest_self]
      · rw [setRequest_of_ne h]
        exact hs.requests r'

/-! ### What the handlers do to a request -/

lemma Consistent.unanswered (hq : Consistent cfg q) (hin : q.inSieve = true)
    (hd : ¬ FromDisk cfg q) : q.responses = [] := by
  by_contra h
  have hout := (hq.answered hd h).2
  rw [hin] at hout
  cases hout

lemma Acts.of_quiet {H₁ : Http} (h₁ : Acts cfg r (fun _ => False) H H₁)
    (h₂ : Acts cfg r A H₁ H') : Acts cfg r A H H' := by
  have hsame : (H₁.request r).responses = (H.request r).responses := by
    rcases h₁.responses with h | ⟨_, h, -⟩
    · exact h
    · exact h.elim
  refine ⟨h₂.sound, h₂.next.trans h₁.next, fun r' hr' => ?_, hsame ▸ h₂.responses⟩
  obtain ⟨hreq₁, huid₁, hholds₁⟩ := h₁.others r' hr'
  obtain ⟨hreq₂, huid₂, hholds₂⟩ := h₂.others r' hr'
  exact ⟨hreq₂.trans hreq₁, huid₂.trans huid₁, fun k => (hholds₂ k).trans (hholds₁ k)⟩

lemma Acts.then_quiet {H₁ : Http} (h₁ : Acts cfg r A H H₁)
    (h₂ : Acts cfg r (fun _ => False) H₁ H') : Acts cfg r A H H' := by
  have hsame : (H'.request r).responses = (H₁.request r).responses := by
    rcases h₂.responses with h | ⟨_, h, -⟩
    · exact h
    · exact h.elim
  refine ⟨h₂.sound, h₂.next.trans h₁.next, fun r' hr' => ?_, hsame ▸ h₁.responses⟩
  obtain ⟨hreq₁, huid₁, hholds₁⟩ := h₁.others r' hr'
  obtain ⟨hreq₂, huid₂, hholds₂⟩ := h₂.others r' hr'
  exact ⟨hreq₂.trans hreq₁, huid₂.trans huid₁, fun k => (hholds₂ k).trans (hholds₁ k)⟩

lemma Acts.mono {B : Response → Prop} (h : Acts cfg r A H H') (hAB : ∀ rep, A rep → B rep) :
    Acts cfg r B H H' :=
  ⟨h.sound, h.next, h.others, h.responses.imp id fun ⟨rep, hrep, heq⟩ => ⟨rep, hAB rep hrep, heq⟩⟩

/-- The counter and the record of attempts do not matter. -/
lemma Acts.congr {H'' : Http} (h : Acts cfg r A H H') (hreg : H''.requests = H'.requests)
    (hreq : H''.request = H'.request) (hnext : H''.next = H'.next) : Acts cfg r A H H'' := by
  refine ⟨⟨hreg ▸ h.sound.registry, ?_, ?_, ?_, hreg ▸ h.sound.lengths⟩, hnext.trans h.next, ?_, ?_⟩
  · rw [hreq, hnext]
    exact h.sound.fresh
  · rw [hreq, hreg]
    exact h.sound.sieve
  · rw [hreq]
    exact h.sound.requests
  · rw [hreq, hreg]
    exact h.others
  · rw [hreq]
    exact h.responses

lemma Acts.refl (hs : H.Sound cfg) : Acts cfg r A H H :=
  ⟨hs, rfl, fun _ _ => ⟨rfl, rfl, fun _ => Iff.rfl⟩, Or.inl rfl⟩

section

variable (hs : H.Sound cfg)

include hs

/-- A request changes, but not whether it is in the sieve, and gets no response. -/
lemma Sound.acts_set (hr : r < H.next) (hin : q.inSieve = (H.request r).inSieve)
    (hq : Consistent cfg q) (hrep : q.responses = (H.request r).responses) :
    Acts cfg r A H (H.setRequest r q) :=
  ⟨hs.set hr hin hq, rfl, fun _ h => ⟨setRequest_of_ne h, rfl, fun _ => Iff.rfl⟩,
    Or.inl (by rw [setRequest_self, hrep])⟩

/-- A request that has not been answered yet gets its response and is finished. -/
lemma Sound.respond (hr : r < H.next) (hnew : ¬ FromDisk cfg (H.request r) →
    (H.request r).responses = []) (rep : Response) (message : Bool) :
    ∃ H', (H.setRequest r { H.request r with
        hasMessage := message, responses := (H.request r).responses ++ [rep] }).requestFinish r
        = .ok H' ∧
      Acts cfg r (· = rep) H H' ∧ (H'.request r).inSieve = false ∧
      (H'.request r).timer = false := by
  obtain ⟨requests, hfinish, hsound, huid, -, hholds⟩ := hs.requestFinish (q := { H.request r with
      hasMessage := message, responses := (H.request r).responses ++ [rep] }) hr rfl
    ⟨fun h => by contradiction, fun h => by contradiction, fun _ => rfl,
      fun h => by contradiction, fun hd _ => ⟨by simp [hnew hd], rfl⟩⟩
  refine ⟨_, hfinish, ⟨hsound, rfl, fun r' h => ⟨setRequest_of_ne h, by rw [huid], hholds r' h⟩,
    Or.inr ⟨rep, rfl, ?_⟩⟩, ?_, ?_⟩
  · dsimp only
    rw [setRequest_self]
  · dsimp only
    rw [setRequest_self]
  · dsimp only
    rw [setRequest_self]

lemma close_spec (hr : r < H.next) (hnew : ¬ FromDisk cfg (H.request r) →
    (H.request r).responses = []) (resp : StaticResponse) :
    ∃ H', H.close r resp = .ok H' ∧ Acts cfg r (· = staticReply (H.request r) resp) H H' ∧
      (H'.request r).inSieve = false ∧ (H'.request r).timer = false :=
  hs.respond hr hnew (staticReply (H.request r) resp) (H.request r).hasMessage

/-- A reply for a request in the sieve. -/
lemma reply_spec (hin : (H.request r).inSieve = true) (status : Bytes)
    (headers own : List (Bytes × Bytes)) (body : Bytes) :
    ∃ H', H.reply r status headers own body = .ok H' ∧ Acts cfg r (·.body = body) H H' := by
  have hmessage : (H.request r).hasMessage = false := by
    by_contra h
    have hout := (hs.requests r).message (Bool.not_eq_false _ ▸ h)
    rw [hin] at hout
    cases hout
  obtain ⟨H', hfinish, hacts, -⟩ := hs.respond (hs.lt_next_of_inSieve hin)
    ((hs.requests r).unanswered hin)
    ⟨status, headers ++ [(str "Date", (H.request r).date)] ++ own, body⟩ true
  refine ⟨H', ?_, hacts.mono ?_⟩
  · rw [Http.reply, hmessage]
    exact hfinish
  · rintro _ rfl
    rfl

/-- A reference is dropped. -/
lemma decref_spec (href : (H.request r).refcnt ≠ 0) :
    ∃ H', H.decref r = .ok H' ∧ Acts cfg r A H H' := by
  have hr := hs.lt_next fun h => href (by rw [h]; rfl)
  have hq := hs.requests r
  rw [Http.decref, if_neg href]
  by_cases hlast : (H.request r).refcnt = 1
  · rw [if_pos hlast]
    obtain ⟨requests, hfinish, hsound, huid, -, hholds⟩ := hs.requestFinish (q := { H.request r with
        refcnt := 0, hasMessage := false, freed := true }) hr rfl
      ⟨fun h => by contradiction, fun h => by contradiction, fun _ => rfl,
        fun h => by contradiction, fun hd h => ⟨(hq.answered hd h).1, rfl⟩⟩
    refine ⟨_, hfinish, hsound, rfl, fun r' h => ⟨setRequest_of_ne h, by rw [huid], hholds r' h⟩,
      Or.inl ?_⟩
    dsimp only
    rw [setRequest_self]
  · rw [if_neg hlast]
    refine ⟨_, rfl, hs.acts_set hr rfl ⟨fun _ => ?_, hq.timer, hq.message, hq.routed, hq.answered⟩
      rfl⟩
    show (H.request r).refcnt - 1 ≠ 0
    omega

/-- A lookup finds the request in the sieve with this very id. -/
lemma find_eq_ok {data : Bytes} (hmax : uidHole data ≠ H.requests.sieve.max) :
    ∃ o, H.find data = .ok o ∧
      ∀ r, o = some r ↔ (H.request r).inSieve = true ∧ H.requests.uid r = data := by
  obtain ⟨o, hget, ho⟩ := Sieve.get_eq_ok hmax
  rw [Http.find, hget, ok_bind]
  have hslot : ∀ r, (H.request r).inSieve = true ∧ H.requests.uid r = data → o = some r := by
    rintro r ⟨hin, rfl⟩
    exact (ho r).mpr (hs.holds_iff.mpr ⟨hin, rfl⟩)
  cases o with
  | none =>
    refine ⟨none, rfl, fun r => iff_of_false (by simp) fun h => ?_⟩
    cases hslot r h
  | some r =>
    have hin := (hs.holds_iff.mp ((ho r).mp rfl)).1
    dsimp only
    rw [if_neg ((hs.requests r).alive hin)]
    refine ⟨_, rfl, fun r' => ?_⟩
    constructor
    · intro h
      split_ifs at h with huid
      cases h
      exact ⟨hin, huid⟩
    · intro h
      obtain rfl := Option.some.inj (hslot r' h)
      rw [if_pos h.2]

end

/-! ### Static responses -/

/-- The response is a static one of some route. -/
def IsStatic (cfg : HttpConfig) (rep : Response) : Prop :=
  ∃ q route, ∃ resp ∈ (cfg.route route).responses.all, rep = staticReply q resp

lemma close_static (hs : H.Sound cfg) (hr : r < H.next)
    (hnew : ¬ FromDisk cfg (H.request r) → (H.request r).responses = []) {resp : StaticResponse}
    (hresp : ∃ route, resp ∈ (cfg.route route).responses.all) :
    ∃ H', H.close r resp = .ok H' ∧ Acts cfg r (IsStatic cfg) H H' ∧
      (H'.request r).inSieve = false ∧ (H'.request r).timer = false := by
  obtain ⟨H', hclose, hacts, hout⟩ := close_spec hs hr hnew resp
  refine ⟨H', hclose, hacts.mono ?_, hout⟩
  obtain ⟨route, hresp⟩ := hresp
  rintro _ rfl
  exact ⟨H.request r, route, resp, hresp, rfl⟩

/-! ### Forwarding -/

/-- The fault is not that of `sieve_empty` on an empty slot. -/
def Spares (f : Fault) : Prop := f ≠ .assertion .sieveEmpty

lemma spares_of_outOfBounds {f : Fault} (h : f = .outOfBounds) : Spares f := by
  rw [h]
  rintro ⟨⟩

/-- The fields of a request. -/
lemma spares_of_values {contents : List RequestField} {f : Fault}
    (h : contents.mapM q.getField = .error f) : Spares f := by
  induction contents with
  | nil => cases h
  | cons field contents ih =>
    rw [List.mapM_cons] at h
    rcases bind_eq_error.mp h with hfield | ⟨value, -, h⟩
    · cases field <;> cases hfield <;> rintro ⟨⟩
    · rcases bind_eq_error.mp h with hrest | ⟨values, -, h⟩
      · exact ih hrest
      · cases h

/-- The end of `do_forward`: the request stays in the sieve without a response, or it has been
answered. -/
structure Forwarded (cfg : HttpConfig) (r : ReqId) (H : Http) (sent : Bool) (H' : Http) : Prop where
  acts : Acts cfg r (IsStatic cfg) H H'
  stays : sent = true → Acts cfg r (fun _ => False) H H' ∧ (H'.request r).inSieve = true ∧
    (H'.request r).route = (H.request r).route

lemma Forwarded.of_quiet (h : Acts cfg r (fun _ => False) H H')
    (hin : (H'.request r).inSieve = true) (hroute : (H'.request r).route = (H.request r).route) :
    Forwarded cfg r H true H' :=
  ⟨h.mono fun _ h => h.elim, fun _ => ⟨h, hin, hroute⟩⟩

/-- `do_forward` on a request in the sieve. -/
lemma doForward_spec (hs : H.Sound cfg) (hin : (H.request r).inSieve = true) :
    Ends Spares (fun p => Forwarded cfg r H p.1 p.2) (H.doForward cfg result r) := by
  have hr := hs.lt_next_of_inSieve hin
  have hq := hs.requests r
  have hclose : ∀ {resp}, (∃ route, resp ∈ (cfg.route route).responses.all) →
      Ends Spares (fun p => Forwarded cfg r H p.1 p.2) (do
        let H ← H.close r resp
        return (false, H)) := by
    intro resp hresp
    obtain ⟨H', hclose, hacts, -⟩ := close_static hs hr (hq.unanswered hin) hresp
    rw [hclose]
    exact ⟨hacts, fun h => by cases h⟩
  rw [doForward]
  split
  · rintro ⟨⟩
  · next route hroute =>
    cases result with
    | eagain => exact hclose ⟨route, by simp [Responses.all]⟩
    | failed => exact hclose ⟨route, by simp [Responses.all]⟩
    | accepted =>
      dsimp only
      split_ifs with hcontents
      · rintro ⟨⟩
      · cases hvalues : (cfg.route route).zmqForward.contents.mapM (H.request r).getField with
        | error f => exact spares_of_values hvalues
        | ok values =>
          have hacts := hs.acts_set (A := fun _ => False) (q := { H.request r with
              refcnt := (H.request r).refcnt + (1 + values.length)
              held := (H.request r).held + (1 + values.length) }) hr rfl
            ⟨fun _ => (by show _ + (1 + _) ≠ 0; omega), hq.timer, hq.message, hq.routed,
              hq.answered⟩
            rfl
          refine .of_quiet (hacts.congr ?_ ?_ ?_) ?_ ?_
          · rfl
          · rfl
          · rfl
          · show ((H.setRequest r _).request r).inSieve = true
            rw [setRequest_self]
            exact hin
          · show ((H.setRequest r _).request r).route = _
            rw [setRequest_self]

/-- The timer of a request in the sieve is armed. -/
lemma arm_spec (hs : H.Sound cfg) (hin : (H.request r).inSieve = true)
    (hd : ¬ FromDisk cfg (H.request r)) :
    Acts cfg r A H (H.setRequest r { H.request r with timer := true }) := by
  have hq := hs.requests r
  exact hs.acts_set (hs.lt_next_of_inSieve hin) rfl
    ⟨hq.alive, fun _ => hin, hq.message, fun _ => hd, hq.answered⟩ rfl

/-- The end of a retry. -/
lemma retry_spec (hs : H.Sound cfg) (hin : (H.request r).inSieve = true)
    (hd : ¬ FromDisk cfg (H.request r)) :
    Ends Spares (Acts cfg r (IsStatic cfg) H) (H.retry cfg result r) := by
  rw [retry]
  refine Ends.bind (doForward_spec hs hin) fun p hp => ?_
  obtain ⟨sent, H₁⟩ := p
  obtain ⟨hacts, hstay⟩ := hp
  cases sent with
  | false => exact hacts
  | true =>
    obtain ⟨hquiet, hin₁, hroute⟩ := hstay rfl
    have hd₁ : ¬ FromDisk cfg (H₁.request r) := by
      rwa [FromDisk, hroute]
    exact hquiet.of_quiet (arm_spec hquiet.sound hin₁ hd₁)

lemma length_of_make {R : Registry ReqId} (hR : ∀ uid r, (uid, r) ∈ R.issued → uid.length = uidLen)
    (h : (uid, r') ∈ (R.make cfg.instanceId (List.replicate uidNRandom 0) r).2.issued) :
    uid.length = uidLen := by
  rcases Registry.mem_issued_make h with h | h
  · exact hR uid r' h
  · rw [h, cfg.instanceId_length, List.length_replicate]
    rfl

/-- There is room for a request that has just left its slot. -/
lemma room_of_empty {requests : Registry ReqId} {random : Bytes} (hs : H.Sound cfg)
    (hin : (H.request r).inSieve = true)
    (hempty : H.requests.empty (uidHole (H.requests.uid r)) = .ok requests) :
    (requests.make cfg.instanceId random r).1 = true := by
  have hslot := hs.holds_iff.mpr ⟨hin, rfl⟩
  obtain ⟨requests', hempty', -, -, hfilled, -⟩ := Registry.empty_of_holds hslot
  cases hempty'.symm.trans hempty
  have hsound := hs.registry.empty hempty
  rw [hsound.make_fst, hfilled, hsound.max, ← hs.registry.max]
  have hpos := hs.registry.filled_pos hslot
  have hle : H.requests.sieve.filled ≤ H.requests.sieve.max := by
    rw [hs.registry.filled]
    exact List.countP_le_length
  omega

/-- `RetryLast` gives a request in the sieve a new id. -/
lemma renew_spec (hs : H.Sound cfg) (hin : (H.request r).inSieve = true) :
    ∃ requests, H.requests.empty (uidHole (H.requests.uid r)) = .ok requests ∧
      Acts cfg r A H (makeUid cfg r { H with requests := requests }).2 ∧
      (makeUid cfg r { H with requests := requests }).2.request = H.request := by
  have hslot := hs.holds_iff.mpr ⟨hin, rfl⟩
  obtain ⟨requests, hempty, huid, hissued, -, hholds⟩ := Registry.empty_of_holds hslot
  have hsound := hs.registry.empty hempty
  have hout : ∀ k, ¬ requests.sieve.Holds k r := by
    intro k hk
    obtain ⟨hk, hne⟩ := (hholds k r).mp hk
    exact hne (hs.registry.named k r hk).1.symm
  obtain ⟨hole, hmake⟩ := Registry.make_holds (room_of_empty hs hin hempty)
  have hother : ∀ r', r' ≠ r → ∀ k, (requests.make cfg.instanceId
      (List.replicate uidNRandom 0) r).2.sieve.Holds k r' ↔ H.requests.sieve.Holds k r' := by
    intro r' hr' k
    rw [hmake, hholds, or_iff_right fun h => hr' h.2]
    refine and_iff_left_of_imp fun hk => ?_
    rintro rfl
    exact hr' (hk.unique hslot)
  refine ⟨requests, hempty, ⟨⟨hsound.make cfg.instanceId_length ?_ hout, hs.fresh, fun r' => ?_,
    hs.requests, fun uid r' h => ?_⟩, rfl, fun r' h => ⟨rfl, ?_, hother r' h⟩, Or.inl rfl⟩, rfl⟩
  · have := cfg.maxRequests_le
    omega
  · by_cases h : r' = r
    · subst h
      refine iff_of_true hin ⟨hole, (hmake hole r').mpr (Or.inl ⟨rfl, rfl⟩)⟩
    · exact (hs.sieve r').trans (exists_congr fun k => (hother r' h k).symm)
  · exact length_of_make (hissued ▸ hs.lengths) h
  · exact (Registry.make_uid_of_ne h).trans (congrFun huid r')

/-- A timer fires. -/
lemma requestTimeout_spec (hs : H.Sound cfg) (htimer : (H.request r).timer = true) :
    Ends Spares (Acts cfg r (IsStatic cfg) H) (H.requestTimeout cfg result r) := by
  have hq := hs.requests r
  have hin := hq.timer htimer
  have hd := hq.routed htimer
  rw [requestTimeout]
  split
  · rintro ⟨⟩
  · next route hroute =>
    have hcount := hs.acts_set (A := fun _ => False)
      (q := { H.request r with retries := (H.request r).retries + 1 }) (hs.lt_next_of_inSieve hin)
        rfl
      ⟨hq.alive, hq.timer, hq.message, hq.routed, hq.answered⟩ rfl
    dsimp only at hcount ⊢
    generalize hH₁ : H.setRequest r _ = H₁ at hcount ⊢
    have hin₁ : (H₁.request r).inSieve = true := by
      rw [← hH₁, setRequest_self]
      exact hin
    have hd₁ : ¬ FromDisk cfg (H₁.request r) := by
      rw [← hH₁, setRequest_self]
      exact hd
    split
    · have hresp :
          (cfg.route route).responses.gatewayTimeout ∈ (cfg.route route).responses.all := by
        simp [Responses.all]
      obtain ⟨H', hclose, hacts, -⟩ := close_static hcount.sound
        (hcount.sound.lt_next_of_inSieve hin₁) ((hcount.sound.requests r).unanswered hin₁)
        ⟨route, hresp⟩
      rw [hclose]
      exact hcount.of_quiet hacts
    · rw [if_pos hin]
      exact (retry_spec hcount.sound hin₁ hd₁).mono (fun _ => id) fun H' h => hcount.of_quiet h
    · rw [if_pos hin]
      obtain ⟨requests, hempty, hacts, hsame⟩ := renew_spec (A := fun _ => False) hcount.sound hin₁
      rw [hempty, ok_bind]
      rw [← hsame] at hin₁ hd₁
      exact (retry_spec hacts.sound hin₁ hd₁).mono (fun _ => id) fun H' h =>
        hcount.of_quiet (hacts.of_quiet h)

/-! ### Replies -/

/-- A message carries the body of `rep` and the id of request `r`, which is in the sieve. -/
structure Carries (H : Http) (frames : List Bytes) (r : ReqId) (rep : Response) : Prop where
  uid : frames.head? = some (H.requests.uid r)
  inSieve : ∃ k, H.requests.sieve.Holds k r
  body : frames.getLast? = some rep.body

/-- What the reply handlers may answer. -/
def Relayed (cfg : HttpConfig) (H : Http) (frames : List Bytes) (r : ReqId)
    (rep : Response) : Prop :=
  IsStatic cfg rep ∨ Carries H frames r rep

lemma find_ends (hs : H.Sound cfg) (data : Bytes) :
    Ends (fun f => f = .outOfBounds ∧ uidHole data = H.requests.sieve.max)
      (fun o => ∀ r, o = some r ↔ (H.request r).inSieve = true ∧ H.requests.uid r = data)
      (H.find data) := by
  by_cases hmax : uidHole data = H.requests.sieve.max
  · rw [Http.find, hmax, Sieve.get_max]
    exact ⟨rfl, rfl⟩
  · obtain ⟨o, hfind, ho⟩ := find_eq_ok hs hmax
    exact .of_eq_ok hfind ho

/-- A message concerns no request, or the one in the sieve that it names. -/
def Heard (cfg : HttpConfig) (H : Http) (frames : List Bytes) (H' : Http) : Prop :=
  (H'.requests = H.requests ∧ H'.request = H.request ∧ H'.next = H.next) ∨
    ∃ r, frames.head? = some (H.requests.uid r) ∧ (H.request r).inSieve = true ∧
      Acts cfg r (Relayed cfg H frames r) H H'

lemma reply_relayed (hs : H.Sound cfg) (hin : (H.request r).inSieve = true)
    (hhead : frames.head? = some (H.requests.uid r)) {status body : Bytes}
    {headers own : List (Bytes × Bytes)} (hlast : frames.getLast? = some body) :
    ∃ H', H.reply r status headers own body = .ok H' ∧
      Acts cfg r (Relayed cfg H frames r) H H' := by
  obtain ⟨H', hreply, hacts⟩ := reply_spec hs hin status headers own body
  refine ⟨H', hreply, hacts.mono fun rep hrep => Or.inr ⟨hhead, (hs.sieve r).mp hin, ?_⟩⟩
  rw [hlast, ← hrep]

lemma close_relayed (hs : H.Sound cfg) (hin : (H.request r).inSieve = true)
    (resp : StaticResponse) (hresp : ∃ route, resp ∈ (cfg.route route).responses.all) :
    ∃ H', H.close r resp = .ok H' ∧ Acts cfg r (Relayed cfg H frames r) H H' := by
  obtain ⟨H', hclose, hacts, -⟩ := close_static hs (hs.lt_next_of_inSieve hin)
    ((hs.requests r).unanswered hin) hresp
  exact ⟨H', hclose, hacts.mono fun _ => Or.inl⟩

/-- The reply names the slot behind the last one. -/
def Overreads (frames : List Bytes) (H : Http) : Prop :=
  ∃ id part rest, frames = id :: part :: rest ∧ id.length = uidLen ∧
    uidHole id = H.requests.sieve.max

/-- A reply is for the request in the sieve that it names, or only counted. -/
lemma httpProcess_spec (hs : H.Sound cfg) :
    Ends (fun f => f = .outOfBounds ∧ H.Overreads frames) (Heard cfg H frames)
      (H.httpProcess cfg route frames) := by
  unfold httpProcess
  split
  · next id sentinel rest =>
    dsimp only
    by_cases hlen : id.length ≠ uidLen
    · rw [if_pos hlen]
      exact Or.inl ⟨rfl, rfl, rfl⟩
    · rw [if_neg hlen]
      refine Ends.bind ((find_ends hs id).mono
        (fun _ hf => ⟨hf.1, id, sentinel, rest, rfl, not_not.mp hlen, hf.2⟩) fun _ h => h)
        fun o ho => ?_
      cases o with
      | none => exact Or.inl ⟨rfl, rfl, rfl⟩
      | some r =>
        obtain ⟨hin, huid⟩ := (ho r).mp rfl
        have hhead : (id :: sentinel :: rest).head? = some (H.requests.uid r) := by
          rw [huid, List.head?_cons]
        have hreply : ∀ {status headers own body},
            (id :: sentinel :: rest).getLast? = some body →
            Ends (fun f => f = .outOfBounds ∧ H.Overreads (id :: sentinel :: rest))
              (Heard cfg H (id :: sentinel :: rest)) (H.reply r status headers own body) := by
          intro status headers own body hlast
          obtain ⟨H', hreply, hacts⟩ := reply_relayed hs hin hhead hlast
          exact .of_eq_ok hreply (Or.inr ⟨r, hhead, hin, hacts⟩)
        dsimp only
        by_cases hsentinel : rest = [] ∨ sentinel ≠ []
        · rw [if_pos hsentinel]
          exact Or.inl ⟨rfl, rfl, rfl⟩
        · rw [if_neg hsentinel]
          split
          · exact Or.inl ⟨rfl, rfl, rfl⟩
          · exact hreply rfl
          · exact hreply rfl
          · exact hreply rfl
          · obtain ⟨H', hclose, hacts⟩ := close_relayed hs hin
              (cfg.routeOf (H.request r)).responses.internalError
              ⟨(H.request r).route.getD cfg.root, by simp [Responses.all, HttpConfig.routeOf]⟩
            exact .of_eq_ok hclose (Or.inr ⟨r, hhead, hin, hacts⟩)
  · exact Or.inl ⟨rfl, rfl, rfl⟩

/-! ### The disk -/

lemma diskAnswer_spec (hs : H.Sound cfg) (hin : (H.request r).inSieve = true)
    (huid : H.requests.uid r = uid) {sentinel : Bytes} {rest : List Bytes} :
    Ends (· = .assertion .diskSentinel) (Acts cfg r (Relayed cfg H (uid :: sentinel :: rest) r) H)
      (H.diskAnswer cfg r sentinel rest) := by
  have hhead : (uid :: sentinel :: rest).head? = some (H.requests.uid r) := by
    rw [huid, List.head?_cons]
  have hreply : ∀ {status headers own body}, (uid :: sentinel :: rest).getLast? = some body →
      Ends (· = .assertion .diskSentinel) (Acts cfg r (Relayed cfg H (uid :: sentinel :: rest) r) H)
        (H.reply r status headers own body) := by
    intro status headers own body hlast
    obtain ⟨H', hreply, hacts⟩ := reply_relayed hs hin hhead hlast
    exact .of_eq_ok hreply hacts
  have hclose : ∀ resp, resp ∈ (cfg.routeOf (H.request r)).responses.all →
      Ends (· = .assertion .diskSentinel) (Acts cfg r (Relayed cfg H (uid :: sentinel :: rest) r) H)
        (H.close r resp) := by
    intro resp hresp
    obtain ⟨H', hclose, hacts⟩ := close_relayed hs hin resp ⟨_, hresp⟩
    exact .of_eq_ok hclose hacts
  unfold diskAnswer
  dsimp only
  by_cases hrest : rest = []
  · rw [if_pos hrest]
    exact Acts.refl hs
  rw [if_neg hrest]
  by_cases hsentinel : sentinel ≠ []
  · rw [if_pos hsentinel]
    rfl
  rw [if_neg hsentinel]
  split
  · exact Acts.refl hs
  · apply hclose
    split_ifs <;> simp [Responses.all]
  · exact hreply rfl
  · exact hreply rfl
  · exact hclose _ (by simp [Responses.all])

/-- The answer of a disk thread for a request that has been found. -/
lemma found_spec (hs : H.Sound cfg) (hin : (H.request r).inSieve = true)
    (huid : H.requests.uid r = uid) {sentinel : Bytes} {rest : List Bytes} :
    Ends (fun f => f = .assertion .diskSentinel ∨ f = .useAfterFree)
      (Acts cfg r (Relayed cfg H (uid :: sentinel :: rest) r) H) (do
        let H ← (H.setRequest r { H.request r with refcnt := (H.request r).refcnt + 1 }).diskAnswer
          cfg r sentinel rest
        H.decref r) := by
  have hq := hs.requests r
  have hkept := hs.acts_set (A := fun _ => False)
    (q := { H.request r with refcnt := (H.request r).refcnt + 1 }) (hs.lt_next_of_inSieve hin)
    rfl ⟨fun _ => Nat.succ_ne_zero _, hq.timer, hq.message, hq.routed, hq.answered⟩ rfl
  dsimp only at hkept ⊢
  generalize hH₁ : H.setRequest r _ = H₁ at hkept ⊢
  have hreg : H₁.requests = H.requests := by
    rw [← hH₁, setRequest_requests]
  have hin₁ : (H₁.request r).inSieve = true := by
    rw [← hH₁, setRequest_self]
    exact hin
  refine Ends.bind ((diskAnswer_spec hkept.sound hin₁ (hreg ▸ huid)).mono (fun _ => Or.inl)
    fun _ h => h) fun H₂ hacts => ?_
  by_cases href : (H₂.request r).refcnt = 0
  · rw [decref, if_pos href]
    exact Or.inr rfl
  · obtain ⟨H', hdecref, hquiet⟩ := decref_spec (A := fun _ => False) hacts.sound href
    refine .of_eq_ok hdecref ((hkept.of_quiet (hacts.then_quiet hquiet)).mono fun rep hrep => ?_)
    rcases hrep with hstatic | hcarries
    · exact Or.inl hstatic
    · exact Or.inr ⟨hreg ▸ hcarries.uid, hreg ▸ hcarries.inSieve, hcarries.body⟩

/-- The answer of a disk thread. -/
lemma diskProcess_spec (hs : H.Sound cfg) :
    Ends Spares (Heard cfg H frames) (H.diskProcess cfg frames) := by
  unfold diskProcess
  split
  · next id sentinel rest =>
    by_cases hlen : id.length ≠ uidLen
    · rw [if_pos hlen]
      rintro ⟨⟩
    · rw [if_neg hlen]
      refine Ends.bind
        ((find_ends hs id).mono (fun _ hf => spares_of_outOfBounds hf.1) fun _ h => h)
        fun o ho => ?_
      cases o with
      | none => rintro ⟨⟩
      | some r =>
        obtain ⟨hin, huid⟩ := (ho r).mp rfl
        refine (found_spec hs hin huid).mono ?_ fun H' hacts =>
          Or.inr ⟨r, by rw [huid, List.head?_cons], hin, hacts⟩
        rintro _ (rfl | rfl) <;> rintro ⟨⟩
  · rintro ⟨⟩

/-! ### Arrival -/

/-- A new request. -/
lemma newRequest_sound (hs : H.Sound cfg) {uri method body ip date : Bytes}
    {header : Bytes → Option Bytes} :
    (H.newRequest uri method body ip date header).Sound cfg := by
  have hold := hs.fresh H.next le_rfl
  refine ⟨hs.registry, fun r hr => ?_, fun r => ?_, fun r => ?_, hs.lengths⟩
  · have hlt : H.next < r := hr
    rw [newRequest, setRequest]
    dsimp only
    rw [Function.update_of_ne (ne_of_gt hlt)]
    exact hs.fresh r hlt.le
  · rw [newRequest]
    dsimp only
    by_cases h : r = H.next
    · subst h
      rw [setRequest_self]
      refine iff_of_false (by simp [noRequest]) fun hk => ?_
      have hin := (hs.sieve _).mpr hk
      rw [hold] at hin
      cases hin
    · rw [setRequest_of_ne h]
      exact hs.sieve r
  · rw [newRequest]
    dsimp only
    by_cases h : r = H.next
    · subst h
      rw [setRequest_self]
      exact ⟨fun _ => by simp, fun _ => by contradiction, fun _ => rfl, fun _ => by contradiction,
        fun _ h => absurd rfl h⟩
    · rw [setRequest_of_ne h]
      exact hs.requests r

/-- A request that has just been prepared. -/
structure IsNew (q : HttpRequest) : Prop where
  inSieve : q.inSieve = false
  hasMessage : q.hasMessage = false
  timer : q.timer = false
  refcnt : q.refcnt ≠ 0
  responses : q.responses = []

/-- A request that is not in the sieve gets an id and a slot. -/
lemma enter_spec (hs : H.Sound cfg) (hr : r < H.next) (hnew : IsNew (H.request r))
    (hfound : (H.makeUid cfg r).1 = true) :
    Acts cfg r A H ((H.makeUid cfg r).2.setRequest r { H.request r with inSieve := true }) := by
  have hq := hs.requests r
  have hnone : ∀ k, ¬ H.requests.sieve.Holds k r := by
    intro k hk
    have hin := (hs.sieve r).mpr ⟨k, hk⟩
    rw [hnew.inSieve] at hin
    cases hin
  obtain ⟨hole, hmake⟩ := Registry.make_holds hfound
  have hother : ∀ r', r' ≠ r → ∀ k, (H.makeUid cfg r).2.requests.sieve.Holds k r' ↔
      H.requests.sieve.Holds k r' := by
    intro r' hr' k
    exact (hmake k r').trans (or_iff_right fun h => hr' h.2)
  refine ⟨⟨hs.registry.make cfg.instanceId_length ?_ hnone, fun r' hr' => ?_, fun r' => ?_,
    fun r' => ?_, fun uid r' h => length_of_make hs.lengths h⟩, rfl,
    fun r' h => ⟨setRequest_of_ne h, Registry.make_uid_of_ne h, hother r' h⟩,
    Or.inl (by rw [setRequest_self])⟩
  · have := cfg.maxRequests_le
    omega
  · rw [setRequest_of_ne (ne_of_gt (hr.trans_le hr'))]
    exact hs.fresh r' hr'
  · by_cases h : r' = r
    · subst h
      rw [setRequest_self]
      exact iff_of_true rfl ⟨hole, (hmake hole r').mpr (Or.inl ⟨rfl, rfl⟩)⟩
    · rw [setRequest_of_ne h]
      exact (hs.sieve r').trans (exists_congr fun k => (hother r' h k).symm)
  · by_cases h : r' = r
    · subst h
      rw [setRequest_self]
      refine ⟨fun _ => hnew.refcnt, fun _ => rfl, fun h => ?_, hq.routed,
        fun _ h => absurd hnew.responses h⟩
      cases hnew.hasMessage.symm.trans h
    · rw [setRequest_of_ne h]
      exact hs.requests r'

/-- A request for a file: it waits in the sieve, or is answered without being finished. -/
lemma diskRequest_spec (hs : H.Sound cfg) (hr : r < H.next) (hnew : IsNew (H.request r))
    (hd : FromDisk cfg (H.request r)) (hfound : (H.makeUid cfg r).1 = true) :
    Acts cfg r (IsStatic cfg) H (H.diskRequest cfg result r) := by
  have hanswer : ∀ {H₁ : Http} {resp : StaticResponse}, Acts cfg r (fun _ => False) H H₁ →
      FromDisk cfg (H₁.request r) → resp ∈ (cfg.routeOf (H.request r)).responses.all →
      Acts cfg r (IsStatic cfg) H (H₁.staticResponse r resp) := by
    intro H₁ resp hacts hd₁ hresp
    have hq := hacts.sound.requests r
    have hborn : r < H₁.next := hacts.next ▸ hr
    refine hacts.of_quiet ⟨hacts.sound.set hborn rfl ⟨hq.alive, hq.timer, hq.message, hq.routed,
      fun hn => absurd hd₁ hn⟩, rfl, fun _ h => ⟨setRequest_of_ne h, rfl, fun _ => Iff.rfl⟩,
        Or.inr ?_⟩
    refine ⟨staticReply (H₁.request r) resp, ⟨_, _, resp, hresp, rfl⟩, ?_⟩
    rw [staticResponse, respond, setRequest_self]
  have henter := enter_spec (A := fun _ => False) hs hr hnew hfound
  have hd₁ : FromDisk cfg (((H.makeUid cfg r).2.setRequest r
      { H.request r with inSieve := true }).request r) := by
    rw [setRequest_self]
    exact hd
  rw [diskRequest]
  split
  · exact hanswer (.refl hs) hd (by simp [Responses.all])
  · cases result with
    | accepted =>
      have hq := henter.sound.requests r
      have hhold := henter.sound.acts_set (A := fun _ => False) (q := { H.request r with
          inSieve := true, refcnt := (H.request r).refcnt + 1, held := (H.request r).held + 1 })
        (henter.next ▸ hr) (by rw [setRequest_self])
        ⟨fun _ => Nat.succ_ne_zero _, fun _ => rfl, ?_, ?_, ?_⟩ (by rw [setRequest_self])
      · rw [setRequest_setRequest] at hhold
        exact (henter.of_quiet hhold).mono fun _ h => h.elim
      · exact fun h => by cases hnew.hasMessage.symm.trans h
      · exact fun h => by cases hnew.timer.symm.trans h
      · exact fun _ h => absurd hnew.responses h
    | eagain => exact hanswer henter hd₁ (by simp [Responses.all])
    | failed => exact hanswer henter hd₁ (by simp [Responses.all])

/-- `http_request` on a new request. -/
lemma httpRequest_spec (hs : H.Sound cfg) (hr : r < H.next) (hnew : IsNew (H.request r))
    {target : Target} : Ends Spares (fun p => Acts cfg r (IsStatic cfg) H p.2)
      (H.httpRequest cfg target result r) := by
  have hclose : ∀ {H₁ : Http} {resp : StaticResponse} (route : RouteId),
      Acts cfg r (fun _ => False) H H₁ → (H₁.request r).responses = [] →
      resp ∈ (cfg.route route).responses.all →
      Ends Spares (fun p => Acts cfg r (IsStatic cfg) H p.2) (do
        let H ← H₁.close r resp
        return ((0 : Int), H)) := by
    intro H₁ resp route hacts hnone hresp
    obtain ⟨H', hclose, hacts', -⟩ := close_static hacts.sound (hacts.next ▸ hr) (fun _ => hnone)
      ⟨route, hresp⟩
    rw [hclose]
    exact hacts.of_quiet hacts'
  unfold httpRequest
  by_cases hfull : H.requests.sieve.full = true
  · rw [if_pos hfull]
    exact hclose ((H.request r).route.getD cfg.root) (.refl hs) hnew.responses
      (by simp [Responses.all, HttpConfig.routeOf])
  rw [if_neg hfull]
  have hroom : H.requests.sieve.filled < H.requests.sieve.max := by
    simpa [Sieve.full] using hfull
  cases target with
  | notFound route => exact hclose route (.refl hs) hnew.responses (by simp [Responses.all])
  | route route =>
    have hq := hs.requests r
    have hrouted := hs.acts_set (A := fun _ => False)
      (q := { H.request r with route := some route }) hr rfl
      ⟨hq.alive, hq.timer, hq.message, fun h => absurd (hnew.timer.symm.trans h) Bool.false_ne_true,
        fun _ h => absurd hnew.responses h⟩ rfl
    dsimp only at hrouted ⊢
    have hself : (H.setRequest r { H.request r with route := some route }).request r
        = { H.request r with route := some route } := setRequest_self
    dsimp only at hself
    generalize hH₁ : H.setRequest r _ = H₁ at hrouted hself ⊢
    have hnew₁ : IsNew (H₁.request r) := by
      rw [hself]
      exact ⟨hnew.inSieve, hnew.hasMessage, hnew.timer, hnew.refcnt, hnew.responses⟩
    have hr₁ : r < H₁.next := hrouted.next ▸ hr
    have hfound : (H₁.makeUid cfg r).1 = true := by
      rw [makeUid]
      refine hrouted.sound.registry.make_fst.mpr ?_
      rw [← hH₁]
      exact hroom
    by_cases hforward : (cfg.route route).zmqForward.enabled = true
    · rw [if_pos hforward, hfound]
      have henter := enter_spec (A := fun _ => False) hrouted.sound hr₁ hnew₁ hfound
      have hd : ¬ FromDisk cfg (((H₁.makeUid cfg r).2.setRequest r
          { H₁.request r with inSieve := true }).request r) := by
        rw [setRequest_self, hself]
        rintro ⟨route', hroute', hdisabled, -⟩
        cases hroute'
        rw [hforward] at hdisabled
        cases hdisabled
      have hin₁ : ((((H₁.makeUid cfg r).2.setRequest r
          { H₁.request r with inSieve := true }).request r)).inSieve = true := by
        rw [setRequest_self]
      refine Ends.bind (doForward_spec henter.sound hin₁) fun p hp => ?_
      obtain ⟨sent, H₃⟩ := p
      have hacts := hrouted.of_quiet (henter.of_quiet hp.acts)
      dsimp only
      split_ifs with htimer
      · obtain ⟨hquiet, hin₃, hroute⟩ := hp.stays htimer.1
        refine hrouted.of_quiet (henter.of_quiet (hquiet.of_quiet (arm_spec hquiet.sound hin₃ ?_)))
        rwa [FromDisk, hroute]
      · exact hacts
    · rw [if_neg hforward]
      by_cases hstatic : (cfg.route route).staticEnabled = true
      · rw [if_pos hstatic]
        refine hrouted.of_quiet (diskRequest_spec hrouted.sound hr₁ hnew₁ ?_ hfound)
        exact ⟨route, by rw [hself], by simpa using hforward, hstatic⟩
      · rw [if_neg hstatic]
        exact hclose route hrouted hnew₁.responses (by simp [Responses.all])

/-! ### Steps -/

/-- The state in which an event is handled: a new request has been prepared. -/
def prepared (e : Event) (H : Http) : Http :=
  match e with
  | .request _ uri method body ip date header _ => H.newRequest uri method body ip date header
  | _ => H

/-- The message that an event brings. -/
def Event.message : Event → List Bytes
  | .reply _ frames => frames
  | .diskReply frames => frames
  | _ => []

/-- A request drops one of the references that it counts. -/
lemma drop_spec (hs : H.Sound cfg) (hr : r < H.next) (hin : q.inSieve = (H.request r).inSieve)
    (hq : Consistent cfg q) (hrep : q.responses = (H.request r).responses) :
    Ends Spares (Acts cfg r A H) ((H.setRequest r q).decref r) := by
  have hacts := hs.acts_set (A := fun _ => False) hr hin hq hrep
  by_cases href : ((H.setRequest r q).request r).refcnt = 0
  · rw [decref, if_pos href]
    rintro ⟨⟩
  · obtain ⟨H', hdecref, hacts'⟩ := decref_spec hacts.sound href
    exact .of_eq_ok hdecref (hacts.of_quiet hacts')

/-- The request that an event is about. -/
def Event.Concerns (e : Event) (H : Http) (r : ReqId) : Prop :=
  match e with
  | .request .. => r = H.next
  | .reply _ frames | .diskReply frames =>
    frames.head? = some (H.requests.uid r) ∧ (H.request r).inSieve = true
  | .timeout r' _ => r = r' ∧ (H.request r').timer = true
  | .finish r' | .release r' => r = r'

/-- One event changes the request that it is about, unless it is a message that is only counted. -/
theorem step_spec (hs : H.Sound cfg) (e : Event) :
    Ends Spares (fun H' =>
      (H'.requests = H.requests ∧ H'.request = H.request ∧ H'.next = H.next) ∨
        ∃ r, e.Concerns H r ∧ Acts cfg r (Relayed cfg H e.message r) (H.prepared e) H')
      (step cfg e H) := by
  cases e with
  | request target uri method body ip date header result =>
    have hnew : (H.newRequest uri method body ip date header).request H.next
        = { noRequest with
            uri := uri, method := method, header := header, body := body, ip := ip, date := date
            refcnt := 1, finished := false } := Function.update_self _ _ _
    refine Ends.bind (httpRequest_spec (newRequest_sound hs) (Nat.lt_succ_self H.next) ?_)
      fun p hacts => Or.inr ⟨H.next, rfl, hacts.mono fun _ => Or.inl⟩
    rw [hnew]
    exact ⟨rfl, rfl, rfl, one_ne_zero, rfl⟩
  | reply route frames =>
    refine (httpProcess_spec hs).mono (fun _ hf => spares_of_outOfBounds hf.1) fun H' hheard =>
      hheard.imp_right ?_
    rintro ⟨r, hhead, hin, hacts⟩
    exact ⟨r, ⟨hhead, hin⟩, hacts⟩
  | diskReply frames =>
    refine (diskProcess_spec hs).mono (fun _ => id) fun H' hheard => hheard.imp_right ?_
    rintro ⟨r, hhead, hin, hacts⟩
    exact ⟨r, ⟨hhead, hin⟩, hacts⟩
  | timeout r result =>
    rw [step]
    split_ifs with htimer
    · exact (requestTimeout_spec hs htimer).mono (fun _ => id) fun H' hacts =>
        Or.inr ⟨r, ⟨rfl, htimer⟩, hacts.mono fun _ => Or.inl⟩
    · exact Or.inl ⟨rfl, rfl, rfl⟩
  | finish r =>
    rw [step]
    split_ifs with hfinished
    · exact Or.inl ⟨rfl, rfl, rfl⟩
    · have hq := hs.requests r
      refine (drop_spec (q := { H.request r with finished := true }) hs ?_ rfl
        ⟨hq.alive, hq.timer, hq.message, hq.routed, hq.answered⟩ rfl).mono (fun _ => id)
        fun H' hacts => Or.inr ⟨r, rfl, hacts⟩
      refine hs.lt_next fun h => ?_
      rw [h] at hfinished
      exact hfinished rfl
  | release r =>
    rw [step]
    split_ifs with hheld
    · exact Or.inl ⟨rfl, rfl, rfl⟩
    · have hq := hs.requests r
      refine (drop_spec (q := { H.request r with held := (H.request r).held - 1 }) hs ?_ rfl
        ⟨hq.alive, hq.timer, hq.message, hq.routed, hq.answered⟩ rfl).mono (fun _ => id)
        fun H' hacts => Or.inr ⟨r, rfl, hacts⟩
      refine hs.lt_next fun h => ?_
      rw [h] at hheld
      exact hheld rfl

end Http

end Zerogw
