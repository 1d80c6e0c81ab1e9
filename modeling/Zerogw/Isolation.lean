import Zerogw.Lookups
import Zerogw.Server.Watchers

/-!
# Routes are isolated

All routes share the sieve of connections and the sieve of requests. Whatever is done in one route,
what belongs to the others stays as it is, unless a long-poll request names a connection of another
route or a reply a request of another route: these two lookups are not checked.
-/

namespace Zerogw

open Execution

namespace Server

variable {cfg : Config} {env : Env} {s s₁ s' : Server} {h g : HybiId} {r : ReqId}
  {route : RouteId} {allow : Mark → Prop} {w w' : Option HybiId} {P : Polling} {i : Input}

/-- Connection `h` belongs to another route. -/
def Elsewhere (route : RouteId) (s : Server) (h : HybiId) : Prop :=
  h < s.next ∧ (s.info h).route ≠ route

/-- Connections, topics, outputs and queues of other routes and the requests that came through them
have not changed, and no message was sent to a connection of theirs. -/
structure Isolated (route : RouteId) (s s' : Server) : Prop where
  next : s.next ≤ s'.next
  arrived : s.polling.next ≤ s'.polling.next
  info : ∀ h, s.Elsewhere route h → s'.info h = s.info h
  live : ∀ h, s.Elsewhere route h → (s'.Live h ↔ s.Live h)
  refcnt : ∀ h, s.Elsewhere route h → s'.backend.refcnt h = s.backend.refcnt h
  comet : ∀ h, s.Elsewhere route h → s'.polling.comet h = s.polling.comet h
  request : ∀ r, r < s.polling.next → (s.polling.request r).route ≠ route →
    s'.polling.request r = s.polling.request r
  socks : ∀ k, k.route ≠ route → s'.backend.socks k = s.backend.socks k
  topics : Topics.SameBut route (fun h => ¬ s.Elsewhere route h) s.topics s'.topics
  outputs : Outputs.SameBut route (fun h => ¬ s.Elsewhere route h) s.outputs s'.outputs
  sends : ∃ new, s'.sends = s.sends ++ new ∧ ∀ x ∈ new, ¬ s.Elsewhere route x.1

lemma Isolated.refl : Isolated route s s :=
  ⟨le_rfl, le_rfl, fun _ _ => rfl, fun _ _ => Iff.rfl, fun _ _ => rfl, fun _ _ => rfl,
    fun _ _ _ => rfl, fun _ _ => rfl, .refl, .refl, [], by simp⟩

lemma Isolated.trans (h₁ : Isolated route s s₁) (h₂ : Isolated route s₁ s') :
    Isolated route s s' := by
  have helse : ∀ h, s.Elsewhere route h → s₁.Elsewhere route h := by
    rintro h ⟨hborn, hroute⟩
    exact ⟨hborn.trans_le h₁.next, by rwa [h₁.info h ⟨hborn, hroute⟩]⟩
  have hown : ∀ h, ¬ s₁.Elsewhere route h → ¬ s.Elsewhere route h := fun h => mt (helse h)
  constructor
  · exact h₁.next.trans h₂.next
  · exact h₁.arrived.trans h₂.arrived
  · exact fun h hh => (h₂.info h (helse h hh)).trans (h₁.info h hh)
  · exact fun h hh => (h₂.live h (helse h hh)).trans (h₁.live h hh)
  · exact fun h hh => (h₂.refcnt h (helse h hh)).trans (h₁.refcnt h hh)
  · exact fun h hh => (h₂.comet h (helse h hh)).trans (h₁.comet h hh)
  · intro r hr hroute
    have hfirst := h₁.request r hr hroute
    rw [h₂.request r (hr.trans_le h₁.arrived) (by rwa [hfirst]), hfirst]
  · exact fun k hk => (h₂.socks k hk).trans (h₁.socks k hk)
  · exact h₁.topics.trans (h₂.topics.mono hown)
  · exact h₁.outputs.trans (h₂.outputs.mono hown)
  · obtain ⟨new₁, hsends₁, hall₁⟩ := h₁.sends
    obtain ⟨new₂, hsends₂, hall₂⟩ := h₂.sends
    refine ⟨new₁ ++ new₂, by rw [hsends₂, hsends₁, List.append_assoc], fun x hx => ?_⟩
    rcases List.mem_append.mp hx with hx | hx
    · exact hall₁ x hx
    · exact hown _ (hall₂ x hx)

/-! ### Parked requests -/

/-- Requests are parked on connections of their own route. -/
def Housed (s : Server) : Prop :=
  ∀ h r, (s.polling.comet h).curRequest = some r →
    (s.polling.request r).route = (s.info h).route

/-- Requests stay on their route. -/
lemma PollMove.route_eq (hm : PollMove cfg allow s w P w') (hr : r < s.polling.next) :
    (P.request r).route = (s.polling.request r).route := by
  have hset : ∀ {r' q}, q.route = (s.polling.request r').route →
      ((s.polling.setRequest r' q).request r).route = (s.polling.request r).route := by
    intro r' q hq
    by_cases hne : r = r'
    · subst hne
      rw [Polling.setRequest_request_self, hq]
    · rw [Polling.setRequest_request_of_ne hne]
  cases hm with
  | @arrived q =>
    show ((s.polling.setRequest s.polling.next q).request r).route = _
    rw [Polling.setRequest_request_of_ne hr.ne]
  | replied => exact hset rfl
  | dismissed => exact hset (by simp)
  | acked => rfl
  | parked => exact hset rfl
  | woken => rfl
  | wokenInVain => rfl
  | served => exact hset (by simp)
  | aborted => exact hset (by simp)
  | finished => exact hset (by simp)
  | released => exact hset (by simp)

lemma Sound.lt_next_of_parked (hs : s.Sound cfg) (hcur : (s.polling.comet h).curRequest = some r) :
    r < s.polling.next :=
  hs.links.lt_next ((hs.links.parked h r).mp hcur).2

lemma PollMove.housed (hallow : ¬ allow .astray) (hs : s.Sound cfg)
    (hm : PollMove cfg allow s w P w') (hI : s.Housed) : Housed { s with polling := P } := by
  have hold : ∀ g r, (s.polling.comet g).curRequest = some r →
      (s.polling.request r).route = (s.info g).route ∧ r < s.polling.next :=
    fun g r hcur => ⟨hI g r hcur, hs.lt_next_of_parked hcur⟩
  have hset : ∀ {h c}, (∀ r, c.curRequest = some r →
        (s.polling.request r).route = (s.info h).route ∧ r < s.polling.next) →
      ∀ g r, ((s.polling.setComet h c).comet g).curRequest = some r →
        (s.polling.request r).route = (s.info g).route ∧ r < s.polling.next := fun hc g =>
    Polling.forall_setComet (p := fun g c => ∀ r, c.curRequest = some r →
      (s.polling.request r).route = (s.info g).route ∧ r < s.polling.next) hold hc g
  have hnew : ∀ g r, (P.comet g).curRequest = some r →
      (s.polling.request r).route = (s.info g).route ∧ r < s.polling.next := by
    cases hm with
    | arrived => exact hold
    | replied => exact hold
    | dismissed => exact hset (by simp)
    | acked => exact hset (hold _)
    | parked ha hroute hw hf hh hcur hlimit ht hborn hl =>
      apply hset
      rintro r ⟨⟩
      exact ⟨hroute.resolve_right fun hn => hallow hn.1, hs.links.lt_next hf⟩
    | woken => exact hset (hold _)
    | wokenInVain => exact hset (hold _)
    | served => exact hset (by simp)
    | aborted => exact hset (by simp)
    | finished => exact hold
    | released => exact hold
  intro g r hcur
  obtain ⟨hroute, hr⟩ := hnew g r hcur
  exact (hm.route_eq hr).trans hroute

/-- Closing a connection moves no request to another route. -/
lemma shut_route : ((s.polling.shut cfg env h).request r).route = (s.polling.request r).route := by
  cases hcur : (s.polling.comet h).curRequest with
  | none => rw [Polling.shut_of_none hcur, Polling.setComet_request]
  | some r' =>
    rw [Polling.shut_of_some hcur, Polling.setComet_request]
    by_cases hr : r = r'
    · subst hr
      simp [Polling.answer]
    · rw [Polling.answer_request_of_ne hr]

lemma Move.housed (hallow : ¬ allow .astray) (hs : s.Sound cfg)
    (hm : Move cfg env allow w s w' s') (hI : s.Housed) : s'.Housed := by
  cases hm with
  | polling hP => exact hP.housed hallow hs hI
  | other hact =>
    intro h r hcur
    rw [hact.polling] at hcur ⊢
    rw [(hact.info_eq h).2.2]
    exact hI h r hcur
  | pushed =>
    exact Polling.forall_setComet (p := fun g c => ∀ r, c.curRequest = some r →
      (s.polling.request r).route = (s.info g).route) hI (hI _)
  | @offered b k h r =>
    intro g r' hcur
    show ((s.polling.incref r).request r').route = _
    rw [← hI g r' hcur]
    by_cases hr : r' = r
    · subst hr
      simp [Polling.incref]
    · rw [Polling.incref, Polling.setRequest_request_of_ne hr]
  | @gone h P l _ ha hl hP hlog hst =>
    have hcomet := forall_gone (p := fun g c => ∀ r, c.curRequest = some r →
      (s.polling.request r).route = (s.info g).route) hI hP (by simp)
    intro g r hcur
    have hinfo : s'.info = s.info := hst.info
    rw [hst.polling] at hcur ⊢
    rw [hinfo, ← hcomet g r hcur]
    rcases hP with ⟨-, rfl⟩ | ⟨-, rfl⟩
    · rfl
    · exact shut_route
  | unstarted ha hst =>
    intro g r hcur
    rw [hst.polling_eq] at hcur ⊢
    have hg : g ≠ s.next := by
      rintro rfl
      rw [hs.comet_next] at hcur
      cases hcur
    rw [hst.info_eq hg]
    exact hI g r hcur
  | @started route type s₁ P ha hst hP =>
    obtain _ | _ | ⟨hdead, hlive, hnext, hinfo⟩ := hst
    intro g r hcur
    by_cases hg : g = s.next
    · subst hg
      have hnone : (P.comet s.next).curRequest = none := by
        rcases hP with ⟨-, rfl⟩ | ⟨-, rfl⟩
        · rw [hs.comet_next]
          rfl
        · rw [Polling.openComet, Polling.setComet_comet_self]
      cases hnone.symm.trans hcur
    · show (P.request r).route = (s₁.info g).route
      rw [hinfo g hg]
      rcases hP with ⟨-, rfl⟩ | ⟨-, rfl⟩
      · exact hI g r hcur
      · change ((s.polling.setComet s.next _).comet g).curRequest = some r at hcur
        rw [Polling.setComet_comet_of_ne hg] at hcur
        exact hI g r hcur
  | tables => exact hI
  | settled => exact hI

/-! ### What a move leaves alone -/

/-- Nothing starts but the new connection, if it does. -/
lemma Started.isolated {type : HybiType} {res : Option HybiId}
    (hst : Started cfg route type s res s') : Isolated route s s' := by
  have hne : ∀ {g}, s.Elsewhere route g → g ≠ s.next := fun hg => hg.1.ne
  obtain _ | ⟨hlive, hnext, hinfo, -, -, hpolling, hsends, htopics, houtputs, hsocks, hrefcnt⟩ |
    ⟨-, hlive, hnext, hinfo, -, -, -, -, hpolling, hsends, htopics, houtputs, -, hposts⟩ := hst
  · exact { Isolated.refl with }
  · refine ⟨hnext ▸ Nat.le_succ _, hpolling ▸ le_rfl, fun g hg => hinfo g (hne hg),
      fun g _ => hlive g, fun _ _ => by rw [hrefcnt], fun _ _ => by rw [hpolling],
      fun _ _ _ => by rw [hpolling], fun _ _ => by rw [hsocks], htopics ▸ .refl, houtputs ▸ .refl,
      [], by simp [hsends]⟩
  · refine ⟨hnext ▸ Nat.le_succ _, hpolling ▸ le_rfl, fun g hg => hinfo g (hne hg),
      fun g hg => (hlive g).trans (or_iff_left (hne hg)), fun g hg => hposts.refcnt g (hne hg),
      fun _ _ => by rw [hpolling], fun _ _ _ => by rw [hpolling], fun k hk => hposts.others k ?_,
      htopics ▸ .refl, houtputs ▸ .refl, [], by simp [hsends]⟩
    intro hmem
    exact hk (List.mem_singleton.mp hmem ▸ rfl)

section isolated

variable (hown : ∀ q, allow (.acts q) → q = route)

include hown

lemma PollMove.isolated (hI : s.Housed) (hm : PollMove cfg allow s w P w') :
    s.polling.next ≤ P.next ∧
    (∀ g, (s.info g).route ≠ route → P.comet g = s.polling.comet g) ∧
    ∀ r, r < s.polling.next → (s.polling.request r).route ≠ route →
      P.request r = s.polling.request r := by
  have hcomet : ∀ {h c}, allow (.acts (s.info h).route) → ∀ g, (s.info g).route ≠ route →
      (s.polling.setComet h c).comet g = s.polling.comet g := by
    intro h c ha g hg
    apply Polling.setComet_comet_of_ne
    rintro rfl
    exact hg (hown _ ha)
  have hrequest : ∀ {r' q}, allow (.acts (s.polling.request r').route) → ∀ r,
      r < s.polling.next → (s.polling.request r).route ≠ route →
      (s.polling.setRequest r' q).request r = s.polling.request r := by
    intro r' q ha r _ hr
    apply Polling.setRequest_request_of_ne
    rintro rfl
    exact hr (hown _ ha)
  have hparked : ∀ {h r}, allow (.acts (s.info h).route) →
      (s.polling.comet h).curRequest = some r → allow (.acts (s.polling.request r).route) :=
    fun ha hcur => by rwa [hI _ _ hcur]
  cases hm with
  | arrived =>
    exact ⟨Nat.le_succ _, fun _ _ => rfl, fun r hr _ =>
      Polling.setRequest_request_of_ne hr.ne _⟩
  | replied ha => exact ⟨le_rfl, fun _ _ => rfl, hrequest ha⟩
  | dismissed ha hw hcur => exact ⟨le_rfl, hcomet ha, hrequest (hparked ha hcur)⟩
  | acked ha => exact ⟨le_rfl, hcomet ha, fun _ _ _ => rfl⟩
  | parked ha hroute =>
    refine ⟨le_rfl, hcomet ha, hrequest ?_⟩
    rcases hroute with hroute | ⟨-, hr⟩
    · rwa [hroute]
    · exact hr
  | woken ha => exact ⟨le_rfl, hcomet ha, fun _ _ _ => rfl⟩
  | wokenInVain ha => exact ⟨le_rfl, hcomet ha, fun _ _ _ => rfl⟩
  | served ha hcur => exact ⟨le_rfl, hcomet ha, hrequest (hparked ha hcur)⟩
  | aborted ha hallow hcur => exact ⟨le_rfl, hcomet ha, hrequest (hparked ha hcur)⟩
  | finished ha => exact ⟨le_rfl, fun _ _ => rfl, hrequest ha⟩
  | released ha => exact ⟨le_rfl, fun _ _ => rfl, hrequest ha⟩

/-- The connections that a move is about are not those of other routes. -/
lemma not_elsewhere (ha : allow (.acts (s.info h).route)) : ¬ s.Elsewhere route h :=
  fun hh => hh.2 (hown _ ha)

/-- A message about a connection of the route is sent to backends of the route. -/
lemma isolated_of_posts {render : BackendMsg → List Frame} {m : BackendMsg} {ks : List SockId}
    {b : Backend} (ha : allow (.acts (s.info m.hybi).route))
    (hks : ∀ k ∈ ks, k.route = (s.info m.hybi).route)
    (hposts : Backend.Posts render ks m s.backend b) :
    Isolated route s { s with backend := b } := by
  refine { Isolated.refl with refcnt := fun g hg => ?_, socks := fun k hk => ?_ }
  · apply hposts.refcnt
    rintro rfl
    exact not_elsewhere hown ha hg
  · apply hposts.others
    intro hmem
    exact hk ((hks k hmem).trans (hown _ ha))

lemma Act.isolated (hact : Act allow s s') : Isolated route s s' := by
  have hlive := hact.same.live
  cases hact with
  | posted ha hl hk hsend =>
    exact isolated_of_posts hown ha (by simpa using hk) (Backend.posts_of_send hsend)
  | drained ha =>
    cases (hown 0 (ha 0)).trans (hown 1 (ha 1)).symm
  | switched => exact { Isolated.refl with socks := fun _ _ => rfl }
  | told ha =>
    refine { Isolated.refl with sends := ⟨_, rfl, ?_⟩ }
    rintro _ hx
    obtain rfl := List.mem_singleton.mp hx
    exact not_elsewhere hown ha
  | baked ha =>
    refine { Isolated.refl with info := fun g hg => ?_, live := fun g _ => hlive g }
    apply Function.update_of_ne
    rintro rfl
    exact not_elsewhere hown ha hg

lemma Move.isolated (hrestops : ∀ h, ¬ allow (.restops h)) (hI : s.Housed) (hi : s.Intact)
    (hs : s.Sound cfg) (hm : Move cfg env allow w s w' s') : Isolated route s s' := by
  have hcore := hs.core
  cases hm with
  | polling hP =>
    obtain ⟨hnext, hcomet, hrequest⟩ := hP.isolated hown hI
    exact { Isolated.refl with
      arrived := hnext, comet := fun g hg => hcomet g hg.2, request := hrequest }
  | other hact => exact hact.isolated hown
  | pushed ha =>
    refine { Isolated.refl with comet := fun g hg => ?_, sends := ⟨_, rfl, ?_⟩ }
    · apply Polling.setComet_comet_of_ne
      rintro rfl
      exact not_elsewhere hown ha hg
    · rintro _ hx
      obtain rfl := List.mem_singleton.mp hx
      exact not_elsewhere hown ha
  | offered ha har hl hk hf hsend =>
    refine { isolated_of_posts hown ha (by simpa using hk) (Backend.posts_of_send hsend) with
      request := fun r' _ hr' => ?_ }
    apply Polling.setRequest_request_of_ne
    rintro rfl
    exact hr' (hown _ har)
  | @gone h P l _ ha hr hP hlog hst =>
    have hl : s.Live h := hi h (hr.resolve_right fun hn => hrestops h hn.1)
    have hinfo : s'.info = s.info := hst.info
    have hroute : (s.info h).route = route := hown _ ha
    have hh : ¬ s.Elsewhere route h := not_elsewhere hown ha
    have hpolling : s'.polling = P := hst.polling
    constructor
    · exact hst.next.ge
    · rw [hpolling]
      rcases hP with ⟨-, rfl⟩ | ⟨-, rfl⟩
      · exact le_rfl
      · exact Polling.shut_next.ge
    · exact fun g _ => congrFun hinfo g
    · intro g hg
      refine (hst.live_iff hl).trans (and_iff_left ?_)
      rintro rfl
      exact hh hg
    · intro g hg
      apply hst.posts.refcnt
      rintro rfl
      exact hh hg
    · intro g hg
      rw [hpolling]
      rcases hP with ⟨-, rfl⟩ | ⟨-, rfl⟩
      · rfl
      · apply Polling.shut_comet_of_ne
        rintro rfl
        exact hh hg
    · intro r _ hr
      rw [hpolling]
      rcases hP with ⟨-, rfl⟩ | ⟨-, rfl⟩
      · rfl
      · apply Polling.shut_request_of_not_parked hs.links
        intro hpark
        exact hr ((hI h r ((hs.links.parked h r).mpr hpark)).trans hroute)
    · intro k hk
      apply hst.posts.others
      intro hmem
      rcases (mem_noticeSocks (hcore.withPolling P)).mp hmem with rfl | ⟨pre, hpre⟩
      · exact hk hroute
      · obtain ⟨-, i, rfl⟩ := mapping_running hcore hpre
        exact hk hroute
    · rw [hst.topics]
      exact Topics.sameBut_stop hcore.topics hh fun p hp hconn => by
        rw [← hcore.subsRoute p hp, hconn, hroute]
    · rw [hst.outputs]
      exact Outputs.sameBut_stop hcore.outputs hh (socket_route hcore hroute)
    · rw [hst.sends]
      rcases hlog with rfl | ⟨m, rfl⟩
      · exact ⟨[], by simp⟩
      · refine ⟨_, rfl, ?_⟩
        rintro _ hx
        obtain rfl := List.mem_singleton.mp hx
        exact hh
  | unstarted ha hst =>
    obtain rfl := hown _ ha
    exact hst.isolated
  | @started own type s₁ P ha hst hP =>
    obtain rfl : own = route := hown _ ha
    have hiso := hst.isolated
    obtain ⟨-, rfl⟩ | ⟨-, rfl⟩ := hP
    · exact { hiso with
        arrived := le_rfl, comet := fun _ _ => rfl, request := fun _ _ _ => rfl }
    · exact { hiso with
        arrived := le_rfl
        comet := fun g hg => Polling.setComet_comet_of_ne hg.1.ne _
        request := fun _ _ _ => rfl }
  | @tables T O own ha hallow hT hO =>
    obtain rfl : own = route := hown _ ha
    have hmono : ∀ g, (s.info g).route = own → ¬ s.Elsewhere own g := fun g hg hh => hh.2 hg
    exact { Isolated.refl with topics := hT.mono hmono, outputs := hO.mono hmono }
  | settled => exact .refl

end isolated

/-! ### Steps -/

/-- A backend command or a long-poll request looks up an id, and `hybi_find` reads behind the id or
behind the sieve. -/
def Input.Overreads (i : Input) (s : Server) : Prop :=
  (∃ own frames, i.event = .command own frames ∧ s.Overreads frames) ∨
    ∃ own method body origin date args,
      i.event = .cometRequest own method body origin date (some args) ∧ args.action ≠ .connect ∧
        ¬ s.InBounds args.uid

/-- A backend command or a long-poll request in a route. -/
def Input.On (route : RouteId) (i : Input) : Prop :=
  (∃ frames, i.event = .command route frames) ∨
    ∃ method body origin date args, i.event = .cometRequest route method body origin date args

/-- Such an input concerns only its own route, unless it is a long-poll request that has gone
astray. -/
lemma acts_of_on (hi : i.On route) (hastray : ¬ Astray i s) :
    ∀ q, Shows cfg i s (.acts q) → q = route := by
  intro q hq
  rcases hi with ⟨frames, hevent⟩ | ⟨method, body, origin, date, args, hevent⟩
  · rw [Shows, Concerns, hevent] at hq
    exact hq
  · rw [Shows, Concerns, hevent] at hq
    rcases hq with hq | ⟨h, msgid, hnames, rfl⟩
    · exact hq
    · by_contra hne
      exact hastray ⟨route, h, msgid, hnames, hne⟩

/-- No such input stops a stopped connection. -/
lemma not_restops_of_on (hi : i.On route) (h : HybiId) : ¬ Shows cfg i s (.restops h) := by
  rintro ⟨hevent, -⟩
  obtain ⟨frames, hi⟩ | ⟨method, body, origin, date, args, hi⟩ := hi
  · cases hi.symm.trans hevent
  · cases hi.symm.trans hevent

lemma housed_of_reachable {C : Input → Server → Prop} (hC : ∀ i s, C i s → ¬ Astray i s)
    (hr : ReachableVia (step cfg) C (init cfg) s) : s.Housed :=
  keeps_of_reachable (fun x => x = .astray) (fun _ s => s.Housed)
    (by rintro i s x hCi rfl; exact hC i s hCi) (fun _ _ hcur => by cases hcur)
    (fun _ _ _ _ _ _ hallow hs _ hm hI => hm.housed (hallow _ rfl) hs hI) hr

lemma step_isolated (hs : s.Sound cfg) (hI : s.Housed) (hint : s.Intact) (hi : i.On route)
    (hastray : ¬ Astray i s) (hstep : step cfg i s = .ok s') : Isolated route s s' := by
  have hrestops : ∀ h, ¬ Shows cfg i s (.restops h) := not_restops_of_on hi
  obtain ⟨-, hiso, -⟩ := (path_of_step hs hstep).keeps hs
    (I := fun _ t => Isolated route s t ∧ t.Housed ∧ t.Intact)
    (fun w t w' t' ht _ hm ⟨hiso, hI, hint⟩ =>
      ⟨hiso.trans (hm.isolated (acts_of_on hi hastray) hrestops hI hint ht),
        hm.housed hastray ht hI, hm.intact ht hint fun h ha => absurd ha (hrestops h)⟩)
    ⟨.refl, hI, hint⟩
  exact hiso

/-- Such an input is carried out, unless an id is read out of bounds or a client closes its own
connection. -/
lemma exists_step_of_on (hs : s.Sound cfg) (hint : s.Intact) (hi : i.On route)
    (hread : ¬ i.Overreads s) (hclose : ¬ ClosesItself cfg i s) : ∃ s', step cfg i s = .ok s' := by
  have hpath : Path cfg i.env (Shows cfg i s) (none, s) (none, s.expecting i.env) :=
    Path.switched hs.core _ i.env.outcomes i.env.memory
  have hs' : (s.expecting i.env).Sound cfg := hpath.sound hs
  have hin : ∀ id, (s.expecting i.env).InBounds id ↔ s.InBounds id := fun id =>
    ⟨fun hb => ⟨hb.slot, hb.hole, hb.uid⟩, fun hb => ⟨hb.slot, hb.hole, hb.uid⟩⟩
  rw [step, handle]
  obtain ⟨frames, hevent⟩ | ⟨method, body, origin, date, args, hevent⟩ := hi
  · have hframes : ¬ (s.expecting i.env).Overreads frames := by
      rintro ⟨c, id, rest, hf, hlooks, hsized, hout⟩
      exact hread (Or.inl ⟨route, frames, hevent, c, id, rest, hf, hlooks, hsized,
        fun hb => hout ((hin id).mpr hb)⟩)
    rw [hevent]
    cases frames with
    | nil => exact ⟨_, rfl⟩
    | cons cmd frames =>
      by_cases hcmd : IsTable cmd
      · have hspec : Ends (Misreads (cmd :: frames) (s.expecting i.env)) _
            (websockProcess cfg i.env route (cmd :: frames) (s.expecting i.env)) :=
          tables_spec hs'.core hcmd
        obtain ⟨s', hok, -⟩ := hspec.exists_ok fun _ hf => hframes hf.2
        exact ⟨s', hok⟩
      · have hspec : Ends (Slips (cmd :: frames) (s.expecting i.env))
            (fun s' => Path cfg i.env (fun _ => True) (none, s.expecting i.env) (none, s'))
            (websockProcess cfg i.env route (cmd :: frames) (s.expecting i.env)) :=
          others_spec hs'.core trivial hcmd fun _ _ _ _ _ _ => trivial
        obtain ⟨s', hok, -⟩ := hspec.exists_ok fun _ hf =>
          hf.elim (fun hf => hframes hf.2) fun hf => hf.2 hint
        exact ⟨s', hok⟩
  · obtain ⟨p, hok, -⟩ := (cometRequest_step i.env (Shows cfg i s) hs' rfl hevent
      shows_of_expecting).exists_ok fun f hf => by
        obtain ⟨a, rfl, hact, hout⟩ | hdead := hf.2
        · exact hread (Or.inr ⟨route, method, body, origin, date, a, hevent, hact,
            fun hb => hout ((hin a.uid).mpr hb)⟩)
        · exact hclose hdead
    rw [hevent]
    refine ⟨p.2, ?_⟩
    exact congrArg (fun m : Except Fault (Int × Server) => m >>= fun p => .ok p.2) hok

end Server

/-! ### Replies to HTTP requests -/

namespace Http

variable {cfg : HttpConfig} {H H' : Http} {r : ReqId} {route : RouteId} {frames : List Bytes}

/-- Requests of other routes and their slots have not changed, and nothing was forwarded. -/
structure Isolated (route : RouteId) (H H' : Http) : Prop where
  request : ∀ r, (H.request r).route ≠ some route → H'.request r = H.request r
  uid : ∀ r, (H.request r).route ≠ some route → H'.requests.uid r = H.requests.uid r
  sieve : ∀ r, (H.request r).route ≠ some route →
    ∀ k, H'.requests.sieve.Holds k r ↔ H.requests.sieve.Holds k r
  attempts : H'.attempts = H.attempts

/-- A reply that names a request of another route. -/
def Misdirected (route : RouteId) (frames : List Bytes) (H : Http) : Prop :=
  ∃ id body rest r, frames = id :: [] :: body :: rest ∧ H.find id = .ok (some r) ∧
    (H.request r).route ≠ some route

lemma attempts_of_finish (h : H.requestFinish r = .ok H') : H'.attempts = H.attempts := by
  unfold requestFinish at h
  dsimp only at h
  split_ifs at h
  · obtain ⟨requests, -, hok⟩ := bind_eq_ok.mp h
    cases hok
    rfl
  · cases h
    rfl

/-- Nothing but the counter changes, or the request that is named gets a response and is
finished. -/
lemma httpProcess_cases (h : H.httpProcess cfg route frames = .ok H') :
    (H'.requests = H.requests ∧ H'.request = H.request ∧ H'.attempts = H.attempts) ∨
      ∃ id body rest r, frames = id :: [] :: body :: rest ∧ H.find id = .ok (some r) ∧
        ((∃ status headers own body, H.reply r status headers own body = .ok H') ∨
          ∃ resp, H.close r resp = .ok H') := by
  unfold httpProcess at h
  split at h
  · next id sentinel rest =>
    dsimp only at h
    by_cases hlen : id.length ≠ uidLen
    · rw [if_pos hlen] at h
      cases h
      exact Or.inl ⟨rfl, rfl, rfl⟩
    · rw [if_neg hlen] at h
      obtain ⟨o, hfind, hend⟩ := bind_eq_ok.mp h
      clear h
      cases o with
      | none =>
        cases hend
        exact Or.inl ⟨rfl, rfl, rfl⟩
      | some r =>
        dsimp only at hend
        by_cases hsentinel : rest = [] ∨ sentinel ≠ []
        · rw [if_pos hsentinel] at hend
          cases hend
          exact Or.inl ⟨rfl, rfl, rfl⟩
        · rw [if_neg hsentinel] at hend
          rw [not_or, not_ne_iff] at hsentinel
          obtain ⟨hrest, rfl⟩ := hsentinel
          obtain ⟨body, rest, rfl⟩ := List.exists_cons_of_ne_nil hrest
          refine Or.inr ⟨id, body, rest, r, rfl, hfind, ?_⟩
          rcases rest with _ | ⟨second, _ | ⟨third, _ | ⟨fourth, rest⟩⟩⟩
          · exact Or.inl ⟨_, _, _, _, hend⟩
          · exact Or.inl ⟨_, _, _, _, hend⟩
          · exact Or.inl ⟨_, _, _, _, hend⟩
          · exact Or.inr ⟨_, hend⟩
  · cases h
    exact Or.inl ⟨rfl, rfl, rfl⟩

lemma Acts.isolated {A : Response → Prop} (hacts : Acts cfg r A H H')
    (hroute : (H.request r).route = some route) (hattempts : H'.attempts = H.attempts) :
    Isolated route H H' := by
  have hothers : ∀ r', (H.request r').route ≠ some route → r' ≠ r := by
    rintro r' hr' rfl
    exact hr' hroute
  exact ⟨fun r' hr' => (hacts.others r' (hothers r' hr')).1,
    fun r' hr' => (hacts.others r' (hothers r' hr')).2.1,
    fun r' hr' => (hacts.others r' (hothers r' hr')).2.2, hattempts⟩

lemma httpProcess_isolated (hs : H.Sound cfg) (hdirected : ¬ Misdirected route frames H)
    (h : H.httpProcess cfg route frames = .ok H') : Isolated route H H' := by
  rcases httpProcess_cases h with
    ⟨hreg, hreq, hattempts⟩ | ⟨id, body, rest, r, hframes, hfind, hend⟩
  · exact ⟨fun _ _ => by rw [hreq], fun _ _ => by rw [hreg], fun _ _ _ => by rw [hreg], hattempts⟩
  · have hroute : (H.request r).route = some route := by
      by_contra hne
      exact hdirected ⟨id, body, rest, r, hframes, hfind, hne⟩
    have hin : (H.request r).inSieve = true := (((find_ends hs id).result hfind r).mp rfl).1
    rcases hend with ⟨status, headers, own, body, hreply⟩ | ⟨resp, hclose⟩
    · obtain ⟨H₁, hok, hacts⟩ := reply_spec hs hin status headers own body
      cases hreply.symm.trans hok
      refine hacts.isolated hroute ?_
      unfold reply at hreply
      dsimp only at hreply
      split_ifs at hreply
      have hattempts := attempts_of_finish hreply
      exact hattempts
    · obtain ⟨H₁, hok, hacts, -⟩ := close_spec hs (hs.lt_next_of_inSieve hin)
        ((hs.requests r).unanswered hin) resp
      cases hclose.symm.trans hok
      have hattempts := attempts_of_finish (show requestFinish r _ = .ok H' from hclose)
      exact hacts.isolated hroute hattempts

end Http

/-- In every run in which no long-poll request has named a connection of another route and no
stopped connection was stopped again: a backend command or a long-poll request in a route leaves
all other routes alone unless it names a connection of another route itself, and it is carried
out unless its id is read out of bounds or it closes its own connection. So does a reply that
does not name a request of another route, and it is carried out unless it names the slot behind
the last one. -/
theorem routes_isolated {cfg : Config} {hcfg : HttpConfig} {s : Server} {H : Http}
    (hr : ReachableVia (Server.step cfg) (fun i s => ¬ Server.Astray i s ∧ ¬ Server.Restops i s)
      (Server.init cfg) s)
    (hr' : Reachable (Http.step hcfg) (Http.init hcfg) H) (route : RouteId) :
    (∀ i, Server.Input.On route i → ¬ Server.Astray i s →
      (∀ s', Server.step cfg i s = .ok s' → Server.Isolated route s s') ∧
      (¬ i.Overreads s → ¬ Server.ClosesItself cfg i s → ∃ s', Server.step cfg i s = .ok s')) ∧
    ∀ frames, ¬ Http.Misdirected route frames H →
      (∀ H', Http.step hcfg (.reply route frames) H = .ok H' → Http.Isolated route H H') ∧
      (¬ H.Overreads frames → ∃ H', Http.step hcfg (.reply route frames) H = .ok H') := by
  have hs := Server.sound_of_reachable hr
  have hs' := Http.sound_of_reachable hr'
  have hint := Server.intact_of_reachable (fun _ _ hC => hC.2) hr
  constructor
  · intro i hi hastray
    exact ⟨fun s' => Server.step_isolated hs
      (Server.housed_of_reachable (fun _ _ hC => hC.1) hr) hint hi hastray,
      Server.exists_step_of_on hs hint hi⟩
  · intro frames hdirected
    refine ⟨fun H' => Http.httpProcess_isolated hs' hdirected, fun hread => ?_⟩
    have hspec : Execution.Ends _ _ (H.httpProcess hcfg route frames) := Http.httpProcess_spec hs'
    obtain ⟨H', hok, -⟩ := hspec.exists_ok fun _ hf => hread hf.2
    exact ⟨H', hok⟩

/-- A backend of another route cannot disconnect a long-poll connection, though its command is
carried out, and a reply in the right route is passed on. -/
theorem routes_isolated_disconnect : ∃ (s s' : Server) (H H' : Http),
    Server.step Server.smallConfig ⟨.command 1 [str "disconnect", Server.firstUid],
      Server.stalledEnv⟩ s = .ok s' ∧ s.Live 0 ∧ s'.Live 0 ∧
    Http.step Http.smallGateway (.reply 0 [List.replicate 40 0, [], str "Hello"]) H = .ok H' ∧
      H'.attempts = H.attempts := by
  have hC : ∀ i ∈ [Server.arrives Server.connectArgs []], ∀ s,
      ¬ Server.Astray i s ∧ ¬ Server.Restops i s := by
    intro i hi s
    obtain rfl := List.mem_singleton.mp hi
    constructor
    · rintro ⟨route, h, msgid, ⟨method, body, origin, date, args, hevent, -, hreach⟩, -⟩
      cases hevent
      exact hreach.action rfl
    · rintro ⟨h, hevent, -⟩
      cases hevent
  obtain ⟨s, hr, hview⟩ := Server.exists_of_small_run _
    (fun s => (decide (s.Live 0), s.next, (s.info 0).route, s.sieve.max)) (true, 1, 0, 4) hC rfl
  obtain ⟨H, hr', hview'⟩ := Http.exists_of_gateway_run [Http.arrives]
    (fun H => (H.find (List.replicate 40 0), (H.request 0).route, H.requests.sieve.max))
    (.ok (some 0), some 0, 4) rfl
  simp only [Prod.mk.injEq, decide_eq_true_iff] at hview hview'
  obtain ⟨hl, hnext, hroute, hmax⟩ := hview
  obtain ⟨hfind, hroute', hmax'⟩ := hview'
  have hastray : ¬ Server.Astray ⟨.command 1 [str "disconnect", Server.firstUid],
      Server.stalledEnv⟩ s := by
    rintro ⟨route, h, msgid, ⟨method, body, origin, date, args, hevent, -⟩, -⟩
    cases hevent
  have hread : ¬ Server.Input.Overreads ⟨.command 1 [str "disconnect", Server.firstUid],
      Server.stalledEnv⟩ s := by
    rintro (⟨own, frames, hevent, c, id, rest, hframes, -, -, hout⟩ |
      ⟨own, method, body, origin, date, args, hevent, -⟩)
    · injection hevent with _ hcommand
      obtain ⟨-, hid⟩ := List.cons.inj (hcommand.trans hframes)
      obtain ⟨rfl, -⟩ := List.cons.inj hid
      exact hout ⟨by decide, by rw [hmax]; decide, fun _ _ => by decide⟩
    · cases hevent
  have hclose : ¬ Server.ClosesItself Server.smallConfig
      ⟨.command 1 [str "disconnect", Server.firstUid], Server.stalledEnv⟩ s := by
    rintro ⟨h, args, body, P, ⟨⟨route, method, origin, date, -, hevent⟩, -⟩, -⟩
    cases hevent
  have hdirected : ¬ Http.Misdirected 0 [List.replicate 40 0, [], str "Hello"] H := by
    rintro ⟨id, body, rest, r, hframes, hfound, hother⟩
    cases hframes
    cases hfind.symm.trans hfound
    exact hother hroute'
  have hread' : ¬ H.Overreads [List.replicate 40 0, [], str "Hello"] := by
    rintro ⟨id, part, rest, hframes, -, hhole⟩
    cases hframes
    rw [hmax'] at hhole
    exact absurd hhole (by decide)
  obtain ⟨hiso, hsome⟩ := (routes_isolated hr hr' 1).1 _ (Or.inl ⟨_, rfl⟩) hastray
  obtain ⟨s', hstep⟩ := hsome hread hclose
  obtain ⟨hiso', hsome'⟩ := (routes_isolated hr hr' 0).2 _ hdirected
  obtain ⟨H', hstep'⟩ := hsome' hread'
  refine ⟨s, s', H, H', hstep, hl, ((hiso s' hstep).live 0 ⟨?_, ?_⟩).mpr hl, hstep',
    (hiso' H' hstep').attempts⟩
  · rw [hnext]
    exact Nat.one_pos
  · rw [hroute]
    decide

/-- A long-poll request in one route is parked on a connection of another, and a reply in one route
answers a request of another. -/
theorem routes_not_isolated :
    (¬ ∀ (cfg : Config) (s : Server), Reachable (Server.step cfg) (Server.init cfg) s →
      ∀ route i s', Server.Input.On route i → Server.step cfg i s = .ok s' →
        Server.Isolated route s s') ∧
    ¬ ∀ (cfg : HttpConfig) (H : Http), Reachable (Http.step cfg) (Http.init cfg) H →
      ∀ route frames H', Http.step cfg (.reply route frames) H = .ok H' →
        Http.Isolated route H H' := by
  constructor
  · intro hall
    obtain ⟨s, hr, hview⟩ := Server.exists_of_small_run (C := fun _ _ => True)
      [Server.arrives Server.connectArgs []]
      (fun s => (s.next, (s.info 0).route, (s.polling.comet 0).curRequest,
        (Server.step Server.smallConfig ⟨.cometRequest 1 (str "POST") [] none []
          (some (Server.pollArgs 0 3 .single .single)), Server.stalledEnv⟩ s).map fun s' =>
            (s'.polling.comet 0).curRequest)) (1, 0, none, .ok (some 1)) (fun _ _ _ => trivial) rfl
    simp only [Prod.mk.injEq] at hview
    obtain ⟨hnext, hroute, hcur, hview⟩ := hview
    obtain ⟨s', hstep, hsome⟩ := exists_of_map_eq_ok hview
    have hiso := hall _ s hr 1 _ s' (Or.inr ⟨_, _, _, _, _, rfl⟩) hstep
    have hcomet := hiso.comet 0 ⟨by rw [hnext]; exact Nat.one_pos, by rw [hroute]; decide⟩
    rw [hcomet, hcur] at hsome
    cases hsome
  · intro hall
    obtain ⟨H, hr, hview⟩ := Http.exists_of_gateway_run [Http.arrives]
      (fun H => ((H.request 0).route, (H.request 0).responses.length,
        (Http.step Http.smallGateway (.reply 1 [List.replicate 40 0, [], str "Hello"]) H).map
          fun H' => (H'.request 0).responses.length)) (some 0, 0, .ok 1) rfl
    simp only [Prod.mk.injEq] at hview
    obtain ⟨hroute, hnone, hview⟩ := hview
    obtain ⟨H', hstep, hone⟩ := exists_of_map_eq_ok hview
    have hiso := hall _ H hr 1 _ H' hstep
    rw [hiso.request 0 (by rw [hroute]; decide), hnone] at hone
    cases hone

end Zerogw
