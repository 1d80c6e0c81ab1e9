import Zerogw.Server.Runs

/-!
# Parked requests and their watchers

Three properties of long polling that hold in every run without certain inputs: a parked request and
its connection point at each other, no assertion of long polling fails, and every open connection
has a watcher that is going to do something about it.
-/

namespace Zerogw

open Execution

namespace Server

variable {cfg : Config} {env : Env} {s s' : Server} {h g : HybiId} {r : ReqId}
  {allow : Mark → Prop} {w w' : Option HybiId} {P : Polling}

/-- Closing a connection changes its own comet only. -/
lemma forall_gone {p : HybiId → Comet → Prop} (hI : ∀ g, p g (s.polling.comet g))
    (hP : (s.info h).type = .websocket ∧ P = s.polling ∨
      (s.info h).type = .comet ∧ P = s.polling.shut cfg env h)
    (hc : p h { s.polling.comet h with
      curRequest := none, sendlater := false, inactivity := false, closed := true }) (g : HybiId) :
    p g (P.comet g) := by
  obtain ⟨-, rfl⟩ | ⟨-, rfl⟩ := hP
  · exact hI g
  · by_cases hg : g = h
    · subst hg
      rwa [Polling.shut_comet_self]
    · rw [Polling.shut_comet_of_ne hg]
      exact hI g

/-! ### Requests are parked on live connections -/

/-- Stopped connections are quiet, and running ones are in the sieve. -/
structure Anchored (s : Server) : Prop where
  quiet : ∀ h, ¬ s.Running h → (s.polling.comet h).Quiet
  intact : s.Intact

lemma Anchored.running (hI : s.Anchored) (hn : ¬ (s.polling.comet h).Quiet) : s.Running h :=
  by_contra fun hr => hn (hI.quiet h hr)

lemma Anchored.running_of_parked (hI : s.Anchored)
    (hcur : (s.polling.comet h).curRequest = some r) :
    s.Running h :=
  hI.running (Comet.Sound.not_quiet_of_parked hcur)

lemma PollMove.anchored (hallow : ¬ allow .deadPark) (hs : s.Sound cfg)
    (hm : PollMove cfg allow s w P w') (hI : s.Anchored) : Anchored { s with polling := P } := by
  refine ⟨?_, hI.intact⟩
  have hset : ∀ {h c}, s.Running h →
      ∀ g, ¬ s.Running g → ((s.polling.setComet h c).comet g).Quiet := fun hr g =>
    Polling.forall_setComet (p := fun g c => ¬ s.Running g → c.Quiet) hI.quiet
      (fun hn => absurd hr hn) g
  cases hm with
  | arrived => exact hI.quiet
  | replied => exact hI.quiet
  | dismissed ha hw hcur => exact hset (hI.running_of_parked hcur)
  | acked ha hack hl => exact hset (hs.core.running hl)
  | parked ha hroute hw hf hh hcur hlimit ht hborn hl =>
    exact hset (hs.core.running (hl.resolve_right fun hn => hallow hn.1))
  | woken ha hlater hcur => exact hset (hI.running fun hq => by simp [hq.sendlater] at hlater)
  | wokenInVain ha hcur => exact hset (hI.running_of_parked hcur)
  | served ha hcur => exact hset (hI.running_of_parked hcur)
  | aborted ha hn hcur => exact hset (hI.running_of_parked hcur)
  | finished => exact hI.quiet
  | released => exact hI.quiet

lemma Move.quiet (hallow : ¬ allow .deadPark) (hs : s.Sound cfg)
    (hm : Move cfg env allow w s w' s') (hI : s.Anchored) (hg : ¬ s'.Running g) :
    (s'.polling.comet g).Quiet := by
  cases hm with
  | polling hP => exact (hP.anchored hallow hs hI).quiet g hg
  | other hact =>
    rw [hact.polling]
    exact hI.quiet g (mt (hact.same.running g).mpr hg)
  | pushed ha hr =>
    exact Polling.forall_setComet (p := fun g c => ¬ s.Running g → c.Quiet) hI.quiet
      (fun hn => absurd hr hn) g hg
  | offered => exact hI.quiet g hg
  | @gone h P l _ ha hr hP hlog hst =>
    rw [hst.polling]
    by_cases hgh : g = h
    · subst hgh
      obtain ⟨ht, rfl⟩ | ⟨ht, rfl⟩ := hP
      · exact (hs.comets g).websocket (by simp [ht])
      · rw [Polling.shut_comet_self]
        exact ⟨rfl, rfl, rfl⟩
    · have hquiet := hI.quiet g fun hn => hg (hst.running_iff.mpr ⟨hn, hgh⟩)
      obtain ⟨-, rfl⟩ | ⟨-, rfl⟩ := hP
      · exact hquiet
      · rwa [Polling.shut_comet_of_ne hgh]
  | @started route type s₁ P ha hst hP =>
    obtain ⟨hold, hnew⟩ := not_or.mp (mt (hst.running_iff hs.core).mpr hg)
    have hgn : g ≠ s.next := fun hn => hnew (by rw [hn])
    have hquiet := hI.quiet g hold
    obtain ⟨-, rfl⟩ | ⟨-, rfl⟩ := hP
    · exact hquiet
    · dsimp only
      rwa [Polling.openComet, Polling.setComet_comet_of_ne hgn]
  | unstarted ha hst =>
    rw [hst.polling_eq]
    exact hI.quiet g fun hn => hg ((hst.running_iff hs.core).mpr (Or.inl hn))
  | tables => exact hI.quiet g hg
  | settled => exact hI.quiet g hg

lemma Move.anchored (hallow : ¬ allow .deadPark) (hs : s.Sound cfg)
    (hm : Move cfg env allow w s w' s') (hI : s.Anchored) : s'.Anchored :=
  ⟨fun _ => hm.quiet hallow hs hI, hm.intact hs hI.intact fun _ _ hi =>
    hI.running fun hq => by simp [hq.inactivity] at hi⟩

lemma Anchored.init (cfg : Config) : (init cfg).Anchored :=
  ⟨fun _ _ => quiet_noComet, fun h hr => by cases hr.1⟩

lemma anchored_of_reachable
    (hr : ReachableVia (step cfg) (fun i s => ¬ ClosesItself cfg i s) (init cfg) s) :
    s.Anchored :=
  keeps_of_reachable (fun x => x = .deadPark) (fun _ s => s.Anchored)
    (by rintro i s x hC rfl; exact hC) (.init cfg)
    (fun env allow w s w' s' hallow hs _ hm hI => hm.anchored (hallow _ rfl) hs hI) hr

/-- In every run in which no connection is closed by a frontend command of its own request, a
request that has not been finished is parked at a connection exactly if the connection is live and
points at it. -/
theorem parked_iff
    (hr : ReachableVia (step cfg) (fun i s => ¬ ClosesItself cfg i s) (init cfg) s) (r : ReqId) :
    (s.polling.request r).finished = false →
      ∀ h, (s.polling.request r).hybi = some h ↔
        s.Live h ∧ (s.polling.comet h).curRequest = some r := by
  intro hf h
  have hs := sound_of_reachable hr
  have hI := anchored_of_reachable hr
  rw [hs.links.parked h r]
  constructor
  · intro hh
    exact ⟨hI.intact h (hI.running_of_parked ((hs.links.parked h r).mpr ⟨hh, hf⟩)), hh, hf⟩
  · exact fun hp => hp.2.1

/-- The request of a client that waits on a new connection. -/
theorem parked_iff_waiting : ∃ s : Server, s.Live 0 ∧ (s.polling.comet 0).curRequest = some 1 := by
  have hC : ∀ i ∈ [arrives connectArgs [], arrives (pollArgs 0 3 .single .single) []], ∀ s,
      ¬ ClosesItself smallConfig i s := by
    rintro i hi s ⟨h, args, body, P, hB, -⟩
    obtain ⟨route, method, origin, date, -, hevent⟩ := hB.event
    have haction := hB.action
    simp only [List.mem_cons, List.not_mem_nil, or_false] at hi
    obtain rfl | rfl := hi <;> cases hevent <;> cases haction
  obtain ⟨s, hr, hview⟩ := exists_of_small_run _
    (fun s => ((s.polling.request 1).hybi, (s.polling.request 1).finished)) (some 0, false) hC rfl
  obtain ⟨hh, hf⟩ := Prod.mk.inj hview
  exact ⟨s, (parked_iff hr 1 hf 0).mp hh⟩

/-- A client sends `ZEROGW:echo` when two messages wait for it: its connection is closed, and then
the request is parked there. -/
theorem parked_on_stopped :
    ¬ ∀ (cfg : Config) (s : Server), Reachable (step cfg) (init cfg) s → ∀ r,
      (s.polling.request r).finished = false →
      ∀ h, (s.polling.request r).hybi = some h ↔
        s.Live h ∧ (s.polling.comet h).curRequest = some r := by
  intro hall
  obtain ⟨s, hr, hview⟩ := exists_of_small_run (C := fun _ _ => True)
    [arrives connectArgs [], tells [1], tells [2],
      arrives (pollArgs 0 3 .single .single) (str "ZEROGW:echo")]
    (fun s => ((s.polling.request 1).hybi, (s.polling.request 1).finished, decide (s.Live 0)))
    (some 0, false, false) (fun _ _ _ => trivial) rfl
  simp only [Prod.mk.injEq, decide_eq_false_iff_not] at hview
  exact hview.2.2 ((hall smallConfig s hr 1 hview.2.1 0).mp hview.1).1

/-! ### The inactivity timer and the parked request -/

/-- No connection has both a parked request and an active inactivity timer. -/
def Calm (s : Server) : Prop :=
  ∀ h, (s.polling.comet h).inactivity = true → (s.polling.comet h).curRequest = none

lemma PollMove.calm (hallow : ¬ allow .wokenInVain) (hm : PollMove cfg allow s w P w')
    (hI : s.Calm) : Calm { s with polling := P } := by
  have hset : ∀ {h c}, (c.inactivity = true → c.curRequest = none) →
      ∀ g, ((s.polling.setComet h c).comet g).inactivity = true →
        ((s.polling.setComet h c).comet g).curRequest = none := fun hc g =>
    Polling.forall_setComet (p := fun _ c => c.inactivity = true → c.curRequest = none) hI hc g
  cases hm with
  | arrived => exact hI
  | replied => exact hI
  | dismissed => exact hset (by simp)
  | acked => exact hset (hI _)
  | parked => exact hset (by simp)
  | woken => exact hset (hI _)
  | wokenInVain ha hcur hq hn => exact absurd hn hallow
  | served => exact hset (by simp)
  | aborted => exact hset (by simp)
  | finished => exact hI
  | released => exact hI

lemma Move.calm (hallow : ¬ allow .wokenInVain) (hm : Move cfg env allow w s w' s')
    (hI : s.Calm) : s'.Calm := by
  cases hm with
  | polling hP => exact hP.calm hallow hI
  | other hact => exact fun h => hact.polling ▸ hI h
  | pushed =>
    exact Polling.forall_setComet (p := fun _ c => c.inactivity = true → c.curRequest = none)
      hI (hI _)
  | offered => exact hI
  | gone ha hr hP hlog hst =>
    intro g
    rw [hst.polling]
    exact forall_gone (p := fun _ c => c.inactivity = true → c.curRequest = none) hI hP (by simp) g
  | started ha hst hP =>
    obtain ⟨-, rfl⟩ | ⟨-, rfl⟩ := hP
    · exact hI
    · exact Polling.forall_setComet (p := fun _ c => c.inactivity = true → c.curRequest = none)
        hI (by simp)
  | unstarted ha hst =>
    have hpolling := hst.polling_eq
    intro g
    rw [hpolling]
    exact hI g
  | tables => exact hI
  | settled => exact hI

/-- The assertions of `free_comet`, `polling_timeout` and `comet_request_aborted`. -/
def longPollAssertions : List Assertion := [.freeComet, .pollingTimeout, .requestAborted]

/-- In every run in which the idle watcher never finds a request without a message, the inactivity
timer is not active while a request is parked, and no step fails one of the assertions. -/
theorem assertions_hold
    (hr : ReachableVia (step cfg) (fun i s => ¬ WakesInVain i s) (init cfg) s) :
    (∀ h, (s.polling.comet h).inactivity = true → (s.polling.comet h).curRequest = none) ∧
      ∀ i, ∀ a ∈ longPollAssertions, step cfg i s ≠ .error (.assertion a) := by
  have hI := keeps_of_reachable (fun x => x = .wokenInVain) (fun _ s => s.Calm)
    (by rintro i s x hC rfl; exact hC)
    (fun h hn => by simp [init, Polling.init, Polling.noComet] at hn)
    (fun env allow w s w' s' hallow _ _ hm hI => hm.calm (hallow _ rfl) hI) hr
  refine ⟨hI, fun i a ha herr => ?_⟩
  have hspec := step_spec (sound_of_reachable hr) i
  rw [herr] at hspec
  obtain (hf | hf | hf) | ⟨-, h, -, hactive, hcur⟩ | ⟨hf, -⟩ := hspec
  · cases hf
  · cases hf
  · cases hf
  · exact hcur (hI h hactive)
  · cases hf
    exact absurd ha (by decide)

/-- A client waits on a new connection. -/
theorem assertions_hold_waiting : ∃ s : Server, (s.polling.comet 0).curRequest = some 1 ∧
    (s.polling.comet 0).inactivity ≠ true := by
  have hC : ∀ i ∈ [arrives connectArgs [], arrives (pollArgs 0 3 .single .single) []], ∀ s,
      ¬ WakesInVain i s := by
    rintro i hi s ⟨h, r, hV⟩
    have hevent := hV.event
    simp only [List.mem_cons, List.not_mem_nil, or_false] at hi
    obtain rfl | rfl := hi <;> cases hevent
  obtain ⟨s, hr, hcur⟩ := exists_of_small_run _ (fun s => (s.polling.comet 0).curRequest)
    (some 1) hC rfl
  refine ⟨s, hcur, fun hi => ?_⟩
  have hnone := (assertions_hold hr).1 0 hi
  rw [hcur] at hnone
  cases hnone

/-- A message arrives for a parked request, and before the idle watcher runs another request
acknowledges it: the inactivity timer starts, and when it fires the request is still parked. -/
theorem assertion_fails :
    ¬ ∀ (cfg : Config) (s : Server), Reachable (step cfg) (init cfg) s →
      (∀ h, (s.polling.comet h).inactivity = true → (s.polling.comet h).curRequest = none) ∧
        ∀ i, ∀ a ∈ longPollAssertions, step cfg i s ≠ .error (.assertion a) := by
  intro hall
  obtain ⟨s, hr, hview⟩ := exists_of_small_run (C := fun _ _ => True)
    [arrives connectArgs [], tells [1], arrives (pollArgs 0 3 .single .single) [],
      arrives (pollArgs 1 0 .single .single) [7], ⟨.sendLater 0, stalledEnv⟩]
    (fun s => (step smallConfig ⟨.inactivityTimeout 0, stalledEnv⟩ s).map fun _ => ())
    (.error (.assertion .freeComet)) (fun _ _ _ => trivial) rfl
  exact (hall smallConfig s hr).2 ⟨.inactivityTimeout 0, stalledEnv⟩ .freeComet (by decide)
    (eq_error_of_map hview)

/-! ### Every open connection is watched -/

/-- The connection will be closed if no request comes, or its parked request will be answered. -/
def Watched (P : Polling) (c : Comet) : Prop :=
  match c.curRequest with
  | none => c.inactivity = true
  | some r => (P.request r).timeout = true ∨ c.sendlater = true

lemma watched_of_none {c : Comet} (hcur : c.curRequest = none) (hi : c.inactivity = true) :
    Watched P c := by
  simpa only [Watched, hcur] using hi

lemma watched_of_some {c : Comet} (hcur : c.curRequest = some r)
    (hw : (P.request r).timeout = true ∨ c.sendlater = true) : Watched P c := by
  simpa only [Watched, hcur] using hw

/-- Watchers of a connection stay active while the timer of its request does. -/
lemma Watched.mono {P' : Polling} {c c' : Comet} (hw : Watched P c)
    (hcur : c'.curRequest = c.curRequest) (hi : c'.inactivity = c.inactivity)
    (hl : c.sendlater = true → c'.sendlater = true)
    (ht : ∀ r, c.curRequest = some r → (P.request r).timeout = true →
      (P'.request r).timeout = true) : Watched P' c' := by
  unfold Watched at hw ⊢
  rw [hcur, hi]
  cases hc : c.curRequest with
  | none => simpa only [hc] using hw
  | some r =>
    simp only [hc] at hw ⊢
    exact hw.imp (ht r hc) hl

/-- Every live comet is watched, but for the one whose request is being handled. -/
def AllWatched (w : Option HybiId) (s : Server) : Prop :=
  ∀ g, s.Live g → (s.info g).type = .comet → w ≠ some g → Watched s.polling (s.polling.comet g)

namespace AllWatched

/-- Requests change, but no timer of a parked request stops. -/
lemma requests {w : Option HybiId} (hI : s.AllWatched w) (hcomet : P.comet = s.polling.comet)
    (ht : ∀ g r, (s.polling.comet g).curRequest = some r → (s.polling.request r).timeout = true →
      (P.request r).timeout = true) : AllWatched w { s with polling := P } := by
  intro g hl htype hw
  change Watched P (P.comet g)
  rw [hcomet]
  exact (hI g hl htype hw).mono rfl rfl id (ht g)

/-- One comet changes, and perhaps a request that is parked nowhere else. -/
lemma comet {c : Comet} (hI : s.AllWatched w) (hcomet : ∀ g, g ≠ h → P.comet g = s.polling.comet g)
    (hr : ∀ g, g ≠ h → ∀ r, (s.polling.comet g).curRequest = some r →
      P.request r = s.polling.request r)
    (hw : ∀ g, g ≠ h → w' ≠ some g → w ≠ some g) (hc : P.comet h = c)
    (hnew : w' ≠ some h → s.Live h → (s.info h).type = .comet → Watched P c) :
    AllWatched w' { s with polling := P } := by
  intro g hl htype hwg
  change Watched P (P.comet g)
  by_cases hg : g = h
  · subst hg
    rw [hc]
    exact hnew hwg hl htype
  · rw [hcomet g hg]
    refine (hI g hl htype (hw g hg hwg)).mono rfl rfl id fun r hcur ht => ?_
    rwa [hr g hg r hcur]

end AllWatched

lemma PollMove.allWatched (hunwatched : ¬ allow .unwatched) (hs : s.Sound cfg)
    (hm : PollMove cfg allow s w P w') (hI : s.AllWatched w) :
    AllWatched w' { s with polling := P } := by
  -- the timers of requests parked elsewhere are not touched
  have hne : ∀ {h r}, (s.polling.comet h).curRequest = some r → ∀ {q : Request} g, g ≠ h → ∀ r',
      (s.polling.comet g).curRequest = some r' →
      (s.polling.setRequest r q).request r' = s.polling.request r' := by
    intro h r hcur q g hg r' hcur'
    refine Polling.setRequest_request_of_ne ?_ q
    rintro rfl
    exact hg (hs.links.inj hcur hcur')
  have hpending : ∀ {r}, (s.polling.request r).hybi = none → ∀ g r',
      (s.polling.comet g).curRequest = some r' → r' ≠ r := by
    rintro r hh g _ hcur rfl
    have hpark : (s.polling.request _).hybi = some g := ((hs.links.parked g _).mp hcur).1
    simp [hh] at hpark
  cases hm with
  | arrived =>
    refine hI.requests rfl fun g r hcur ht => ?_
    have hlt := hs.links.lt_next ((hs.links.parked g r).mp hcur).2
    change ((s.polling.setRequest s.polling.next _).request r).timeout = true
    rwa [Polling.setRequest_request_of_ne (Nat.ne_of_lt hlt)]
  | @replied r rep ha hf =>
    refine hI.requests rfl fun g r' hcur ht => ?_
    rw [Polling.reply]
    by_cases hr' : r' = r
    · subst hr'
      rwa [Polling.setRequest_request_self]
    · rwa [Polling.setRequest_request_of_ne hr']
  | @dismissed h r rep ha hw hcur =>
    exact hI.comet (fun g hg => Polling.setComet_comet_of_ne hg _) (hne hcur)
      (fun g _ _ => by simp [hw]) (Polling.setComet_comet_self _) fun hn => absurd rfl hn
  | @acked h msgid n first ha hack hl ht hfirst =>
    refine hI.comet (fun g hg => Polling.setComet_comet_of_ne hg _) (fun _ _ _ _ => rfl)
      (fun _ _ => id) (Polling.setComet_comet_self _) fun hwh _ _ => ?_
    exact (hI h hl ht hwh).mono rfl rfl id fun _ _ => id
  | @parked h r args ha hroute hw hf hh hcur hlimit ht hborn hl =>
    refine hI.comet (fun g hg => Polling.park_comet_of_ne hg args)
      (fun g _ r' hcur' => Polling.park_request_of_ne (hpending hh g r' hcur') args)
      (fun g hg _ hn => hg (hw g hn)) (Polling.park_comet_self args) fun _ _ _ => ?_
    refine watched_of_some rfl ?_
    rw [Polling.park_request_self]
    cases (s.polling.comet h).queue.isEmpty <;> simp
  | @woken h ha hlater hcur =>
    refine hI.comet (fun g hg => Polling.setComet_comet_of_ne hg _) (fun _ _ _ _ => rfl)
      (fun _ _ => id) (Polling.setComet_comet_self _) fun hwh hl ht => ?_
    refine watched_of_none hcur ?_
    simpa only [Watched, hcur] using hI h hl ht hwh
  | @wokenInVain h r ha hcur hq hallow htimer =>
    refine hI.comet (fun g hg => Polling.setComet_comet_of_ne hg _) (fun _ _ _ _ => rfl)
      (fun _ _ => id) (Polling.setComet_comet_self _) fun _ _ _ => ?_
    exact watched_of_some hcur (Or.inl (htimer.resolve_right hunwatched))
  | @served h r rep later ha hcur =>
    exact hI.comet (fun g hg => Polling.setComet_comet_of_ne hg _) (hne hcur)
      (fun _ _ => id) (Polling.setComet_comet_self _) fun _ _ _ => watched_of_none rfl rfl
  | @aborted h r ha hallow hcur =>
    exact hI.comet (fun g hg => Polling.setComet_comet_of_ne hg _) (hne hcur)
      (fun _ _ => id) (Polling.setComet_comet_self _) fun _ _ _ => watched_of_none rfl rfl
  | @finished r ha hf hh =>
    refine hI.requests rfl fun g r' hcur ht => ?_
    rwa [Polling.setRequest_request_of_ne (hpending hh g r' hcur)]
  | @released r ha hrel =>
    refine hI.requests rfl fun g r' hcur ht => ?_
    by_cases hr' : r' = r
    · subst hr'
      have hpark := (hs.links.parked g r').mp hcur
      have hrefs := (hs.refs r').refs
      simp only [Request.owed, hpark.1, hpark.2, Option.isSome_some, Bool.false_eq_true, if_false,
        if_true] at hrefs
      rw [Polling.setRequest_request_self]
      exact (Request.decref_timeout (by dsimp only; omega)).trans ht
    · rwa [Polling.setRequest_request_of_ne hr']

lemma Move.allWatched (hunwatched : ¬ allow .unwatched) (hrefused : ¬ allow .refused)
    (hs : s.Sound cfg) (hm : Move cfg env allow w s w' s') (hI : s.AllWatched w) :
    s'.AllWatched w' := by
  cases hm with
  | polling hP => exact hP.allWatched hunwatched hs hI
  | other hact =>
    intro g hl ht hw
    rw [hact.polling]
    exact hI g ((hact.same.live g).mp hl) ((hact.same.type g).symm.trans ht) hw
  | @pushed h m ha hr ht hroom =>
    refine hI.comet (fun g hg => Polling.setComet_comet_of_ne hg _) (fun _ _ _ _ => rfl)
      (fun _ _ => id) (Polling.setComet_comet_self _) fun hwh hl _ => ?_
    exact (hI h hl ht hwh).mono rfl rfl (fun hlater => by simp [hlater]) fun _ _ => id
  | @offered b k h r status =>
    intro g hl ht hw
    refine (hI g hl ht hw).mono rfl rfl id ?_
    intro r' _ ht'
    show ((s.polling.incref r).request r').timeout = true
    rw [Polling.incref]
    by_cases hr' : r' = r
    · subst hr'
      rwa [Polling.setRequest_request_self]
    · rwa [Polling.setRequest_request_of_ne hr']
  | @gone h P l _ ha hr hP hlog hst =>
    intro g hg ht hw
    obtain ⟨hlg, hslot⟩ := (hst.live g).mp hg
    have hgh : g ≠ h := by
      rintro rfl
      exact hslot rfl
    have hinfo : s'.info g = s.info g := congrFun hst.info g
    rw [hst.polling]
    rw [hinfo] at ht
    obtain ⟨-, rfl⟩ | ⟨-, rfl⟩ := hP
    · exact hI g hlg ht hw
    · rw [Polling.shut_comet_of_ne hgh]
      refine (hI g hlg ht hw).mono rfl rfl id fun r hcur ht' => ?_
      rwa [Polling.shut_request_of_not_parked hs.links]
      exact fun hp => hgh (hs.links.inj ((hs.links.parked h r).mpr hp) hcur)
  | @started route type s₁ P ha hst hP =>
    obtain _ | _ | ⟨hdead, hlive, hnext, hinfo, -, -, htype⟩ := hst
    intro g hg ht hw
    by_cases hgn : g = s.next
    · subst hgn
      obtain ⟨rfl, -⟩ | ⟨-, rfl⟩ := hP
      · simp [htype] at ht
      · exact watched_of_none (by simp [Polling.openComet]) (by simp [Polling.openComet])
    · have hlg : s.Live g := ((hlive g).mp hg).resolve_right hgn
      have hold := hI g hlg (by rw [← hinfo g hgn]; exact ht) hw
      obtain ⟨-, rfl⟩ | ⟨-, rfl⟩ := hP
      · exact hold
      · dsimp only
        rw [Polling.openComet, Polling.setComet_comet_of_ne hgn]
        exact hold
  | unstarted ha hst =>
    obtain _ | ⟨hlive, -, hinfo, -, -, hpolling⟩ := hst
    · exact hI
    · intro g hg ht hw
      have hlg := (hlive g).mp hg
      rw [hpolling]
      rw [hinfo g (Nat.ne_of_lt (hs.core.lt_next_of_live hlg))] at ht
      exact hI g hlg ht hw
  | tables => exact hI
  | @settled h hw hl =>
    intro g hg ht _
    by_cases hgh : g = h
    · subst hgh
      obtain hdead | ⟨hcur, hi⟩ := hl
      · exact absurd (hs.core.running hg) hdead
      · exact watched_of_none hcur (hi.resolve_right hrefused)
    · refine hI g hg ht ?_
      rw [hw]
      exact fun hn => hgh (Option.some.inj hn).symm

/-- In every run in which the idle watcher leaves no request unwatched and no request is refused
after the old one was answered, every live long-poll connection has an armed watcher. -/
theorem watched_of_reachable
    (hr : ReachableVia (step cfg)
      (fun i s => ¬ LeavesUnwatched i s ∧ ¬ RefusesFormat i s) (init cfg) s) (h : HybiId) :
    s.Live h → (s.info h).type = .comet →
      match (s.polling.comet h).curRequest with
      | none => (s.polling.comet h).inactivity = true
      | some r => (s.polling.request r).timeout = true ∨ (s.polling.comet h).sendlater = true := by
  have hdead : ∀ g, ¬ (init cfg).Live g := fun g hg =>
    absurd ((Core.init cfg).lt_next_of_live hg) (Nat.not_lt_zero _)
  have hI := keeps_of_reachable (fun x => x = .unwatched ∨ x = .refused) AllWatched
    (by rintro i s x hC (rfl | rfl); exacts [hC.1, hC.2]) (fun g hg => absurd hg (hdead g))
    (fun env allow w s w' s' hallow hs _ hm hI =>
      hm.allWatched (hallow _ (Or.inl rfl)) (hallow _ (Or.inr rfl)) hs hI) hr
  exact fun hl ht => hI h hl ht (by simp)

/-- A client waits on a new connection. -/
theorem watched_of_reachable_waiting : ∃ s : Server, (s.polling.comet 0).curRequest = some 1 ∧
    ((s.polling.request 1).timeout = true ∨ (s.polling.comet 0).sendlater = true) := by
  have hC : ∀ i ∈ [arrives connectArgs [], arrives (pollArgs 0 3 .single .single) []], ∀ s,
      ¬ LeavesUnwatched i s ∧ ¬ RefusesFormat i s := by
    intro i hi s
    simp only [List.mem_cons, List.not_mem_nil, or_false] at hi
    constructor
    · rintro ⟨h, r, hV, -⟩
      have hevent := hV.event
      obtain rfl | rfl := hi <;> cases hevent
    · rintro ⟨h, args, body, P, hB, -⟩
      obtain ⟨route, method, origin, date, -, hevent⟩ := hB.event
      have haction := hB.action
      obtain rfl | rfl := hi <;> cases hevent <;> cases haction
  obtain ⟨s, hr, hview⟩ := exists_of_small_run _
    (fun s => ((s.polling.comet 0).curRequest, decide (s.Live 0), (s.info 0).type))
    (some 1, true, .comet) hC rfl
  simp only [Prod.mk.injEq, decide_eq_true_eq] at hview
  obtain ⟨hcur, hl, ht⟩ := hview
  have hwatched := watched_of_reachable hr 0 hl ht
  rw [hcur] at hwatched
  exact ⟨s, hcur, hwatched⟩

/-- A client that waits sends a message in a format that is refused: its old request is answered,
and nobody waits for the connection any more. -/
theorem unwatched_after_refusal :
    ¬ ∀ (cfg : Config) (s : Server), Reachable (step cfg) (init cfg) s → ∀ h,
      s.Live h → (s.info h).type = .comet →
      match (s.polling.comet h).curRequest with
      | none => (s.polling.comet h).inactivity = true
      | some r => (s.polling.request r).timeout = true ∨ (s.polling.comet h).sendlater = true := by
  intro hall
  obtain ⟨s, hr, hview⟩ := exists_of_small_run (C := fun _ _ => True)
    [arrives connectArgs [], arrives (pollArgs 0 3 .single .single) [],
      arrives (pollArgs 0 3 .jsonlist .single) [7]]
    (fun s => ((s.polling.comet 0).curRequest, (s.polling.comet 0).inactivity,
      decide (s.Live 0), (s.info 0).type))
    (none, false, true, .comet) (fun _ _ _ => trivial) rfl
  simp only [Prod.mk.injEq, decide_eq_true_eq] at hview
  obtain ⟨hcur, hi, hl, ht⟩ := hview
  have hwatched := hall smallConfig s hr 0 hl ht
  rw [hcur] at hwatched
  simp [hi] at hwatched

end Server

end Zerogw
