import Zerogw.Server.Numbering

/-!
# The life of a connection

Connections are started and stopped, messages about them are sent, queued and handed over later, in
any order. A connection is referenced while it is started and by every queue entry that names it,
and its memory is there exactly that long, as long as no connection is stopped twice. The inactivity
timer of a stopped connection does stop it twice, and then the entries outlive it.
-/

namespace Zerogw

open Execution

namespace Server

variable {cfg : Config} {env : Env} {s s' : Server} {h g : HybiId} {k : SockId}

/-! ### References of running connections -/

/-- A connection that has not been stopped more often than started has one reference of its own
while it is running. -/
lemma owned_eq_ite (hg : 0 ≤ s.owned g) : s.owned g = if s.Running g then 1 else 0 := by
  split_ifs with hr
  · simp [owned, hr.1, hr.2]
  · rw [Running] at hr
    rw [owned] at hg ⊢
    cases hst : s.started g with
    | false =>
      simp only [hst, Bool.false_eq_true, if_false] at hg ⊢
      omega
    | true =>
      simp only [hst, true_and, if_true] at hr hg ⊢
      omega

/-- No reference of a stopped connection is given up twice. -/
lemma Stopped.owned_nonneg (hst : Stopped h s s') (hr : s.Running h) (hI : ∀ g, 0 ≤ s.owned g) :
    ∀ g, 0 ≤ s'.owned g := by
  intro g
  rw [hst.owned_eq]
  by_cases hg : g = h
  · subst hg
    have hpos := owned_pos hr
    rw [Function.update_self]
    omega
  · rw [Function.update_of_ne hg]
    exact hI g

lemma Move.owned_nonneg {allow : Mark → Prop} {w w' : Option HybiId} (hs : s.Sound cfg)
    (hm : Move cfg env allow w s w' s') (hrestops : ∀ h, ¬ allow (.restops h))
    (hI : ∀ g, 0 ≤ s.owned g) : ∀ g, 0 ≤ s'.owned g := by
  cases hm with
  | polling => exact hI
  | other hact =>
    intro g
    rw [owned, hact.same.started, hact.same.stops, ← owned]
    exact hI g
  | pushed => exact hI
  | offered => exact hI
  | gone ha hr hP hlog hst => exact hst.owned_nonneg (hr.resolve_right fun hn => hrestops _ hn.1) hI
  | started ha hst => exact fun g => (hI g).trans (hst.owned_le hs.core)
  | unstarted ha hst => exact fun g => (hI g).trans (hst.owned_le hs.core)
  | tables => exact hI
  | settled => exact hI

/-- Nothing comes up about a connection that has been freed: connections that run have been running
or are new, and so are those that new entries name. -/
structure Continues (s s' : Server) : Prop where
  next : s.next ≤ s'.next
  born : ∀ h, s'.Running h → s.Running h ∨ s.next ≤ h
  entries : ∀ k, ∀ m ∈ (s'.backend.socks k).queue,
    m ∈ (s.backend.socks k).queue ∨ s.Running m.hybi ∨ s.next ≤ m.hybi

namespace Continues

lemma refl : Continues s s := ⟨le_rfl, fun _ => Or.inl, fun _ _ => Or.inl⟩

lemma trans {s'' : Server} (h₁ : Continues s s') (h₂ : Continues s' s'') : Continues s s'' := by
  have hold : ∀ g, s'.Running g ∨ s'.next ≤ g → s.Running g ∨ s.next ≤ g := by
    rintro g (hg | hg)
    · exact h₁.born g hg
    · exact Or.inr (h₁.next.trans hg)
  refine ⟨h₁.next.trans h₂.next, fun g hg => hold g (h₂.born g hg), fun k m hm => ?_⟩
  rcases h₂.entries k m hm with hm | hg
  · exact h₁.entries k m hm
  · exact Or.inr (hold _ hg)

/-- Connections and the entries about them are the same. -/
lemma same (hnext : s'.next = s.next) (hrunning : ∀ g, s'.Running g ↔ s.Running g)
    (hsocks : s'.backend.socks = s.backend.socks) : Continues s s' :=
  ⟨hnext.ge, fun g hg => Or.inl ((hrunning g).mp hg), fun _ _ hm => Or.inl (hsocks ▸ hm)⟩

/-- Entries are added about one running connection. -/
lemma posts {render : BackendMsg → List Frame} {ks : List SockId} {m : BackendMsg}
    (hr : s.Running m.hybi) (hnext : s'.next = s.next)
    (hrunning : ∀ g, s'.Running g → s.Running g)
    (hposts : Backend.Posts render ks m s.backend s'.backend) : Continues s s' := by
  refine ⟨hnext.ge, fun g hg => Or.inl (hrunning g hg), fun k m' hm' => ?_⟩
  rcases hposts.entries k m' hm' with hm' | rfl
  · exact Or.inl hm'
  · exact Or.inr (Or.inl hr)

lemma started {route : RouteId} {type : HybiType} {res : Option HybiId} (hs : s.Core cfg)
    (hst : Started cfg route type s res s') : Continues s s' := by
  have hborn : ∀ g, s'.Running g → s.Running g ∨ res = some g := fun g =>
    (hst.running_iff hs).mp
  cases hst with
  | failed => exact .same rfl (fun _ => Iff.rfl) rfl
  | refused _ hnext _ _ _ _ _ _ _ hsocks =>
    exact ⟨hnext ▸ Nat.le_succ _, fun g hg => Or.inl ((hborn g hg).resolve_right (by simp)),
      fun _ _ hm => Or.inl (hsocks ▸ hm)⟩
  | started _ _ hnext _ _ _ _ _ _ _ _ _ _ hposts =>
    refine ⟨hnext ▸ Nat.le_succ _, fun g hg => ?_, fun k m hm => ?_⟩
    · exact (hborn g hg).imp_right fun hn => (Option.some.inj hn).le
    · rcases hposts.entries k m hm with hm | rfl
      · exact Or.inl hm
      · exact Or.inr (Or.inr le_rfl)

/-- A freed connection stays freed. -/
lemma freed (hs : s.Core cfg) (hs' : s'.Core cfg) (hI : 0 ≤ s.owned h) (hI' : 0 ≤ s'.owned h)
    (hc : Continues s s') (hh : h < s.next) (hfreed : s.backend.refcnt h = 0) :
    s'.backend.refcnt h = 0 := by
  have hdead : ¬ (s.Running h ∨ s.next ≤ h) := by
    rintro (hr | hn)
    · exact hs.refcnt_ne_zero hr hfreed
    · exact absurd hh (Nat.not_lt.mpr hn)
  have hnone : tally (Backend.names h) s'.backend.queues = 0 := by
    refine tally_eq_zero fun k m hm => ?_
    rw [Backend.names, decide_eq_false_iff_not]
    rintro rfl
    rcases hc.entries k m hm with hm | hold
    · exact hs.counts.refcnt_ne_zero_of_mem hm hI hfreed
    · exact hdead hold
  have hcount := hs'.counts.refcnt h
  rw [hnone, owned_eq_ite hI', if_neg fun hr => hdead (hc.born h hr)] at hcount
  omega

end Continues

lemma Move.continues {allow : Mark → Prop} {w w' : Option HybiId} (hs : s.Sound cfg)
    (hm : Move cfg env allow w s w' s') (hrestops : ∀ h, ¬ allow (.restops h)) :
    Continues s s' := by
  cases hm with
  | polling => exact .same rfl (fun _ => Iff.rfl) rfl
  | other hact =>
    have hrunning := hact.same.running
    cases hact with
    | posted ha hr hk hsend =>
      exact .posts hr rfl (fun _ => id) (Backend.posts_of_send hsend)
    | @drained b k pollout ha hb =>
      refine ⟨le_rfl, fun _ => Or.inl, fun j m hm => Or.inl ?_⟩
      rcases hs.core.counts.unqueue s.render k pollout with ⟨b', hok, hD⟩ | ⟨herr, -⟩
      · cases hok.symm.trans hb
        exact hD.entries j m hm
      · cases herr.symm.trans hb
    | switched => exact .same rfl hrunning rfl
    | told => exact .same rfl hrunning rfl
    | baked => exact .same rfl hrunning rfl
  | pushed => exact .same rfl (fun _ => Iff.rfl) rfl
  | offered ha har hl hk hf hsend =>
    exact .posts (hs.core.running hl) rfl (fun _ => id) (Backend.posts_of_send hsend)
  | gone ha hr hP hlog hst =>
    exact .posts (hr.resolve_right fun hn => hrestops _ hn.1) hst.next
      (fun _ hg => (hst.running_iff.mp hg).1) hst.posts
  | started ha hst =>
    have hc := Continues.started hs.core hst
    exact ⟨hc.next, hc.born, hc.entries⟩
  | unstarted ha hst => exact .started hs.core hst
  | tables => exact .same rfl (fun _ => Iff.rfl) rfl
  | settled => exact .refl

/-! ### Calls in any order -/

/-- A call of `hybi_start`, `backend_send`, `backend_unqueue` or `hybi_stop`. In between, ZeroMQ and
the allocator may change their answers, websockets may be paused or resumed, and commands may change
topics and outputs. -/
inductive LifeCall where
  | start (env : Env) (route : RouteId) (type : HybiType)
  | send (k : SockId) (h : HybiId) (msg : Msg) (force : Bool)
  | unqueue (k : SockId) (pollout : Bool)
  | stop (h : HybiId)
  | switch (paused : Bool) (outcomes : List SendResult) (memory : List Bool)
  | command (env : Env) (route : RouteId) (cmd : Bytes) (args : List Bytes)

instance (cmd : Bytes) : Decidable (IsTable cmd) := inferInstanceAs (Decidable (_ ∨ _))

/-- The server, and the connections that have been started and not been stopped. -/
abbrev Life := Server × Set HybiId

/-- One call. -/
def lifeStep (cfg : Config) (c : LifeCall) (p : Life) : Except Fault Life :=
  match c with
  | .start env route type => do
    match ← p.1.hybiStart cfg env route type with
    | (some h, s) => return (s, insert h p.2)
    | (none, s) => return (s, p.2)
  | .send k h msg force => do
    let (_, s) ← p.1.backendSend k ⟨h, msg⟩ force
    return (s, p.2)
  | .unqueue k pollout => do
    let b ← p.1.backend.unqueue p.1.render k pollout
    return ({ p.1 with backend := b }, p.2)
  | .stop h => do
    let s ← p.1.hybiStop h
    return (s, p.2 \ {h})
  | .switch paused outcomes memory =>
    .ok ({ p.1 with backend :=
      { p.1.backend with paused := paused, outcomes := outcomes, memory := memory } }, p.2)
  | .command env route cmd args =>
    if IsTable cmd then do
      let s ← p.1.websockProcess cfg env route (cmd :: args)
      return (s, p.2)
    else .ok p

/-- The connections that are passed to `backend_send` and `hybi_stop` have been started and not been
stopped. -/
def LifeCall.Proper (c : LifeCall) (p : Life) : Prop :=
  match c with
  | .send _ h _ _ => h ∈ p.2
  | .stop h => h ∈ p.2
  | _ => True

/-- The set has the running connections. They are all in the sieve, and none has been stopped more
often than started. -/
structure Tracked (cfg : Config) (p : Life) : Prop where
  core : p.1.Core cfg
  running : ∀ g, g ∈ p.2 ↔ p.1.Running g
  intact : p.1.Intact
  owned : ∀ g, 0 ≤ p.1.owned g

lemma Tracked.init (cfg : Config) : Tracked cfg (init cfg, ∅) := by
  refine ⟨.init cfg, fun g => ?_, fun g hg => ?_, fun g => le_rfl⟩
  · exact iff_of_false (Set.notMem_empty g) fun hr => by cases hr.1
  · cases hg.1

section calls

variable {p : Life} (hp : Tracked cfg p)

include hp

lemma start_tracked (env : Env) (route : RouteId) (type : HybiType) :
    ∃ p', lifeStep cfg (.start env route type) p = .ok p' ∧ Tracked cfg p' ∧
      Continues p.1 p'.1 := by
  obtain ⟨res, s', hstart, hcore, hst⟩ := hybiStart_ok env hp.core route type
  have hintact := hst.intact hp.core hp.intact
  have howned : ∀ g, 0 ≤ s'.owned g := fun g => (hp.owned g).trans (hst.owned_le hp.core)
  have hrunning := fun g => hst.running_iff (g := g) hp.core
  rw [lifeStep, hstart]
  cases res with
  | none =>
    refine ⟨(s', p.2), rfl, ⟨hcore, fun g => ?_, hintact, howned⟩, .started hp.core hst⟩
    rw [hrunning g, hp.running g]
    simp
  | some h =>
    refine ⟨(s', insert h p.2), rfl, ⟨hcore, fun g => ?_, hintact, howned⟩, .started hp.core hst⟩
    rw [hrunning g, Set.mem_insert_iff, hp.running g, Option.some.injEq, or_comm, eq_comm]

lemma send_tracked (hh : h ∈ p.2) (k : SockId) (msg : Msg) (force : Bool) :
    ∃ p', lifeStep cfg (.send k h msg force) p = .ok p' ∧ Tracked cfg p' ∧
      Continues p.1 p'.1 := by
  have hr := (hp.running h).mp hh
  obtain ⟨status, b, hsend, hcore, hposts, -⟩ := hp.core.backendSend (m := ⟨h, msg⟩) hr k force
  refine ⟨({ p.1 with backend := b }, p.2), by rw [lifeStep, hsend]; rfl,
    ⟨hcore, hp.running, hp.intact, hp.owned⟩, ?_⟩
  exact .posts hr rfl (fun _ => id) (Backend.posts_of_send hposts)

lemma unqueue_tracked (k : SockId) (pollout : Bool) :
    ∃ p', lifeStep cfg (.unqueue k pollout) p = .ok p' ∧ Tracked cfg p' ∧
      Continues p.1 p'.1 := by
  rcases hp.core.counts.unqueue p.1.render k pollout with ⟨b, hunq, hD⟩ | ⟨-, m, -, hneg⟩
  · have hcore := hp.core.withBackend hD.counts (hp.core.inOrder.unqueue hunq)
      fun j x hx => hp.core.entries j x (hD.entries j x hx)
    refine ⟨({ p.1 with backend := b }, p.2), by rw [lifeStep, hunq]; rfl,
      ⟨hcore, hp.running, hp.intact, hp.owned⟩, le_rfl, fun _ => Or.inl, fun j m hm => Or.inl ?_⟩
    exact hD.entries j m hm
  · exact absurd hneg (Int.not_lt.mpr (hp.owned m.hybi))

lemma stop_tracked (hh : h ∈ p.2) :
    ∃ p', lifeStep cfg (.stop h) p = .ok p' ∧ Tracked cfg p' ∧ Continues p.1 p'.1 := by
  have hr := (hp.running h).mp hh
  obtain ⟨s', hstop, hcore, hst⟩ := hybiStop_ok hp.core (hp.intact h hr)
  refine ⟨(s', p.2 \ {h}), by rw [lifeStep, hstop]; rfl,
    ⟨hcore, fun g => ?_, fun g hg => ?_, hst.owned_nonneg hr hp.owned⟩,
    .posts hr hst.next (fun _ hg => (hst.running_iff.mp hg).1) hst.posts⟩
  · rw [hst.running_iff, ← hp.running g]
    rfl
  · obtain ⟨hg, hne⟩ := hst.running_iff.mp hg
    exact (hst.live_iff (hp.intact h hr)).mpr ⟨hp.intact g hg, hne⟩

/-- No proper call fails. -/
lemma lifeStep_ok {c : LifeCall} (hc : c.Proper p)
    (hcommand : ∀ env route cmd args, c ≠ .command env route cmd args) :
    ∃ p', lifeStep cfg c p = .ok p' ∧ Tracked cfg p' ∧ Continues p.1 p'.1 := by
  cases c with
  | start env route type => exact start_tracked hp env route type
  | send k h msg force => exact send_tracked hp hc k msg force
  | unqueue k pollout => exact unqueue_tracked hp k pollout
  | stop h => exact stop_tracked hp hc
  | switch paused outcomes memory =>
    exact ⟨_, rfl, ⟨hp.core.switched paused outcomes memory, hp.running, hp.intact, hp.owned⟩,
      .same rfl (fun _ => Iff.rfl) rfl⟩
  | command env route cmd args => exact absurd rfl (hcommand env route cmd args)

lemma lifeStep_tracked {c : LifeCall} {p' : Life} (hc : c.Proper p)
    (hstep : lifeStep cfg c p = .ok p') : Tracked cfg p' ∧ Continues p.1 p'.1 := by
  by_cases hcommand : ∀ env route cmd args, c ≠ .command env route cmd args
  · obtain ⟨p'', hok, htracked⟩ := lifeStep_ok hp hc hcommand
    cases hok.symm.trans hstep
    exact htracked
  · push Not at hcommand
    obtain ⟨env, route, cmd, args, rfl⟩ := hcommand
    rw [lifeStep] at hstep
    split_ifs at hstep with hcmd
    · obtain ⟨s', hs', hret⟩ := bind_eq_ok.mp hstep
      cases hret
      have hT := Ends.result (tables_spec hp.core hcmd) hs'
      have heq := hT.eq
      refine ⟨⟨hT.core, ?_, ?_, ?_⟩, ?_⟩
      · rw [heq]
        exact hp.running
      · rw [heq]
        exact hp.intact
      · rw [heq]
        exact hp.owned
      · rw [heq]
        exact .same rfl (fun _ => Iff.rfl) rfl
    · cases hstep
      exact ⟨hp, .refl⟩

end calls

/-! ### Every run -/

/-- The number of entries in the backend queues that name a connection. -/
noncomputable def entriesNaming (h : HybiId) (s : Server) : Nat :=
  tally (Backend.names h) s.backend.queues

/-- A connection of `A` has one reference of its own, every connection has one for every entry that
names it, and these entries name connections that have not been freed. -/
structure Referenced (A : Set HybiId) (s : Server) : Prop where
  started : ∀ h ∈ A, s.backend.refcnt h = 1 + s.entriesNaming h
  others : ∀ h, h ∉ A → s.backend.refcnt h = s.entriesNaming h
  readable : ∀ k, ∀ m ∈ (s.backend.socks k).queue, s.backend.refcnt m.hybi ≠ 0

lemma Core.referenced {A : Set HybiId} (hs : s.Core cfg) (hA : ∀ g, g ∈ A ↔ s.Running g)
    (hI : ∀ g, 0 ≤ s.owned g) : Referenced A s := by
  have hcount : ∀ h,
      (s.backend.refcnt h : ℤ) = (if s.Running h then 1 else 0) + s.entriesNaming h :=
    fun h => owned_eq_ite (hI h) ▸ hs.counts.refcnt h
  refine ⟨fun h hh => ?_, fun h hh => ?_, fun k m hm => ?_⟩
  · have hone := hcount h
    rw [if_pos ((hA h).mp hh)] at hone
    omega
  · have hzero := hcount h
    rw [if_neg fun hr => hh ((hA h).mpr hr)] at hzero
    omega
  · exact hs.counts.refcnt_ne_zero_of_mem hm (hI m.hybi)

/-- Calls in any order that stop and send only what has been started and not been stopped keep the
references, none of them fails, and freed connections stay freed. The server makes such calls, and
keeps the references, in every run in which no stopped connection is stopped again by its inactivity
timer. -/
theorem refcnt_counts_uses (cfg : Config) :
    (∀ s A, ReachableVia (lifeStep cfg) LifeCall.Proper (init cfg, ∅) (s, A) → Referenced A s ∧
      (∀ c, c.Proper (s, A) → (∀ env route cmd args, c ≠ .command env route cmd args) →
        ∃ p, lifeStep cfg c (s, A) = .ok p) ∧
      ∀ c p, c.Proper (s, A) → lifeStep cfg c (s, A) = .ok p → ∀ h < s.next,
        s.backend.refcnt h = 0 → p.1.backend.refcnt h = 0) ∧
    ∀ s, ReachableVia (step cfg) (fun i s => ¬ Restops i s) (init cfg) s →
      Referenced {h | s.Running h} s ∧
      ∀ i s', ¬ Restops i s → step cfg i s = .ok s' → ∀ h < s.next,
        s.backend.refcnt h = 0 → s'.backend.refcnt h = 0 := by
  constructor
  · intro s A hr
    have hp : Tracked cfg (s, A) := hr.invariant (.init cfg)
      fun _ _ _ hc hp hstep => (lifeStep_tracked hp hc hstep).1
    refine ⟨hp.core.referenced hp.running hp.owned, fun c hc hcommand => ?_,
      fun c p hc hstep h hh hfreed => ?_⟩
    · obtain ⟨p, hok, -⟩ := lifeStep_ok hp hc hcommand
      exact ⟨p, hok⟩
    · obtain ⟨hp', hcont⟩ := lifeStep_tracked hp hc hstep
      exact hcont.freed hp.core hp'.core (hp.owned h) (hp'.owned h) hh hfreed
  · have howned : ∀ s, ReachableVia (step cfg) (fun i s => ¬ Restops i s) (init cfg) s →
        ∀ g, 0 ≤ s.owned g := fun s hr =>
      keeps_of_reachable (fun x => ∃ h, x = .restops h) (fun _ s => ∀ g, 0 ≤ s.owned g)
        (by rintro i s x hC ⟨h, rfl⟩ hx; exact hC ⟨h, hx⟩) (fun _ => le_rfl)
        (fun _ _ _ _ _ _ hallow hs _ hm hI =>
          hm.owned_nonneg hs (fun h => hallow _ ⟨h, rfl⟩) hI) hr
    intro s hr
    have hs := sound_of_reachable hr
    refine ⟨hs.core.referenced (fun _ => Iff.rfl) (howned s hr),
      fun i s' hC hstep h hh hfreed => ?_⟩
    have hr' := hr.step hC hstep
    have hcont := ((path_of_step hs hstep).keeps hs (I := fun _ t => Continues s t)
      (fun _ _ _ _ ht _ hm hI => hI.trans (hm.continues ht fun g hx => hC ⟨g, hx⟩)) .refl).2
    exact hcont.freed hs.core (sound_of_reachable hr').core (howned s hr h) (howned s' hr' h) hh
      hfreed

/-- A connection is started and stopped while ZeroMQ takes nothing: two entries keep it, whether the
calls are made one by one or by the server. -/
theorem refcnt_counts_uses_stopped :
    (∃ s : Server, s.backend.refcnt 0 = s.entriesNaming 0 ∧ s.backend.refcnt 0 = 2) ∧
    ∃ s : Server, ¬ s.Running 0 ∧ s.backend.refcnt 0 = s.entriesNaming 0 ∧
      s.backend.refcnt 0 = 2 := by
  obtain ⟨hcalls, hserver⟩ := refcnt_counts_uses smallConfig
  constructor
  · have hrun : (run (lifeStep smallConfig) [.start stalledEnv 0 .websocket]
        (init smallConfig, ∅)).map (fun p => (p.2, (lifeStep smallConfig (.stop 0) p).map fun p' =>
          p'.1.backend.refcnt 0)) = .ok (insert 0 ∅, .ok 2) := rfl
    obtain ⟨⟨s, A⟩, hr, hview⟩ := exists_of_run (C := LifeCall.Proper) _ (fun c hc p => by
      obtain rfl := List.mem_singleton.mp hc
      trivial) hrun
    obtain ⟨hA, hview⟩ := Prod.mk.inj hview
    obtain ⟨⟨s', A'⟩, hstop, href⟩ := exists_of_map_eq_ok hview
    obtain rfl : A = insert 0 ∅ := hA
    have hr' := hr.step (i := .stop 0) (Set.mem_insert 0 ∅) hstop
    have hstopped : (0 : HybiId) ∉ A' := by
      obtain ⟨_, -, hret⟩ := bind_eq_ok.mp hstop
      cases hret
      exact fun hn => hn.2 rfl
    exact ⟨s', (hcalls s' A' hr').1.others 0 hstopped, href⟩
  · obtain ⟨s, hr, hview⟩ := exists_of_small_run (C := fun i s => ¬ Restops i s)
      [⟨.websockStart 0, stalledEnv⟩, ⟨.websockStop 0, stalledEnv⟩]
      (fun s => (decide (s.Running 0), s.backend.refcnt 0)) (false, 2)
      (fun i hi s hC => by
        obtain ⟨h, hevent, -⟩ := hC
        simp only [List.mem_cons, List.not_mem_nil, or_false] at hi
        obtain rfl | rfl := hi <;> cases hevent) rfl
    simp only [Prod.mk.injEq, decide_eq_false_iff_not] at hview
    obtain ⟨hstopped, href⟩ := hview
    exact ⟨s, hstopped, (hserver s hr).1.others 0 hstopped, href⟩

/-- The inactivity timer of a stopped connection fires. The connection gives up a reference that it
does not have, and the last of its two entries is handed over after it has been freed. -/
theorem entries_outlive_connection : ∃ s : Server,
    Reachable (step smallConfig) (init smallConfig) s ∧ ¬ s.Running 0 ∧
      s.backend.refcnt 0 + 1 = s.entriesNaming 0 ∧
      step smallConfig ⟨.backendUnqueue (.forward 0) true,
        { stalledEnv with outcomes := List.replicate 6 .accepted }⟩ s = .error .useAfterFree := by
  obtain ⟨s, hr, hview⟩ := exists_of_small_run (C := fun _ _ => True)
    (slotReused ++ [⟨.inactivityTimeout 0, stalledEnv⟩])
    (fun s => (decide (s.Running 0), s.owned 0,
      (step smallConfig ⟨.backendUnqueue (.forward 0) true,
        { stalledEnv with outcomes := List.replicate 6 .accepted }⟩ s).map fun _ => ()))
    (false, -1, .error .useAfterFree) (fun _ _ _ => trivial) rfl
  simp only [Prod.mk.injEq, decide_eq_false_iff_not] at hview
  obtain ⟨hstopped, howned, hfault⟩ := hview
  refine ⟨s, hr, hstopped, ?_, ?_⟩
  · have hcount := (sound_of_reachable hr).core.counts.refcnt 0
    rw [howned] at hcount
    change _ = -1 + (s.entriesNaming 0 : ℤ) at hcount
    omega
  · generalize step smallConfig _ s = res at hfault ⊢
    cases res with
    | error f =>
      cases hfault
      rfl
    | ok s' => cases hfault

end Server

end Zerogw
