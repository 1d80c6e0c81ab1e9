import Zerogw.Server.Runs

/-!
# What backends are told about connections

The kind of a message, its cookie and its flags are found out when ZeroMQ takes the message. In
every run in which no connection gets a cookie while its connect message is still queued, all
messages have the documented forms.
-/

namespace Zerogw

open Execution

/-- The documented messages about a connection; all frames but the last have `ZMQ_SNDMORE`. -/
inductive Documented (hybi : Hybi) : List Frame → Prop
  | connect : Documented hybi [⟨hybi.uid, true⟩, ⟨str "connect", false⟩]
  | message {text : Bytes} (hnone : hybi.cookie = none) :
      Documented hybi [⟨hybi.uid, true⟩, ⟨str "message", true⟩, ⟨text, false⟩]
  | msgfrom {cookie text : Bytes} (hcookie : hybi.cookie = some cookie) :
      Documented hybi [⟨hybi.uid, true⟩, ⟨str "msgfrom", true⟩, ⟨cookie, true⟩, ⟨text, false⟩]
  | disconnect (hnone : hybi.cookie = none) :
      Documented hybi [⟨hybi.uid, true⟩, ⟨str "disconnect", false⟩]
  | disconnectFrom {cookie : Bytes} (hcookie : hybi.cookie = some cookie) :
      Documented hybi [⟨hybi.uid, true⟩, ⟨str "disconnect", true⟩, ⟨cookie, false⟩]

/-- Nothing comes after `connect`. -/
lemma Documented.not_connect_more {hybi : Hybi} {frames : List Frame} {first : Frame}
    {rest : List Frame} (h : Documented hybi frames) :
    frames ≠ first :: ⟨str "connect", true⟩ :: rest := by
  have hmessage : str "message" ≠ str "connect" := by decide
  have hmsgfrom : str "msgfrom" ≠ str "connect" := by decide
  have hdisconnect : str "disconnect" ≠ str "connect" := by decide
  cases h with
  | connect => simp
  | message => simp [hmessage]
  | msgfrom => simp [hmsgfrom]
  | disconnect => simp
  | disconnectFrom => simp [hdisconnect]

namespace Server

variable {cfg : Config} {env : Env} {s s' s₀ : Server} {h : HybiId} {k : SockId} {m : BackendMsg}
  {allow : Mark → Prop} {w w' : Option HybiId} {i : Input} {ks : List SockId}

/-- A message has its documented form, unless it is the connect message of a connection that has a
cookie. -/
lemma render_documented (hplain : m.msg = .connect → (s.info m.hybi).cookie = none) :
    Documented (s.info m.hybi) (s.render m) := by
  obtain ⟨h, msg⟩ := m
  rw [render]
  cases hcookie : (s.info h).cookie with
  | none =>
    cases msg with
    | connect => exact .connect
    | disconnect => exact .disconnect hcookie
    | request r => exact .message hcookie
    | message data => exact .message hcookie
  | some cookie =>
    cases msg with
    | connect =>
      rw [hplain rfl] at hcookie
      cases hcookie
    | disconnect => exact .disconnectFrom hcookie
    | request r => exact .msgfrom hcookie
    | message data => exact .msgfrom hcookie

/-! ### Moves -/

/-- Queued connect messages are about connections without a cookie. -/
def Plain (s : Server) : Prop :=
  ∀ k, ∀ m ∈ (s.backend.socks k).queue, m.msg = .connect → (s.info m.hybi).cookie = none

/-- What ZeroMQ has taken since `s₀` has the documented form. -/
def Told (s₀ s : Server) : Prop :=
  ∀ k, ∃ new, (s.backend.socks k).sent = (s₀.backend.socks k).sent ++ new ∧
    ∀ x ∈ new, x.msg.hybi < s.next ∧ Documented (s.info x.msg.hybi) x.frames

lemma Told.refl : Told s s := fun _ => ⟨[], by simp⟩

lemma Told.trans (hI : Told s₀ s) (hnext : s.next ≤ s'.next)
    (hinfo : ∀ g, g < s.next → s'.info g = s.info g) (hnew : Told s s') : Told s₀ s' := by
  intro k
  obtain ⟨old, hold, hdoc⟩ := hI k
  obtain ⟨new, hsent, hdoc'⟩ := hnew k
  refine ⟨old ++ new, by rw [hsent, hold, List.append_assoc], fun x hx => ?_⟩
  rcases List.mem_append.mp hx with hx | hx
  · obtain ⟨hlt, hx⟩ := hdoc x hx
    exact ⟨hlt.trans_le hnext, (hinfo _ hlt).symm ▸ hx⟩
  · exact hdoc' x hx

/-- The backends and what is known of the connections stay the same. -/
lemma Told.of_eq (hbackend : s'.backend.socks = s.backend.socks) : Told s s' :=
  fun k => ⟨[], by rw [hbackend]; simp⟩

section posts

variable (hposts : Backend.Posts s'.render ks m s.backend s'.backend)
  (hplain : m.msg = .connect → (s'.info m.hybi).cookie = none)

include hposts hplain

/-- A message is sent, with its documented form. -/
lemma told_of_posts (hm : m.hybi < s'.next) : Told s s' := by
  intro k
  obtain ⟨new, hsent, hnew⟩ := hposts.sent k
  refine ⟨new, hsent, fun x hx => ?_⟩
  obtain ⟨rfl, hframes⟩ := hnew x hx
  exact ⟨hm, hframes ▸ render_documented hplain⟩

lemma plain_of_posts (hI : s.Plain) (hs : s.Core cfg)
    (hinfo : ∀ g, g < s.next → s'.info g = s.info g) : s'.Plain := by
  intro k x hx
  rcases hposts.entries k x hx with hx | rfl
  · rw [hinfo _ (hs.entries k x hx)]
    exact hI k x hx
  · exact hplain

end posts

/-- A move other than a new cookie tells the backends nothing but documented messages. -/
lemma Move.told (hallow : ∀ h, ¬ allow (.cookie h)) (hs : s.Sound cfg)
    (hm : Move cfg env allow w s w' s') (hI : s.Plain) : s.next ≤ s'.next ∧
      (∀ g, g < s.next → s'.info g = s.info g) ∧ Told s s' ∧ s'.Plain := by
  have hcore := hs.core
  cases hm with
  | polling => exact ⟨le_rfl, fun _ _ => rfl, .of_eq rfl, hI⟩
  | other hact =>
    cases hact with
    | @posted b k h data force status ha hl hk hsend =>
      have hposts := Backend.posts_of_send hsend
      refine ⟨le_rfl, fun _ _ => rfl, ?_, ?_⟩
      · exact told_of_posts hposts (by rintro ⟨⟩) (hcore.lt_next hl)
      · exact plain_of_posts hposts (by rintro ⟨⟩) hI hcore
          fun _ _ => rfl
    | @drained b k pollout ha hb =>
      have hands := Backend.unqueue_hands hb
      refine ⟨le_rfl, fun _ _ => rfl, fun j => ?_, fun j m hm => hI j m (hands.entries j m hm)⟩
      obtain ⟨new, hsent, hnew⟩ := hands.sent j
      refine ⟨new, hsent, fun x hx => ?_⟩
      obtain ⟨hmem, hframes⟩ := hnew x hx
      exact ⟨hcore.entries j _ hmem, hframes ▸ render_documented (hI j _ hmem)⟩
    | switched => exact ⟨le_rfl, fun _ _ => rfl, .of_eq rfl, hI⟩
    | told => exact ⟨le_rfl, fun _ _ => rfl, .of_eq rfl, hI⟩
    | baked ha hcookie => exact absurd hcookie (hallow _)
  | pushed => exact ⟨le_rfl, fun _ _ => rfl, .of_eq rfl, hI⟩
  | @offered b k h r status ha har hl hk hf hsend =>
    have hposts := Backend.posts_of_send hsend
    rw [← render_incref (r := r)] at hposts
    refine ⟨le_rfl, fun _ _ => rfl, ?_, ?_⟩
    · exact told_of_posts hposts
        (by rintro ⟨⟩) (hcore.lt_next_of_live hl)
    · exact plain_of_posts hposts
        (by rintro ⟨⟩) hI hcore fun _ _ => rfl
  | @gone h P l _ ha hr hP hlog hst =>
    have hnext : s'.next = s.next := hst.next
    have hinfo : s'.info = s.info := hst.info
    have hposts : Backend.Posts s'.render _ _ s.backend s'.backend :=
      hst.posts.congr (by simp only [render, hinfo])
    refine ⟨hnext.ge, fun g _ => by rw [hinfo], ?_, ?_⟩
    · exact told_of_posts hposts (by rintro ⟨⟩) (hnext.symm ▸ hs.lt_next_of_stop hr)
    · exact plain_of_posts (s := s) hposts (by rintro ⟨⟩) hI hcore fun g _ => by rw [hinfo]
  | @started route type s₁ P ha hst hP =>
    obtain _ | _ | ⟨-, -, hnext, hinfo, -, -, -, -, -, -, -, -, hcookie, hposts⟩ := hst
    have hle : s.next ≤ s₁.next := hnext ▸ Nat.le_succ _
    have hold : ∀ g, g < s.next → s₁.info g = s.info g := fun g hg => hinfo g hg.ne
    have hposts : Backend.Posts (render { s₁ with polling := P }) _ _ s.backend s₁.backend :=
      hposts.congr rfl
    refine ⟨hle, hold, ?_, ?_⟩
    · refine told_of_posts hposts (fun _ => hcookie) ?_
      show s.next < s₁.next
      rw [hnext]
      exact Nat.lt_succ_self _
    · exact plain_of_posts hposts (fun _ => hcookie) hI hcore hold
  | unstarted ha hst =>
    obtain _ | ⟨-, hnext, hinfo, -, -, -, -, -, -, hsocks⟩ := hst
    · exact ⟨le_rfl, fun _ _ => rfl, .of_eq rfl, hI⟩
    · have hold : ∀ g, g < s.next → s'.info g = s.info g := fun g hg => hinfo g hg.ne
      refine ⟨hnext ▸ Nat.le_succ _, hold, .of_eq hsocks, fun k m hm hconnect => ?_⟩
      rw [hsocks] at hm
      rw [hold _ (hcore.entries k m hm)]
      exact hI k m hm hconnect
  | tables => exact ⟨le_rfl, fun _ _ => rfl, .of_eq rfl, hI⟩
  | settled => exact ⟨le_rfl, fun _ _ => rfl, .refl, hI⟩

/-! ### Runs -/

/-- A backend sets the cookie of a connection whose connect message is still queued. -/
def BakesEarly (i : Input) (s : Server) : Prop :=
  ∃ h, Bakes i s h ∧ ∃ k, (⟨h, .connect⟩ : BackendMsg) ∈ (s.backend.socks k).queue

/-- A new cookie changes nothing else. -/
lemma step_of_bakes (hs : s.Core cfg) (hb : Bakes i s h) (hstep : step cfg i s = .ok s') :
    ∃ cookie, s' = { s.expecting i.env with
      info := Function.update s.info h { s.info h with cookie := some cookie } } := by
  obtain ⟨route, id, cookie, hi, haddr⟩ := hb
  have hspec : Ends Memory (fun s' => s' = { s.expecting i.env with
      info := Function.update s.info h { s.info h with cookie := some cookie } })
      (setCookie route [id, cookie] (s.expecting i.env)) := by
    apply withConnection_spec (hs.switched s.backend.paused i.env.outcomes i.env.memory)
      fun _ _ _ _ _ _ hf => hf.1
    · intro hnone
      cases haddr.symm.trans (hnone id [cookie] rfl (by simp))
    · rintro _ _ g ⟨⟩ - hg
      cases haddr.symm.trans hg
      rfl
  have hset : step cfg i s = setCookie route [id, cookie] (s.expecting i.env) := by
    rw [step, handle, hi]
    rfl
  exact ⟨cookie, hspec.result (hset ▸ hstep)⟩

/-- One step tells the backends nothing but documented messages. -/
lemma step_told (hs : s.Sound cfg) (hI : s.Plain) (hi : ¬ BakesEarly i s)
    (hstep : step cfg i s = .ok s') : Told s s' ∧ s'.Plain := by
  by_cases hb : ∃ h, Bakes i s h
  · obtain ⟨h, hb⟩ := hb
    obtain ⟨cookie, rfl⟩ := step_of_bakes hs.core hb hstep
    refine ⟨.of_eq rfl, fun k m hm hconnect => ?_⟩
    have hne : m.hybi ≠ h := by
      rintro rfl
      exact hi ⟨m.hybi, hb, k, hconnect ▸ hm⟩
    show (Function.update s.info h _ m.hybi).cookie = none
    rw [Function.update_of_ne hne]
    exact hI k m hm hconnect
  · obtain ⟨-, -, htold, hplain⟩ := (path_of_step hs hstep).keeps hs
      (I := fun _ t => s.next ≤ t.next ∧ Told s t ∧ t.Plain)
      (fun w t w' t' ht _ hm ⟨hle, htold, hplain⟩ => by
        obtain ⟨hle', hinfo, htold', hplain'⟩ := hm.told (fun h hh => hb ⟨h, hh⟩) ht hplain
        exact ⟨hle.trans hle', htold.trans hle' hinfo htold', hplain'⟩)
      ⟨le_rfl, .refl, hI⟩
    exact ⟨htold, hplain⟩

/-- In every run in which no connection gets a cookie while its connect message is queued, whatever
ZeroMQ takes on a backend socket has the documented form for the cookie of the connection. -/
theorem messages_documented
    (hr : ReachableVia (step cfg) (fun i s => ¬ BakesEarly i s) (init cfg) s)
    (hi : ¬ BakesEarly i s) (hstep : step cfg i s = .ok s') (k : SockId) :
    ∃ new, (s'.backend.socks k).sent = (s.backend.socks k).sent ++ new ∧
      ∀ x ∈ new, Documented (s'.info x.msg.hybi) x.frames := by
  have hplain : s.Plain := by
    refine hr.invariant_of (fun _ => sound_of_reachable) (fun _ _ hm => by cases hm) ?_
    intro i s s' hi hs hI hstep
    exact (step_told hs hI hi hstep).2
  obtain ⟨new, hsent, hnew⟩ := (step_told (sound_of_reachable hr) hplain hi hstep).1 k
  exact ⟨new, hsent, fun x hx => (hnew x hx).2⟩

/-- ZeroMQ takes everything. -/
def willingEnv : Env := { stalledEnv with outcomes := [.accepted, .accepted] }

/-- The connect message of a connection is handed over at once. -/
theorem messages_documented_connect : ∃ s : Server,
    Documented (s.info 0) [⟨firstUid, true⟩, ⟨str "connect", false⟩] := by
  have hview : ((step smallConfig ⟨.websockStart 0, willingEnv⟩ (init smallConfig)).map
      fun s => (s.backend.socks (.forward 0)).sent)
      = .ok [⟨⟨0, .connect⟩, [⟨firstUid, true⟩, ⟨str "connect", false⟩], false⟩] := rfl
  obtain ⟨s, hstep, hview⟩ := exists_of_map_eq_ok hview
  have hnot : ¬ BakesEarly ⟨.websockStart 0, willingEnv⟩ (init smallConfig) := by
    rintro ⟨h, ⟨route, id, cookie, ⟨⟩, -⟩, -⟩
  obtain ⟨new, hsent, hnew⟩ := messages_documented .init hnot hstep (.forward 0)
  have hnew' : new = _ := hsent.symm.trans hview
  exact ⟨s, hnew _ (hnew' ▸ List.mem_singleton_self _)⟩

/-- A connect message waits in the queue, a backend sets the cookie of its connection, and ZeroMQ
takes the message with a cookie. -/
theorem connect_gets_cookie :
    ¬ ∀ (cfg : Config) (i : Input) (s s' : Server), Reachable (step cfg) (init cfg) s →
      step cfg i s = .ok s' → ∀ k, ∃ new,
        (s'.backend.socks k).sent = (s.backend.socks k).sent ++ new ∧
          ∀ x ∈ new, Documented (s'.info x.msg.hybi) x.frames := by
  intro hall
  obtain ⟨s, hr, hview⟩ := exists_of_small_run (C := fun _ _ => True)
    [⟨.websockStart 0, stalledEnv⟩,
      ⟨.command 0 [str "set_cookie", firstUid, str "ham"], stalledEnv⟩]
    (fun s => ((s.backend.socks (.forward 0)).sent,
      (step smallConfig ⟨.backendUnqueue (.forward 0) true, willingEnv⟩ s).map fun s' =>
        (s'.backend.socks (.forward 0)).sent))
    ([], .ok [⟨⟨0, .connect⟩,
      [⟨firstUid, true⟩, ⟨str "connect", true⟩, ⟨str "ham", false⟩], false⟩])
    (fun _ _ _ => trivial) rfl
  obtain ⟨hold, hview⟩ := Prod.mk.inj hview
  obtain ⟨s', hstep, hview⟩ := exists_of_map_eq_ok hview
  obtain ⟨new, hsent, hnew⟩ := hall smallConfig _ s s' hr hstep (.forward 0)
  rw [hold, List.nil_append] at hsent
  have hdoc := hnew _ (hsent.symm.trans hview ▸ List.mem_singleton_self _)
  exact hdoc.not_connect_more rfl

end Server

end Zerogw
