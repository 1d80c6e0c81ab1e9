import Zerogw.Server.Sessions

/-!
# What a backend knows of the connections

A backend that notes who comes and who goes has the live connections of its route, and those about
whose end its queue refused the notice.
-/

namespace Zerogw

open Execution Backend

namespace Server

variable {cfg : Config} {s : Server} {h : HybiId} {k : SockId} {l : List BackendMsg}
  {users : Set HybiId} {m : BackendMsg} {calls : List Call} {c : Call} {route : RouteId}

/-- A backend that keeps the set of the connections that have come and not gone. -/
def meet (users : Set HybiId) (m : BackendMsg) : Set HybiId :=
  match m.msg with
  | .connect => insert m.hybi users
  | .disconnect => users \ {m.hybi}
  | _ => users

/-- What a list of messages says about a connection. -/
def about (h : HybiId) (l : List BackendMsg) : List Msg :=
  (l.filter fun m => m.hybi = h).map BackendMsg.msg

lemma about_concat (l : List BackendMsg) (m : BackendMsg) :
    about h (l ++ [m]) = about h l ++ if m.hybi = h then [m.msg] else [] := by
  rw [about, List.filter_append, List.map_append, List.filter_singleton]
  by_cases hm : m.hybi = h
  · rw [if_pos hm, decide_eq_true hm]
    rfl
  · rw [if_neg hm, decide_eq_false hm]
    rfl

lemma mem_meet_of_ne (hm : m.hybi ≠ h) : h ∈ meet users m ↔ h ∈ users := by
  rw [meet]
  split
  · exact ⟨fun hmem => hmem.resolve_left (Ne.symm hm), Or.inr⟩
  · exact ⟨fun hmem => hmem.1, fun hmem => ⟨hmem, Ne.symm hm⟩⟩
  · exact Iff.rfl

/-- After a session, the backend has the connection if it has come and has not gone. -/
lemma mem_foldl_meet (hl : Session (about h l)) :
    h ∈ l.foldl meet ∅ ↔ .connect ∈ about h l ∧ .disconnect ∉ about h l := by
  induction l using List.reverseRecOn with
  | nil => exact ⟨False.elim, fun hmem => nomatch hmem.1⟩
  | append_singleton l m ih =>
    have hold : Session (about h l) := by
      refine hl.sublist ?_
      rw [about_concat]
      exact List.sublist_append_left _ _
    specialize ih hold
    rw [List.foldl_append, List.foldl_cons, List.foldl_nil]
    by_cases hm : m.hybi = h
    · rw [about_concat, if_pos hm] at hl ⊢
      have hfirst : m.msg = .connect → about h l = [] := by
        intro hconnect
        refine List.eq_nil_iff_forall_not_mem.mpr fun a ha => ?_
        exact ((List.pairwise_append.mp hl).2.2 a ha m.msg (List.mem_singleton_self _)).2 hconnect
      rw [meet]
      split
      · next hmsg =>
        rw [hfirst hmsg, hmsg, hm]
        exact iff_of_true (Set.mem_insert _ _) ⟨List.mem_singleton_self _, by simp⟩
      · next hmsg =>
        rw [hmsg, hm]
        exact iff_of_false (fun hmem => hmem.2 rfl) (fun hmem => hmem.2 (by simp))
      · next hconnect hdisconnect =>
        rw [ih]
        simp [Ne.symm hconnect, Ne.symm hdisconnect]
    · rw [mem_meet_of_ne hm, about_concat, if_neg hm, List.append_nil]
      exact ih

/-! ### The notices -/

/-- What is said about a connection is accepted if it is not refused. -/
lemma mem_acceptedAbout {msg : Msg} : msg ∈ acceptedAbout k h calls ↔
    ∃ c ∈ calls, c.sock = k ∧ c.msg = ⟨h, msg⟩ ∧ c.status ≠ .refused := by
  rw [acceptedAbout_eq]
  simp only [List.mem_map, List.mem_filter, decide_eq_true_eq, bne_iff_ne]
  constructor
  · rintro ⟨c, ⟨⟨hc, hsock, hhybi⟩, hstatus⟩, rfl⟩
    exact ⟨c, hc, hsock, by rw [← hhybi], hstatus⟩
  · rintro ⟨c, hc, hsock, hmsg, hstatus⟩
    exact ⟨c, ⟨⟨hc, hsock, by rw [hmsg]⟩, hstatus⟩, by rw [hmsg]⟩

/-- The notice that a connection has gone is given once, so it is not both accepted and refused. -/
lemma refused_once (hl : Session (callsOn k h calls)) (hc : c ∈ calls) (hsock : c.sock = k)
    (hmsg : c.msg = ⟨h, .disconnect⟩) (hrefused : c.status = .refused) :
    .disconnect ∉ acceptedAbout k h calls := by
  intro hmem
  obtain ⟨c', hc', hsock', hmsg', haccepted⟩ := mem_acceptedAbout.mp hmem
  have hne : c ≠ c' := by
    rintro rfl
    exact haccepted hrefused
  have hpair : (calls.filter fun c => c.sock = k ∧ c.msg.hybi = h).Pairwise
      fun a b => ¬ (a.msg.msg = .disconnect ∧ b.msg.msg = .disconnect) :=
    (List.pairwise_map.mp hl).imp fun hab hboth => hab.1 hboth.1
  have : Std.Symm fun a b : Call => ¬ (a.msg.msg = .disconnect ∧ b.msg.msg = .disconnect) :=
    ⟨fun _ _ hnot hboth => hnot hboth.symm⟩
  refine hpair.forall (List.mem_filter.mpr ⟨hc, ?_⟩) (List.mem_filter.mpr ⟨hc', ?_⟩) hne ?_
  · simp [hsock, hmsg]
  · simp [hsock', hmsg']
  · exact ⟨by rw [hmsg], by rw [hmsg']⟩

/-- In every run in which no stopped connection is stopped again, at any time, the backend of a
route that notes who comes and who goes has, once it gets what is still queued for it, exactly the
running connections of the route and those about whose end the notice was refused. -/
theorem backend_knows_connections
    (hr : ReachableVia (step cfg) (fun i s => ¬ Restops i s) (init cfg) s) (route : RouteId) :
    ((s.backend.socks (.forward route)).sent.map Sent.msg ++
      (s.backend.socks (.forward route)).queue).foldl meet ∅ =
    {h | (s.info h).route = route ∧ (s.Running h ∨ s.started h = true ∧ ∃ c ∈ s.backend.calls,
      c.sock = .forward route ∧ c.msg = ⟨h, .disconnect⟩ ∧ c.status = .refused)} := by
  have hs := sound_of_reachable hr
  ext h
  have hI := attended_of_reachable hr (.forward route) h
  have hsub : ∀ msg ∈ acceptedAbout (.forward route) h s.backend.calls,
      msg ∈ callsOn (.forward route) h s.backend.calls := fun _ hmem =>
    acceptedAbout_sublist.subset hmem
  rw [hs.core.inOrder.order, mem_foldl_meet (hI.session.sublist acceptedAbout_sublist)]
  change .connect ∈ acceptedAbout _ h _ ∧ .disconnect ∉ acceptedAbout _ h _ ↔ _
  constructor
  · rintro ⟨hconnect, hdisconnect⟩
    obtain ⟨hroute, -⟩ := hI.route (List.ne_nil_of_mem (hsub _ hconnect))
    have hstarted : s.started h = true := by
      by_contra hnot
      rw [hI.unheard (Bool.eq_false_iff.mpr hnot)] at hconnect
      exact List.not_mem_nil hconnect
    refine ⟨hroute.symm, or_iff_not_imp_left.mpr fun hdead => ⟨hstarted, ?_⟩⟩
    have hforward : SockId.forward route = .forward (s.info h).route := congrArg _ hroute
    obtain ⟨c, hc, hmsg⟩ := List.mem_map.mp (hI.stopped hstarted hdead hforward)
    obtain ⟨hc, habout⟩ := List.mem_filter.mp hc
    obtain ⟨hsock, hhybi⟩ : c.sock = .forward route ∧ c.msg.hybi = h := by simpa using habout
    have hsaid : c.msg = ⟨h, .disconnect⟩ := by rw [← hmsg, ← hhybi]
    refine ⟨c, hc, hsock, hsaid, ?_⟩
    by_contra haccepted
    exact hdisconnect (mem_acceptedAbout.mpr ⟨c, hc, hsock, hsaid, haccepted⟩)
  · rintro ⟨rfl, hpresent⟩
    have hstarted : s.started h = true := hpresent.elim And.left And.left
    refine ⟨List.mem_of_head? (hI.opened hstarted rfl), ?_⟩
    rcases hpresent with hrun | ⟨-, c, hc, hsock, hmsg, hrefused⟩
    · exact fun hmem => hI.gone (hsub _ hmem) hrun
    · exact refused_once hI.session hc hsock hmsg hrefused

/-- Of three websockets one goes without a notice and one cannot be announced, both for lack of
memory: the backend knows of the first and of the third. -/
theorem backend_knows_connections_two : ∃ s : Server, ¬ s.Running 0 ∧ s.started 1 = false ∧
    0 ∈ ((s.backend.socks (.forward 0)).sent.map Sent.msg ++
      (s.backend.socks (.forward 0)).queue).foldl meet ∅ ∧
    1 ∉ ((s.backend.socks (.forward 0)).sent.map Sent.msg ++
      (s.backend.socks (.forward 0)).queue).foldl meet ∅ ∧
    2 ∈ ((s.backend.socks (.forward 0)).sent.map Sent.msg ++
      (s.backend.socks (.forward 0)).queue).foldl meet ∅ := by
  obtain ⟨s, hr, hview⟩ := exists_of_small_run (C := fun i s => ¬ Restops i s)
    [⟨.websockStart 0, takingEnv⟩, ⟨.websockStart 0, { stalledEnv with memory := [true, false] }⟩,
      ⟨.websockStop 0, { stalledEnv with memory := [false] }⟩, ⟨.websockStart 0, takingEnv⟩]
    (fun s => decide (s.started 0 = true ∧ ¬ s.Running 0 ∧ s.started 1 = false ∧ s.Running 2 ∧
      (s.info 0).route = 0 ∧ (s.info 2).route = 0 ∧ ∃ c ∈ s.backend.calls,
        c.sock = .forward 0 ∧ c.msg = ⟨0, .disconnect⟩ ∧ c.status = .refused)) true
    (by
      rintro i hi s ⟨h, hevent, -⟩
      simp only [List.mem_cons, List.not_mem_nil, or_false] at hi
      obtain rfl | rfl | rfl | rfl := hi <;> cases hevent)
    (by decide +kernel)
  obtain ⟨hstarted, hstopped, hunheard, hrunning, hroute, hroute', hrefused⟩ :=
    of_decide_eq_true hview
  have hknows := backend_knows_connections hr 0
  refine ⟨s, hstopped, hunheard, ?_, ?_, ?_⟩
  · rw [hknows]
    exact ⟨hroute, Or.inr ⟨hstarted, hrefused⟩⟩
  · rw [hknows]
    rintro ⟨-, hrun | ⟨hstarted, -⟩⟩
    · exact absurd (hrun.1.symm.trans hunheard) (by decide)
    · exact absurd (hstarted.symm.trans hunheard) (by decide)
  · rw [hknows]
    exact ⟨hroute', Or.inl hrunning⟩

end Server

end Zerogw
