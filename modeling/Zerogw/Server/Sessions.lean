import Zerogw.Server.Runs

/-!
# What a backend is told about a connection

Each connection is announced to the backend of its route first, and nothing is said about it to any
backend after the notice that it has gone.
-/

namespace Zerogw

open Execution Backend

namespace Server

variable {cfg : Config} {env : Env} {s s' : Server} {h g : HybiId} {k : SockId}
  {calls cs : List Call} {c : Call} {msg : Msg} {l l' acc : List Msg} {allow : Mark → Prop}
  {w w' : Option HybiId} {route : RouteId} {type : HybiType}

/-! ### Sessions -/

/-- Nothing comes before the announcement of a connection, and nothing after the notice that it has
gone. -/
def Session (l : List Msg) : Prop := l.Pairwise fun a b => a ≠ .disconnect ∧ b ≠ .connect

lemma Session.nil : Session [] := List.Pairwise.nil

lemma Session.sublist (hl : Session l) (h : l'.Sublist l) : Session l' := List.Pairwise.sublist h hl

/-- One more message, of a connection that has not gone. -/
lemma Session.concat (hl : Session l) (hgone : .disconnect ∉ l) (hnew : msg = .connect → l = []) :
    Session (l ++ [msg]) := by
  refine List.pairwise_append.mpr ⟨hl, List.pairwise_singleton _ _, fun a ha b hb => ⟨?_, ?_⟩⟩
  · rintro rfl
    exact hgone ha
  · rintro rfl
    rw [hnew (List.mem_singleton.mp hb).symm] at ha
    cases ha

/-! ### The calls about one connection -/

/-- What is said about a connection on one socket, whether it is accepted or not. -/
def callsOn (k : SockId) (h : HybiId) (calls : List Call) : List Msg :=
  (calls.filter fun c => c.sock = k ∧ c.msg.hybi = h).map fun c => c.msg.msg

lemma callsOn_append (calls cs : List Call) :
    callsOn k h (calls ++ cs) = callsOn k h calls ++ callsOn k h cs := by
  rw [callsOn, List.filter_append, List.map_append]
  rfl

lemma callsOn_singleton :
    callsOn k h [c] = if c.sock = k ∧ c.msg.hybi = h then [c.msg.msg] else [] := by
  rw [callsOn, List.filter_singleton]
  by_cases hc : c.sock = k ∧ c.msg.hybi = h
  · rw [if_pos hc, decide_eq_true hc]
    rfl
  · rw [if_neg hc, decide_eq_false hc]
    rfl

/-- The notices of `hybi_stop`, one on each of some sockets. -/
lemma callsOn_notices {ks : List SockId} (hnodup : ks.Nodup)
    (hcs : cs.map (fun c => (c.sock, c.msg, c.force))
      = ks.map fun k => (k, ⟨h, .disconnect⟩, true)) :
    callsOn k g cs = if g = h ∧ k ∈ ks then [.disconnect] else [] := by
  induction ks generalizing cs with
  | nil =>
    rw [List.map_nil, List.map_eq_nil_iff] at hcs
    rw [hcs, if_neg (fun hk => List.not_mem_nil hk.2)]
    rfl
  | cons k' ks ih =>
    obtain ⟨c, cs, rfl, hc, hrest⟩ := List.map_eq_cons_iff.mp hcs
    obtain ⟨hnew, hnodup⟩ := List.nodup_cons.mp hnodup
    obtain ⟨hsock, hmsg, -⟩ : c.sock = k' ∧ c.msg = ⟨h, .disconnect⟩ ∧ c.force = true := by
      simpa using hc
    rw [← List.singleton_append, callsOn_append, callsOn_singleton, ih hnodup hrest, hsock, hmsg]
    dsimp only
    by_cases hg : g = h
    · subst hg
      by_cases hk : k' = k
      · subst hk
        rw [if_pos ⟨rfl, rfl⟩, if_neg (fun hk => hnew hk.2), if_pos ⟨rfl, List.mem_cons_self⟩,
          List.append_nil]
      · rw [if_neg (fun hk' => hk hk'.1), List.nil_append]
        simp [Ne.symm hk]
    · rw [if_neg (fun hk => hg hk.2.symm), if_neg (fun hk => hg hk.1), if_neg (fun hk => hg hk.1),
        List.append_nil]

/-! ### What is accepted -/

/-- What is accepted on a socket about a connection. -/
def acceptedAbout (k : SockId) (h : HybiId) (calls : List Call) : List Msg :=
  ((acceptedOn k calls).filter fun m => m.hybi = h).map BackendMsg.msg

lemma acceptedAbout_eq : acceptedAbout k h calls =
    (((calls.filter fun c => c.sock = k ∧ c.msg.hybi = h).filter fun c => c.status != .refused).map
      fun c => c.msg.msg) := by
  rw [acceptedAbout, acceptedOn, List.filter_map, List.map_map, List.filter_filter,
    List.filter_filter]
  congr 1
  refine List.filter_congr fun c _ => ?_
  simp only [Function.comp_apply, Bool.decide_and]
  ac_rfl

/-- What is accepted is among what is said. -/
lemma acceptedAbout_sublist : (acceptedAbout k h calls).Sublist (callsOn k h calls) := by
  rw [acceptedAbout_eq]
  exact List.filter_sublist.map _

lemma acceptedAbout_append (calls cs : List Call) :
    acceptedAbout k h (calls ++ cs) = acceptedAbout k h calls ++ acceptedAbout k h cs := by
  simp only [acceptedAbout_eq, List.filter_append, List.map_append]

lemma acceptedAbout_eq_nil (hnil : callsOn k h calls = []) : acceptedAbout k h calls = [] :=
  List.sublist_nil.mp (hnil ▸ acceptedAbout_sublist)

/-- An announcement that is not refused. -/
lemma acceptedAbout_singleton (hsock : c.sock = k) (hhybi : c.msg.hybi = h)
    (hstatus : c.status ≠ .refused) : acceptedAbout k h [c] = [c.msg.msg] := by
  rw [acceptedAbout_eq, List.filter_singleton, decide_eq_true ⟨hsock, hhybi⟩]
  simp [hstatus]

/-- One that is. -/
lemma acceptedAbout_refused (hstatus : c.status = .refused) : acceptedAbout k h [c] = [] := by
  rw [acceptedAbout_eq, List.filter_filter, List.filter_singleton]
  simp [hstatus]

/-! ### The invariant -/

/-- What has been said about a connection on one socket, and what of it was accepted, whether the
connection is running, gone, or has never started. -/
structure Attended (s : Server) (k : SockId) (h : HybiId) (l acc : List Msg) : Prop where
  session : Session l
  connect : .connect ∈ l → k = .forward (s.info h).route
  gone : .disconnect ∈ l → ¬ s.Running h
  route : l ≠ [] → k.route = (s.info h).route ∧ h < s.next
  unheard : s.started h = false → acc = []
  opened : s.started h = true → k = .forward (s.info h).route → acc.head? = some .connect
  stopped : s.started h = true → ¬ s.Running h → k = .forward (s.info h).route → .disconnect ∈ l

/-- For every connection and every socket. -/
def AllAttended (s : Server) : Prop :=
  ∀ k h, Attended s k h (callsOn k h s.backend.calls) (acceptedAbout k h s.backend.calls)

lemma AllAttended.init (cfg : Config) : (init cfg).AllAttended := fun _ _ =>
  ⟨.nil, nofun, nofun, fun hnil => absurd rfl hnil, fun _ => rfl, nofun, nofun⟩

/-- The same has been said about the same connection. -/
lemma Attended.of_eq (hI : Attended s k h l acc) (hstarted : s'.started h = s.started h)
    (hstops : s'.stops h = s.stops h) (hroute : (s'.info h).route = (s.info h).route)
    (hborn : h < s.next → h < s'.next) : Attended s' k h l acc := by
  have hrunning : s'.Running h ↔ s.Running h := by rw [Running, hstarted, hstops, Running]
  refine ⟨hI.session, ?_, ?_, ?_, ?_, ?_, ?_⟩
  · rw [hroute]
    exact hI.connect
  · rw [hrunning]
    exact hI.gone
  · rw [hroute]
    exact fun hne => (hI.route hne).imp_right hborn
  · rw [hstarted]
    exact hI.unheard
  · rw [hroute, hstarted]
    exact hI.opened
  · rw [hroute, hstarted, hrunning]
    exact hI.stopped

lemma AllAttended.same (hI : s.AllAttended) (hstarted : s'.started = s.started)
    (hstops : s'.stops = s.stops) (hroute : ∀ g, (s'.info g).route = (s.info g).route)
    (hnext : s'.next = s.next) (hcalls : s'.backend.calls = s.backend.calls) :
    s'.AllAttended := by
  intro k h
  rw [hcalls]
  exact (hI k h).of_eq (congrFun hstarted h) (congrFun hstops h) (hroute h) hnext.ge.trans_lt'

/-- Nothing has been said about a connection that is still to come. -/
lemma AllAttended.fresh (hI : s.AllAttended) (k : SockId) :
    callsOn k s.next s.backend.calls = [] := by
  by_contra hne
  exact Nat.lt_irrefl _ ((hI k s.next).route hne).2

variable (msg) in
/-- A message about a running connection is sent to a backend of its route. -/
lemma AllAttended.post (hs : s.Core cfg) (hI : s.AllAttended) (hr : s.Running h)
    (hk : k.route = (s.info h).route) (hconnect : msg ≠ .connect) (hdisconnect : msg ≠ .disconnect)
    (hsame : Same s s') {force : Bool} {status : SendStatus}
    (hcalls : s'.backend.calls = s.backend.calls ++ [⟨k, ⟨h, msg⟩, force, status⟩]) :
    s'.AllAttended := by
  intro k' g
  have hold := hI k' g
  refine Attended.of_eq (s := s) ?_ (congrFun hsame.started g) (congrFun hsame.stops g)
    (hsame.route g) hsame.next.ge.trans_lt'
  rw [hcalls, callsOn_append, acceptedAbout_append, callsOn_singleton]
  dsimp only
  split_ifs with hkg
  · obtain ⟨rfl, rfl⟩ := hkg
    refine ⟨hold.session.concat (fun hmem => hold.gone hmem hr) (absurd · hconnect),
      fun hmem => ?_, fun hmem => ?_, fun _ => ⟨hk, hs.lt_next hr⟩, fun hnot => ?_,
      fun hstarted hforward => ?_, fun _ hdead => absurd hr hdead⟩
    · rcases List.mem_append.mp hmem with hmem | hmem
      · exact hold.connect hmem
      · exact absurd (List.mem_singleton.mp hmem).symm hconnect
    · rcases List.mem_append.mp hmem with hmem | hmem
      · exact hold.gone hmem
      · exact absurd (List.mem_singleton.mp hmem).symm hdisconnect
    · exact absurd (hr.1.symm.trans hnot) (by decide)
    · rw [List.head?_append, hold.opened hstarted hforward]
      rfl
  · have hnil : callsOn k' g [⟨k, ⟨h, msg⟩, force, status⟩] = [] := by
      rw [callsOn_singleton, if_neg hkg]
    rw [acceptedAbout_eq_nil hnil, List.append_nil, List.append_nil]
    exact hold

/-- The notices of a connection that stops go to backends of its route. -/
lemma route_of_mem_noticeSocks (hs : s.Core cfg) (hk : k ∈ s.noticeSocks h) :
    k.route = (s.info h).route := by
  rcases (mem_noticeSocks hs).mp hk with rfl | ⟨pre, hpre⟩
  · rfl
  · obtain ⟨o, e, he, rfl, -, rfl⟩ := (Outputs.mapping_iff hs.outputs).mp hpre
    obtain ⟨i, hi⟩ := hs.outputsNamed o e he
    rw [hi]
    rfl

/-- A connection stops: everybody who may know of it is told, and this is the last message. -/
lemma AllAttended.gone (hs : s.Core cfg) (hI : s.AllAttended) (hr : s.Running h)
    (hst : Stopped h s s') : s'.AllAttended := by
  obtain ⟨cs, hcalls, hcs, -⟩ := hst.notices
  intro k g
  have hnotices := callsOn_notices (k := k) (g := g) (nodup_noticeSocks hs) hcs
  have hold := hI k g
  have hinfo : s'.info g = s.info g := congrFun hst.info g
  have hstarted : s'.started g = s.started g := congrFun hst.started g
  rw [hcalls, callsOn_append, acceptedAbout_append, hnotices]
  by_cases hg : g = h
  · subst hg
    have hdead : ¬ s'.Running g := fun hrun => (hst.running_iff.mp hrun).2 rfl
    have hopened : s.started g = true → k = .forward (s.info g).route →
        (acceptedAbout k g s.backend.calls ++ acceptedAbout k g cs).head? = some .connect := by
      intro hstarted hforward
      rw [List.head?_append, hold.opened hstarted hforward]
      rfl
    by_cases hk : k ∈ s.noticeSocks g
    · rw [if_pos ⟨rfl, hk⟩]
      refine ⟨hold.session.concat (fun hmem => hold.gone hmem hr) nofun, fun hmem => ?_,
        fun _ => hdead, fun _ => ?_, fun hnot => ?_, ?_,
        fun _ _ _ => List.mem_append_right _ (List.mem_singleton_self _)⟩
      · rw [hinfo]
        refine hold.connect ?_
        simpa using hmem
      · rw [hinfo, hst.next]
        exact ⟨route_of_mem_noticeSocks hs hk, hs.lt_next hr⟩
      · rw [hstarted] at hnot
        exact absurd (hr.1.symm.trans hnot) (by decide)
      · rw [hinfo, hstarted]
        exact hopened
    · rw [if_neg fun hn => hk hn.2, List.append_nil]
      refine ⟨hold.session, ?_, fun _ => hdead, ?_, fun hnot => ?_, ?_, fun _ _ hforward => ?_⟩
      · rw [hinfo]
        exact hold.connect
      · rw [hinfo, hst.next]
        exact hold.route
      · rw [hstarted] at hnot
        exact absurd (hr.1.symm.trans hnot) (by decide)
      · rw [hinfo, hstarted]
        exact hopened
      · rw [hinfo] at hforward
        exact absurd ((mem_noticeSocks hs).mpr (Or.inl hforward)) hk
  · rw [if_neg fun hn => hg hn.1] at hnotices ⊢
    rw [acceptedAbout_eq_nil hnotices, List.append_nil, List.append_nil]
    refine hold.of_eq hstarted ?_ (by rw [hinfo]) hst.next.ge.trans_lt'
    rw [hst.stops, Function.update_of_ne hg]

/-- A connection is announced to the backend of its route, and starts if the message is accepted. -/
lemma AllAttended.announced {status : SendStatus} (hs : s.Core cfg) (hI : s.AllAttended)
    (hnext : s'.next = s.next + 1) (hinfo : ∀ g, g ≠ s.next → s'.info g = s.info g)
    (hcalls : s'.backend.calls
      = s.backend.calls ++ [⟨.forward route, ⟨s.next, .connect⟩, false, status⟩])
    (hothers : ∀ g, g ≠ s.next → s'.started g = s.started g) (hstops : s'.stops = s.stops)
    (hroute : (s'.info s.next).route = route)
    (hstarted : s'.started s.next = true ↔ status ≠ .refused) : s'.AllAttended := by
  intro k g
  have hold := hI k g
  rw [hcalls, callsOn_append, acceptedAbout_append, callsOn_singleton]
  dsimp only
  by_cases hg : g = s.next
  · subst hg
    rw [hI.fresh k, acceptedAbout_eq_nil (hI.fresh k), List.nil_append, List.nil_append]
    by_cases hk : SockId.forward route = k
    · subst hk
      rw [if_pos ⟨rfl, rfl⟩]
      refine ⟨List.pairwise_singleton _ _, fun _ => by rw [hroute], fun hmem => ?_, fun _ => ?_,
        fun hnot => ?_, fun hrun _ => ?_, fun hrun hdead _ => ?_⟩
      · exact absurd (List.mem_singleton.mp hmem) nofun
      · rw [hroute, hnext]
        exact ⟨rfl, Nat.lt_succ_self _⟩
      · apply acceptedAbout_refused
        by_contra hsent
        exact absurd ((hstarted.mpr hsent).symm.trans hnot) (by decide)
      · exact congrArg List.head? (acceptedAbout_singleton
          (c := ⟨.forward route, ⟨s.next, .connect⟩, false, status⟩) rfl rfl (hstarted.mp hrun))
      · refine absurd ⟨hrun, ?_⟩ hdead
        rw [hstops]
        exact (hs.fresh s.next le_rfl).2
    · have hnil : callsOn k s.next [⟨.forward route, ⟨s.next, .connect⟩, false, status⟩] = [] := by
        rw [callsOn_singleton, if_neg fun hn => hk hn.1]
      rw [if_neg fun hn => hk hn.1, acceptedAbout_eq_nil hnil]
      have hforward : k ≠ .forward (s'.info s.next).route := by
        rw [hroute]
        exact Ne.symm hk
      exact ⟨.nil, nofun, nofun, fun hn => absurd rfl hn, fun _ => rfl,
        fun _ hn => absurd hn hforward, fun _ _ hn => absurd hn hforward⟩
  · have hnil : callsOn k g [⟨.forward route, ⟨s.next, .connect⟩, false, status⟩] = [] := by
      rw [callsOn_singleton, if_neg fun hn => hg hn.2.symm]
    rw [if_neg fun hn => hg hn.2.symm, acceptedAbout_eq_nil hnil, List.append_nil, List.append_nil]
    exact hold.of_eq (hothers g hg) (congrFun hstops g) (by rw [hinfo g hg])
      (hnext ▸ Nat.lt_succ_of_lt)

lemma AllAttended.started {res : Option HybiId} (hs : s.Core cfg) (hI : s.AllAttended)
    (hst : Started cfg route type s res s') : s'.AllAttended := by
  cases hst with
  | failed => exact hI.same rfl rfl (fun _ => rfl) rfl rfl
  | refused _ hnext hinfo hstarted hstops _ _ _ _ _ _ hcalls _ hroute =>
    refine hI.announced hs hnext hinfo hcalls (fun g _ => by rw [hstarted]) hstops hroute ?_
    rw [hstarted, (hs.fresh s.next le_rfl).1]
    simp
  | started _ _ hnext hinfo hstarted hstops _ hroute _ _ _ _ _ _ hcalls =>
    obtain ⟨status, hstatus, hcalls⟩ := hcalls
    refine hI.announced hs hnext hinfo hcalls (fun g hg => ?_) hstops hroute ?_
    · rw [hstarted, Function.update_of_ne hg]
    · rw [hstarted, Function.update_self]
      exact iff_of_true rfl hstatus

lemma Act.attended (hs : s.Core cfg) (hact : Act allow s s') (hI : s.AllAttended) :
    s'.AllAttended := by
  have hsame := hact.same
  have hcalled : s'.backend.calls = s.backend.calls → s'.AllAttended :=
    hI.same hsame.started hsame.stops hsame.route hsame.next
  cases hact with
  | posted ha hr hk hsend =>
    exact hI.post (.message _) hs hr hk nofun nofun hsame (calls_of_send hsend)
  | drained ha hb => exact hcalled (calls_of_unqueue hb)
  | switched => exact hcalled rfl
  | told => exact hcalled rfl
  | baked => exact hcalled rfl

lemma Move.attended (hs : s.Core cfg) (hrestops : ∀ h, ¬ allow (.restops h))
    (hm : Move cfg env allow w s w' s') (hI : s.AllAttended) : s'.AllAttended := by
  cases hm with
  | polling => exact hI.same rfl rfl (fun _ => rfl) rfl rfl
  | other hact => exact hact.attended hs hI
  | pushed => exact hI.same rfl rfl (fun _ => rfl) rfl rfl
  | offered ha har hl hk hf hsend =>
    exact hI.post (.request _) hs (hs.running hl) hk nofun nofun
      ⟨fun _ => Iff.rfl, fun _ => rfl, rfl, rfl, fun _ => rfl, fun _ => rfl, rfl, rfl, rfl⟩
      (calls_of_send hsend)
  | @gone h P l _ ha hr hP hlog hst =>
    have hcore : Core cfg { s with polling := P, sends := l } := (hs.withPolling P).withSendLog l
    have hI' : AllAttended { s with polling := P, sends := l } :=
      hI.same rfl rfl (fun _ => rfl) rfl rfl
    exact hI'.gone hcore (hr.resolve_right fun hn => hrestops h hn.1) hst
  | started ha hst => exact (hI.started hs hst).same rfl rfl (fun _ => rfl) rfl rfl
  | unstarted ha hst => exact hI.started hs hst
  | tables => exact hI.same rfl rfl (fun _ => rfl) rfl rfl
  | settled => exact hI

lemma attended_of_reachable
    (hr : ReachableVia (step cfg) (fun i s => ¬ Restops i s) (init cfg) s) : s.AllAttended :=
  keeps_of_reachable (fun x => ∃ h, x = .restops h) (fun _ s => s.AllAttended)
    (by rintro i s x hC ⟨h, rfl⟩ hx; exact hC ⟨h, hx⟩) (.init cfg)
    (fun _ _ _ _ _ _ hallow hs _ hm hI =>
      hm.attended hs.core (fun h => hallow _ ⟨h, rfl⟩) hI) hr

/-! ### Sessions of the backends -/

/-- What ZeroMQ has taken on a socket about a connection, in order. -/
def told (s : Server) (k : SockId) (h : HybiId) : List Msg :=
  ((s.backend.socks k).sent.filter fun x => x.msg.hybi = h).map fun x => x.msg.msg

/-- What is taken was accepted before, in this order. -/
lemma told_prefix (hs : s.Core cfg) (k : SockId) (h : HybiId) :
    s.told k h <+: acceptedAbout k h s.backend.calls := by
  rw [acceptedAbout, ← hs.inOrder.order, List.filter_append, List.map_append, List.filter_map,
    List.map_map]
  exact List.prefix_append _ _

/-- In every run in which no stopped connection is stopped again, at any time, what a backend has
been told about a connection is a session of it: the connection has started, and the socket belongs
to its route; only the forward socket is told that the connection has started, and this comes first;
when it is told that the connection has gone, this comes last and is true. The notice about a
connection that has gone is never left out on the forward socket, though it may be refused there. -/
theorem told_session (hr : ReachableVia (step cfg) (fun i s => ¬ Restops i s) (init cfg) s)
    (k : SockId) (h : HybiId) :
    Session (s.told k h) ∧
    (s.told k h ≠ [] → s.started h = true ∧ k.route = (s.info h).route ∧
      (k = .forward (s.info h).route → (s.told k h).head? = some .connect)) ∧
    (.connect ∈ s.told k h → k = .forward (s.info h).route) ∧
    (.disconnect ∈ s.told k h → ¬ s.Running h) ∧
    (s.started h = true → ¬ s.Running h → k = .forward (s.info h).route →
      ∃ c ∈ s.backend.calls, c.sock = k ∧ c.msg = ⟨h, .disconnect⟩) := by
  have hs := sound_of_reachable hr
  have hI := attended_of_reachable hr k h
  have hpre := told_prefix hs.core k h
  have hsub : (s.told k h).Sublist (callsOn k h s.backend.calls) :=
    hpre.sublist.trans acceptedAbout_sublist
  refine ⟨hI.session.sublist hsub, fun hne => ?_, fun hmem => hI.connect (hsub.subset hmem),
    fun hmem => hI.gone (hsub.subset hmem), fun hstarted hdead hforward => ?_⟩
  · have hcalls : callsOn k h s.backend.calls ≠ [] := by
      rintro hnil
      rw [hnil] at hsub
      exact hne (List.sublist_nil.mp hsub)
    have hstarted : s.started h = true := by
      by_contra hnot
      rw [hI.unheard (Bool.eq_false_iff.mpr hnot)] at hpre
      exact hne (List.prefix_nil.mp hpre)
    refine ⟨hstarted, (hI.route hcalls).1, fun hforward => ?_⟩
    obtain ⟨rest, hrest⟩ := hpre
    rw [← List.head?_append_of_ne_nil _ hne, hrest]
    exact hI.opened hstarted hforward
  · obtain ⟨c, hc, hmsg⟩ := List.mem_map.mp (hI.stopped hstarted hdead hforward)
    obtain ⟨hc, habout⟩ := List.mem_filter.mp hc
    obtain ⟨hsock, hhybi⟩ : c.sock = k ∧ c.msg.hybi = h := by simpa using habout
    refine ⟨c, hc, hsock, ?_⟩
    rw [← hmsg, ← hhybi]

/-- ZeroMQ takes what it is given during the event. -/
def takingEnv : Env := { stalledEnv with outcomes := [.accepted, .accepted] }

/-- There is no memory left to queue the connect message of a second websocket: its backend is told
of the first one only, from its beginning to its end. -/
theorem told_session_websocket : ∃ s : Server,
    s.told (.forward 0) 0 = [.connect, .disconnect] ∧ Session (s.told (.forward 0) 0) ∧
      ¬ s.Running 0 ∧ s.next = 2 ∧ s.started 1 = false := by
  obtain ⟨s, hr, hview⟩ := exists_of_small_run (C := fun i s => ¬ Restops i s)
    [⟨.websockStart 0, takingEnv⟩, ⟨.websockStart 0, { stalledEnv with memory := [true, false] }⟩,
      ⟨.websockStop 0, takingEnv⟩]
    (fun s => (s.told (.forward 0) 0, s.next, s.started 1)) ([.connect, .disconnect], 2, false)
    (by
      rintro i hi s ⟨h, hevent, -⟩
      simp only [List.mem_cons, List.not_mem_nil, or_false] at hi
      obtain rfl | rfl | rfl := hi <;> cases hevent)
    (by decide +kernel)
  simp only [Prod.mk.injEq] at hview
  obtain ⟨htold, hnext, hrefused⟩ := hview
  obtain ⟨hsession, -, -, hgone, -⟩ := told_session hr (.forward 0) 0
  refine ⟨s, htold, hsession, hgone ?_, hnext, hrefused⟩
  rw [htold]
  exact List.mem_cons_of_mem _ List.mem_cons_self

end Server

end Zerogw
