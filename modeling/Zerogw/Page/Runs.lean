import Zerogw.Page.Delivery

/-!
# What the page hands to the application

However late and in whatever order requests and responses arrive, and whichever get lost, the page
never skips a message of its connection, and it never stops asking for more unless a request fails.
If responses arrive in the order in which the server has sent them, the page hands out every message
once, in order.
-/

namespace Zerogw

open Execution

namespace Page

variable {cfg : Config} {path rnd data : Bytes} {w w' : World} {L L' : HybiId → Log Bytes}
  {T T' : Transfer Bytes} {ordered : Prop} {m : Sent} {n : Nat} {e : Event} {i : Server.Input}
  {s s' : Server} {conn : Option HybiId} {log : Log Bytes} {offers : List Nat}

/-! ### The server goes on -/

/-- Something happens at the server that the page has no part in. -/
lemma Linked.other (hI : Linked cfg path w L T) (hplain : Plain cfg)
    (hr : Reachable (Server.step cfg) (Server.init cfg) w.server)
    (hfew : T.log.entries.length < 2 ^ 31 - 1)
    (hack : ∀ h, w.conn = some h → Server.ackOf i w.server h = none)
    (hstep : w.step cfg path (.other i) = .ok w') (hbusy : Busy w) :
    ∃ L' T', T.Steps ordered T' ∧ Linked cfg path w' L' T' ∧ Busy w' := by
  obtain ⟨s', hs', hret⟩ := bind_eq_ok.mp hstep
  cases hret
  have hpolite : ∀ h, w.conn = some h → Polite i w.server h T := by
    intro h hh args hcarried
    have hnone := hack h hh
    rw [Server.ackOf_of_carriedOut hcarried] at hnone
    cases hnone
  obtain ⟨log, offers, hsteps, hpre, htracked⟩ :=
    hI.tracked.step ordered hplain hr hs' hpolite hfew
  refine ⟨_, _, hsteps, ⟨htracked, ?_⟩, hbusy.perm rfl (collect_underway s' w)⟩
  refine hI.kept.move (w.collect s') rfl (fun m hm => ⟨hm, fun hcallback => ?_⟩)
    (fun h hh => ⟨hh, ?_⟩) hpre (collect_underway s' w) offers
  · rcases hI.kept.sent m hm with ⟨-, hnone, -⟩ | ⟨hmessage, -⟩
    · exact hnone
    · rw [hmessage] at hcallback
      cases hcallback
  · exact ((hI.tracked.owned h hh).step hr hs' (hpolite h hh)).2

/-- A request has arrived. -/
lemma Linked.arrived (hI : Linked cfg path w L T) (hm : w.sent[n]? = some m)
    (hw' : w' = World.collect s' { w with
      conn := conn
      sent := w.sent.eraseIdx n
      pending := w.pending ++ [(w.server.polling.next, m.callback)] })
    (hconn : ∀ h, w.conn = some h → conn = some h ∧ (s'.info h).uid = (w.server.info h).uid)
    (hnone : ∀ m' ∈ w.sent.eraseIdx n, m'.callback = .connectReq → conn = none)
    (hpre : T.log.entries <+: log.entries)
    (htracked : Tracked cfg s' conn
      ((w.pending.filter fun x => !answered s' x) ++
        [(w.server.polling.next, m.callback)].filter fun x => !answered s' x)
      ((w.wire ++ w.pending.filter (answered s')) ++
        [(w.server.polling.next, m.callback)].filter (answered s')) L'
      { T with log := log, offers := offers }) (hbusy : Busy w) :
    Linked cfg path w' L' { T with log := log, offers := offers } ∧ Busy w' := by
  have hperm : w'.underway.Perm w.underway := by
    rw [hw']
    refine (collect_underway s' _).trans (List.Perm.append_right _ ?_)
    dsimp only
    rw [List.map_append]
    refine List.Perm.trans ?_ (((perm_of_getElem? hm).map _).symm.append_right _)
    rw [← List.append_assoc]
    exact List.perm_append_singleton _ _
  rw [List.append_assoc, ← List.filter_append, ← List.filter_append] at htracked
  have hpage : w'.page = w.page := by
    rw [hw']
    rfl
  refine ⟨⟨?_, hI.kept.move _ hpage (fun m' hm' => ?_) (fun h hh => ?_) hpre hperm offers⟩,
    hbusy.perm hpage hperm⟩
  · rw [hw']
    exact htracked
  · rw [hw'] at hm' ⊢
    exact ⟨List.mem_of_mem_eraseIdx hm', hnone m' hm'⟩
  · rw [hw']
    exact hconn h hh

/-- Nothing is acknowledged on a connection that is new. -/
lemma acked_next (hr : Reachable (Server.step cfg) (Server.init cfg) s) (hrec : s.Recorded L) :
    (Server.logStep i s s' L s.next).acked = 0 := by
  have hnil : (L s.next).entries = [] := by
    rw [hrec.entries]
    exact Server.messagesFor_eq_nil fun x hx => ((Server.logged_of_reachable hr).born x hx).ne
  have hle := (L s.next).acked_le
  rw [hnil] at hle
  rw [Server.logStep]
  cases hack : Server.ackOf i s s.next with
  | none => exact Nat.le_zero.mp hle
  | some k =>
    obtain ⟨route, method, body, origin, date, args, -, -, hreach⟩ := Server.ackOf_eq_some.mp hack
    exact absurd ((Server.sound_of_reachable hr).core.lt_next_of_live hreach.live) (Nat.lt_irrefl _)

section arrive

variable {route : RouteId} {origin : Option Bytes} {date : Bytes} {env : Env}
  (hI : Linked cfg path w L T) (hm : w.sent[n]? = some m) (hpath : 0 ∉ path ∧ question ∉ path)
  (hr : Reachable (Server.step cfg) (Server.init cfg) w.server) (hplain : Plain cfg)
  (hstep : w.step cfg path (.arrive n route origin date env) = .ok w') (hbusy : Busy w)
  (hfew : T.log.entries.length < 2 ^ 31 - 1)

include hI hm hpath hr hplain hstep hbusy hfew

/-- The request for a connection arrives. -/
lemma Linked.connect (hcallback : m.callback = .connectReq) (hnone : w.conn = none)
    (huri : m.uri = path ++ str "?action=CONNECT") :
    ∃ L' T', T.Steps ordered T' ∧ Linked cfg path w' L' T' ∧ Busy w' := by
  have hs := Server.sound_of_reachable hr
  rw [World.step] at hstep
  simp only [hm] at hstep
  rw [huri, parseArgs_connect hpath, ok_bind] at hstep
  obtain ⟨s', hs', hret⟩ := bind_eq_ok.mp hstep
  have hw' := (Except.ok.inj hret).symm
  have hs'_sound := Server.sound_of_reachable (hr.step trivial hs')
  have hwaits := arrived_connect hr hs' rfl rfl
  have hlt := Server.next_lt_of_step hs.core rfl hs'
  have habsent : ∀ g, w.conn ≠ some g := by
    intro g hg
    cases hnone.symm.trans hg
  obtain ⟨log, offers, hsteps, hpre, htracked⟩ :=
    hI.tracked.step ordered hplain hr hs' (fun g hg => absurd hg (habsent g)) hfew
  have hconn : ∀ conn h, w.conn = some h →
      conn = some h ∧ (s'.info h).uid = (w.server.info h).uid := by
    intro conn h hh
    exact absurd hh (habsent h)
  have honly : ∀ m' ∈ w.sent.eraseIdx n, m'.callback ≠ .connectReq := by
    intro m' hm' heq
    have hended := ended_sent hm
    rw [hcallback] at hended
    have hcount := (hended.of_connect hI.kept).2
    refine List.count_eq_zero.mp hcount (List.mem_append_left _ (List.mem_append_left _ ?_))
    exact heq ▸ List.mem_map_of_mem hm'
  rw [hnone] at htracked
  rcases Server.opens_of_step hs.core rfl rfl hs' with hopens | hrefuses
  · obtain ⟨rep, hrep, hstatus, hbody⟩ := hopens.reply
    have hopened : World.opened m w.server s' w.conn = some w.server.next :=
      if_pos ⟨hcallback, hopens.live⟩
    obtain ⟨hopen, hopentracked⟩ := htracked.open ordered
      (hs'_sound.core.lt_next_of_live hopens.live) hopens.type hopens.format
      (acked_next hr hI.tracked.recorded)
    have hadded := hopentracked.add (x := (w.server.polling.next, m.callback)) hlt
      (Or.inr ⟨w.server.next, rep, rfl, hrep, ?_, ?_, ?_⟩)
    · rw [hopened] at hw'
      exact ⟨_, _, hsteps.trans hopen, hI.arrived hm hw' (hconn _)
        (fun m' hm' heq => absurd heq (honly m' hm'))
        (hI.tracked.apart hnone ▸ List.nil_prefix) hadded hbusy⟩
    · rw [succeeded, hstatus]
      rfl
    · rw [hcallback]
      exact hbody
    · rw [offerOf, hcallback]
  · have hopened : World.opened m w.server s' w.conn = none := by
      rw [World.opened, if_neg]
      · exact hnone
      · rintro ⟨-, hl⟩
        exact hrefuses.dead hl
    have hadded := htracked.add (x := (w.server.polling.next, m.callback)) hlt
      (Or.inl ⟨hrefuses.replies, fun g hg => absurd hg (hwaits g)⟩)
    rw [hopened] at hw'
    exact ⟨_, _, hsteps, hI.arrived hm hw' (hconn _)
      (fun m' hm' heq => absurd heq (honly m' hm')) hpre hadded hbusy⟩

/-- A request for messages arrives. -/
lemma Linked.poll {h : HybiId} {k : Nat} (hT : T.Sound) (hnext : w.server.next ≤ 2 ^ 64)
    (hcallback : m.callback = .messageReq) (hh : w.conn = some h) (hk : k = 0 ∨ k ∈ T.acks)
    (hrnd : IsRandom rnd) (huri : m.uri = pollUri cfg path (w.server.info h).uid k rnd) :
    ∃ L' T', T.Steps ordered T' ∧ Linked cfg path w' L' T' ∧ Busy w' := by
  have hs := Server.sound_of_reachable hr
  have hborn := (hI.tracked.owned h hh).born
  have hk_lt : k < 2 ^ 63 := by
    rcases hk with rfl | hk
    · exact Nat.two_pow_pos 63
    · rcases hT.acks k hk with rfl | htaken
      · exact Nat.two_pow_pos 63
      · exact (hT.taken k htaken).trans_lt (hfew.trans (by norm_num))
  rw [World.step] at hstep
  simp only [hm] at hstep
  rw [huri, parseArgs_poll hpath hrnd (hs.core.uids h hborn) hk_lt, ok_bind] at hstep
  obtain ⟨s', hs', hret⟩ := bind_eq_ok.mp hstep
  have hw' := (Except.ok.inj hret).symm
  have hpolite : ∀ g, w.conn = some g → Polite (World.arrival route origin date env m
      (some (pollArgs (w.server.info h).uid k (hs.core.uids h hborn) (lt_size hk_lt))))
      w.server g T := by
    rintro g - args ⟨route', method, body, origin', date', hi, -⟩
    cases hi
    exact ⟨rfl, hk⟩
  have hlt := Server.next_lt_of_step hs.core rfl hs'
  obtain ⟨log, offers, hsteps, hpre, htracked⟩ :=
    hI.tracked.step ordered hplain hr hs' hpolite hfew
  have hopened : World.opened m w.server s' w.conn = w.conn := by
    rw [World.opened, if_neg]
    rintro ⟨hconnect, -⟩
    rw [hcallback] at hconnect
    cases hconnect
  rw [hopened] at hw'
  have hadded := htracked.add (x := (w.server.polling.next, m.callback)) hlt ?_
  · refine ⟨_, _, hsteps, hI.arrived hm hw' (fun g hg => ⟨hg, ?_⟩) (fun m' hm' heq => ?_) hpre
      hadded hbusy⟩
    · exact ((hI.tracked.owned g hg).step hr hs' (hpolite g hg)).2
    · rcases hI.kept.sent m' (List.mem_of_mem_eraseIdx hm') with ⟨-, hnone, -⟩ | ⟨hmessage, -⟩
      · exact hnone
      · rw [hmessage] at heq
        cases heq
  · rcases arrived_poll hr hs' hplain hnext hborn rfl rfl rfl with ⟨hnone, hwaits⟩ |
      ⟨rep, hrep, hok, hread⟩
    · exact Or.inl ⟨hnone, fun g hg => ⟨hwaits g hg ▸ hh, hcallback⟩⟩
    · refine Or.inr ⟨h, rep, hh, hrep, hok, ?_, ?_⟩
      · rw [hcallback]
        exact Or.inl hread
      · rw [offerOf, hcallback]
        dsimp only
        rw [hrep, List.head?_cons, Option.bind_some, numberOf, hread]

end arrive

/-! ### Every run -/

/-- There is one request for a connection on its way to the server, or none once there is a
connection. -/
def AsksOnce (w : World) : Prop :=
  (w.sent.map Sent.callback).count .connectReq ≤ if w.conn = none then 1 else 0

/-- What every event does: the server makes a step, or none, and a connection is kept. -/
structure Onward (cfg : Config) (w w' : World) : Prop where
  server : w'.server = w.server ∨ ∃ i, Server.step cfg i w.server = .ok w'.server
  conn : ∀ h, w.conn = some h → w'.conn = some h
  once : AsksOnce w'

lemma AsksOnce.of_sublist (hw : AsksOnce w) (hsent : w'.sent.Sublist w.sent)
    (hconn : w'.conn = w.conn) : AsksOnce w' := by
  rw [AsksOnce, hconn]
  exact ((hsent.map _).count_le _).trans hw

lemma AsksOnce.writes (hw : AsksOnce w) (hwrites : Writes w w') : Onward cfg w w' := by
  obtain ⟨page, more, hmore, rfl⟩ := hwrites
  refine ⟨Or.inl rfl, fun _ hh => hh, ?_⟩
  have hnone : (more.map Sent.callback).count .connectReq = 0 := by
    refine List.count_eq_zero.mpr fun hmem => ?_
    obtain ⟨m, hm, hconnect⟩ := List.mem_map.mp hmem
    rw [hmore m hm] at hconnect
    cases hconnect
  rw [AsksOnce, List.map_append, List.count_append, hnone, Nat.add_zero]
  exact hw

/-- A request is gone. -/
lemma AsksOnce.drop (hw : AsksOnce w) (hserver : w'.server = w.server)
    (hsent : w'.sent.Sublist w.sent) (hconn : w'.conn = w.conn) : Onward cfg w w' :=
  ⟨Or.inl hserver, fun _ hh => hconn.trans hh, hw.of_sublist hsent hconn⟩

lemma onward_of_arrive {route : RouteId} {origin : Option Bytes} {date : Bytes} {env : Env}
    (hw : AsksOnce w) (hstep : w.step cfg path (.arrive n route origin date env) = .ok w') :
    Onward cfg w w' := by
  rw [World.step] at hstep
  cases hm : w.sent[n]? with
  | none =>
    simp only [hm] at hstep
    cases hstep
    exact hw.drop rfl (.refl _) rfl
  | some m =>
    simp only [hm] at hstep
    obtain ⟨args, -, hrest⟩ := bind_eq_ok.mp hstep
    obtain ⟨s', hs', hret⟩ := bind_eq_ok.mp hrest
    cases hret
    have hcount : (w.sent.map Sent.callback).count .connectReq =
        ((m.callback :: (w.sent.eraseIdx n).map Sent.callback).count .connectReq) :=
      ((perm_of_getElem? hm).map _).count_eq _
    rw [AsksOnce, hcount] at hw
    by_cases hopen : m.callback = .connectReq ∧ s'.Live w.server.next
    · rw [hopen.1, List.count_cons_self] at hw
      split_ifs at hw with hnone
      · refine ⟨Or.inr ⟨_, hs'⟩, fun h hh => ?_, ?_⟩
        · rw [hnone] at hh
          cases hh
        · rw [AsksOnce]
          exact (Nat.le_of_succ_le_succ hw).trans (Nat.zero_le _)
      · exact absurd hw (Nat.not_succ_le_zero _)
    · have hsame : World.opened m w.server s' w.conn = w.conn := if_neg hopen
      refine ⟨Or.inr ⟨_, hs'⟩, fun h hh => hsame.trans hh, ?_⟩
      rw [AsksOnce]
      dsimp only [World.collect]
      rw [hsame]
      exact le_trans List.count_le_count_cons hw

lemma onward_of_fail {leg : Leg} (hw : AsksOnce w)
    (hstep : w.step cfg path (.fail leg n) = .ok w') :
    Onward cfg w w' := by
  cases leg with
  | sent =>
    rw [World.step] at hstep
    split_ifs at hstep
    · cases hstep
      exact hw.drop rfl (List.eraseIdx_sublist _ _) rfl
    · cases hstep
      exact hw.drop rfl (.refl _) rfl
  | pending =>
    rw [World.step] at hstep
    split_ifs at hstep <;> cases hstep <;> exact hw.drop rfl (.refl _) rfl
  | wire =>
    rw [World.step] at hstep
    split_ifs at hstep <;> cases hstep <;> exact hw.drop rfl (.refl _) rfl

lemma onward_of_step (hw : AsksOnce w) (hstep : w.step cfg path e = .ok w') : Onward cfg w w' := by
  cases e with
  | other i =>
    obtain ⟨s', hs', hret⟩ := bind_eq_ok.mp hstep
    cases hret
    exact ⟨Or.inr ⟨i, hs'⟩, fun _ hh => hh, hw⟩
  | arrive n route origin date env => exact onward_of_arrive hw hstep
  | receive n spoken rnd =>
    have hwrites : ∀ w', Writes { w with wire := w.wire.eraseIdx n } w' → Onward cfg w w' := by
      intro w' hwrites
      have honward : Onward cfg { w with wire := w.wire.eraseIdx n } w' :=
        AsksOnce.writes hw hwrites
      exact ⟨honward.server, honward.conn, honward.once⟩
    rw [World.step] at hstep
    split at hstep
    · cases hstep
      exact hw.drop rfl (.refl _) rfl
    · split at hstep
      · cases hstep
        exact hw.drop rfl (.refl _) rfl
      · split at hstep
        · cases hstep
          exact hwrites _ (Writes.connectReq _)
        · cases hstep
          exact hwrites _ (Writes.messageReq _)
  | fail leg n => exact onward_of_fail hw hstep
  | send data rnd =>
    rw [World.step] at hstep
    split_ifs at hstep
    · cases hstep
      exact hw.writes ((Writes.page w w.page).requestNext rnd data)
    · cases hstep
      exact hw.drop rfl (.refl _) rfl

/-- The server is in a state that it can reach, whatever the page does. -/
lemma server_of_reachable {C : Event → World → Prop}
    (hrun : ReachableVia (World.step cfg path) C (World.init cfg path) w) :
    Reachable (Server.step cfg) (Server.init cfg) w.server ∧ AsksOnce w := by
  refine hrun.invariant (I := fun w => Reachable (Server.step cfg) (Server.init cfg) w.server ∧
    AsksOnce w) ⟨.init, le_rfl⟩ ?_
  rintro e w w' - ⟨hr, hw⟩ hstep
  have honward := onward_of_step hw hstep
  refine ⟨?_, honward.once⟩
  rcases honward.server with hsame | ⟨i, hs'⟩
  · rw [hsame]
    exact hr
  · exact hr.step trivial hs'

/-- Neither connections nor messages become fewer. -/
lemma Onward.le (honward : Onward cfg w w')
    (hr : Reachable (Server.step cfg) (Server.init cfg) w.server) :
    w.server.next ≤ w'.server.next ∧ w.messages.length ≤ w'.messages.length := by
  have hsince : Server.Since w.server w'.server := by
    rcases honward.server with hsame | ⟨i, hs'⟩
    · rw [hsame]
      exact .refl
    · exact Server.since_of_step (Server.sound_of_reachable hr) hs'
  refine ⟨hsince.next, ?_⟩
  rw [World.messages]
  cases hh : w.conn with
  | none => exact Nat.zero_le _
  | some h =>
    rw [World.messages, honward.conn h hh]
    obtain ⟨new, hnew⟩ := hsince.sends
    dsimp only
    rw [← hnew, Server.messagesFor_append, List.length_append]
    exact Nat.le_add_right _ _

/-- The entries of the log are the messages for the page. -/
lemma Linked.entries (hI : Linked cfg path w L T) : T.log.entries = w.messages := by
  rw [World.messages]
  cases hh : w.conn with
  | none => exact congrArg Log.entries (hI.tracked.apart hh)
  | some h =>
    rw [(hI.tracked.owned h hh).log]
    exact hI.tracked.recorded.entries h

/-- One event. -/
lemma Linked.step (hI : Linked cfg path w L T) (hpath : 0 ∉ path ∧ question ∉ path)
    (hplain : Plain cfg) (hr : Reachable (Server.step cfg) (Server.init cfg) w.server)
    (hT : T.Sound) (hfew : w.messages.length < 2 ^ 31 - 1) (hnext : w.server.next ≤ 2 ^ 64)
    (hallowed : Allowed ordered e w) (hstep : w.step cfg path e = .ok w') (hbusy : Busy w) :
    ∃ L' T', T.Steps ordered T' ∧ Linked cfg path w' L' T' ∧ Busy w' := by
  have hsame (hret : (Except.ok w : Except Fault World) = .ok w') :
      ∃ L' T', T.Steps ordered T' ∧ Linked cfg path w' L' T' ∧ Busy w' := by
    cases hret
    exact ⟨L, T, .refl, hI, hbusy⟩
  rw [← hI.entries] at hfew
  cases e with
  | other i => exact hI.other hplain hr hfew hallowed hstep hbusy
  | arrive n route origin date env =>
    cases hm : w.sent[n]? with
    | none =>
      rw [World.step] at hstep
      simp only [hm] at hstep
      exact hsame hstep
    | some m =>
      rcases hI.kept.sent m (List.mem_of_getElem? hm) with ⟨hcallback, hnone, huri⟩ |
        ⟨hcallback, h, k, rnd, hh, hk, hrnd, huri⟩
      · exact hI.connect hm hpath hr hplain hstep hbusy hfew hcallback hnone huri
      · exact hI.poll hm hpath hr hplain hstep hbusy hfew hT hnext hcallback hh hk hrnd huri
  | receive n spoken rnd =>
    rw [World.step] at hstep
    split at hstep
    · exact hsame hstep
    · next r callback hx =>
      split at hstep
      · exact hsame hstep
      · next rep rest hreplies =>
        have hrep : (w.server.polling.request r).replies = [rep] := by
          obtain ⟨-, h, rep', -, hrep', -⟩ := hI.tracked.returning _ (List.mem_of_getElem? hx)
          rw [hrep'] at hreplies ⊢
          rw [(List.cons.inj hreplies).1]
        cases callback with
        | connectReq =>
          cases hstep
          obtain ⟨T', hsteps, hlinked⟩ := hI.connectReq ordered hx hallowed.2 rfl hrep spoken
          exact ⟨L, T', hsteps, hlinked⟩
        | messageReq =>
          cases hstep
          obtain ⟨T', hsteps, hlinked⟩ :=
            hI.messageReq ordered hx hallowed.2 rfl hrep spoken hT hfew hallowed.1
          exact ⟨L, T', hsteps, hlinked⟩
  | fail leg n =>
    obtain ⟨T', hsteps, hlinked⟩ := hI.fail ordered hstep hbusy
    exact ⟨L, T', hsteps, hlinked⟩
  | send data rnd =>
    obtain ⟨T', hsteps, hlinked⟩ := hI.send ordered hstep hallowed hbusy
    exact ⟨L, T', hsteps, hlinked⟩

lemma Linked.init : Linked cfg path (World.init cfg path) (fun _ => .empty) .empty := by
  refine ⟨⟨.init cfg, nofun, fun _ => rfl, nofun, nofun, rfl⟩, ⟨fun m hm => ?_, fun _ => rfl, nofun,
    .nil, le_rfl, ?_, rfl⟩⟩
  · obtain rfl := List.mem_singleton.mp hm
    exact Or.inl ⟨rfl, rfl, rfl⟩
  · exact fun hmem => nomatch List.mem_singleton.mp hmem

/-- The page and the server carry out a transfer. -/
lemma linked_of_reachable (hpath : 0 ∉ path ∧ question ∉ path) (hplain : Plain cfg)
    (hrun : ReachableVia (World.step cfg path) (Allowed ordered) (World.init cfg path) w)
    (hfew : w.messages.length < 2 ^ 31 - 1) (hnext : w.server.next ≤ 2 ^ 64) :
    ∃ L T, Transfer.Steps ordered .empty T ∧ Linked cfg path w L T ∧ Busy w := by
  induction hrun with
  | init => exact ⟨_, _, .refl, .init, fun _ => List.cons_ne_nil _ _⟩
  | @step e w w' hrun hallowed hstep ih =>
    obtain ⟨hr, honce⟩ := server_of_reachable hrun
    obtain ⟨hnext_le, hfew_le⟩ := (onward_of_step honce hstep).le hr
    obtain ⟨L, T, hsteps, hI, hbusy⟩ := ih (hfew_le.trans_lt hfew) (hnext_le.trans hnext)
    obtain ⟨L', T', hsteps', hlinked⟩ := hI.step hpath hplain hr (hsteps.sound .empty)
      (hfew_le.trans_lt hfew) (hnext_le.trans hnext) hallowed hstep hbusy
    exact ⟨L', T', hsteps.trans hsteps', hlinked⟩

/-- What is related to something taken is related to something handed out. -/
lemma exists_of_mem {α β : Type} {R : α → β → Prop} {as : List α} {bs : List β} {a : α}
    (h : List.Forall₂ R as bs) (ha : a ∈ as) : ∃ b ∈ bs, R a b := by
  induction h with
  | nil => cases ha
  | cons hab _ ih =>
    rcases List.mem_cons.mp ha with rfl | ha
    · exact ⟨_, List.mem_cons_self, hab⟩
    · obtain ⟨b, hb, hR⟩ := ih ha
      exact ⟨b, List.mem_cons_of_mem _ hb, hR⟩

/-! ### A run of the page -/

/-- The path of a small application. -/
def chat : Bytes := str "/chat"

lemma chat_path : 0 ∉ chat ∧ question ∉ chat := by decide

lemma plain_smallConfig : Plain Server.smallConfig := nofun

/-- The page connects, and two messages come in. It asks twice for the first one, takes response
number `n` first, and then asks for the second one. -/
def chatRun (n : Nat) : List Event :=
  let arrives : Event := .arrive 0 0 none [] Server.stalledEnv
  let wakes : Event := .other Server.wakes
  [arrives, .receive 0 [] (str "0.1"), .other (Server.tells [7]), .other (Server.tells [8]),
    arrives, wakes, .send [5] (str "0.2"), arrives, wakes,
    .receive n [] (str "0.3"), .receive 0 [] (str "0.4"), arrives, wakes, .receive 0 [] (str "0.5")]

lemma chatRun_allowed (hn : ordered → n = 0) : ∀ e ∈ chatRun n, ∀ w, Allowed ordered e w := by
  have harrive : ∀ w, Allowed ordered (.arrive 0 0 none [] Server.stalledEnv) w := fun _ => trivial
  have hwakes : ∀ w, Allowed ordered (.other Server.wakes) w := fun _ _ _ => rfl
  have htells : ∀ m w, Allowed ordered (.other (Server.tells m)) w := fun _ _ _ _ => rfl
  have hreceive : ∀ {n rnd}, (ordered → n = 0) → IsRandom rnd →
      ∀ w, Allowed ordered (.receive n [] rnd) w := fun hn hrnd _ => ⟨hn, hrnd⟩
  have hsend : ∀ {rnd}, IsRandom rnd → ∀ w, Allowed ordered (.send [5] rnd) w := fun hrnd _ => hrnd
  simp only [chatRun, List.forall_mem_cons]
  exact ⟨harrive, hreceive (fun _ => rfl) (by decide), htells _, htells _, harrive, hwakes,
    hsend (by decide), harrive, hwakes, hreceive hn (by decide),
      hreceive (fun _ => rfl) (by decide),
    harrive, hwakes, hreceive (fun _ => rfl) (by decide), List.forall_mem_nil _⟩

/-- What the page has taken after such a run. -/
def taken (w : World) : List (Option Bytes × Bytes) × List Bytes × Bool × HybiId :=
  (w.page.handed, w.messages, w.page.closed, w.server.next)

variable (ordered) in
/-- The state after such a run. -/
lemma exists_of_chatRun (hn : ordered → n = 0) (hrun : (run (World.step Server.smallConfig chat)
      (chatRun n) (World.init Server.smallConfig chat)).map taken =
      .ok ([(some (str "1"), [7]), (some (str "2"), [8])], [[7], [8]], false, 1)) :
    ∃ w, ReachableVia (World.step Server.smallConfig chat) (Allowed ordered)
        (World.init Server.smallConfig chat) w ∧
      w.page.handed = [(some (str "1"), [7])] ++ [(some (str "2"), [8])] ∧
      w.messages = [[7], [8]] ∧ w.page.closed = false ∧ w.server.next = 1 := by
  obtain ⟨w, hw, hview⟩ := exists_of_run taken (chatRun_allowed hn) hrun
  simp only [taken, Prod.mk.injEq] at hview
  exact ⟨w, hw, hview⟩

/-! ### The guarantees -/

/-- In every run, whatever gets lost, late or overtaken, each message that the page hands out is a
message of its connection, with its number as id, and comes after the message before it. -/
theorem skips_nothing (hpath : 0 ∉ path ∧ question ∉ path) (hplain : Plain cfg)
    (hrun : ReachableVia (World.step cfg path) (Allowed False) (World.init cfg path) w)
    (hfew : w.messages.length < 2 ^ 31 - 1) (hnext : w.server.next ≤ 2 ^ 64)
    {pre post : List (Option Bytes × Bytes)} {x : Option Bytes × Bytes}
    (hx : w.page.handed = pre ++ x :: post) :
    ∃ k : Nat, x.1 = some (Logging.decimal ((k + 1 : Nat) : Int)) ∧ w.messages[k]? = some x.2 ∧
      (k = 0 ∨ ∃ y ∈ pre, y.1 = some (Logging.decimal (k : Int)) ∧
        w.messages[k - 1]? = some y.2) := by
  obtain ⟨L, T, hsteps, hI, -⟩ := linked_of_reachable hpath hplain hrun hfew hnext
  have hhanded := hI.kept.handed
  rw [hI.entries, hx] at hhanded
  have hbefore := List.forall₂_take_append _ _ _ hhanded
  obtain ⟨k, rest, ⟨hk, hid, hdata⟩, -, hdrop⟩ :=
    List.forall₂_cons_right_iff.mp (List.forall₂_drop_append _ _ _ hhanded)
  have htaken : T.taken = T.taken.take pre.length ++ k :: rest := by
    rw [← hdrop, List.take_append_drop]
  obtain ⟨-, hpred⟩ := (hsteps.sound .empty).gapless _ _ _ htaken
  obtain ⟨k, rfl⟩ := Nat.exists_eq_succ_of_ne_zero hk
  refine ⟨k, hid, hdata, hpred.imp (fun h => Nat.succ.inj h) fun hmem => ?_⟩
  obtain ⟨y, hy, -, hyid, hydata⟩ := exists_of_mem hbefore hmem
  exact ⟨y, hy, hyid, hydata⟩

/-- The second response is overtaken by the first one. -/
theorem skips_nothing_chat : ∃ w : World, (w.page.handed.map Prod.snd = [[7], [8]]) ∧
    ∃ k : Nat, some (str "2") = some (Logging.decimal ((k + 1 : Nat) : Int)) ∧
      w.messages[k]? = some [8] := by
  obtain ⟨w, hw, hhanded, hmessages, -, hnext⟩ :=
    exists_of_chatRun False (n := 1) nofun (by decide +kernel)
  obtain ⟨k, hid, hdata, -⟩ := skips_nothing chat_path plain_smallConfig hw
    (by rw [hmessages]; norm_num) (by rw [hnext]; norm_num) hhanded
  exact ⟨w, by rw [hhanded]; rfl, k, hid, hdata⟩

/-- In every run in which responses are not overtaken, the page hands out the messages of its
connection once each, in order and without a gap, with their numbers as ids. -/
theorem hands_out_in_order (hpath : 0 ∉ path ∧ question ∉ path) (hplain : Plain cfg)
    (hrun : ReachableVia (World.step cfg path) (Allowed True) (World.init cfg path) w)
    (hfew : w.messages.length < 2 ^ 31 - 1) (hnext : w.server.next ≤ 2 ^ 64) :
    w.page.handed.length ≤ w.messages.length ∧
    w.page.handed = (w.messages.take w.page.handed.length).mapIdx fun k m =>
      (some (Logging.decimal ((k + 1 : Nat) : Int)), m) := by
  obtain ⟨L, T, hsteps, hI, -⟩ := linked_of_reachable hpath hplain hrun hfew hnext
  have htaken := (hsteps.inOrder .empty).taken
  obtain ⟨hlen, hhanded⟩ := List.forall₂_iff_get.mp hI.kept.handed
  rw [hI.entries] at hhanded
  have hget : ∀ k (hk : k < w.page.handed.length),
      w.page.handed[k].1 = some (Logging.decimal ((k + 1 : Nat) : Int)) ∧
        w.messages[k]? = some w.page.handed[k].2 := by
    intro k hk
    have hk' : k < T.taken.length := hlen ▸ hk
    obtain ⟨-, hid, hdata⟩ := hhanded k hk' hk
    have hnumber : T.taken.get ⟨k, hk'⟩ = k + 1 := by
      have hrange : T.taken[k]? = some (1 + 1 * k) := by
        rw [htaken]
        exact List.getElem?_range' hk'
      rw [List.getElem?_eq_getElem hk', Nat.one_mul, Nat.add_comm] at hrange
      exact Option.some.inj hrange
    rw [hnumber] at hid hdata
    exact ⟨hid, hdata⟩
  refine ⟨?_, List.ext_getElem? fun k => ?_⟩
  · by_contra hmore
    obtain ⟨-, hdata⟩ := hget w.messages.length (Nat.not_le.mp hmore)
    rw [List.getElem?_eq_none le_rfl] at hdata
    cases hdata
  · rw [List.getElem?_mapIdx]
    rcases Nat.lt_or_ge k w.page.handed.length with hk | hk
    · obtain ⟨hid, hdata⟩ := hget k hk
      rw [List.getElem?_take_of_lt hk, hdata, List.getElem?_eq_getElem hk, Option.map_some, ← hid]
    · rw [List.getElem?_eq_none hk, List.getElem?_take_eq_none hk]
      rfl

/-- The page hands out both messages. -/
theorem hands_out_in_order_chat : ∃ w : World, w.page.handed.length = 2 ∧
    w.page.handed = (w.messages.take w.page.handed.length).mapIdx fun k m =>
      (some (Logging.decimal ((k + 1 : Nat) : Int)), m) := by
  obtain ⟨w, hw, hhanded, hmessages, -, hnext⟩ :=
    exists_of_chatRun True (n := 0) (fun _ => rfl) (by decide +kernel)
  refine ⟨w, by rw [hhanded]; rfl, ?_⟩
  exact (hands_out_in_order chat_path plain_smallConfig hw (by rw [hmessages]; norm_num)
    (by rw [hnext]; norm_num)).2

/-- In every run, the page counts the requests that have not come to an end, and as long as none of
them has failed there is one, so it never waits for nothing. -/
theorem never_stalls (hpath : 0 ∉ path ∧ question ∉ path) (hplain : Plain cfg)
    (hrun : ReachableVia (World.step cfg path) (Allowed False) (World.init cfg path) w)
    (hfew : w.messages.length < 2 ^ 31 - 1) (hnext : w.server.next ≤ 2 ^ 64) :
    w.page.nrequests = w.underway.length ∧ (w.page.closed = false → w.underway ≠ []) := by
  obtain ⟨L, T, -, hI, hbusy⟩ := linked_of_reachable hpath hplain hrun hfew hnext
  exact ⟨hI.kept.nrequests, hbusy⟩

/-- The page still asks after it has taken both messages. -/
theorem never_stalls_chat : ∃ w : World, w.page.handed.length = 2 ∧ w.underway ≠ [] := by
  obtain ⟨w, hw, hhanded, hmessages, hclosed, hnext⟩ :=
    exists_of_chatRun False (n := 1) nofun (by decide +kernel)
  refine ⟨w, by rw [hhanded]; rfl, ?_⟩
  exact (never_stalls chat_path plain_smallConfig hw (by rw [hmessages]; norm_num)
    (by rw [hnext]; norm_num)).2 hclosed

end Page

end Zerogw
