import Zerogw.Server.Broadcast
import Zerogw.Server.Moves

/-!
# Handlers as sequences of moves

What the handlers of websockets and backend commands do, as moves of the server: starting and
stopping connections, sends, lookups, and messages of the clients.
-/

namespace Zerogw

open Execution

namespace Server

variable {cfg : Config} {env : Env} {s s' : Server} {h g : HybiId} {r : ReqId} {m : Bytes}
  {allow : Mark → Prop} {w w' : Option HybiId} {k : SockId}

/-! ### Single moves -/

lemma Path.single (hm : Move cfg env allow w s w' s') (hcore : s'.Core cfg) :
    Path cfg env allow (w, s) (w', s') :=
  Relation.ReflTransGen.single ⟨hm, hcore⟩

lemma Path.polling {P : Polling} (hs : s.Core cfg) (hP : PollMove cfg allow s w P w') :
    Path cfg env allow (w, s) (w', { s with polling := P }) :=
  .single (.polling hP) (hs.withPolling P)

lemma Core.switched (hs : s.Core cfg) (paused : Bool) (outcomes : List SendResult)
    (memory : List Bool) : Core cfg { s with backend :=
      { s.backend with paused := paused, outcomes := outcomes, memory := memory } } :=
  hs.withBackend (hs.counts.of_eq rfl rfl) (hs.inOrder.of_eq rfl rfl) hs.entries

/-- Websockets are paused or resumed, or ZeroMQ and the allocator are going to answer
differently. -/
lemma Path.switched (hs : s.Core cfg) (paused : Bool) (outcomes : List SendResult)
    (memory : List Bool) : Path cfg env allow (w, s) (w, { s with backend :=
      { s.backend with paused := paused, outcomes := outcomes, memory := memory } }) :=
  .single (.other (.switched paused outcomes memory)) (hs.switched paused outcomes memory)

variable (env w) in
/-- Stopping a websocket. -/
lemma hybiStop_path (ha : allow (.acts (s.info h).route)) (hs : s.Core cfg) (hr : s.Running h)
    (ht : (s.info h).type = .websocket) :
    Ends (fun f => f = .assertion .sieveEmpty ∧ ¬ s.Live h)
      (fun s' => Path cfg env allow (w, s) (w, s')) (hybiStop h s) :=
  (hybiStop_spec hs (hs.lt_next hr) (hs.refcnt_ne_zero hr)).mono (fun _ => id)
    fun _ ⟨hcore, hst⟩ => .single (.gone ha (Or.inl hr) (Or.inl ⟨ht, rfl⟩) (Or.inl rfl) hst) hcore

variable (env w) in
/-- Closing a live comet. -/
lemma cometClose_path (ha : allow (.acts (s.info h).route)) (hs : s.Core cfg)
    (hl : s.Live h) (ht : (s.info h).type = .comet) :
    ∃ s', cometClose cfg env h s = .ok s' ∧ Path cfg env allow (w, s) (w, s') ∧ ¬ s'.Running h := by
  obtain ⟨s', hclose, hcore, hst⟩ := cometClose_ok env hs hl
  exact ⟨s', hclose,
    .single (.gone ha (Or.inl (hs.running hl)) (Or.inr ⟨ht, rfl⟩) (Or.inl rfl) hst) hcore,
    fun hr => (hst.running_iff.mp hr).2 rfl⟩

/-! ### Sends -/

lemma Delivered.path (ha : allow (.acts (s.info h).route)) (hd : Delivered cfg env h m s s') :
    Path cfg env allow (w, s) (w, s') := by
  by_cases hc : Closes env s h
  · refine Path.single (.gone (h := h) (P := pollingAfter cfg env s h m) ha (Or.inl hd.running) ?_
      (Or.inr ⟨m, rfl⟩) (hd.goes hc)) hd.core
    cases ht : (s.info h).type with
    | websocket => exact Or.inl ⟨rfl, by simp only [pollingAfter, ht]⟩
    | comet => exact Or.inr ⟨rfl, by simp only [pollingAfter, ht, if_pos hc]⟩
  · have hstays := hd.stays hc
    have hcore := hd.core
    rw [hstays] at hcore ⊢
    cases ht : (s.info h).type with
    | websocket =>
      have hsent : sent cfg env s h m = { s with sends := s.sends ++ [(h, m)] } := by
        simp only [sent, pollingAfter, ht]
      rw [hsent] at hcore ⊢
      exact .single (.other (.told ha hd.running ht)) hcore
    | comet =>
      have hsent : sent cfg env s h m = { s with
          sends := s.sends ++ [(h, m)], polling := s.polling.push h m } := by
        simp only [sent, pollingAfter, ht, if_neg hc]
      rw [hsent] at hcore ⊢
      exact .single (.pushed ha hd.running ht (by simpa only [Closes, ht, Nat.not_le] using hc))
        hcore

lemma Deliveries.path {l : List (HybiId × Bytes)} (hd : Deliveries cfg env l s s')
    (ha : ∀ p ∈ l, allow (.acts (s.info p.1).route)) : Path cfg env allow (w, s) (w, s') := by
  induction hd with
  | nil => exact .refl
  | cons hd _ ih =>
    refine (hd.path (ha _ List.mem_cons_self)).trans (ih fun p hp => ?_)
    rw [hd.info_eq]
    exact ha p (by simp [hp])

/-! ### Lookups -/

/-- Faults from memory that the handlers touch, as opposed to failed assertions. -/
def Memory (f : Fault) : Prop := f = .useAfterFree ∨ f = .closedMessage ∨ f = .outOfBounds

/-- `hybi_find` reads nothing behind the id or behind the sieve. -/
structure InBounds (data : Bytes) (s : Server) : Prop where
  slot : iidLen + 8 ≤ data.length
  hole : uidHole data ≠ s.sieve.max
  uid : ∀ h, s.sieve.Holds (uidHole data) h → uidLen ≤ data.length

/-- `hybi_find` finds live connections by their id, and fails only if it reads out of bounds. -/
lemma hybiFind_spec (hs : s.Core cfg) (data : Bytes) :
    Ends (fun f => Memory f ∧ ¬ s.InBounds data)
      (fun o => ∀ h, o = some h → s.Live h ∧ (s.info h).uid = data.take uidLen)
      (s.hybiFind data) := by
  rw [hybiFind]
  by_cases hlen : data.length < iidLen + 8
  · rw [if_pos hlen]
    exact ⟨Or.inr (Or.inr rfl), fun hb => absurd hb.slot (Nat.not_le.mpr hlen)⟩
  · rw [if_neg hlen]
    cases hget : s.sieve.get (uidHole data) with
    | error f =>
      obtain rfl := Sieve.get_eq_error hget
      refine ⟨Or.inr (Or.inr rfl), fun hb => ?_⟩
      obtain ⟨o, hok, -⟩ := Sieve.get_eq_ok hb.hole
      cases hok.symm.trans hget
    | ok o =>
      rw [ok_bind]
      cases o with
      | none => exact fun h hn => by cases hn
      | some h =>
        have hl : s.Live h := hs.live_iff.mpr ⟨_, Sieve.holds_of_get hget⟩
        simp only [hs.deref_eq (hs.running hl), ok_bind]
        split_ifs with hlen' huid
        · refine ⟨Or.inr (Or.inr rfl), fun hb => ?_⟩
          exact absurd (hb.uid h (Sieve.holds_of_get hget)) (Nat.not_le.mpr hlen')
        · rintro g ⟨⟩
          exact ⟨hl, huid⟩
        · rintro g ⟨⟩

/-- The id of a live connection leads to it. -/
lemma hybiFind_of_live (hs : s.Core cfg) (hl : s.Live h) {data : Bytes}
    (hlen : data.length = uidLen) (huid : (s.info h).uid = data) :
    s.hybiFind data = .ok (some h) := by
  have hslot : uidHole data = s.slot h := by rw [slot, huid]
  have hget : s.sieve.get (uidHole data) = .ok (some h) := hslot ▸ Sieve.get_of_holds hl
  have hlt : ¬ data.length < iidLen + 8 := by
    rw [hlen]
    decide
  rw [hybiFind, if_neg hlt, hget, ok_bind]
  simp only [hs.deref_eq (hs.running hl), ok_bind]
  rw [if_neg (by omega), if_pos (by rw [huid, List.take_of_length_le (by omega)])]
  rfl

/-! ### Messages of the clients -/

/-- The message is a frontend command that the server answers itself. -/
def answersSelf (conf : RouteConf) (data : Bytes) : Bool :=
  conf.frontendCommands && data.length ≥ 8 && data.take 7 == str "ZEROGW:" &&
    (data.length ≥ 11 && (data.drop 7).take 4 == str "echo" ||
      data.length ≥ 16 && (data.drop 7).take 9 == str "timestamp")

/-- The message is no frontend command, so that `websock_resolve` names a socket for it. -/
def isForwarded (conf : RouteConf) (data : Bytes) : Bool :=
  !(conf.frontendCommands && data.length ≥ 8 && data.take 7 == str "ZEROGW:")

/-- The socket `websock_resolve` names for a message of connection `h`. -/
def resolved (h : HybiId) (data : Bytes) (s : Server) : SockId :=
  let item := (s.outputs.clients h).find? fun o =>
    (s.outputs.out.get o).any fun e =>
      e.pre.length ≤ data.length && strncmpEq e.pre.length data e.pre
  (item.bind s.outputs.socketOf).getD (.forward (s.info h).route)

lemma resolved_route (hs : s.Core cfg) (data : Bytes) :
    (s.resolved h data).route = (s.info h).route := by
  rw [resolved]
  cases hitem : (s.outputs.clients h).find? _ with
  | none => rfl
  | some o =>
    obtain ⟨e, he, rfl⟩ := (hs.outputs.clients h o).mp (List.mem_of_find?_eq_some hitem)
    obtain ⟨i, hnamed⟩ := hs.outputsNamed o e he
    simp only [Option.bind_some, Outputs.socketOf, he, Option.map_some, Option.getD_some, hnamed]
    rfl

/-- What `websock_resolve` does for a running connection: it names a socket, ignores a frontend
command, or answers one. -/
inductive Resolved (cfg : Config) (env : Env) (h : HybiId) (data : Bytes) (s : Server) :
    Option SockId → Server → Prop
  | socket (hforward : isForwarded (cfg.route (s.info h).route) data = true) :
      Resolved cfg env h data s (some (s.resolved h data)) s
  | ignored : Resolved cfg env h data s none s
  | answered {m : Bytes} {s' : Server}
      (hself : answersSelf (cfg.route (s.info h).route) data = true)
      (hd : Delivered cfg env h m s s') : Resolved cfg env h data s none s'

variable (env) in
/-- `websock_resolve` of a running connection fails only if its answer closes a connection whose
slot is empty. -/
lemma websockResolve_spec (hs : s.Core cfg) (hr : s.Running h) (data : Bytes) :
    Ends (fun f => f = .assertion .sieveEmpty ∧ ¬ s.Live h)
      (fun res => Resolved cfg env h data s res.1 res.2) (websockResolve cfg env h data s) := by
  rw [websockResolve, hs.deref_eq hr, ok_bind]
  split_ifs with hcmd hecho htime
  · refine (doSend_spec env hs hr data).bind fun s' hd => .ok (.answered ?_ hd)
    simp [answersSelf, hcmd, hecho]
  · refine (doSend_spec env hs hr (data ++ env.now)).bind fun s' hd => .ok (.answered ?_ hd)
    simp [answersSelf, hcmd, htime]
  · exact .ok .ignored
  · refine .ok (.socket ?_)
    rw [isForwarded, Bool.not_eq_true', ← Bool.not_eq_true]
    simpa using hcmd

variable (env) in
/-- `websock_resolve` of a live connection never fails. -/
lemma websockResolve_ok (hs : s.Core cfg) (hl : s.Live h) (data : Bytes) :
    ∃ o s', websockResolve cfg env h data s = .ok (o, s') ∧ Resolved cfg env h data s o s' := by
  obtain ⟨⟨o, s'⟩, hok, hres⟩ := (websockResolve_spec env hs (hs.running hl) data).exists_ok
    fun _ hf => hf.2 hl
  exact ⟨o, s', hok, hres⟩

variable (env w) in
/-- A message from an open websocket. -/
lemma websockMessage_path (ha : allow (.acts (s.info h).route)) (hs : s.Core cfg)
    (hr : s.Running h) (data : Bytes) :
    Ends (fun f => f = .assertion .sieveEmpty ∧ ¬ s.Live h)
      (fun s' => Path cfg env allow (w, s) (w, s')) (websockMessage cfg env h data s) := by
  rw [websockMessage]
  refine (websockResolve_spec env hs hr data).bind fun ⟨o, s₁⟩ hres => ?_
  dsimp only at hres
  cases hres with
  | socket hforward =>
    obtain ⟨status, b, hsend, hcore, hpost, -⟩ :=
      hs.backendSend (m := ⟨h, .message data⟩) hr (s.resolved h data) false
    simp only [hsend, ok_bind]
    exact .ok (.single (.other (.posted ha hr (resolved_route hs data) hpost)) hcore)
  | ignored => exact .ok .refl
  | answered hself hd => exact .ok (hd.path ha)

end Server

end Zerogw
