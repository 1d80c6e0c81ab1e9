import Zerogw.Server.LongPoll

/-!
# Runs of the server

The invariant holds in every state a run reaches, and what every move keeps, unless it is marked, is
kept by every run without the inputs that lead to the marked moves.
-/

namespace Zerogw

open Execution

namespace Server

variable {cfg : Config} {s s' : Server} {h : HybiId} {r : ReqId} {C : Input → Server → Prop}

lemma Core.init (cfg : Config) : (Server.init cfg).Core cfg := by
  have hdead : ∀ k h, ¬ (Server.init cfg).sieve.Holds k h := by
    intro k h hk
    simp only [Server.init, Sieve.prepare, Sieve.Holds, List.getElem?_replicate] at hk
    split_ifs at hk
    cases hk
  have howned : (Server.init cfg).owned = fun _ => 0 := rfl
  refine ⟨by simp [Server.init, Sieve.prepare, Sieve.max], fun k h hk => absurd hk (hdead k h),
    fun _ hh => absurd hh (Nat.not_lt_zero _), fun _ _ => ⟨rfl, rfl⟩, ?_, fun k m hm => ?_,
    Backend.InOrder.init _, fun _ hh => absurd hh (Nat.not_lt_zero _), Topics.Tidy.init,
    fun i sub hi => ?_, fun p hp => ?_, Outputs.WF.init, fun o e he => ?_, fun o e he => ?_⟩
  · rw [howned]
    exact .init _
  · cases hm
  · simp [Server.init, Topics.init] at hi
  · have hempty : p ∈ (∅ : Topics.Roster) := Topics.pairs_init ▸ hp
    exact absurd hempty (Set.notMem_empty p)
  · simp [Server.init, Outputs.init] at he
  · simp [Server.init, Outputs.init] at he

lemma Sound.init (cfg : Config) : (Server.init cfg).Sound cfg := by
  refine ⟨.init cfg, ⟨fun h r => ?_, fun r hr => ?_, fun r hr => ?_, fun _ _ => rfl⟩, fun h => ?_,
    fun r => ?_⟩
  · simp [Server.init, Polling.init, Polling.noComet, Polling.noRequest, Request.ParkedAt]
  · simp [Server.init, Polling.init, Polling.noRequest] at hr
  · simp [Server.init, Polling.init, Polling.noRequest] at hr
  · exact ⟨fun _ => rfl, fun _ => rfl, fun _ => quiet_noComet, fun _ => Or.inl quiet_noComet,
      isInt_zero, le_rfl, fun hn => absurd rfl hn, fun _ ht => by cases ht⟩
  · refine ⟨?_, le_rfl⟩
    simp [Server.init, Polling.init, Polling.noRequest, Request.owed, taken, Backend.init]

/-- A successful step is a path. -/
lemma path_of_step {i : Input} (hs : s.Sound cfg) (hstep : step cfg i s = .ok s') :
    Path cfg i.env (Shows cfg i s) (none, s) (none, s') := by
  have hspec := step_spec hs i
  rw [hstep] at hspec
  exact hspec

/-- The invariant holds in every reachable state. -/
theorem sound_of_reachable (hr : ReachableVia (step cfg) C (init cfg) s) : s.Sound cfg :=
  hr.invariant (.init cfg) fun _ _ _ _ hs hstep => (path_of_step hs hstep).sound hs

/-- What all moves keep except those with a bad mark holds in every run that avoids the inputs that
lead to these. -/
theorem keeps_of_reachable (bad : Mark → Prop) (I : Option HybiId → Server → Prop)
    (hC : ∀ i s x, C i s → bad x → ¬ Shows cfg i s x) (h₀ : I none (init cfg))
    (hI : ∀ env allow w s w' s', (∀ x, bad x → ¬ allow x) → s.Sound cfg → s'.Sound cfg →
      Move cfg env allow w s w' s' → I w s → I w' s')
    (hr : ReachableVia (step cfg) C (init cfg) s) : I none s := by
  refine hr.invariant_of (fun _ => sound_of_reachable) h₀ fun i s s' hCi hs hIs hstep => ?_
  exact ((path_of_step hs hstep).keeps hs (fun w s w' s' =>
    hI i.env _ w s w' s' fun x hx => hC i _ x hCi hx) hIs).2

/-! ### Connections keep their slots -/

/-- While no stopped connection is stopped again, no running connection loses its slot. -/
lemma Move.intact {env : Env} {allow : Mark → Prop} {w w' : Option HybiId} (hs : s.Sound cfg)
    (hm : Move cfg env allow w s w' s') (hi : s.Intact)
    (hrun : ∀ h, allow (.restops h) → (s.polling.comet h).inactivity = true → s.Running h) :
    s'.Intact := by
  cases hm with
  | polling => exact hi
  | other hact =>
    intro g hg
    exact (hact.same.live g).mpr (hi g ((hact.same.running g).mp hg))
  | pushed => exact hi
  | offered => exact hi
  | @gone h P l _ ha hr hP hlog hst =>
    have hlive : s.Live h := hi h (hr.elim id fun hn => hrun h hn.1 hn.2.2)
    intro g hg
    obtain ⟨hg, hne⟩ := hst.running_iff.mp hg
    exact (hst.live_iff hlive).mpr ⟨hi g hg, hne⟩
  | started ha hst => exact hst.intact hs.core hi
  | unstarted ha hst => exact hst.intact hs.core hi
  | tables => exact hi
  | settled => exact hi

lemma intact_of_reachable (hC : ∀ i s, C i s → ¬ Restops i s)
    (hr : ReachableVia (step cfg) C (init cfg) s) : s.Intact :=
  keeps_of_reachable (fun x => ∃ h, x = .restops h) (fun _ s => s.Intact)
    (by rintro i s x hCi ⟨h, rfl⟩ hx; exact hC i s hCi ⟨h, hx⟩) (fun _ hh => by cases hh.1)
    (fun _ _ _ _ _ _ hallow hs _ hm hi =>
      hm.intact hs hi fun h ha => absurd ha (hallow _ ⟨h, rfl⟩)) hr

/-- The connections in the sieve are then those that have started and not been stopped. -/
lemma Core.live_iff_running (hs : s.Core cfg) (hi : s.Intact) : s.Live h ↔ s.Running h :=
  ⟨hs.running, hi h⟩

/-! ### A small server -/

/-- A route with frontend commands whose long-poll queues hold two messages. -/
def smallRoute : RouteConf where
  frontendCommands := true
  pausedCommand := false
  allowOrigins := []
  accessControlMaxAge := str "3600"
  headers := []
  timestamps := false
  queueLimit := 2
  topicHashSize := 4
  maxBackendQueue := 2
  namedOutputs := [str "chat"]
  queueLimit_ge := by decide
  queueLimit_le := by decide
  topicHashSize_ge := by decide
  topicHashSize_le := by decide
  maxBackendQueue_le := by decide

/-- A server whose routes are all small. Its random bytes are zero, and so are those of every
connection; `md5` is their digest. -/
def smallConfig : Config where
  route _ := smallRoute
  instanceId := List.replicate 16 0
  randomData := List.replicate 16 0
  md5 _ := [22, 129, 255, 198, 224, 70, 199, 175, 152, 201, 230, 194, 50, 163, 254, 10]
  maxWebsockets := 4
  instanceId_length := by decide
  maxWebsockets_ge := by decide
  maxWebsockets_le := by decide

/-- ZeroMQ takes nothing for now. -/
def stalledEnv : Env where
  outcomes := []
  full _ := false
  now := str ":1355788800.000"
  timestamp := str "1355788800.000000"
  waitTime _ := str "0.000000"
  random := List.replicate 8 0
  random_length := by decide

/-- The id of the first connection of the small server. -/
def firstUid : Bytes := List.replicate 40 0

/-- A request for a new long-poll connection. -/
def connectArgs : CometArgs :=
  ⟨.connect, firstUid, 0, .single, .single, 0, Or.inr (Or.inl rfl), rfl, by decide, isInt_zero⟩

/-- A request on the first connection. -/
def pollArgs (ack limit : Fin 4) (inFormat outFormat : Format) : CometArgs where
  action := .unknown
  uid := firstUid
  lastMessage := ack
  inFormat := inFormat
  outFormat := outFormat
  limit := limit
  action_parsed := Or.inl rfl
  uid_length := rfl
  lastMessage_lt := by omega
  limit_isInt := ⟨by omega, by omega⟩

/-- A long-poll request arrives. -/
def arrives (args : CometArgs) (body : Bytes) : Input :=
  ⟨.cometRequest 0 (str "POST") body none [] (some args), stalledEnv⟩

/-- A backend sends a message to the first connection. -/
def tells (m : Bytes) : Input := ⟨.command 0 [str "send", firstUid, m], stalledEnv⟩

/-- The id of the second one. -/
def secondUid : Bytes :=
  List.replicate 16 0 ++ 1 :: List.replicate 7 0 ++ 1 :: List.replicate 15 0

/-- The id of the connection that gets the first slot after the first connection. -/
def fifthUid : Bytes := List.replicate 24 0 ++ 4 :: List.replicate 15 0

/-- A long-poll client closes its own full connection with a frontend command, gives up the request
that is parked there all the same, and the fourth websocket gets the slot: the inactivity timer of
the stopped connection runs. -/
def slotReused : List Input :=
  [arrives connectArgs [], tells [1], tells [2],
    arrives (pollArgs 0 3 .single .single) (str "ZEROGW:echo"), ⟨.requestFinish 1, stalledEnv⟩,
    ⟨.websockStart 0, stalledEnv⟩, ⟨.websockStart 0, stalledEnv⟩, ⟨.websockStart 0, stalledEnv⟩,
    ⟨.websockStart 0, stalledEnv⟩]

/-- A state that the small server reaches on given inputs. -/
lemma exists_of_small_run {α : Type} (is : List Input) (view : Server → α) (a : α)
    (hC : ∀ i ∈ is, ∀ s, C i s)
    (hrun : (run (step smallConfig) is (init smallConfig)).map view = .ok a) :
    ∃ s, ReachableVia (step smallConfig) C (init smallConfig) s ∧ view s = a :=
  exists_of_run view hC hrun

end Server

end Zerogw
