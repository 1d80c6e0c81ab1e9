import Zerogw.Server.Runs

/-!
# Who is told

Broadcasts reach every subscriber or every connection of a route once, although the sends close
connections on the way. Disconnect notices reach the sockets of a stopped connection, unless a queue
is at its limit.
-/

namespace Zerogw

open Execution

namespace Server

variable {cfg : Config} {s s' : Server} {h g : HybiId} {m : Bytes}

/-! ### Broadcasts -/

/-- The same message goes to all recipients, once to each. Connections that are closed by the
message to them are gone afterwards, together with their subscriptions and outputs, and nothing else
is. -/
structure Broadcast (env : Env) (recipients : List HybiId) (m : Bytes) (s s' : Server) : Prop where
  once : recipients.Nodup
  sends : s'.sends = s.sends ++ toAll m recipients
  running : ∀ g, s'.Running g ↔ s.Running g ∧ ¬ (g ∈ recipients ∧ Closes env s g)
  live : ∀ g, s'.Live g ↔ s'.Running g
  subs : ∀ i sub, s'.topics.sub.get i = some sub ↔
    s.topics.sub.get i = some sub ∧ s'.Running sub.connection
  outputs : ∀ o e, s'.outputs.out.get o = some e ↔
    s.outputs.out.get o = some e ∧ s'.Running e.connection

lemma Deliveries.broadcast {env : Env} {recipients : List HybiId} (hs : s.Core cfg)
    (hi : s.Intact) (hd : Deliveries cfg env (toAll m recipients) s s')
    (hnodup : recipients.Nodup) : Broadcast env recipients m s s' where
  once := hnodup
  sends := hd.sends_eq
  running g := by
    have hrunning := hd.running_iff (g := g) (by rwa [map_fst_toAll])
    rwa [map_fst_toAll] at hrunning
  live _ := (hd.core hs).live_iff_running (hd.intact hi)
  subs := hd.subs_iff hs
  outputs := hd.outputs_iff hs

/-- In every run in which no stopped connection is stopped again by its inactivity timer,
`topic_publish` calls `do_send` once for every connection that is subscribed to the topic, and
`send_all` once for every connection of the route that has started and not been stopped. Neither
fails, whatever connections the sends close. -/
theorem broadcasts_reach_all
    (hr : ReachableVia (step cfg) (fun i s => ¬ Restops i s) (init cfg) s) (env : Env) (m : Bytes) :
    (∀ t, ∃ s' recipients, topicPublish cfg env t m s = .ok s' ∧
      (∀ g, g ∈ recipients ↔
        ∃ i sub, s.topics.sub.get i = some sub ∧ sub.topic = t ∧ sub.connection = g) ∧
      Broadcast env recipients m s s') ∧
    ∀ r, ∃ s' recipients, sendAll cfg env r m s = .ok s' ∧
      (∀ g, g ∈ recipients ↔ s.Running g ∧ (s.info g).route = r) ∧
      Broadcast env recipients m s s' := by
  have hcore := (sound_of_reachable hr).core
  have hi := intact_of_reachable (fun _ _ hC => hC) hr
  constructor
  · intro t
    obtain ⟨s', hpub, hd⟩ := topicPublish_ok env (t := t) (m := m) hcore hi
    exact ⟨s', s.audience t, hpub, fun g => mem_audience hcore,
      hd.broadcast hcore hi (nodup_audience hcore)⟩
  · intro r
    obtain ⟨s', hsend, hd⟩ := sendSelected_ok env (p := fun hybi => hybi.route = r) (m := m) hcore
    refine ⟨s', s.selected fun hybi => hybi.route = r, hsend, fun g => ?_,
      hd.broadcast hcore hi (nodup_selected hcore)⟩
    rw [mem_selected hcore, decide_eq_true_eq, hcore.live_iff_running hi]

/-- A subscriber whose queue is full gets the message once more, and is gone. -/
theorem broadcasts_reach_full_queue : ∃ s s' : Server,
    topicPublish smallConfig stalledEnv 0 [3] s = .ok s' ∧ (0, [3]) ∈ s'.sends ∧
      ¬ s'.Running 0 := by
  obtain ⟨s, hr, hview⟩ := exists_of_small_run (C := fun i s => ¬ Restops i s)
    [arrives connectArgs [], ⟨.command 0 [str "subscribe", firstUid, str "news"], stalledEnv⟩,
      tells [1], tells [2]]
    (fun s => (s.topics.sub.get 0, decide (Closes stalledEnv s 0))) (some ⟨0, 0⟩, true)
    (fun i hi s hC => by
      obtain ⟨h, hevent, -⟩ := hC
      simp only [List.mem_cons, List.not_mem_nil, or_false] at hi
      obtain rfl | rfl | rfl | rfl := hi <;> cases hevent) rfl
  simp only [Prod.mk.injEq, decide_eq_true_eq] at hview
  obtain ⟨hsub, hcloses⟩ := hview
  obtain ⟨s', recipients, hpub, hmem, hB⟩ := (broadcasts_reach_all hr stalledEnv [3]).1 0
  have hin : 0 ∈ recipients := (hmem 0).mpr ⟨0, _, hsub, rfl, rfl⟩
  refine ⟨s, s', hpub, ?_, fun hl => ((hB.running 0).mp hl).2 ⟨hin, hcloses⟩⟩
  rw [hB.sends, List.mem_append]
  exact Or.inr (List.mem_map.mpr ⟨0, hin, rfl⟩)

/-- A stopped connection that is stopped again empties the slot of another one. A message to its
topic that closes that one fails an assertion, and a message to all does not reach it. -/
theorem broadcast_misses_evicted :
    (¬ ∀ (cfg : Config) (s : Server), Reachable (step cfg) (init cfg) s → ∀ env t m,
      ∃ s', topicPublish cfg env t m s = .ok s') ∧
    ¬ ∀ (cfg : Config) (s : Server), Reachable (step cfg) (init cfg) s → ∀ env r m g,
      s.Running g → (s.info g).route = r →
        ∃ s', sendAll cfg env r m s = .ok s' ∧ (g, m) ∈ s'.sends := by
  obtain ⟨s, hr, hview⟩ := exists_of_small_run (C := fun _ _ => True)
    (slotReused ++ [⟨.command 0 [str "subscribe", fifthUid, str "news"], stalledEnv⟩,
      ⟨.inactivityTimeout 0, stalledEnv⟩])
    (fun s => (decide (s.Running 4), (s.info 4).route,
      (topicPublish smallConfig { stalledEnv with full := fun h => h = 4 } 0 [3] s).map fun _ => (),
      (sendAll smallConfig stalledEnv 0 [3] s).map fun s' : Server => decide ((4, [3]) ∈ s'.sends)))
    (true, 0, .error (.assertion .sieveEmpty), .ok false) (fun _ _ _ => trivial) rfl
  simp only [Prod.mk.injEq, decide_eq_true_eq] at hview
  obtain ⟨hrunning, hroute, hpub, hall⟩ := hview
  constructor
  · intro hpublished
    obtain ⟨s', hs'⟩ := hpublished smallConfig s hr { stalledEnv with full := fun h => h = 4 } 0 [3]
    rw [hs'] at hpub
    cases hpub
  · intro hreached
    obtain ⟨s', hs', hmem⟩ := hreached smallConfig s hr stalledEnv 0 [3] 4 hrunning hroute
    rw [hs', Except.map, Except.ok.injEq, decide_eq_false_iff_not] at hall
    exact hall hmem

/-! ### The limit of the backend queues -/

/-- While memory lasts, `backend_send` keeps to the limit exactly while there is room. In a run in
which calls that cannot send find room, nothing is refused and no queue exceeds the limit. And when
a connection is stopped, the notice for each of its sockets is sent or queued exactly if there is
room, or if ZeroMQ takes it. -/
theorem queue_limit_iff_room (cfg : Config) (s : Server) (hr : Reachable (step cfg) (init cfg) s) :
    (∀ render k m force, s.backend.refcnt m.hybi ≠ 0 → false ∉ s.backend.memory →
      Backend.Stalled k s.backend →
      (Backend.LimitRule render k m force s.backend ↔
        (s.backend.socks k).queue.length < (s.backend.socks k).capacity)) ∧
    (∀ capacity b, ReachableVia Backend.step Backend.HasRoom (Backend.init capacity) b →
      Backend.WithinLimit b) ∧
    ∀ h, s.Live h → false ∉ s.backend.memory →
      ∃ s' cs, hybiStop h s = .ok s' ∧ s'.backend.calls = s.backend.calls ++ cs ∧
        ∀ k, (k = .forward (s.info h).route ∨ ∃ pre, s.outputs.mapping h pre = some k) →
          ∃ status, ⟨k, ⟨h, .disconnect⟩, true, status⟩ ∈ cs ∧
            (s.backend.paused = true ∨ (s.backend.socks k).queue ≠ [] ∨
              0 < (s.backend.socks k).capacity →
              (status ≠ .refused ↔
                (s.backend.socks k).queue.length < (s.backend.socks k).capacity)) := by
  refine ⟨fun render k m force hm hmemory hst => Backend.limitRule_iff hm hst hmemory,
    fun capacity b hb => Backend.withinLimit_of_hasRoom hb, fun h hl hmemory => ?_⟩
  have hcore := (sound_of_reachable hr).core
  obtain ⟨s', hstop, -, hst⟩ := hybiStop_ok hcore hl
  obtain ⟨cs, hcalls, hcs, hlim⟩ := hst.notices
  refine ⟨s', cs, hstop, hcalls, fun k hk => ?_⟩
  have hmem := List.mem_map_of_mem (f := fun k => (k, (⟨h, .disconnect⟩ : BackendMsg), true))
    ((mem_noticeSocks hcore).mpr hk)
  rw [← hcs, List.mem_map] at hmem
  obtain ⟨c, hc, heq⟩ := hmem
  simp only [Prod.mk.injEq] at heq
  obtain ⟨rfl, hm, hf⟩ := heq
  refine ⟨c.status, by rwa [← hm, ← hf], fun hdecided => ?_⟩
  rw [Ne, hlim c hc hmemory hdecided, hf, eq_self_iff_true, true_and, Nat.not_le]

/-- While websockets are paused and one message waits in a queue of the small server, a message and
the notice of a stopped connection are accepted. -/
theorem queue_limit_iff_room_pause :
    (∃ b : Backend, b.paused = true ∧ Backend.WithinLimit b) ∧
    ∃ s s' : Server, Backend.LimitRule (fun _ => []) (.forward 0) ⟨0, .connect⟩ false s.backend ∧
      hybiStop 0 s = .ok s' ∧
      ∃ c ∈ s'.backend.calls, c.msg = ⟨0, .disconnect⟩ ∧ c.status ≠ .refused := by
  obtain ⟨s, hr, hview⟩ := exists_of_small_run (C := fun _ _ => True)
    [⟨.pause true, stalledEnv⟩, ⟨.websockStart 0, stalledEnv⟩]
    (fun s => (decide (s.Live 0), (s.info 0).route, decide (s.backend.refcnt 0 ≠ 0),
      s.backend.paused, decide (false ∉ s.backend.memory),
      ((s.backend.socks (.forward 0)).queue.length, (s.backend.socks (.forward 0)).capacity)))
    (true, 0, true, true, true, (1, 2)) (fun _ _ _ => trivial) rfl
  simp only [Prod.mk.injEq, decide_eq_true_eq] at hview
  obtain ⟨hl, hroute, hm, hpaused, hmemory, hlen, hcap⟩ := hview
  obtain ⟨hrule, hlimit, hstop⟩ := queue_limit_iff_room smallConfig s hr
  have hpause : Backend.HasRoom ⟨.pause true, [], []⟩ (Backend.init fun _ => 1) :=
    ⟨List.not_mem_nil, trivial⟩
  refine ⟨⟨_, rfl, hlimit _ _ (.step .init hpause rfl)⟩, ?_⟩
  obtain ⟨s', cs, hs', hcalls, hnotices⟩ := hstop 0 hl hmemory
  obtain ⟨status, hc, hiff⟩ := hnotices (.forward 0) (Or.inl (by rw [hroute]))
  refine ⟨s, s', (hrule _ _ _ _ hm hmemory (Or.inl hpaused)).mpr (by omega), hs', _,
    hcalls ▸ List.mem_append_right _ hc, rfl, ?_⟩
  exact (hiff (Or.inl hpaused)).mpr (by omega)

/-- Two connect messages fill the queue of a paused server to its limit, and a third message is not
refused: it is appended. -/
theorem limit_not_enforced :
    ¬ ∀ (cfg : Config) (s : Server), Reachable (step cfg) (init cfg) s →
      ∀ render k m force, s.backend.refcnt m.hybi ≠ 0 → false ∉ s.backend.memory →
        Backend.Stalled k s.backend → Backend.LimitRule render k m force s.backend := by
  intro hall
  obtain ⟨s, hr, hview⟩ := exists_of_small_run (C := fun _ _ => True)
    [⟨.pause true, stalledEnv⟩, ⟨.websockStart 0, stalledEnv⟩, ⟨.websockStart 0, stalledEnv⟩]
    (fun s => (decide (s.backend.refcnt 0 ≠ 0), s.backend.paused,
      decide (false ∉ s.backend.memory),
      ((s.backend.socks (.forward 0)).queue.length, (s.backend.socks (.forward 0)).capacity)))
    (true, true, true, (2, 2)) (fun _ _ _ => trivial) rfl
  simp only [Prod.mk.injEq, decide_eq_true_eq] at hview
  obtain ⟨hm, hpaused, hmemory, hlen, hcap⟩ := hview
  have hrule := hall smallConfig s hr (fun _ => []) (.forward 0) ⟨0, .message []⟩ false hm hmemory
    (Or.inl hpaused)
  have := (Backend.limitRule_iff hm (Or.inl hpaused) hmemory).mp hrule
  omega

end Server

end Zerogw
