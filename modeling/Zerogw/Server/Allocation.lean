import Zerogw.Server.Runs
import Zerogw.Topics.Allocation

/-!
# Commands when memory runs out

The allocations of `subscribe` and `clone` may fail in every step of a run. Both commands do all
they should, or nothing, as long as the topics they need can be made.
-/

namespace Zerogw

open Execution

namespace Server

variable {cfg : Config} {env : Env} {s s' : Server} {h : HybiId} {route : RouteId}
  {frames : List Bytes} {A : Topics.Allocator}

/-! ### The commands -/

/-- The command `subscribe`. -/
def subscribeWith (cfg : Config) (A : Topics.Allocator) (r : RouteId) (frames : List Bytes)
    (s : Server) : Except Fault Server :=
  s.withConnection r true frames fun h rest =>
    match rest with
    | [name] => do
      let T ← s.topics.subscribeWith A (hashSize cfg) h (s.info h).route name
      return { s with topics := T }
    | _ => .ok s

/-- The command `clone`. -/
def cloneWith (cfg : Config) (A : Topics.Allocator) (r : RouteId) (frames : List Bytes)
    (s : Server) : Except Fault Server :=
  match frames with
  | [source, target] => do
    let T ← s.topics.cloneWith A (hashSize cfg) r source target
    return { s with topics := T }
  | _ => .ok s

/-- `websock_process`. The other commands do not allocate any of this. -/
def websockProcessWith (cfg : Config) (env : Env) (A : Topics.Allocator) (r : RouteId)
    (frames : List Bytes) (s : Server) : Except Fault Server :=
  match frames with
  | [] => .ok s
  | cmd :: rest =>
    if cmd = str "subscribe" then s.subscribeWith cfg A r rest
    else if cmd = str "clone" then s.cloneWith cfg A r rest
    else s.websockProcess cfg env r frames

/-- One event of a run, with what the allocations come to. -/
def stepWith (cfg : Config) (i : Topics.Allocator × Input) (s : Server) : Except Fault Server :=
  match i.2.event with
  | .command route frames =>
    (s.expecting i.2.env).websockProcessWith cfg i.2.env i.1 route frames
  | _ => step cfg i.2 s

/-! ### When nothing fails -/

lemma subscribeWith_ample (hs : s.Core cfg) (route : RouteId) (frames : List Bytes) :
    s.subscribeWith cfg .ample route frames = s.subscribe cfg route frames := by
  rw [subscribeWith, subscribe]
  congr 1
  funext h rest
  obtain _ | ⟨name, _ | ⟨x, l⟩⟩ := rest
  · rfl
  · simp only [Topics.subscribeWith_ample _ _ _ _ hs.topics.toWF]
    rfl
  · rfl

lemma cloneWith_ample (s : Server) (route : RouteId) (frames : List Bytes) :
    s.cloneWith cfg .ample route frames = s.clone cfg route frames := by
  obtain _ | ⟨source, _ | ⟨target, _ | ⟨x, l⟩⟩⟩ := frames
  · rfl
  · rfl
  · rw [cloneWith, Topics.cloneWith_ample]
    rfl
  · rfl

lemma websockProcessWith_ample (hs : s.Core cfg) (env : Env) (route : RouteId)
    (frames : List Bytes) :
    s.websockProcessWith cfg env .ample route frames = s.websockProcess cfg env route frames := by
  cases frames with
  | nil => rfl
  | cons cmd rest =>
    rw [websockProcessWith]
    split_ifs with hsub hclone
    · subst hsub
      rw [subscribeWith_ample hs]
      rfl
    · subst hclone
      rw [cloneWith_ample]
      rfl
    · rfl

lemma Core.expecting (hs : s.Core cfg) (env : Env) : (s.expecting env).Core cfg :=
  hs.switched s.backend.paused env.outcomes env.memory

/-- Steps in which nothing fails are those of the server. -/
theorem stepWith_ample (hs : s.Core cfg) (i : Input) :
    stepWith cfg (.ample, i) s = step cfg i s := by
  rw [stepWith]
  split
  · rename_i route frames hi
    rw [websockProcessWith_ample (hs.expecting _), step, handle, hi]
  · rfl

/-! ### What the commands leave -/

/-- Only topics change, no topic is without subscribers, and the connection that the command names
is subscribed, or everything is as before. -/
structure SubscribesAtomically (A : Topics.Allocator) (route : RouteId) (frames : List Bytes)
    (s s' : Server) : Prop where
  eq : s' = { s with topics := s'.topics }
  tidy : s'.topics.Tidy
  accepted : ∀ id name h, frames = [id, name] → s.addressed route true id = some h →
    Topics.Subscribed A h route name s.topics s'.topics
  rejected : (∀ id name h, frames = [id, name] → s.addressed route true id ≠ some h) →
    s'.topics = s.topics

/-- Only topics change, no topic is without subscribers, and the target gets those subscribers of
the source that there is memory for. -/
structure ClonesAtomically (A : Topics.Allocator) (route : RouteId) (frames : List Bytes)
    (s s' : Server) : Prop where
  eq : s' = { s with topics := s'.topics }
  tidy : s'.topics.Tidy
  accepted : ∀ source target, frames = [source, target] →
    Topics.Cloned A route source target s.topics s'.topics
  rejected : (∀ source target, frames ≠ [source, target]) → s'.topics = s.topics

/-- A `subscribe` that leads to a connection can make the topic. -/
def SubscribeAllocates (A : Topics.Allocator) (route : RouteId) (frames : List Bytes) (s : Server) :
    Prop :=
  ∀ id name h, frames = [id, name] → s.addressed route true id = some h →
    s.topics.Allocates A route name

/-- A `clone` of a topic can make the target. -/
def CloneAllocates (A : Topics.Allocator) (route : RouteId) (frames : List Bytes) (s : Server) :
    Prop :=
  ∀ source target, frames = [source, target] → s.topics.CloneAllocates A route source target

lemma SubscribesAtomically.refl (hs : s.Core cfg)
    (hnone : ∀ id name h, frames = [id, name] → s.addressed route true id ≠ some h) :
    SubscribesAtomically A route frames s s :=
  ⟨rfl, hs.topics, fun id name h hframes ha => absurd ha (hnone id name h hframes), fun _ => rfl⟩

lemma subscribeWith_ok (hs : s.Core cfg) (hA : s.SubscribeAllocates A route frames) :
    Ends Memory (SubscribesAtomically A route frames s) (s.subscribeWith cfg A route frames) := by
  refine withConnection_spec hs (fun _ _ _ _ _ _ hf => hf.1) (fun hnone => ?_)
    fun id rest h hframes hrest ha => ?_
  · refine .refl hs fun id name h hframes ha => ?_
    rw [hnone id [name] hframes (by simp)] at ha
    cases ha
  · subst hframes
    obtain _ | ⟨name, _ | ⟨x, l⟩⟩ := rest
    · exact absurd rfl hrest
    · obtain ⟨T, hT, hsub⟩ :=
        Topics.subscribeWith_ok (hashSize cfg) h hs.topics (hA id name h rfl ha)
      simp only [(addressed_live hs ha).2, hT, ok_bind]
      refine ⟨rfl, hsub.tidy, fun id' name' g hframes hg => ?_, fun hnone => ?_⟩
      · cases hframes
        cases ha.symm.trans hg
        exact hsub
      · exact absurd ha (hnone id name h rfl)
    · exact .refl hs fun id' name' g hframes => by cases hframes

lemma subscribeWith_error (hs : s.Core cfg) (hA : ¬ s.SubscribeAllocates A route frames) :
    s.subscribeWith cfg A route frames = .error .nullPointer := by
  simp only [SubscribeAllocates, not_forall] at hA
  obtain ⟨id, name, h, rfl, ha, hnot⟩ := hA
  rw [subscribeWith, withConnection_of_addressed hs ha]
  simp only [(addressed_live hs ha).2, Topics.subscribeWith_error _ _ hs.topics.toWF hnot]
  rfl

lemma ClonesAtomically.refl (hs : s.Core cfg)
    (hnone : ∀ source target, frames ≠ [source, target]) :
    ClonesAtomically A route frames s s :=
  ⟨rfl, hs.topics, fun source target hframes => absurd hframes (hnone source target),
    fun _ => rfl⟩

lemma cloneWith_ok (hs : s.Core cfg) (hA : s.CloneAllocates A route frames) :
    Ends Memory (ClonesAtomically A route frames s) (s.cloneWith cfg A route frames) := by
  obtain _ | ⟨source, _ | ⟨target, _ | ⟨x, l⟩⟩⟩ := frames
  · exact .refl hs fun _ _ hframes => by cases hframes
  · exact .refl hs fun _ _ hframes => by cases hframes
  · obtain ⟨T, hT, hcl⟩ := Topics.cloneWith_ok (hashSize cfg) hs.topics (hA source target rfl)
    rw [cloneWith, hT, ok_bind]
    refine ⟨rfl, hcl.tidy, fun source' target' hframes => ?_, fun hnone => ?_⟩
    · cases hframes
      exact hcl
    · exact absurd rfl (hnone source target)
  · exact .refl hs fun _ _ hframes => by cases hframes

lemma cloneWith_error (hs : s.Core cfg) (hA : ¬ s.CloneAllocates A route frames) :
    s.cloneWith cfg A route frames = .error .nullPointer := by
  simp only [CloneAllocates, not_forall] at hA
  obtain ⟨source, target, rfl, hnot⟩ := hA
  rw [cloneWith, Topics.cloneWith_error _ hs.topics.toWF hnot]
  rfl

/-! ### Runs -/

lemma Sound.expecting (hs : s.Sound cfg) (env : Env) : (s.expecting env).Sound cfg :=
  ⟨hs.core.expecting env, hs.links, hs.comets, hs.refs⟩

lemma Sound.withTopics {T : Topics} (hs : s.Sound cfg) (hT : T.Tidy)
    (hrunning : ∀ p ∈ T.pairs, s.Running p.1 ∧ (s.info p.1).route = p.2.1) :
    Sound cfg { s with topics := T } :=
  ⟨hs.core.withTopics hT hrunning, hs.links, hs.comets, hs.refs⟩

lemma SubscribesAtomically.sound (hs : s.Sound cfg) (h : SubscribesAtomically A route frames s s') :
    s'.Sound cfg := by
  rw [h.eq]
  refine hs.withTopics h.tidy fun p hp => ?_
  by_cases hcmd : ∃ id name g, frames = [id, name] ∧ s.addressed route true id = some g
  · obtain ⟨id, name, g, hframes, ha⟩ := hcmd
    have hsub := h.accepted id name g hframes ha
    by_cases hcan : s.topics.CanSubscribe A g (route, name)
    · rw [hsub.succeeds hcan] at hp
      rcases hp with rfl | hp
      · exact (addressed_live hs.core ha).imp_left hs.core.running
      · exact pairs_owned hs.core hp
    · rw [(hsub.fails hcan).pairs] at hp
      exact pairs_owned hs.core hp
  · rw [h.rejected fun id name g hframes ha => hcmd ⟨id, name, g, hframes, ha⟩] at hp
    exact pairs_owned hs.core hp

lemma ClonesAtomically.sound (hs : s.Sound cfg) (h : ClonesAtomically A route frames s s') :
    s'.Sound cfg := by
  rw [h.eq]
  refine hs.withTopics h.tidy fun p hp => ?_
  by_cases hcmd : ∃ source target, frames = [source, target]
  · obtain ⟨source, target, hframes⟩ := hcmd
    rw [(h.accepted source target hframes).pairs] at hp
    rcases hp with hp | ⟨hk, hp, -⟩
    · exact pairs_owned hs.core hp
    · rw [hk]
      exact pairs_owned hs.core hp
  · rw [h.rejected fun source target hframes => hcmd ⟨source, target, hframes⟩] at hp
    exact pairs_owned hs.core hp

lemma sound_of_subscribeWith (hs : s.Sound cfg)
    (hrun : s.subscribeWith cfg A route frames = .ok s') : s'.Sound cfg := by
  by_cases hA : s.SubscribeAllocates A route frames
  · exact ((subscribeWith_ok hs.core hA).result hrun).sound hs
  · rw [subscribeWith_error hs.core hA] at hrun
    cases hrun

lemma sound_of_cloneWith (hs : s.Sound cfg) (hrun : s.cloneWith cfg A route frames = .ok s') :
    s'.Sound cfg := by
  by_cases hA : s.CloneAllocates A route frames
  · exact ((cloneWith_ok hs.core hA).result hrun).sound hs
  · rw [cloneWith_error hs.core hA] at hrun
    cases hrun

/-- The invariant is kept whatever the allocations come to. -/
lemma sound_of_stepWith {i : Topics.Allocator × Input} (hs : s.Sound cfg)
    (hstep : stepWith cfg i s = .ok s') : s'.Sound cfg := by
  rw [stepWith] at hstep
  split at hstep
  · rename_i route frames hi
    cases frames with
    | nil =>
      cases hstep
      exact hs.expecting _
    | cons cmd rest =>
      rw [websockProcessWith] at hstep
      split_ifs at hstep with hsub hclone
      · exact sound_of_subscribeWith (hs.expecting _) hstep
      · exact sound_of_cloneWith (hs.expecting _) hstep
      · refine (path_of_step hs (i := i.2) ?_).sound hs
        rw [step, handle, hi]
        exact hstep
  · exact (path_of_step hs hstep).sound hs

lemma sound_of_reachableWith (hr : Reachable (stepWith cfg) (init cfg) s) : s.Sound cfg :=
  hr.invariant (.init cfg) fun _ _ _ _ hs hstep => sound_of_stepWith hs hstep

/-- Both commands do all they should, or nothing, if and only if the table, its array and the topic
can be made where they are missing. Otherwise `NULL` is used. -/
theorem commands_atomic_iff (hr : Reachable (stepWith cfg) (init cfg) s) (env : Env)
    (A : Topics.Allocator) (route : RouteId) (frames : List Bytes) :
    (Ends (· ≠ .nullPointer) (SubscribesAtomically A route frames s)
        (s.websockProcessWith cfg env A route (str "subscribe" :: frames)) ↔
      s.SubscribeAllocates A route frames) ∧
    (Ends (· ≠ .nullPointer) (ClonesAtomically A route frames s)
        (s.websockProcessWith cfg env A route (str "clone" :: frames)) ↔
      s.CloneAllocates A route frames) := by
  have hs := (sound_of_reachableWith hr).core
  have hmemory : ∀ f, Memory f → f ≠ .nullPointer := by
    rintro f hf rfl
    rcases hf with hf | hf | hf <;> cases hf
  refine ⟨⟨fun hends => ?_, fun hA => (subscribeWith_ok hs hA).mono hmemory fun _ h => h⟩,
    fun hends => ?_, fun hA => (cloneWith_ok hs hA).mono hmemory fun _ h => h⟩
  · by_contra hA
    have herror : s.websockProcessWith cfg env A route (str "subscribe" :: frames)
        = .error .nullPointer := subscribeWith_error hs hA
    rw [herror] at hends
    exact hends rfl
  · by_contra hA
    have herror : s.websockProcessWith cfg env A route (str "clone" :: frames)
        = .error .nullPointer := cloneWith_error hs hA
    rw [herror] at hends
    exact hends rfl

/-- A state that the small server reaches on given inputs. -/
lemma exists_of_small_runWith {α : Type} (is : List (Topics.Allocator × Input)) (view : Server → α)
    (a : α) (hrun : (run (stepWith smallConfig) is (init smallConfig)).map view = .ok a) :
    ∃ s, Reachable (stepWith smallConfig) (init smallConfig) s ∧ view s = a :=
  exists_of_run view (fun _ _ _ => trivial) hrun

/-- One websocket is open, and there is no memory for a subscription. -/
theorem commands_atomic_full : ∃ s, Reachable (stepWith smallConfig) (init smallConfig) s ∧
    s.addressed 0 true firstUid = some 0 ∧
    Ends (· ≠ .nullPointer)
      (SubscribesAtomically ⟨true, true, true, fun _ => false⟩ 0 [firstUid, str "ham"] s)
      (s.websockProcessWith smallConfig stalledEnv ⟨true, true, true, fun _ => false⟩ 0
        [str "subscribe", firstUid, str "ham"]) := by
  obtain ⟨s, hr, hview⟩ := exists_of_small_runWith [(.ample, ⟨.websockStart 0, stalledEnv⟩)]
    (fun s => s.addressed 0 true firstUid) (some 0) rfl
  refine ⟨s, hr, hview, (commands_atomic_iff hr stalledEnv _ 0 [firstUid, str "ham"]).1.mpr ?_⟩
  exact fun _ _ _ _ _ => ⟨fun _ => ⟨rfl, rfl⟩, fun _ => rfl⟩

/-- One websocket is open, and there is no memory for the table of its route. -/
theorem subscribe_uses_null : ¬ ∀ (cfg : Config) (s : Server),
    Reachable (stepWith cfg) (init cfg) s → ∀ (env : Env) (A : Topics.Allocator) (route : RouteId)
      (frames : List Bytes), Ends (· ≠ .nullPointer) (SubscribesAtomically A route frames s)
        (s.websockProcessWith cfg env A route (str "subscribe" :: frames)) := by
  intro hall
  obtain ⟨s, hr, hview⟩ := exists_of_small_runWith [(.ample, ⟨.websockStart 0, stalledEnv⟩)]
    (fun s => (s.websockProcessWith smallConfig stalledEnv ⟨false, true, true, fun _ => true⟩ 0
      [str "subscribe", firstUid, str "ham"]).map fun _ => ())
    (.error .nullPointer) rfl
  have hends := hall smallConfig s hr stalledEnv ⟨false, true, true, fun _ => true⟩ 0
    [firstUid, str "ham"]
  rw [eq_error_of_map hview] at hends
  exact hends rfl

end Server

end Zerogw
