import Zerogw.Server.Runs

/-!
# Synchronisation messages

`send_sync` tells the backend of a named output which connections are attached to it, each with its
cookie. The frames go out one behind, and a connection with several outputs is skipped after the
first of them, so the list must be kept in groups.
-/

namespace Zerogw

open Execution

/-- The frames of one message: all but the last have `ZMQ_SNDMORE`. -/
def multipart : List Bytes → List Frame
  | [] => []
  | [data] => [⟨data, false⟩]
  | data :: rest => ⟨data, true⟩ :: multipart rest

namespace Server

variable {cfg : Config} {s : Server} {h : HybiId} {k : SockId} {l : List OutputId}

/-- The loop of `send_sync` with the last `zmq_send`: `msg` waits to be sent, and `prev` is the
connection of `prev`. An empty frame is left in `msg` unless a cookie is copied there. -/
def syncFrom (s : Server) : Option HybiId → Bytes → List OutputId → Except Fault (List Frame)
  | _, msg, [] => .ok [⟨msg, false⟩]
  | prev, msg, item :: rest =>
    match s.outputs.out.get item with
    | none => .error .useAfterFree
    | some e =>
      if prev = some e.connection then syncFrom s prev msg rest
      else do
        let hybi ← s.deref e.connection
        let frames ← syncFrom s (some e.connection) (hybi.cookie.getD []) rest
        return ⟨msg, true⟩ :: ⟨hybi.uid, true⟩ :: frames

/-- `send_sync`: the frames that ZeroMQ gets. -/
def sendSync (cfg : Config) (result : SendResult) (k : SockId) (s : Server) :
    Except Fault (List Frame) :=
  if s.outputs.attached k = [] then .ok []
  else match result with
    | .eagain => .ok []
    | .eintr => .error (.assertion .sendSync)
    | .accepted => do
      let frames ← s.syncFrom none (str "sync") (s.outputs.attached k)
      return ⟨cfg.instanceId, true⟩ :: frames

/-- What a backend is told of a connection: its id, and its cookie or an empty frame. -/
def syncPair (s : Server) (h : HybiId) : List Bytes :=
  [(s.info h).uid, (s.info h).cookie.getD []]

/-- The loop sends one pair for every group of connections, and none for the group that `prev`
belongs to. -/
lemma syncFrom_ok (hs : s.Core cfg) (hout : ∀ o ∈ l, ∃ e, s.outputs.out.get o = some e)
    {prev : Option HybiId} (hgroups : Contiguous (l.map s.outputs.connectionOf))
    (hprev : ∀ p, prev = some p → some p ∈ l.map s.outputs.connectionOf →
      (l.map s.outputs.connectionOf).head? = some (some p)) (msg : Bytes) :
    ∃ conns : List HybiId,
      s.syncFrom prev msg l = .ok (multipart (msg :: conns.flatMap s.syncPair)) ∧
      conns.Nodup ∧ ∀ h, h ∈ conns ↔ some h ∈ l.map s.outputs.connectionOf ∧ prev ≠ some h := by
  induction l generalizing prev msg with
  | nil => exact ⟨[], rfl, List.nodup_nil, by simp⟩
  | cons o l ih =>
    obtain ⟨e, he⟩ := hout o (by simp)
    have hconn : s.outputs.connectionOf o = some e.connection := by
      rw [Outputs.connectionOf, he]
      rfl
    rw [List.map_cons, hconn] at hgroups hprev ⊢
    have hrest : ∀ o ∈ l, ∃ e, s.outputs.out.get o = some e := fun p hp => hout p (by simp [hp])
    have hnext : ∀ p, some e.connection = some p → some p ∈ l.map s.outputs.connectionOf →
        (l.map s.outputs.connectionOf).head? = some (some p) := by
      rintro p ⟨⟩ hmem
      exact hgroups.1 hmem
    by_cases hsame : prev = some e.connection
    · obtain ⟨conns, hok, hnodup, hconns⟩ := ih hrest hgroups.2 (hsame ▸ hnext) msg
      refine ⟨conns, ?_, hnodup, fun h => ?_⟩
      · rw [syncFrom, he]
        dsimp only
        rw [if_pos hsame, hok]
      · rw [hconns, List.mem_cons]
        refine and_congr_left fun hne => (or_iff_right ?_).symm
        rintro ⟨⟩
        exact hne hsame
    · have hr : s.Running e.connection := hs.outputsRunning o e he
      obtain ⟨conns, hok, hnodup, hconns⟩ := ih hrest hgroups.2 hnext
        ((s.info e.connection).cookie.getD [])
      refine ⟨e.connection :: conns, ?_, ?_, fun h => ?_⟩
      · rw [syncFrom, he]
        dsimp only
        rw [if_neg hsame, hs.deref_eq hr, ok_bind, hok]
        rfl
      · refine List.nodup_cons.mpr ⟨fun hmem => ?_, hnodup⟩
        exact ((hconns _).mp hmem).2 rfl
      · rw [List.mem_cons, List.mem_cons, hconns, Option.some.injEq]
        by_cases hh : h = e.connection
        · subst hh
          exact iff_of_true (Or.inl rfl) ⟨Or.inl rfl, hsame⟩
        · rw [or_iff_right hh, or_iff_right hh]
          refine and_congr_right fun hmem => iff_of_true ?_ ?_
          · exact fun heq => hh (Option.some.inj heq).symm
          · rintro rfl
            have hhead := hprev h rfl (List.mem_cons_of_mem _ hmem)
            rw [List.head?_cons] at hhead
            exact hh (Option.some.inj (Option.some.inj hhead)).symm

/-- The connections that are attached to a named output are those with a mapping to it. -/
lemma mem_attached (hs : s.Core cfg) :
    some h ∈ (s.outputs.attached k).map s.outputs.connectionOf ↔
      ∃ pre, s.outputs.mapping h pre = some k := by
  rw [List.mem_map]
  constructor
  · rintro ⟨o, ho, hconn⟩
    obtain ⟨e, he, hk⟩ := (hs.outputs.attached k o).mp ho
    rw [Outputs.connectionOf, he] at hconn
    exact ⟨e.pre, (Outputs.mapping_iff hs.outputs).mpr ⟨o, e, he, Option.some.inj hconn, rfl, hk⟩⟩
  · rintro ⟨pre, hpre⟩
    obtain ⟨o, e, he, rfl, -, hk⟩ := (Outputs.mapping_iff hs.outputs).mp hpre
    refine ⟨o, (hs.outputs.attached k o).mpr ⟨e, he, hk⟩, ?_⟩
    rw [Outputs.connectionOf, he]
    rfl

/-- In every reachable state the message for a named output with connections consists of the id of
the server, `sync`, and one pair for every connection with a mapping to the output. -/
theorem sync_lists_each_once (hr : Reachable (step cfg) (init cfg) s)
    (hne : s.outputs.attached k ≠ []) :
    ∃ conns : List HybiId, conns ≠ [] ∧ conns.Nodup ∧
      (∀ h, h ∈ conns ↔ ∃ pre, s.outputs.mapping h pre = some k) ∧
      sendSync cfg .accepted k s =
        .ok (multipart (cfg.instanceId :: str "sync" :: conns.flatMap s.syncPair)) := by
  have hs := (sound_of_reachable hr).core
  have hout : ∀ o ∈ s.outputs.attached k, ∃ e, s.outputs.out.get o = some e := by
    intro o ho
    obtain ⟨e, he, -⟩ := (hs.outputs.attached k o).mp ho
    exact ⟨e, he⟩
  obtain ⟨conns, hok, hnodup, hconns⟩ := syncFrom_ok hs hout
    (hs.outputs.attachedGrouped k) (fun p (hp : none = some p) => nomatch hp) (str "sync")
  have hmem : ∀ h, h ∈ conns ↔ ∃ pre, s.outputs.mapping h pre = some k := by
    intro h
    rw [hconns, and_iff_left (by simp), mem_attached hs]
  refine ⟨conns, ?_, hnodup, hmem, ?_⟩
  · rintro rfl
    obtain ⟨o, ho⟩ := List.exists_mem_of_ne_nil _ hne
    obtain ⟨e, he, hk⟩ := (hs.outputs.attached k o).mp ho
    have hnone := (hmem e.connection).mpr
      ⟨e.pre, (Outputs.mapping_iff hs.outputs).mpr ⟨o, e, he, rfl, rfl, hk⟩⟩
    exact absurd hnone (List.not_mem_nil)
  · rw [sendSync, if_neg hne]
    rw [hok, ok_bind]
    rfl

/-- Two connections with different cookies have outputs, one of them two. -/
theorem sync_lists_each_once_two : ∃ (s : Server) (conns : List HybiId), conns.Nodup ∧
    (∀ h, h ∈ conns ↔ h = 0 ∨ h = 1) ∧ s.syncPair 0 = [firstUid, str "ham"] ∧
    s.syncPair 1 = [secondUid, str "eggs"] ∧
    sendSync smallConfig .accepted (.named 0 0) s =
      .ok (multipart (smallConfig.instanceId :: str "sync" :: conns.flatMap s.syncPair)) := by
  let asks (args : List Bytes) : Input := ⟨.command 0 args, stalledEnv⟩
  obtain ⟨s, hr, hview⟩ := exists_of_small_run (C := fun _ _ => True)
    [⟨.websockStart 0, stalledEnv⟩, ⟨.websockStart 0, stalledEnv⟩,
      asks [str "set_cookie", firstUid, str "ham"], asks [str "set_cookie", secondUid, str "eggs"],
      asks [str "add_output", firstUid, str "hello", str "chat"],
      asks [str "add_output", secondUid, str "hello", str "chat"],
      asks [str "add_output", firstUid, str "bye", str "chat"]]
    (fun s => ((s.outputs.attached (.named 0 0)).map s.outputs.connectionOf,
      s.syncPair 0, s.syncPair 1))
    ([some 1, some 0, some 0], [firstUid, str "ham"], [secondUid, str "eggs"])
    (fun _ _ _ => trivial) rfl
  simp only [Prod.mk.injEq] at hview
  obtain ⟨hattached, hfirst, hsecond⟩ := hview
  have hne : s.outputs.attached (.named 0 0) ≠ [] := by
    rintro hnil
    rw [hnil] at hattached
    cases hattached
  obtain ⟨conns, -, hnodup, hconns, hsync⟩ := sync_lists_each_once hr hne
  refine ⟨s, conns, hnodup, fun h => ?_, hfirst, hsecond, hsync⟩
  rw [hconns, ← mem_attached (sound_of_reachable hr).core, hattached]
  simp [or_comm]

end Server

end Zerogw
