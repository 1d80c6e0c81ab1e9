import Zerogw.Server.Runs

/-!
# What a client acknowledges

A long-poll reply names the last message that its client shall acknowledge. The acknowledgement
takes the messages of the reply off the queue, and no others, if the reply carries the whole queue
and the numbers neither are zero nor change their sign.
-/

namespace Zerogw

open Execution

/-! ### Conversions -/

/-- A number that is too large by less than `2 ^ 31`. -/
lemma toInt_of_large {i : Int} (h₁ : 2 ^ 31 ≤ i) (h₂ : i < 2 ^ 32) : toInt i = i - 2 ^ 32 := by
  rw [toInt, Int.bmod_def]
  split_ifs with h <;> omega

/-! ### Replies -/

/-- The messages in a reply to the parked request. -/
def Comet.carried (c : Comet) : List Bytes :=
  match c.curFormat with
  | .single => c.queue.take 1
  | .jsonlist => c.queue.take (Polling.jsonlistCount c).toNat

/-- The body of a reply that carries the messages. -/
def encode : Format → List Bytes → Bytes
  | .single, ms => ms.head?.getD []
  | .jsonlist, ms => Polling.jsonList ms

/-- The header with the id that the client acknowledges. -/
def idHeader : Format → Bytes
  | .single => str "X-Message-ID"
  | .jsonlist => str "X-Last-ID"

/-- The id that a reply advertises. -/
def Reply.advertised (format : Format) (rep : Reply) : Option Int :=
  (rep.headers.lookup (idHeader format)).bind fun
    | .int i => some i
    | .text _ => none

/-- An acknowledgement of `msgid` takes exactly the messages `ms` off the queue of `h`. -/
def Removes (h : HybiId) (msgid : Nat) (ms : List Bytes) (P : Polling) : Prop :=
  ∃ rc P', P.moveQueue h msgid = .ok (rc, P') ∧ (P.comet h).queue = ms ++ (P'.comet h).queue

/-- The reply to the parked request carries all messages that its id stands for, and the ids of the
messages do not wrap around: neither the id is zero nor its sign changes. -/
def Comet.Numbered (c : Comet) : Prop :=
  match c.curFormat with
  | .single => c.firstIndex ≠ 0
  | .jsonlist => (c.queue.length : Int) ≤ c.curLimit ∧ c.firstIndex + c.queue.length ≠ 1 ∧
      (0 ≤ c.firstIndex ∧ c.firstIndex + c.queue.length ≤ 2 ^ 31 ∨
        c.firstIndex < 0 ∧ c.firstIndex + c.queue.length ≤ 0)

namespace Polling

variable {cfg : Config} {env : Env} {P : Polling} {h : HybiId} {r : ReqId} {q : Request} {c : Comet}

/-- The id in a reply with messages. -/
def lastId (c : Comet) : Int :=
  match c.curFormat with
  | .single => c.firstIndex
  | .jsonlist => toInt (c.firstIndex + c.queue.length - 1)

variable (cfg env r q c) in
/-- A reply carries some messages from the front of the queue, and advertises one id. -/
lemma messageReply_spec : (messageReply cfg env r q c).body = encode c.curFormat c.carried ∧
    (messageReply cfg env r q c).advertised c.curFormat = some (lastId c) := by
  rw [messageReply, Comet.carried, lastId]
  cases c.curFormat with
  | single =>
    refine ⟨?_, rfl⟩
    cases c.queue <;> rfl
  | jsonlist => exact ⟨rfl, rfl⟩

/-! ### Acknowledgements -/

/-- How many messages `move_queue` takes off the queue. -/
def acked (c : Comet) (msgid : Nat) : Nat :=
  if msgid = 0 ∨ msgid < toSize c.firstIndex then 0
  else if toSize (msgid - c.firstIndex + 1) > c.queue.length then 0
  else toSize (msgid - c.firstIndex + 1)

lemma acked_le (c : Comet) (msgid : Nat) : acked c msgid ≤ c.queue.length := by
  rw [acked]
  split_ifs <;> omega

variable (P h) in
lemma moveQueue_acked (msgid : Nat) :
    ∃ rc P', P.moveQueue h msgid = .ok (rc, P') ∧
      (P'.comet h).queue = (P.comet h).queue.drop (acked (P.comet h) msgid) := by
  unfold moveQueue acked
  dsimp only
  split_ifs with h₁ h₂ h₃
  · exact ⟨0, P, rfl, rfl⟩
  · exact ⟨-1, P, rfl, rfl⟩
  · exact ⟨0, P, rfl, by rw [h₃, List.drop_zero]⟩
  · exact ⟨0, _, rfl, by rw [setComet_comet_self]⟩

/-- An acknowledgement takes the first `n` messages if it counts `n`. -/
lemma removes_take_iff (msgid : Nat) {n : Nat} (hn : n ≤ (P.comet h).queue.length) :
    Removes h msgid ((P.comet h).queue.take n) P ↔ acked (P.comet h) msgid = n := by
  obtain ⟨rc, P', hmove, hqueue⟩ := moveQueue_acked P h msgid
  have hle := acked_le (P.comet h) msgid
  constructor
  · rintro ⟨rc', P'', hmove', htake⟩
    rw [hmove] at hmove'
    cases hmove'
    have hlen := congrArg List.length htake
    rw [List.length_append, hqueue, List.length_take, List.length_drop, min_eq_left hn] at hlen
    omega
  · rintro rfl
    exact ⟨rc, P', hmove, by rw [hqueue, List.take_append_drop]⟩

/-- An acknowledgement of the first message takes it, unless its id is zero. -/
lemma acked_first (hfirst : IsInt c.firstIndex) (hq : c.queue ≠ []) :
    acked c (toSize c.firstIndex) = 1 ↔ c.firstIndex ≠ 0 := by
  have hlen := List.length_pos_iff.mpr hq
  obtain ⟨h₁, h₂⟩ := hfirst
  rw [acked]
  constructor
  · intro hacked
    split_ifs at hacked
    simp only [toSize] at *
    omega
  · intro hne
    split_ifs <;> simp only [toSize] at * <;> omega

/-- Nobody can acknowledge the last message of a queue in which the ids reach zero or change their
sign; elsewhere the acknowledgement takes the whole queue. -/
lemma acked_last (hfirst : IsInt c.firstIndex) (hq : c.queue ≠ [])
    (hlen : c.queue.length ≤ 2 ^ 20) :
    acked c (toSize (toInt (c.firstIndex + c.queue.length - 1)))
      = if c.firstIndex + c.queue.length ≠ 1 ∧
          (0 ≤ c.firstIndex ∧ c.firstIndex + c.queue.length ≤ 2 ^ 31 ∨
            c.firstIndex < 0 ∧ c.firstIndex + c.queue.length ≤ 0) then c.queue.length else 0 := by
  have hpos := List.length_pos_iff.mpr hq
  obtain ⟨h₁, h₂⟩ := hfirst
  by_cases hwrap : c.firstIndex + c.queue.length ≤ 2 ^ 31
  · rw [toInt_of_isInt ⟨by omega, by omega⟩, acked]
    split_ifs <;> simp only [toSize] at * <;> omega
  · rw [toInt_of_large (by omega) (by omega), acked]
    split_ifs <;> simp only [toSize] at * <;> omega

/-- An acknowledgement of the id in a reply takes what the reply carries. -/
lemma acked_lastId (hfirst : IsInt c.firstIndex) (hq : c.queue ≠ [])
    (hlen : c.queue.length ≤ 2 ^ 20) (hlimit : 1 ≤ c.curLimit) :
    ∃ n, n ≤ c.queue.length ∧ c.carried = c.queue.take n ∧
      (acked c (toSize (lastId c)) = n ↔ c.Numbered) := by
  have hpos := List.length_pos_iff.mpr hq
  rw [Comet.carried, Comet.Numbered, lastId]
  cases c.curFormat with
  | single => exact ⟨1, hpos, rfl, acked_first hfirst hq⟩
  | jsonlist =>
    refine ⟨(jsonlistCount c).toNat, ?_, rfl, ?_⟩
    · rw [jsonlistCount]
      split_ifs <;> omega
    · dsimp only
      rw [acked_last hfirst hq hlen, jsonlistCount]
      split_ifs with hnum hmore <;> omega

/-- What `send_later` does with a message for a parked request. -/
lemma sendLater_reply {P' : Polling} (hcur : (P.comet h).curRequest = some r)
    (hq : (P.comet h).queue ≠ []) (hsend : P.sendLater cfg env h = .ok P') :
    (P.comet h).closed = false ∧
      P'.comet h = { P.comet h with curRequest := none, sendlater := false, inactivity := true } ∧
      (P'.request r).replies
        = (P.request r).replies ++ [messageReply cfg env r (P.request r) (P.comet h)] := by
  simp only [sendLater, hcur, List.isEmpty_iff, hq, if_false] at hsend
  split_ifs at hsend with hclosed
  cases hsend
  refine ⟨by simpa using hclosed, setComet_comet_self _, ?_⟩
  rw [setComet_request, answer_request_self, Request.decref_replies]

end Polling

namespace Server

variable {cfg : Config} {env : Env} {s s' : Server} {h : HybiId} {r : ReqId}

/-- In every reachable state, the reply that `send_later` builds carries messages from the front of
the queue and advertises an id, and an acknowledgement of this id takes exactly these messages if
and only if the id stands for them. -/
theorem acknowledged_iff (hr : Reachable (step cfg) (init cfg) s)
    (hcur : (s.polling.comet h).curRequest = some r) (hq : (s.polling.comet h).queue ≠ [])
    (hsend : sendLater cfg env h s = .ok s') :
    ∃ rep id, (s'.polling.request r).replies = (s.polling.request r).replies ++ [rep] ∧
      rep.body = encode (s.polling.comet h).curFormat (s.polling.comet h).carried ∧
      rep.advertised (s.polling.comet h).curFormat = some id ∧
      (Removes h (toSize id) (s.polling.comet h).carried s'.polling ↔
        (s.polling.comet h).Numbered) := by
  have hs := (sound_of_reachable hr).comets h
  have hbusy := Comet.Sound.not_quiet_of_parked hcur
  obtain ⟨_, -, hrest⟩ := bind_eq_ok.mp hsend
  obtain ⟨P, hP, hret⟩ := bind_eq_ok.mp hrest
  cases hret
  obtain ⟨hopen, hcomet, hreplies⟩ := Polling.sendLater_reply hcur hq hP
  obtain ⟨ht, -, hdead⟩ := hs.of_not_quiet hbusy
  have hrun : s.Running h := by
    by_contra hrun
    rw [(hdead hrun).1] at hopen
    cases hopen
  have hlen : (s.polling.comet h).queue.length ≤ 2 ^ 20 :=
    hs.room.trans ((hs.capacity hrun ht).le.trans (cfg.route (s.info h).route).queueLimit_le)
  obtain ⟨n, hn, hcarried, hiff⟩ :=
    Polling.acked_lastId hs.firstIndex hq hlen (hs.limited (by simp [hcur]))
  obtain ⟨hbody, hid⟩ := Polling.messageReply_spec cfg env r (s.polling.request r)
    (s.polling.comet h)
  refine ⟨_, _, hreplies, hbody, hid, ?_⟩
  have hremoves := Polling.removes_take_iff (P := P) (h := h) (n := n)
    (toSize (Polling.lastId (s.polling.comet h))) (by rw [hcomet]; exact hn)
  rw [← hiff, hcarried]
  simp only [hcomet] at hremoves
  exact hremoves

/-- A client that takes up to three messages acknowledges the two that it gets. -/
theorem acknowledged_iff_both : ∃ (s' : Server) (id : Int),
    Removes 0 (toSize id) [[1], [2]] s'.polling := by
  obtain ⟨s, hr, hview⟩ := exists_of_small_run (C := fun _ _ => True)
    [arrives connectArgs [], tells [1], tells [2], arrives (pollArgs 0 3 .single .jsonlist) []]
    (fun s => (s.polling.comet 0, (sendLater smallConfig stalledEnv 0 s).toOption.isSome))
    (⟨some 1, .jsonlist, 2, 1, true, false, [[1], [2]], 2, false⟩, true)
    (fun _ _ _ => trivial) rfl
  simp only [Prod.mk.injEq] at hview
  obtain ⟨hcomet, hok⟩ := hview
  cases hsend : sendLater smallConfig stalledEnv 0 s with
  | error f =>
    rw [hsend] at hok
    cases hok
  | ok s' =>
    obtain ⟨rep, id, -, -, -, hiff⟩ :=
      acknowledged_iff (r := 1) hr (by rw [hcomet]) (by simp [hcomet]) hsend
    rw [hcomet] at hiff
    exact ⟨s', id, hiff.mpr ⟨by decide, by decide, Or.inl ⟨by decide, by decide⟩⟩⟩

/-- Two messages wait for a client that takes one at a time. The reply carries the first, but it
advertises the id of the second, and the acknowledgement takes both. -/
theorem unsent_message_acknowledged :
    ¬ ∀ (cfg : Config) (s : Server), Reachable (step cfg) (init cfg) s → ∀ env h r s',
      (s.polling.comet h).curRequest = some r → (s.polling.comet h).queue ≠ [] →
      sendLater cfg env h s = .ok s' → ∀ rep id,
      (s'.polling.request r).replies = (s.polling.request r).replies ++ [rep] →
      rep.advertised (s.polling.comet h).curFormat = some id →
      Removes h (toSize id) (s.polling.comet h).carried s'.polling := by
  intro hall
  obtain ⟨s, hr, hview⟩ := exists_of_small_run (C := fun _ _ => True)
    [arrives connectArgs [], tells [1], tells [2], arrives (pollArgs 0 1 .single .jsonlist) []]
    (fun s => (s.polling.comet 0, (sendLater smallConfig stalledEnv 0 s).toOption.isSome))
    (⟨some 1, .jsonlist, 1, 1, true, false, [[1], [2]], 2, false⟩, true)
    (fun _ _ _ => trivial) rfl
  simp only [Prod.mk.injEq] at hview
  obtain ⟨hcomet, hok⟩ := hview
  cases hsend : sendLater smallConfig stalledEnv 0 s with
  | error f =>
    rw [hsend] at hok
    cases hok
  | ok s' =>
    obtain ⟨_, -, hrest⟩ := bind_eq_ok.mp hsend
    obtain ⟨P, hP, hret⟩ := bind_eq_ok.mp hrest
    cases hret
    have hcur : (s.polling.comet 0).curRequest = some 1 := by rw [hcomet]
    have hq : (s.polling.comet 0).queue ≠ [] := by simp [hcomet]
    obtain ⟨-, hcomet', hreplies⟩ := Polling.sendLater_reply hcur hq hP
    have hid := (Polling.messageReply_spec smallConfig stalledEnv 1 (s.polling.request 1)
      (s.polling.comet 0)).2
    have hremoves := hall smallConfig s hr stalledEnv 0 1 _ hcur hq hsend _ _ hreplies hid
    rw [hcomet] at hcomet' hremoves
    have hone := (Polling.removes_take_iff (P := P) (h := 0) (n := 1) _
      (by rw [hcomet']; decide)).mp (by rw [hcomet']; exact hremoves)
    rw [hcomet'] at hone
    exact absurd hone (by decide)

end Server

end Zerogw
