import Zerogw.Backend.Basic

/-!
# Order of delivery and the queue limit

What one call of `backend_send` or `backend_unqueue` can do, and what follows for every run of
these calls with pauses in between.
-/

namespace Zerogw

open Execution

namespace Backend

variable {render : BackendMsg → List Frame} {k : SockId} {m : BackendMsg} {force : Bool}
  {b b' : Backend} {status : SendStatus}

/-! ### What a call can do -/

/-- What is left of ZeroMQ's answers after one message has been tried. -/
def afterRetry : List SendResult → List SendResult
  | [] => []
  | .accepted :: rs => rs
  | .eagain :: rs => rs
  | .eintr :: rs => afterRetry rs

@[simp] lemma insertTail_queue (q : Socket) : (q.insertTail m).queue = q.queue ++ [m] := rfl

@[simp] lemma insertTail_capacity (q : Socket) : (q.insertTail m).capacity = q.capacity := rfl

@[simp] lemma insertTail_sent (q : Socket) : (q.insertTail m).sent = q.sent := rfl

/-- ZeroMQ takes the message at once. -/
def sendNow (render : BackendMsg → List Frame) (k : SockId) (m : BackendMsg) (b : Backend) :
    Backend :=
  { b.handOver render k m with outcomes := afterRetry b.outcomes }

/-- The answers used up by a call that finds the socket stalled. -/
def giveUp (k : SockId) (b : Backend) : Backend :=
  if b.paused = false ∧ (b.socks k).queue = [] then { b with outcomes := afterRetry b.outcomes }
  else b

/-- The message is put at the end of the queue. -/
def append (k : SockId) (m : BackendMsg) (b : Backend) : Backend :=
  incref m.hybi
    { b.useMemory with
      socks := Function.update b.socks k ((b.socks k).insertTail m)
      backendQueued := b.backendQueued + 1 }

/-- A forced message finds the queue full, or there is no memory for its entry. -/
def Refuses (k : SockId) (force : Bool) (b : Backend) : Prop :=
  (force = true ∧ (b.socks k).capacity ≤ (b.socks k).queue.length) ∨ b.hasMemory = false

/-- A message is refused; a full queue does not ask for memory. -/
def decline (k : SockId) (force : Bool) (b : Backend) : Backend :=
  if force = true ∧ (b.socks k).capacity ≤ (b.socks k).queue.length then b else b.useMemory

lemma sendRetry_of_willAccept (rs : List SendResult) (h : willAccept rs = true) :
    sendRetry render k m rs b =
      (true, { b.handOver render k m with outcomes := afterRetry rs }) := by
  induction rs with
  | nil => simp [willAccept] at h
  | cons r rs ih =>
    cases r with
    | accepted => rfl
    | eagain => simp [willAccept] at h
    | eintr => exact ih h

lemma sendRetry_of_not_willAccept (rs : List SendResult) (h : willAccept rs = false) :
    sendRetry render k m rs b = (false, { b with outcomes := afterRetry rs }) := by
  induction rs with
  | nil => rfl
  | cons r rs ih =>
    cases r with
    | accepted => simp [willAccept] at h
    | eagain => rfl
    | eintr => exact ih h

lemma attempt_of_not_stalled (h : ¬ Stalled k b) :
    b.attempt render k m = (true, sendNow render k m b) := by
  simp only [Stalled, not_or, Bool.not_eq_true, Decidable.not_not, Bool.not_eq_false] at h
  obtain ⟨hp, hq, hacc⟩ := h
  rw [attempt, hp, hq, sendRetry_of_willAccept _ hacc]
  rfl

lemma attempt_of_stalled (h : Stalled k b) : b.attempt render k m = (false, giveUp k b) := by
  by_cases hready : b.paused = false ∧ (b.socks k).queue = []
  · obtain ⟨hp, hq⟩ := hready
    have hacc : willAccept b.outcomes = false := by
      rcases h with h | h | h
      · simp [hp] at h
      · exact absurd hq h
      · exact h
    have hgive : giveUp k b = { b with outcomes := afterRetry b.outcomes } := if_pos ⟨hp, hq⟩
    rw [attempt, hgive, if_pos (by simp [hp, hq]), sendRetry_of_not_willAccept _ hacc]
  · have hgive : giveUp k b = b := if_neg hready
    rw [attempt, hgive, if_neg]
    simpa using hready

lemma enqueue_of_not_refuses (h : ¬ Refuses k force b) :
    b.enqueue k m force = (.queued, append k m b) := by
  simp only [Refuses, not_or, not_and, Bool.not_eq_false] at h
  obtain ⟨hroom, hmem⟩ := h
  cases force with
  | false =>
    simp only [enqueue, queueForcePush, allocate, hmem, if_true, Bool.false_eq_true, if_false]
    rfl
  | true =>
    simp only [enqueue, queuePush, queueForcePush, allocate, if_neg (hroom rfl), hmem, if_true]
    rfl

lemma enqueue_of_refuses (h : Refuses k force b) :
    b.enqueue k m force = (.refused, decline k force b) := by
  by_cases hfull : force = true ∧ (b.socks k).capacity ≤ (b.socks k).queue.length
  · rw [decline, if_pos hfull]
    obtain ⟨rfl, hfull⟩ := hfull
    simp only [enqueue, queuePush, if_pos hfull, if_true, Bool.false_eq_true, if_false]
  · have hmem : b.hasMemory = false := h.resolve_left hfull
    rw [decline, if_neg hfull]
    cases force with
    | false => simp only [enqueue, queueForcePush, allocate, hmem, Bool.false_eq_true, if_false]
    | true =>
      have hroom : ¬ (b.socks k).queue.length ≥ (b.socks k).capacity := fun h => hfull ⟨rfl, h⟩
      simp only [enqueue, queuePush, queueForcePush, allocate, if_neg hroom, hmem, if_true,
        Bool.false_eq_true, if_false]

@[simp] lemma useMemory_socks : b.useMemory.socks = b.socks := rfl

@[simp] lemma useMemory_paused : b.useMemory.paused = b.paused := rfl

@[simp] lemma useMemory_refcnt : b.useMemory.refcnt = b.refcnt := rfl

@[simp] lemma useMemory_calls : b.useMemory.calls = b.calls := rfl

@[simp] lemma useMemory_backendQueued : b.useMemory.backendQueued = b.backendQueued := rfl

@[simp] lemma decline_socks : (decline k force b).socks = b.socks := by
  rw [decline]
  split_ifs <;> rfl

@[simp] lemma decline_paused : (decline k force b).paused = b.paused := by
  rw [decline]
  split_ifs <;> rfl

@[simp] lemma decline_refcnt : (decline k force b).refcnt = b.refcnt := by
  rw [decline]
  split_ifs <;> rfl

@[simp] lemma decline_calls : (decline k force b).calls = b.calls := by
  rw [decline]
  split_ifs <;> rfl

@[simp] lemma decline_backendQueued : (decline k force b).backendQueued = b.backendQueued := by
  rw [decline]
  split_ifs <;> rfl

@[simp] lemma giveUp_socks : (giveUp k b).socks = b.socks := by
  rw [giveUp]
  split_ifs <;> rfl

@[simp] lemma giveUp_paused : (giveUp k b).paused = b.paused := by
  rw [giveUp]
  split_ifs <;> rfl

@[simp] lemma giveUp_refcnt : (giveUp k b).refcnt = b.refcnt := by
  rw [giveUp]
  split_ifs <;> rfl

@[simp] lemma giveUp_calls : (giveUp k b).calls = b.calls := by
  rw [giveUp]
  split_ifs <;> rfl

@[simp] lemma giveUp_backendQueued : (giveUp k b).backendQueued = b.backendQueued := by
  rw [giveUp]
  split_ifs <;> rfl

@[simp] lemma giveUp_memory : (giveUp k b).memory = b.memory := by
  rw [giveUp]
  split_ifs <;> rfl

lemma hasMemory_of_not_mem (h : false ∉ b.memory) : b.hasMemory = true := by
  unfold hasMemory
  cases hm : b.memory with
  | nil => rfl
  | cons x xs =>
    rw [hm] at h
    cases x with
    | false => exact absurd List.mem_cons_self h
    | true => rfl

/-- While no allocation fails, only a full queue refuses a message. -/
lemma refuses_iff (hmem : false ∉ b.memory) :
    Refuses k force b ↔ force = true ∧ (b.socks k).capacity ≤ (b.socks k).queue.length := by
  simp [Refuses, hasMemory_of_not_mem hmem]

lemma refuses_giveUp : Refuses k force (giveUp k b) ↔ Refuses k force b := by
  simp only [Refuses, hasMemory, giveUp_socks, giveUp_memory]

/-- The state after a refused call. -/
def refused (k : SockId) (force : Bool) (b : Backend) : Backend := decline k force (giveUp k b)

/-- The state after a call that queued its message. -/
def queued (k : SockId) (m : BackendMsg) (b : Backend) : Backend := append k m (giveUp k b)

@[simp] lemma refused_socks : (refused k force b).socks = b.socks := by simp [refused]

@[simp] lemma refused_paused : (refused k force b).paused = b.paused := by simp [refused]

@[simp] lemma refused_refcnt : (refused k force b).refcnt = b.refcnt := by simp [refused]

@[simp] lemma refused_calls : (refused k force b).calls = b.calls := by simp [refused]

@[simp] lemma refused_backendQueued : (refused k force b).backendQueued = b.backendQueued := by
  simp [refused]

@[simp] lemma queued_socks : (queued k m b).socks
    = Function.update b.socks k ((b.socks k).insertTail m) := by simp [queued, append, incref]

@[simp] lemma queued_paused : (queued k m b).paused = b.paused := by simp [queued, append, incref]

@[simp] lemma queued_refcnt : (queued k m b).refcnt
    = Function.update b.refcnt m.hybi (b.refcnt m.hybi + 1) := by simp [queued, append, incref]

@[simp] lemma queued_calls : (queued k m b).calls = b.calls := by simp [queued, append, incref]

@[simp] lemma queued_backendQueued : (queued k m b).backendQueued = b.backendQueued + 1 := by
  simp [queued, append, incref]

/-- `backend_send` on a connection that is not freed: the socket's state before the call decides
which of three things happens. -/
lemma send_eq (render : BackendMsg → List Frame) (k : SockId) (m : BackendMsg) (force : Bool)
    (b : Backend) (hm : b.refcnt m.hybi ≠ 0) :
    (¬ Stalled k b ∧
      send render k m force b = .ok (.sent, (sendNow render k m b).logCall ⟨k, m, force, .sent⟩)) ∨
    (Stalled k b ∧ ¬ Refuses k force b ∧
      send render k m force b = .ok (.queued, (queued k m b).logCall ⟨k, m, force, .queued⟩)) ∨
    (Stalled k b ∧ Refuses k force b ∧
      send render k m force b
        = .ok (.refused, (refused k force b).logCall ⟨k, m, force, .refused⟩)) := by
  by_cases hst : Stalled k b
  · right
    by_cases href : Refuses k force b
    · refine Or.inr ⟨hst, href, ?_⟩
      rw [send, if_neg hm, attempt_of_stalled hst]
      simp only [Bool.false_eq_true, if_false]
      rw [enqueue_of_refuses (refuses_giveUp.mpr href)]
      rfl
    · refine Or.inl ⟨hst, href, ?_⟩
      rw [send, if_neg hm, attempt_of_stalled hst]
      simp only [Bool.false_eq_true, if_false]
      rw [enqueue_of_not_refuses (refuses_giveUp.not.mpr href)]
      rfl
  · refine Or.inl ⟨hst, ?_⟩
    rw [send, if_neg hm, attempt_of_not_stalled hst]
    simp only [if_true]

lemma decref_eq_ok {h : HybiId} :
    b.decref h = .ok b' ↔ b.refcnt h ≠ 0 ∧
      b' = { b with refcnt := Function.update b.refcnt h (b.refcnt h - 1) } := by
  rw [decref]
  split_ifs with h₀
  · simp [h₀]
  · simp [h₀, eq_comm]

/-- One round of the loop of `backend_unqueue` after ZeroMQ took the first queued message. -/
def unqueueOne (render : BackendMsg → List Frame) (k : SockId) (m : BackendMsg) (b : Backend) :
    Backend :=
  { sendNow render k m b with
    refcnt := Function.update b.refcnt m.hybi (b.refcnt m.hybi - 1)
    backendQueued := b.backendQueued - 1
    socks := Function.update b.socks k
      { b.socks k with
        sent := (b.socks k).sent ++ [⟨m, render m, b.paused⟩]
        queue := (b.socks k).queue.tail } }

lemma drain_cons (render : BackendMsg → List Frame) (k : SockId) (m : BackendMsg)
    (rest : List BackendMsg) (b : Backend) (hm : b.refcnt m.hybi ≠ 0) :
    drain render k (m :: rest) b = if willAccept b.outcomes then
      drain render k rest (unqueueOne render k m b)
      else .ok { b with outcomes := afterRetry b.outcomes } := by
  rw [drain, if_neg hm]
  by_cases hacc : willAccept b.outcomes = true
  · rw [sendRetry_of_willAccept _ hacc, if_pos hacc]
    have hdec : (sendNow render k m b).decref m.hybi = .ok
        { sendNow render k m b with
          refcnt := Function.update b.refcnt m.hybi (b.refcnt m.hybi - 1) } := if_neg hm
    change ((sendNow render k m b).decref m.hybi >>= _) = _
    rw [hdec, ok_bind]
    congr 1
    simp [unqueueOne, sendNow, handOver, Socket.queueRemove]
  · rw [sendRetry_of_not_willAccept _ (by simpa using hacc), if_neg hacc]

/-! ### Messages are delivered in order, once, and never while paused -/

/-- What ZeroMQ took from a socket, followed by what is still queued, is what `backend_send`
accepted for that socket, in order; and nothing was given to ZeroMQ during a pause. -/
structure InOrder (b : Backend) : Prop where
  order : ∀ k, (b.socks k).sent.map Sent.msg ++ (b.socks k).queue = acceptedOn k b.calls
  unpaused : ∀ k, ∀ x ∈ (b.socks k).sent, x.paused = false

lemma acceptedOn_append (j : SockId) (cs : List Call) (c : Call) :
    acceptedOn j (cs ++ [c]) = acceptedOn j cs ++
      if c.sock = j ∧ c.status ≠ .refused then [c.msg] else [] := by
  simp only [acceptedOn, List.filter_append, List.map_append]
  congr 1
  by_cases h : c.sock = j ∧ c.status ≠ .refused
  · simp [h]
  · rw [if_neg h]
    simpa using h

/-- ZeroMQ has taken no more messages of a kind than were accepted. -/
lemma InOrder.countP_sent_le (hb : InOrder b) (k : SockId) (p : BackendMsg → Bool) :
    (b.socks k).sent.countP (fun x => p x.msg)
      ≤ b.calls.countP fun c => p c.msg && c.status != .refused := by
  have horder := congrArg (List.countP p) (hb.order k)
  rw [List.countP_append, acceptedOn, List.countP_map, List.countP_map,
    List.countP_filter] at horder
  refine (Nat.le_add_right _ _).trans (horder.le.trans (List.countP_mono_left fun c _ hc => ?_))
  simp only [Function.comp_apply, Bool.and_eq_true] at hc ⊢
  exact ⟨hc.1, hc.2.2⟩

lemma InOrder.of_eq (hb : InOrder b) (hs : b'.socks = b.socks) (hc : b'.calls = b.calls) :
    InOrder b' :=
  ⟨fun j => by rw [hs, hc]; exact hb.order j, fun j => by rw [hs]; exact hb.unpaused j⟩

lemma InOrder.sendNow (hb : InOrder b) (hst : ¬ Stalled k b) :
    InOrder ((sendNow render k m b).logCall ⟨k, m, force, .sent⟩) := by
  simp only [Stalled, not_or, Bool.not_eq_true, Decidable.not_not] at hst
  obtain ⟨hp, hq, -⟩ := hst
  constructor
  · intro j
    have horder := hb.order j
    by_cases hj : j = k
    · subst hj
      rw [hq, List.append_nil] at horder
      simp [Backend.sendNow, handOver, logCall, acceptedOn_append, hq, horder]
    · simp [Backend.sendNow, handOver, logCall, acceptedOn_append, hj, Ne.symm hj, horder]
  · intro j x hx
    by_cases hj : j = k
    · subst hj
      simp only [Backend.sendNow, handOver, logCall, Function.update_self, List.mem_append,
        List.mem_singleton] at hx
      rcases hx with hx | rfl
      · exact hb.unpaused j x hx
      · exact hp
    · simp only [Backend.sendNow, handOver, logCall, Function.update_of_ne hj] at hx
      exact hb.unpaused j x hx

lemma InOrder.queued (hb : InOrder b) :
    InOrder ((queued k m b).logCall ⟨k, m, force, .queued⟩) := by
  constructor
  · intro j
    have horder := hb.order j
    by_cases hj : j = k
    · subst hj
      simp [logCall, acceptedOn_append, ← horder]
    · simp [logCall, acceptedOn_append, hj, Ne.symm hj, horder]
  · intro j x hx
    by_cases hj : j = k
    · subst hj
      simp only [logCall, queued_socks, Function.update_self, insertTail_sent] at hx
      exact hb.unpaused j x hx
    · simp only [logCall, queued_socks, Function.update_of_ne hj] at hx
      exact hb.unpaused j x hx

lemma InOrder.refused (hb : InOrder b) :
    InOrder ((refused k force b).logCall ⟨k, m, force, .refused⟩) := by
  refine ⟨fun j => ?_, fun j => by simpa [logCall] using hb.unpaused j⟩
  rw [logCall, acceptedOn_append, if_neg (by simp), List.append_nil]
  simpa using hb.order j

lemma InOrder.send (hb : InOrder b) (h : send render k m force b = .ok (status, b')) :
    InOrder b' := by
  by_cases hm : b.refcnt m.hybi = 0
  · rw [Backend.send, if_pos hm] at h
    cases h
  · rcases send_eq render k m force b hm with ⟨hst, he⟩ | ⟨_, _, he⟩ | ⟨_, _, he⟩
    · rw [he] at h
      cases h
      exact hb.sendNow hst
    · rw [he] at h
      cases h
      exact hb.queued
    · rw [he] at h
      cases h
      exact hb.refused

lemma InOrder.unqueueOne (hb : InOrder b) (hp : b.paused = false) {rest : List BackendMsg}
    (hq : (b.socks k).queue = m :: rest) : InOrder (unqueueOne render k m b) := by
  constructor
  · intro j
    have horder := hb.order j
    by_cases hj : j = k
    · subst hj
      simp [Backend.unqueueOne, Backend.sendNow, handOver, ← horder, hq]
    · simp [Backend.unqueueOne, Backend.sendNow, handOver, hj, horder]
  · intro j x hx
    by_cases hj : j = k
    · subst hj
      simp only [Backend.unqueueOne, Function.update_self, List.mem_append,
        List.mem_singleton] at hx
      rcases hx with hx | rfl
      · exact hb.unpaused j x hx
      · exact hp
    · simp only [Backend.unqueueOne, Function.update_of_ne hj] at hx
      exact hb.unpaused j x hx

lemma InOrder.drain {ms : List BackendMsg} (hb : InOrder b) (hp : b.paused = false)
    (hq : (b.socks k).queue = ms) (h : drain render k ms b = .ok b') : InOrder b' := by
  induction ms generalizing b with
  | nil =>
    cases h
    exact hb
  | cons m rest ih =>
    by_cases hm : b.refcnt m.hybi = 0
    · rw [Backend.drain, if_pos hm] at h
      cases h
    · rw [drain_cons render k m rest b hm] at h
      split_ifs at h with hacc
      · exact ih (hb.unqueueOne hp hq) hp (by simp [Backend.unqueueOne, hq]) h
      · cases h
        exact hb.of_eq rfl rfl

lemma InOrder.unqueue {pollout : Bool} (hb : InOrder b)
    (h : unqueue render k pollout b = .ok b') : InOrder b' := by
  unfold Backend.unqueue at h
  split_ifs at h with hc
  · simp only [Bool.and_eq_true, Bool.not_eq_true'] at hc
    exact hb.drain hc.2 rfl h
  · cases h
    exact hb

lemma InOrder.step {i : Input} (hb : InOrder b) (h : step i b = .ok b') : InOrder b' := by
  have hb₀ : InOrder { b with outcomes := i.outcomes, memory := i.memory } :=
    hb.of_eq rfl rfl
  unfold Backend.step at h
  cases hop : i.op with
  | start x =>
    simp only [hop] at h
    cases h
    exact hb₀.of_eq rfl rfl
  | release x =>
    simp only [hop] at h
    obtain ⟨-, rfl⟩ := decref_eq_ok.mp h
    exact hb₀.of_eq rfl rfl
  | send render k m force =>
    simp only [hop] at h
    obtain ⟨⟨status, b₁⟩, hsend, he⟩ := bind_eq_ok.mp h
    cases he
    exact hb₀.send hsend
  | unqueue render k pollout =>
    simp only [hop] at h
    exact hb₀.unqueue h
  | pause on =>
    simp only [hop] at h
    cases h
    exact hb₀.of_eq rfl rfl

lemma InOrder.init (capacity : SockId → Nat) : InOrder (Backend.init capacity) :=
  ⟨fun _ => rfl, fun _ _ hx => by cases hx⟩

lemma refcnt_of_send (h : send render k m force b = .ok (status, b')) :
    b.refcnt m.hybi ≠ 0 := by
  intro hm
  rw [send, if_pos hm] at h
  cases h

/-- A call is recorded with the status it returns. -/
lemma calls_of_send (h : send render k m force b = .ok (status, b')) :
    b'.calls = b.calls ++ [⟨k, m, force, status⟩] := by
  rcases send_eq render k m force b (refcnt_of_send h) with ⟨_, he⟩ | ⟨_, _, he⟩ | ⟨_, _, he⟩
  · cases he.symm.trans h
    rfl
  · cases he.symm.trans h
    simp [logCall]
  · cases he.symm.trans h
    simp [logCall]

lemma drain_shrinks {ms : List BackendMsg} (h : drain render k ms b = .ok b') :
    b'.calls = b.calls ∧ ∀ j, (b'.socks j).capacity = (b.socks j).capacity ∧
      (b'.socks j).queue.length ≤ (b.socks j).queue.length := by
  induction ms generalizing b with
  | nil =>
    cases h
    exact ⟨rfl, fun j => ⟨rfl, le_rfl⟩⟩
  | cons m rest ih =>
    by_cases hm : b.refcnt m.hybi = 0
    · rw [drain, if_pos hm] at h
      cases h
    · rw [drain_cons render k m rest b hm] at h
      split_ifs at h with hacc
      · obtain ⟨hcalls, hsocks⟩ := ih h
        refine ⟨hcalls, fun j => ?_⟩
        obtain ⟨hcap, hlen⟩ := hsocks j
        rw [hcap]
        by_cases hj : j = k
        · subst hj
          simp only [unqueueOne, Function.update_self, List.length_tail] at hlen ⊢
          exact ⟨trivial, by omega⟩
        · simp only [unqueueOne, Function.update_of_ne hj] at hlen ⊢
          exact ⟨trivial, hlen⟩
      · cases h
        exact ⟨rfl, fun j => ⟨rfl, le_rfl⟩⟩

lemma calls_of_unqueue {pollout : Bool} (h : unqueue render k pollout b = .ok b') :
    b'.calls = b.calls := by
  unfold unqueue at h
  split_ifs at h
  · exact (drain_shrinks h).1
  · cases h
    rfl

/-- The call of `backend_send` that an operation makes, if it returned `status`. -/
def Input.call (i : Input) (status : SendStatus) : List Call :=
  match i.op with
  | .send _ k m force => [⟨k, m, force, status⟩]
  | _ => []

/-- What an operation returns: for `backend_send` the status it returns, which `step` drops. -/
def Input.Returns (i : Input) (b : Backend) (status : SendStatus) : Prop :=
  match i.op with
  | .send render k m force =>
    ∃ b', { b with outcomes := i.outcomes, memory := i.memory }.send render k m force
      = .ok (status, b')
  | _ => True

/-- `calls` grows by the call of `backend_send` that a step makes, with the status it returned, and
by nothing else. -/
lemma calls_of_step {i : Input} (hr : i.Returns b status) (h : step i b = .ok b') :
    b'.calls = b.calls ++ i.call status := by
  obtain ⟨op, outcomes, memory⟩ := i
  cases op with
  | start x =>
    cases h
    exact (List.append_nil _).symm
  | release x =>
    obtain ⟨-, rfl⟩ := decref_eq_ok.mp h
    exact (List.append_nil _).symm
  | send render k m force =>
    obtain ⟨b₁, hb₁⟩ := hr
    obtain ⟨⟨status', b₂⟩, hsend, he⟩ := bind_eq_ok.mp h
    cases hb₁.symm.trans hsend
    cases he
    have hcalls := calls_of_send hb₁
    exact hcalls
  | unqueue render k pollout =>
    exact (calls_of_unqueue h).trans (List.append_nil _).symm
  | pause on =>
    cases h
    exact (List.append_nil _).symm

/-- In every run, the messages ZeroMQ took from a socket followed by the messages in its queue are
exactly the accepted ones in the order of acceptance, and none of them was given to ZeroMQ while
websockets were paused. A message counts as accepted by the status its call of `backend_send`
returned, whatever the call is. -/
theorem delivered_in_order {capacity : SockId → Nat}
    (h : Reachable Backend.step (Backend.init capacity) b) (k : SockId) :
    (b.socks k).sent.map Sent.msg ++ (b.socks k).queue = acceptedOn k b.calls ∧
      (∀ x ∈ (b.socks k).sent, x.paused = false) ∧
      ∀ i status b', i.Returns b status → Backend.step i b = .ok b' →
        b'.calls = b.calls ++ i.call status := by
  have hb := h.invariant (I := InOrder) (InOrder.init capacity) fun _ _ _ _ hs h => hs.step h
  exact ⟨hb.order k, hb.unpaused k, fun _ _ _ => calls_of_step⟩

/-- A connect message that waits out a pause is delivered before the disconnect queued behind it,
and a message for which there is no memory is not delivered. -/
theorem delivered_in_order_pause :
    ∃ b, Reachable Backend.step (Backend.init fun _ => 1) b ∧
      (b.socks (.forward 0)).sent.map Sent.msg = [⟨7, .connect⟩, ⟨7, .disconnect⟩] ∧
      b.calls.map Call.status = [.queued, .refused, .queued] ∧
      (b.socks (.forward 0)).sent.map Sent.msg ++ (b.socks (.forward 0)).queue
        = acceptedOn (.forward 0) b.calls := by
  have hrun : Reachable Backend.step (Backend.init fun _ => 1) _ :=
    .step (i := ⟨.unqueue (fun _ => []) (.forward 0) true, [.eintr, .accepted, .accepted], []⟩)
      (.step (i := ⟨.pause false, [], []⟩)
        (.step (i := ⟨.send (fun _ => []) (.forward 0) ⟨7, .disconnect⟩ false, [], []⟩)
          (.step (i := ⟨.send (fun _ => []) (.forward 0) ⟨7, .message []⟩ false, [], [false]⟩)
            (.step (i := ⟨.send (fun _ => []) (.forward 0) ⟨7, .connect⟩ false, [], []⟩)
              (.step (i := ⟨.pause true, [], []⟩)
                (.step (i := ⟨.start 7, [], []⟩) .init trivial rfl) trivial rfl) trivial rfl)
            trivial rfl) trivial rfl) trivial rfl) trivial rfl
  exact ⟨_, hrun, rfl, rfl, (delivered_in_order hrun (.forward 0)).1⟩

/-! ### The queue limit -/

/-- What the queue limit promises for one call on a socket that cannot send: an ordinary message is
refused without effect once `max-backend-queue` messages wait, and every other message is appended,
forced ones always. -/
def LimitRule (render : BackendMsg → List Frame) (k : SockId) (m : BackendMsg) (force : Bool)
    (b : Backend) : Prop :=
  ∃ status b', send render k m force b = .ok (status, b') ∧
    if force = false ∧ (b.socks k).capacity ≤ (b.socks k).queue.length then
      status = .refused ∧ b'.socks = b.socks ∧ b'.backendQueued = b.backendQueued ∧
        b'.refcnt = b.refcnt
    else
      status = .queued ∧
        b'.socks = Function.update b.socks k
          { b.socks k with queue := (b.socks k).queue ++ [m] } ∧
        b'.backendQueued = b.backendQueued + 1 ∧
        b'.refcnt = Function.update b.refcnt m.hybi (b.refcnt m.hybi + 1)

/-- `backend_send` keeps the rule exactly while there is room: the two pushes are swapped, so at the
limit ordinary messages are appended and forced ones refused. -/
lemma limitRule_iff (hm : b.refcnt m.hybi ≠ 0) (hst : Stalled k b) (hmem : false ∉ b.memory) :
    LimitRule render k m force b ↔ (b.socks k).queue.length < (b.socks k).capacity := by
  rcases send_eq render k m force b hm with ⟨hn, _⟩ | ⟨_, href, he⟩ | ⟨_, href, he⟩
  · exact absurd hst hn
  · constructor
    · rintro ⟨status, b', hs, hrule⟩
      rw [he] at hs
      cases hs
      by_contra hfull
      split_ifs at hrule with hc
      · cases hrule.1
      · cases force with
        | false => exact hc ⟨rfl, by omega⟩
        | true => exact href (Or.inl ⟨rfl, by omega⟩)
    · intro hlt
      refine ⟨_, _, he, ?_⟩
      rw [if_neg (by omega)]
      simp [logCall, Socket.insertTail]
  · obtain ⟨rfl, hfull⟩ := (refuses_iff hmem).mp href
    constructor
    · rintro ⟨status, b', hs, hrule⟩
      rw [he] at hs
      cases hs
      rw [if_neg (by simp)] at hrule
      cases hrule.1
    · intro hlt
      omega

/-- No allocation fails, and a call of `backend_send` that cannot send finds room in the queue. -/
def HasRoom (i : Input) (b : Backend) : Prop :=
  false ∉ i.memory ∧
  match i.op with
  | .send _ k _ _ =>
    Stalled k { b with outcomes := i.outcomes } →
      (b.socks k).queue.length < (b.socks k).capacity
  | _ => True

/-- Nothing has been refused so far, and no queue is longer than its limit. -/
structure WithinLimit (b : Backend) : Prop where
  accepted : ∀ c ∈ b.calls, c.status ≠ .refused
  bounded : ∀ k, (b.socks k).queue.length ≤ (b.socks k).capacity

lemma WithinLimit.of_shrinks (hb : WithinLimit b) (hc : b'.calls = b.calls)
    (hs : ∀ j, (b'.socks j).capacity = (b.socks j).capacity ∧
      (b'.socks j).queue.length ≤ (b.socks j).queue.length) : WithinLimit b' := by
  refine ⟨by rw [hc]; exact hb.accepted, fun j => ?_⟩
  obtain ⟨hcap, hlen⟩ := hs j
  exact hcap ▸ hlen.trans (hb.bounded j)

lemma WithinLimit.logCall (hb : WithinLimit b) {c : Call} (hc : c.status ≠ .refused) :
    WithinLimit (b.logCall c) := by
  refine ⟨fun x hx => ?_, hb.bounded⟩
  rcases List.mem_append.mp hx with hx | hx
  · exact hb.accepted x hx
  · rw [List.mem_singleton.mp hx]
    exact hc

lemma WithinLimit.queued (hb : WithinLimit b)
    (hroom : (b.socks k).queue.length < (b.socks k).capacity) : WithinLimit (queued k m b) := by
  refine ⟨by simpa using hb.accepted, fun j => ?_⟩
  by_cases hj : j = k
  · subst hj
    simp only [queued_socks, Function.update_self, insertTail_queue, insertTail_capacity,
      List.length_append, List.length_singleton]
    omega
  · simp only [queued_socks, Function.update_of_ne hj]
    exact hb.bounded j

lemma WithinLimit.sendNow (hb : WithinLimit b) : WithinLimit (sendNow render k m b) := by
  refine hb.of_shrinks rfl fun j => ?_
  by_cases hj : j = k
  · subst hj
    simp [Backend.sendNow, handOver]
  · simp [Backend.sendNow, handOver, hj]

lemma WithinLimit.send (hb : WithinLimit b) (hmem : false ∉ b.memory)
    (hroom : Stalled k b → (b.socks k).queue.length < (b.socks k).capacity)
    (h : send render k m force b = .ok (status, b')) : WithinLimit b' := by
  by_cases hm : b.refcnt m.hybi = 0
  · rw [Backend.send, if_pos hm] at h
    cases h
  · rcases send_eq render k m force b hm with ⟨_, he⟩ | ⟨hst, _, he⟩ | ⟨hst, href, _⟩
    · rw [he] at h
      cases h
      exact hb.sendNow.logCall (by simp)
    · rw [he] at h
      cases h
      exact (hb.queued (hroom hst)).logCall (by simp)
    · obtain ⟨-, hfull⟩ := (refuses_iff hmem).mp href
      exact absurd hfull (Nat.not_le.mpr (hroom hst))

lemma WithinLimit.step {i : Input} (hb : WithinLimit b) (hroom : HasRoom i b)
    (h : step i b = .ok b') : WithinLimit b' := by
  obtain ⟨hmem, hroom⟩ := hroom
  have hb₀ : WithinLimit { b with outcomes := i.outcomes, memory := i.memory } :=
    hb.of_shrinks rfl fun _ => ⟨rfl, le_rfl⟩
  unfold Backend.step at h
  cases hop : i.op with
  | start x =>
    simp only [hop] at h
    cases h
    exact hb₀.of_shrinks rfl fun _ => ⟨rfl, le_rfl⟩
  | release x =>
    simp only [hop] at h
    obtain ⟨-, rfl⟩ := decref_eq_ok.mp h
    exact hb₀.of_shrinks rfl fun _ => ⟨rfl, le_rfl⟩
  | send render k m force =>
    simp only [hop] at h
    obtain ⟨⟨status, b₁⟩, hsend, he⟩ := bind_eq_ok.mp h
    cases he
    simp only [hop] at hroom
    exact hb₀.send hmem hroom hsend
  | unqueue render k pollout =>
    simp only [hop, unqueue] at h
    split_ifs at h with hc
    · obtain ⟨hcalls, hsocks⟩ := drain_shrinks h
      exact hb₀.of_shrinks hcalls hsocks
    · cases h
      exact hb₀
  | pause on =>
    simp only [hop] at h
    cases h
    exact hb₀.of_shrinks rfl fun _ => ⟨rfl, le_rfl⟩

/-- In a run in which no allocation fails and every call of `backend_send` that cannot send finds
room, nothing is ever refused, and no queue grows beyond `max-backend-queue`. -/
lemma withinLimit_of_hasRoom {capacity : SockId → Nat}
    (h : ReachableVia Backend.step HasRoom (Backend.init capacity) b) : WithinLimit b :=
  h.invariant (I := WithinLimit) ⟨fun _ hc => absurd hc (List.not_mem_nil), fun _ => Nat.zero_le _⟩
    fun _ _ _ hroom hs hstep => hs.step hroom hstep

end Backend

end Zerogw
