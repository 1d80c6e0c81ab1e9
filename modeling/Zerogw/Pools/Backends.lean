import Zerogw.Pools.Runs
import Zerogw.Backend.Properties

/-!
# The queues of the backend sockets in memory

`Backend` keeps the queue of a socket as a list. Here `backend_send` and `backend_unqueue` work on
the items of `msgqueue.c` instead, which come from one pool behind all sockets: they look at `size`,
follow the pointers, and get no item when the pool is empty and `malloc` has no memory. Both
versions do the same in every run.
-/

namespace Zerogw

open Execution Intrusive
open Pools (access)

/-- `Backend` with its queues in memory: `pool` is the `backend_pool` with the queues over it, and
`sent` is what ZeroMQ has taken. -/
structure PooledBackend where
  pool : Pools SockId BackendMsg
  paused : Bool
  sent : SockId → List Sent
  refcnt : HybiId → Nat
  backendQueued : Nat
  outcomes : List SendResult
  calls : List Call

namespace PooledBackend

/-- `hybi_INCREF` -/
def incref (h : HybiId) (p : PooledBackend) : PooledBackend :=
  { p with refcnt := Function.update p.refcnt h (p.refcnt h + 1) }

/-- `hybi_DECREF` -/
def decref (h : HybiId) (p : PooledBackend) : Except Fault PooledBackend :=
  if p.refcnt h = 0 then .error .useAfterFree
  else .ok { p with refcnt := Function.update p.refcnt h (p.refcnt h - 1) }

/-- ZeroMQ takes all frames of `m`. -/
def handOver (render : BackendMsg → List Frame) (k : SockId) (m : BackendMsg) (p : PooledBackend) :
    PooledBackend :=
  { p with sent := Function.update p.sent k (p.sent k ++ [⟨m, render m, p.paused⟩]) }

/-- `backend_send_real` in the retry loop of its callers. -/
def sendRetry (render : BackendMsg → List Frame) (k : SockId) (m : BackendMsg) :
    List SendResult → PooledBackend → Bool × PooledBackend
  | [], p => (false, { p with outcomes := [] })
  | .accepted :: rs, p => (true, { p.handOver render k m with outcomes := rs })
  | .eagain :: rs, p => (false, { p with outcomes := rs })
  | .eintr :: rs, p => sendRetry render k m rs p

/-- The loop of `backend_send`. -/
def attempt (render : BackendMsg → List Frame) (k : SockId) (m : BackendMsg) (p : PooledBackend) :
    Bool × PooledBackend :=
  if !p.paused && (p.pool.queue k).size == 0 then sendRetry render k m p.outcomes p
  else (false, p)

/-- The part of `backend_send` behind its loop; `ok` tells whether `malloc` has memory. -/
def enqueue (ok : Bool) (k : SockId) (m : BackendMsg) (force : Bool) (p : PooledBackend) :
    Except Fault (SendStatus × PooledBackend) := do
  let (q, pool) ← access (if force then p.pool.queuePush ok k else p.pool.queueForcePush ok k)
  match q with
  | none => .ok (.refused, { p with pool })
  | some item =>
    let pool ← access (Pools.fill m (some item, pool))
    .ok (.queued, incref m.hybi { p with pool, backendQueued := p.backendQueued + 1 })

/-- The record of a finished call. -/
def logCall (c : Call) (p : PooledBackend) : PooledBackend := { p with calls := p.calls ++ [c] }

/-- `backend_send` -/
def send (ok : Bool) (render : BackendMsg → List Frame) (k : SockId) (m : BackendMsg) (force : Bool)
    (p : PooledBackend) : Except Fault (SendStatus × PooledBackend) :=
  if p.refcnt m.hybi = 0 then .error .useAfterFree
  else do
    let (handed, p₁) := p.attempt render k m
    let (status, p₂) ← if handed then .ok (.sent, p₁) else p₁.enqueue ok k m force
    .ok (status, p₂.logCall ⟨k, m, force, status⟩)

/-- The loop of `backend_unqueue` from the item `cur` on. The number bounds the items. -/
def drain (render : BackendMsg → List Frame) (k : SockId) :
    Nat → Option Nat → PooledBackend → Except Fault PooledBackend
  | _, none, p => .ok p
  | 0, some _, _ => .error .endless
  | fuel + 1, some cur, p => do
    let nxt ← access (p.pool.memory.load (.link cur))
    let m ← access (p.pool.memory.loadValue cur)
    if p.refcnt m.hybi = 0 then .error .useAfterFree
    else match p.sendRetry render k m p.outcomes with
      | (false, p₁) => .ok p₁
      | (true, p₁) => do
        let p₂ ← p₁.decref m.hybi
        let pool ← access (p₂.pool.queueRemove k cur)
        drain render k fuel nxt { p₂ with pool, backendQueued := p₂.backendQueued - 1 }

/-- `backend_unqueue` -/
def unqueue (render : BackendMsg → List Frame) (k : SockId) (pollout : Bool) (p : PooledBackend) :
    Except Fault PooledBackend :=
  if pollout && (p.pool.queue k).size != 0 && !p.paused then do
    let first ← access (p.pool.memory.load (.head (some k)))
    p.drain render k p.pool.memory.next first
  else .ok p

/-- An operation, the answers ZeroMQ gives while it runs, and whether `malloc` has memory. -/
structure Input where
  op : Backend.Op
  outcomes : List SendResult
  ok : Bool

def init (maxFree : Nat) (capacity : SockId → Nat) : PooledBackend where
  pool := Pools.init maxFree fun k => some (capacity k)
  paused := false
  sent _ := []
  refcnt _ := 0
  backendQueued := 0
  outcomes := []
  calls := []

def step (i : Input) (p : PooledBackend) : Except Fault PooledBackend :=
  let p₀ := { p with outcomes := i.outcomes }
  match i.op with
  | .start h => .ok { p₀ with refcnt := Function.update p.refcnt h 1 }
  | .release h => p₀.decref h
  | .send render k m force => do
    let (_, p₁) ← p₀.send i.ok render k m force
    return p₁
  | .unqueue render k pollout => p₀.unqueue render k pollout
  | .pause on => .ok { p₀ with paused := on }

/-! ### What is in memory -/

/-- The sockets with the lists that are in memory. -/
def abs (p : PooledBackend) : Backend where
  paused := p.paused
  socks k := ⟨(p.pool.contents k).getD [], (p.pool.queue k).capacity, p.sent k⟩
  refcnt := p.refcnt
  backendQueued := p.backendQueued
  outcomes := p.outcomes
  memory := []
  calls := p.calls

/-- The input as the version with lists sees it: an item is there if the pool has a free one or
`malloc` has memory. -/
def Input.seen (i : Input) (p : PooledBackend) : Backend.Input :=
  ⟨i.op, i.outcomes, [decide (p.pool.currentFree ≠ 0 ∨ i.ok)]⟩

end PooledBackend

/-- The allocations that are still to come do not matter between two calls. -/
def Backend.forget (b : Backend) : Backend := { b with memory := [] }

namespace PooledBackend

/-- The memory holds the queues of the backend, and everything else is the same. -/
structure Stores (p : PooledBackend) (b : Backend) : Prop where
  settled : ∃ o f L, Pools.Settled o f L p.pool
  contents : ∀ k, p.pool.contents k = some (b.socks k).queue
  capacity : ∀ k, (p.pool.queue k).capacity = (b.socks k).capacity
  sent : ∀ k, p.sent k = (b.socks k).sent
  paused : p.paused = b.paused
  refcnt : p.refcnt = b.refcnt
  backendQueued : p.backendQueued = b.backendQueued
  outcomes : p.outcomes = b.outcomes
  calls : p.calls = b.calls

variable {p p' : PooledBackend} {b b' : Backend} {k : SockId} {m : BackendMsg} {ok : Bool}
  {render : BackendMsg → List Frame} {force : Bool}

lemma Stores.abs_eq (h : Stores p b) : p.abs = b.forget := by
  obtain ⟨-, hcontents, hcapacity, hsent, hpaused, hrefcnt, hqueued, houtcomes, hcalls⟩ := h
  have hsocks : p.abs.socks = b.socks := by
    funext k
    simp only [abs, hcontents, hcapacity, hsent, Option.getD_some]
  rw [Backend.forget, ← hsocks, ← hpaused, ← hrefcnt, ← hqueued, ← houtcomes, ← hcalls]
  rfl

/-- The lists that are in memory are those that are in memory. -/
lemma Stores.of_abs (h : Stores p b) : Stores p p.abs := by
  rw [h.abs_eq]
  exact ⟨h.settled, h.contents, h.capacity, h.sent, h.paused, h.refcnt, h.backendQueued, h.outcomes,
    h.calls⟩

/-- A queue counts its items. -/
lemma Stores.size_eq (h : Stores p b) (k : SockId) :
    (p.pool.queue k).size = (b.socks k).queue.length := by
  obtain ⟨o, f, L, hsettled⟩ := h.settled
  exact hsettled.size_eq (h.contents k)

lemma Stores.empty_iff (h : Stores p b) (k : SockId) :
    ((p.pool.queue k).size == 0) = (b.socks k).queue.isEmpty := by
  rw [h.size_eq]
  cases (b.socks k).queue <;> rfl

/-- The head of every queue is in memory. -/
lemma Stores.opened (h : Stores p b) (k : SockId) : p.pool.memory.opened (some k) = true := by
  obtain ⟨o, f, L, hsettled⟩ := h.settled
  have hcontents := h.contents k
  rw [hsettled.contents_eq] at hcontents
  obtain ⟨l, hl, -⟩ := Option.bind_eq_some_iff.mp hcontents
  rw [hsettled.opened, hl]
  rfl

/-! ### The functions -/

lemma Stores.handOver (h : Stores p b) :
    Stores (p.handOver render k m) (b.handOver render k m) := by
  refine ⟨h.settled, fun j => ?_, fun j => ?_, fun j => ?_, h.paused, h.refcnt, h.backendQueued,
    h.outcomes, h.calls⟩
  · by_cases hj : j = k
    · simpa [PooledBackend.handOver, Backend.handOver, hj] using h.contents k
    · simpa [PooledBackend.handOver, Backend.handOver, hj] using h.contents j
  · by_cases hj : j = k
    · simpa [PooledBackend.handOver, Backend.handOver, hj] using h.capacity k
    · simpa [PooledBackend.handOver, Backend.handOver, hj] using h.capacity j
  · by_cases hj : j = k
    · simp [PooledBackend.handOver, Backend.handOver, hj, h.sent, h.paused]
    · simp [PooledBackend.handOver, Backend.handOver, hj, h.sent]

lemma Stores.setOutcomes (h : Stores p b) (rs : List SendResult) :
    Stores { p with outcomes := rs } { b with outcomes := rs } :=
  ⟨h.settled, h.contents, h.capacity, h.sent, h.paused, h.refcnt, h.backendQueued, rfl, h.calls⟩

lemma Stores.sendRetry (h : Stores p b) (render : BackendMsg → List Frame) (k : SockId)
    (m : BackendMsg) (rs : List SendResult) :
    (p.sendRetry render k m rs).1 = (b.sendRetry render k m rs).1 ∧
      Stores (p.sendRetry render k m rs).2 (b.sendRetry render k m rs).2 ∧
      (p.sendRetry render k m rs).2.pool = p.pool := by
  induction rs with
  | nil => exact ⟨rfl, h.setOutcomes [], rfl⟩
  | cons r rs ih =>
    cases r with
    | accepted => exact ⟨rfl, h.handOver.setOutcomes rs, rfl⟩
    | eagain => exact ⟨rfl, h.setOutcomes rs, rfl⟩
    | eintr => exact ih

/-- Both versions find the socket free or not, and the queues are left alone. -/
lemma Stores.attempt (h : Stores p b) (render : BackendMsg → List Frame) (k : SockId)
    (m : BackendMsg) :
    (p.attempt render k m).1 = (b.attempt render k m).1 ∧
      Stores (p.attempt render k m).2 (b.attempt render k m).2 ∧
      (p.attempt render k m).2.pool = p.pool := by
  rw [PooledBackend.attempt, Backend.attempt, h.empty_iff, h.paused, h.outcomes]
  split_ifs
  · exact h.sendRetry render k m _
  · exact ⟨rfl, h, rfl⟩

lemma attempt_memory : (b.attempt render k m).2.memory = b.memory := by
  by_cases hst : Backend.Stalled k b
  · rw [Backend.attempt_of_stalled hst]
    exact Backend.giveUp_memory
  · rw [Backend.attempt_of_not_stalled hst]
    rfl

/-- The item of a message that is queued. -/
lemma Stores.append {pool : Pools SockId BackendMsg} (h : Stores p b)
    (hsettled : ∃ o f L, Pools.Settled o f L pool)
    (hcontents : pool.contents
      = Function.update p.pool.contents k ((p.pool.contents k).map (· ++ [m])))
    (hcapacity : ∀ j, (pool.queue j).capacity = (p.pool.queue j).capacity) :
    Stores (incref m.hybi { p with pool, backendQueued := p.backendQueued + 1 })
      (Backend.append k m b) := by
  refine ⟨hsettled, fun j => ?_, fun j => ?_, fun j => ?_, h.paused, ?_, ?_, h.outcomes, h.calls⟩
  · by_cases hj : j = k
    · simp [incref, Backend.append, Backend.incref, hcontents, hj, h.contents]
    · simp [incref, Backend.append, Backend.incref, hcontents, hj, h.contents]
  · refine (hcapacity j).trans ((h.capacity j).trans ?_)
    by_cases hj : j = k
    · simp [Backend.append, Backend.incref, hj]
    · simp [Backend.append, Backend.incref, hj]
  · refine (h.sent j).trans ?_
    by_cases hj : j = k
    · simp [Backend.append, Backend.incref, hj]
    · simp [Backend.append, Backend.incref, hj]
  · simp [incref, Backend.append, Backend.incref, h.refcnt]
  · simp [incref, Backend.append, Backend.incref, h.backendQueued]

/-- `queue_push` and `queue_force_push` give an item exactly if the list grows. -/
lemma Stores.enqueue (h : Stores p b) (k : SockId) (m : BackendMsg) (force : Bool)
    (hmem : b.hasMemory = decide (p.pool.currentFree ≠ 0 ∨ ok)) :
    ∃ p', p.enqueue ok k m force = .ok ((b.enqueue k m force).1, p') ∧
      Stores p' (b.enqueue k m force).2 := by
  by_cases hfull : force = true ∧ (b.socks k).capacity ≤ (b.socks k).queue.length
  · have hsize : (p.pool.queue k).size ≥ (p.pool.queue k).capacity := by
      rw [h.size_eq, h.capacity]
      exact hfull.2
    rw [Backend.enqueue_of_refuses (Or.inl hfull), Backend.decline, if_pos hfull]
    refine ⟨p, ?_, h⟩
    rw [PooledBackend.enqueue, if_pos hfull.1, Pools.queuePush, if_pos hsize]
    rfl
  · have hpush : (if force then p.pool.queuePush ok k else p.pool.queueForcePush ok k)
        = p.pool.queueForcePush ok k := by
      cases force with
      | false => rfl
      | true =>
        have hroom : ¬ (p.pool.queue k).size ≥ (p.pool.queue k).capacity := by
          rw [h.size_eq, h.capacity]
          exact fun hle => hfull ⟨rfl, hle⟩
        rw [if_pos rfl, Pools.queuePush, if_neg hroom]
    rw [PooledBackend.enqueue, hpush]
    obtain ⟨o, f, L, hsettled⟩ := h.settled
    rcases hsettled.forcePush_spec ok (h.opened k) m with ⟨hnone, hempty, hok⟩ |
        ⟨item, pool, o', f', L', pool', hsome, hfill, hgranted, hsettled', heffect⟩
    · have hmem' : b.hasMemory = false := by simp [hmem, hempty, hok]
      rw [Backend.enqueue_of_refuses (Or.inr hmem'), Backend.decline, if_neg hfull, hnone]
      exact ⟨p, rfl, h.settled, h.contents, h.capacity, h.sent, h.paused, h.refcnt, h.backendQueued,
        h.outcomes, h.calls⟩
    · have hroom : ¬ Backend.Refuses k force b := by
        rintro (hle | hmem')
        · exact hfull hle
        · rw [hmem] at hmem'
          exact absurd hgranted (of_decide_eq_false hmem')
      rw [Backend.enqueue_of_not_refuses hroom, hsome]
      refine ⟨incref m.hybi { p with pool := pool', backendQueued := p.backendQueued + 1 }, ?_,
        h.append ⟨o', f', L', hsettled'⟩ ?_ heffect.capacity⟩
      · simp only [access, ok_bind, hfill]
      · rw [heffect.contents, Pools.expected]
        simp only
        rw [if_pos hgranted]

lemma Stores.logCall (h : Stores p b) (c : Call) : Stores (p.logCall c) (b.logCall c) := by
  obtain ⟨hsettled, hcontents, hcapacity, hsent, hpaused, hrefcnt, hqueued, houtcomes, hcalls⟩ := h
  refine ⟨hsettled, hcontents, hcapacity, hsent, hpaused, hrefcnt, hqueued, houtcomes, ?_⟩
  simp only [PooledBackend.logCall, Backend.logCall, hcalls]

/-- `backend_send` ends with the same status. -/
lemma Stores.send (h : Stores p b) (ok : Bool)
    (hmem : b.hasMemory = decide (p.pool.currentFree ≠ 0 ∨ ok)) :
    Agree (fun x y => x.1 = y.1 ∧ Stores x.2 y.2) (p.send ok render k m force)
      (b.send render k m force) := by
  rw [PooledBackend.send, Backend.send, h.refcnt]
  split_ifs
  · rfl
  · obtain ⟨hhanded, hstores, hpool⟩ := h.attempt render k m
    simp only [hhanded]
    cases hb : (b.attempt render k m).1 with
    | true => exact ⟨rfl, hstores.logCall _⟩
    | false =>
      have hmem' : (b.attempt render k m).2.hasMemory
          = decide ((p.attempt render k m).2.pool.currentFree ≠ 0 ∨ ok) := by
        rw [hpool, ← hmem, Backend.hasMemory, attempt_memory]
        rfl
      obtain ⟨p', henqueue, hstores'⟩ := hstores.enqueue k m force hmem'
      simp only [Bool.false_eq_true, if_false, henqueue, ok_bind]
      exact ⟨rfl, hstores'.logCall _⟩

lemma Stores.decref (h : Stores p b) (g : HybiId) :
    Agree (fun p' b' => Stores p' b' ∧ p'.pool = p.pool) (p.decref g) (b.decref g) := by
  rw [PooledBackend.decref, Backend.decref, h.refcnt]
  split_ifs
  · rfl
  · exact ⟨⟨h.settled, h.contents, h.capacity, h.sent, h.paused, rfl, h.backendQueued, h.outcomes,
      h.calls⟩, rfl⟩

/-- The first message of a queue is removed. -/
lemma Stores.removed {pool : Pools SockId BackendMsg} (h : Stores p b)
    (hsettled : ∃ o f L, Pools.Settled o f L pool)
    (hcontents : pool.contents = Function.update p.pool.contents k (some (b.socks k).queue.tail))
    (hcapacity : ∀ j, (pool.queue j).capacity = (p.pool.queue j).capacity) :
    Stores { p with pool, backendQueued := p.backendQueued - 1 }
      { b with
        backendQueued := b.backendQueued - 1
        socks := Function.update b.socks k (b.socks k).queueRemove } := by
  refine ⟨hsettled, fun j => ?_, fun j => ?_, fun j => ?_, h.paused, h.refcnt,
    congrArg (· - 1) h.backendQueued, h.outcomes, h.calls⟩
  · by_cases hj : j = k
    · simp [hcontents, hj, Socket.queueRemove]
    · simp [hcontents, hj, h.contents]
  · refine (hcapacity j).trans ((h.capacity j).trans ?_)
    by_cases hj : j = k
    · simp [hj, Socket.queueRemove]
    · simp [hj]
  · refine (h.sent j).trans ?_
    by_cases hj : j = k
    · simp [hj, Socket.queueRemove]
    · simp [hj]

/-- The loop of `backend_unqueue`, by induction on the items it has still to look at: the pointer is
the first of them, and the list is what they hold. -/
lemma Stores.drain {o : Nat → Option (Owner SockId)} {f l : List Nat}
    {L : SockId → Option (List Nat)} {ms : List BackendMsg} {fuel : Nat} (h : Stores p b)
    (hsettled : Pools.Settled o f L p.pool) (hl : L k = some l)
    (hms : l.mapM p.pool.memory.value = some ms) (hfuel : l.length ≤ fuel) :
    Agree Stores (p.drain render k fuel l.head?) (b.drain render k ms) := by
  induction l generalizing p b o f L ms fuel with
  | nil =>
    cases hms
    cases fuel <;> exact h
  | cons cur l ih =>
    obtain ⟨m, ms, rfl, hm, hrest⟩ := mapM_cons_eq_some hms
    cases fuel with
    | zero => cases hfuel
    | succ fuel =>
      obtain ⟨hlive, hnext, -⟩ := (hsettled.sound.holds.list (some k) _ hl).follows
      rw [List.head?_cons, PooledBackend.drain, Memory.load_eq (p := .link cur) hlive, hnext,
        Memory.loadValue, if_pos hlive, hm, Backend.drain, h.refcnt]
      simp only [access, ok_bind]
      split_ifs
      · rfl
      · obtain ⟨htaken, hstores, hpool⟩ := h.sendRetry render k m p.outcomes
        rw [h.outcomes] at htaken hstores hpool ⊢
        generalize p.sendRetry render k m b.outcomes = tried at htaken hstores hpool ⊢
        obtain ⟨taken, p₁⟩ := tried
        generalize b.sendRetry render k m b.outcomes = tried' at htaken hstores ⊢
        obtain ⟨taken', b₁⟩ := tried'
        cases htaken
        cases taken with
        | false => exact hstores
        | true =>
          refine (hstores.decref m.hybi).bind fun p₂ b₂ hafter => ?_
          obtain ⟨hstores₂, hpool₂⟩ := hafter
          have hsame : p₂.pool = p.pool := hpool₂.trans hpool
          have hfirst : L k = some ([] ++ cur :: l) := hl
          obtain ⟨o', f', pool, hremove, hsettled', hvalues, -, hcapacity, -⟩ :=
            hsettled.remove_spec hfirst
          have hlist : Function.update L k (some ([] ++ l)) k = some l := Function.update_self ..
          have hrest' : l.mapM pool.memory.value = some ms := by
            rw [← hrest]
            exact mapM_congr_value (hvalues k l hlist)
          have hqueue : (b₂.socks k).queue = m :: ms := by
            have hcontents := hstores₂.contents k
            rw [hsame, hsettled.contents_eq] at hcontents
            simpa [hl, hms] using hcontents.symm
          rw [hsame, hremove]
          refine ih (hstores₂.removed ⟨_, _, _, hsettled'⟩ ?_ fun j => ?_) hsettled' hlist hrest'
            (Nat.le_of_succ_le_succ hfuel)
          · rw [hsame, hqueue]
            refine hsettled.contents_update hsettled' (fun j l' hj hl' a ha => ?_) hrest'
            exact hvalues j l' (by rw [Function.update_of_ne hj, hl']) a ha
          · rw [hsame]
            exact hcapacity j

/-- `backend_unqueue` -/
lemma Stores.unqueue {pollout : Bool} (h : Stores p b) :
    Agree Stores (p.unqueue render k pollout) (b.unqueue render k pollout) := by
  have hempty : ((p.pool.queue k).size != 0) = !(b.socks k).queue.isEmpty := by
    rw [← h.empty_iff]
    rfl
  rw [PooledBackend.unqueue, Backend.unqueue, hempty, h.paused]
  split_ifs
  · obtain ⟨o, f, L, hsettled⟩ := h.settled
    have hcontents := h.contents k
    rw [hsettled.contents_eq] at hcontents
    obtain ⟨l, hl, hms⟩ := Option.bind_eq_some_iff.mp hcontents
    have hlist := hsettled.sound.holds.list (some k) l hl
    rw [Memory.load_eq (p := .head (some k)) (h.opened k), hlist.first]
    exact h.drain hsettled hl hms (hsettled.sound.length_le hl)
  · exact h

/-- Both versions do the same in one step. -/
lemma Stores.step (h : Stores p b) (i : Input) :
    Agree Stores (step i p) (Backend.step (i.seen p) b) := by
  have h₀ : Stores { p with outcomes := i.outcomes }
      { b with outcomes := i.outcomes, memory := (i.seen p).memory } :=
    ⟨h.settled, h.contents, h.capacity, h.sent, h.paused, h.refcnt, h.backendQueued, rfl, h.calls⟩
  obtain ⟨op, outcomes, ok⟩ := i
  cases op with
  | start g =>
    exact ⟨h.settled, h.contents, h.capacity, h.sent, h.paused,
      congrArg (Function.update · g 1) h.refcnt, h.backendQueued, rfl, h.calls⟩
  | release g => exact (h₀.decref g).mono fun _ _ hstores => hstores.1
  | send render k m force =>
    exact (h₀.send ok rfl).bind fun x y hxy => hxy.2
  | unqueue render k pollout => exact h₀.unqueue
  | pause on =>
    exact ⟨h.settled, h.contents, h.capacity, h.sent, rfl, h.refcnt, h.backendQueued, rfl, h.calls⟩

/-! ### Runs -/

lemma stores_init (n : Nat) (capacity : SockId → Nat) :
    Stores (init n capacity) (Backend.init capacity) := by
  have hsettled := Pools.settled_init (α := BackendMsg) n fun k => some (capacity k)
  refine ⟨⟨_, _, _, hsettled⟩, fun k => ?_, fun _ => rfl, fun _ => rfl, rfl, rfl, rfl, rfl, rfl⟩
  have hcontents := congrFun hsettled.contents_eq k
  exact hcontents

/-- Every state of the sockets over the pool is one of the sockets with lists. -/
lemma exists_stores {n : Nat} {capacity : SockId → Nat}
    (hr : Reachable step (init n capacity) p) :
    ∃ b, Reachable Backend.step (Backend.init capacity) b ∧ Stores p b := by
  induction hr with
  | init => exact ⟨_, .init, stores_init n capacity⟩
  | @step i p p' _ _ hstep ih =>
    obtain ⟨b, hb, hstores⟩ := ih
    rcases (hstores.step i).cases with ⟨e, herror, -⟩ | ⟨p₁, b₁, hp₁, hb₁, hstores₁⟩
    · cases hstep.symm.trans herror
    · cases hstep.symm.trans hp₁
      exact ⟨b₁, hb.step trivial hb₁, hstores₁⟩

/-- The backend sockets with their queues over one pool, of any size, are those with lists: the
lists in memory after any run are those after the same run with lists, and every call does to them
what it does to lists, with the same results and the same faults, so that no call touches memory
that is not there. -/
theorem backend_queues_stored {n : Nat} {capacity : SockId → Nat}
    (hr : Reachable step (init n capacity) p) :
    (∃ b, Reachable Backend.step (Backend.init capacity) b ∧ p.abs = b.forget ∧
      ∀ k, p.pool.contents k = some (b.socks k).queue) ∧
    ∀ i : Input, (step i p).map abs = (Backend.step (i.seen p) p.abs).map Backend.forget := by
  obtain ⟨b, hb, hstores⟩ := exists_stores hr
  refine ⟨⟨b, hb, hstores.abs_eq, hstores.contents⟩, fun i => ?_⟩
  exact ((hstores.of_abs.step i).mono fun _ _ h => h.abs_eq).map_eq

/-- A pause, in which the pool gives away the item it has kept, a message is refused for lack of
memory and a forced one because the queue is full. -/
theorem backend_queues_stored_refused : ∃ p : PooledBackend,
    p.pool.contents (.forward 0) = some [⟨7, .message [1]⟩] ∧ p.pool.currentFree = 0 ∧
      p.calls.map Call.status = [.queued, .queued, .refused, .refused] ∧
      (p.sent (.forward 0)).map Sent.msg = [⟨7, .connect⟩] ∧
      (∃ b, Reachable Backend.step (Backend.init fun _ => 1) b ∧ p.abs = b.forget ∧
        ∀ k, p.pool.contents k = some (b.socks k).queue) ∧
      ∀ i : Input, (step i p).map abs = (Backend.step (i.seen p) p.abs).map Backend.forget := by
  have hrun : (run step
      [⟨.start 7, [], true⟩, ⟨.pause true, [], true⟩,
        ⟨.send (fun _ => []) (.forward 0) ⟨7, .connect⟩ false, [], true⟩,
        ⟨.pause false, [], true⟩,
        ⟨.unqueue (fun _ => []) (.forward 0) true, [.eintr, .accepted], true⟩,
        ⟨.pause true, [], true⟩,
        ⟨.send (fun _ => []) (.forward 0) ⟨7, .message [1]⟩ false, [], false⟩,
        ⟨.send (fun _ => []) (.forward 0) ⟨7, .message [2]⟩ false, [], false⟩,
        ⟨.send (fun _ => []) (.forward 0) ⟨7, .disconnect⟩ true, [], true⟩]
      (init 1 fun _ => 1)).map
        (fun p => (p.pool.contents (.forward 0), p.pool.currentFree, p.calls.map Call.status,
          (p.sent (.forward 0)).map Sent.msg))
      = .ok (some [⟨7, .message [1]⟩], 0, [.queued, .queued, .refused, .refused],
          [⟨7, .connect⟩]) := by decide +kernel
  obtain ⟨p, hr, hview⟩ := exists_of_run (C := fun _ _ => True) _ (fun _ _ _ => trivial) hrun
  simp only [Prod.mk.injEq] at hview
  obtain ⟨hcontents, hfree, hcalls, hsent⟩ := hview
  obtain ⟨habs, hsteps⟩ := backend_queues_stored hr
  exact ⟨p, hcontents, hfree, hcalls, hsent, habs, hsteps⟩

end PooledBackend

end Zerogw
