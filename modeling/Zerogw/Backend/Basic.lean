import Zerogw.Library.Execution
import Zerogw.Basic

/-!
# Messages to the backends

Every backend socket has a queue (`msgqueue.c`) behind the direct path through ZeroMQ
(`backend_send` and `backend_unqueue` in `websocket.c`). A queued message keeps a reference on its
connection, so the reference counts of connections live here too.

The memory of a queue entry comes from a pool, which may have none; `malloc` may fail as well when
the pool is empty.
-/

namespace Zerogw

/-- What a queue entry carries: the two marker pointers, the body of a long-poll request, or a
websocket message. -/
inductive Msg where
  | connect
  | disconnect
  | request (r : ReqId)
  | message (data : Bytes)
  deriving DecidableEq, Repr

/-- `backend_msg_t` -/
structure BackendMsg where
  hybi : HybiId
  msg : Msg
  deriving DecidableEq, Repr

/-- One frame given to `zmq_send`, with its `ZMQ_SNDMORE` flag. -/
structure Frame where
  data : Bytes
  more : Bool
  deriving DecidableEq, Repr

/-- The answer of `zmq_send` to the first frame of a message; the frames after an accepted first
frame are accepted too. Any other error is logged at alert level and aborts the server. -/
inductive SendResult where
  | accepted
  | eagain
  | eintr
  deriving DecidableEq, Repr

/-- How `backend_send` ends: handed to ZeroMQ, put into the queue (both return 0), or -1 with
`EAGAIN`, because the queue is full or there is no memory for the entry. -/
inductive SendStatus where
  | sent
  | queued
  | refused
  deriving DecidableEq, Repr

/-- A message ZeroMQ has taken, and whether websockets were paused at that moment. -/
structure Sent where
  msg : BackendMsg
  frames : List Frame
  paused : Bool
  deriving DecidableEq, Repr

/-- A finished call of `backend_send`. -/
structure Call where
  sock : SockId
  msg : BackendMsg
  force : Bool
  status : SendStatus
  deriving DecidableEq, Repr

/-- A backend socket: its queue, `max-backend-queue`, and what ZeroMQ has taken so far. -/
structure Socket where
  queue : List BackendMsg
  capacity : Nat
  sent : List Sent

/-- The entry goes to the end of the queue. -/
def Socket.insertTail (m : BackendMsg) (q : Socket) : Socket := { q with queue := q.queue ++ [m] }

/-- `queue_remove` of the first item. -/
def Socket.queueRemove (q : Socket) : Socket := { q with queue := q.queue.tail }

/-- All backend sockets, the pause flag, the reference counts of the connections, and the counter
`websock_backend_queued`. `outcomes` is what ZeroMQ is going to answer, `EAGAIN` when it runs out;
`memory` says which of the next allocations succeed, all of them when it runs out; `calls` records
the calls of `backend_send`. -/
structure Backend where
  paused : Bool
  socks : SockId → Socket
  refcnt : HybiId → Nat
  backendQueued : Nat
  outcomes : List SendResult
  memory : List Bool
  calls : List Call

namespace Backend

/-- `hybi_INCREF` -/
def incref (h : HybiId) (b : Backend) : Backend :=
  { b with refcnt := Function.update b.refcnt h (b.refcnt h + 1) }

/-- `hybi_DECREF`. The connection is freed when its count drops to 0, and a connection whose count
is 0 must not be touched any more. -/
def decref (h : HybiId) (b : Backend) : Except Fault Backend :=
  if b.refcnt h = 0 then .error .useAfterFree
  else .ok { b with refcnt := Function.update b.refcnt h (b.refcnt h - 1) }

/-- ZeroMQ takes all frames of `m`. -/
def handOver (render : BackendMsg → List Frame) (k : SockId) (m : BackendMsg) (b : Backend) :
    Backend :=
  { b with
    socks := Function.update b.socks k
      { b.socks k with sent := (b.socks k).sent ++ [⟨m, render m, b.paused⟩] } }

/-- `backend_send_real` in the retry loop that both of its callers run around it: `EINTR` tries
again, and the result says whether ZeroMQ took the message before it answered `EAGAIN`. -/
def sendRetry (render : BackendMsg → List Frame) (k : SockId) (m : BackendMsg) :
    List SendResult → Backend → Bool × Backend
  | [], b => (false, { b with outcomes := [] })
  | .accepted :: rs, b => (true, { b.handOver render k m with outcomes := rs })
  | .eagain :: rs, b => (false, { b with outcomes := rs })
  | .eintr :: rs, b => sendRetry render k m rs b

/-- The loop of `backend_send`, which is entered only if websockets are not paused and nothing is
queued. -/
def attempt (render : BackendMsg → List Frame) (k : SockId) (m : BackendMsg) (b : Backend) :
    Bool × Backend :=
  if !b.paused && (b.socks k).queue.isEmpty then sendRetry render k m b.outcomes b else (false, b)

/-- There is memory for the next allocation. -/
def hasMemory (b : Backend) : Bool := b.memory.head?.getD true

/-- The next allocation has been made or has failed. -/
def useMemory (b : Backend) : Backend := { b with memory := b.memory.tail }

/-- `pool_alloc` or `malloc`: whether there is memory. -/
def allocate (b : Backend) : Bool × Backend := (b.hasMemory, b.useMemory)

/-- `queue_force_push`; `false` where the source returns `NULL`. -/
def queueForcePush (k : SockId) (m : BackendMsg) (b : Backend) : Bool × Backend :=
  let (res, b₁) := b.allocate
  if res then
    (true, { b₁ with socks := Function.update b₁.socks k ((b₁.socks k).insertTail m) })
  else (false, b₁)

/-- `queue_push` -/
def queuePush (k : SockId) (m : BackendMsg) (b : Backend) : Bool × Backend :=
  if (b.socks k).queue.length ≥ (b.socks k).capacity then (false, b) else b.queueForcePush k m

/-- The part of `backend_send` behind its loop. A forced message takes `queue_push`, an ordinary
one `queue_force_push`. -/
def enqueue (k : SockId) (m : BackendMsg) (force : Bool) (b : Backend) : SendStatus × Backend :=
  let (pushed, b₁) := if force then b.queuePush k m else b.queueForcePush k m
  if pushed then (.queued, incref m.hybi { b₁ with backendQueued := b₁.backendQueued + 1 })
  else (.refused, b₁)

/-- The record of a finished call. -/
def logCall (c : Call) (b : Backend) : Backend := { b with calls := b.calls ++ [c] }

/-- `backend_send` -/
def send (render : BackendMsg → List Frame) (k : SockId) (m : BackendMsg) (force : Bool)
    (b : Backend) : Except Fault (SendStatus × Backend) :=
  if b.refcnt m.hybi = 0 then .error .useAfterFree
  else
    let (handed, b₁) := b.attempt render k m
    let (status, b₂) := if handed then (.sent, b₁) else b₁.enqueue k m force
    .ok (status, b₂.logCall ⟨k, m, force, status⟩)

/-- The loop of `backend_unqueue` over the queued messages. -/
def drain (render : BackendMsg → List Frame) (k : SockId) :
    List BackendMsg → Backend → Except Fault Backend
  | [], b => .ok b
  | m :: rest, b =>
    if b.refcnt m.hybi = 0 then .error .useAfterFree
    else match sendRetry render k m b.outcomes b with
      | (false, b₁) => .ok b₁
      | (true, b₁) => do
        let b₂ ← b₁.decref m.hybi
        drain render k rest
          { b₂ with
            backendQueued := b₂.backendQueued - 1
            socks := Function.update b₂.socks k (b₂.socks k).queueRemove }

/-- `backend_unqueue`; `pollout` is the `ZMQ_POLLOUT` bit of the socket's events. -/
def unqueue (render : BackendMsg → List Frame) (k : SockId) (pollout : Bool) (b : Backend) :
    Except Fault Backend :=
  if pollout && !(b.socks k).queue.isEmpty && !b.paused then drain render k (b.socks k).queue b
  else .ok b

/-- The verdict ZeroMQ is going to give to the next message. -/
def willAccept : List SendResult → Bool
  | [] => false
  | .accepted :: _ => true
  | .eagain :: _ => false
  | .eintr :: rs => willAccept rs

/-- The socket cannot take a message now: paused, messages waiting, or `EAGAIN`. -/
def Stalled (k : SockId) (b : Backend) : Prop :=
  b.paused = true ∨ (b.socks k).queue ≠ [] ∨ willAccept b.outcomes = false

/-! ### Runs -/

/-- What reaches the backend sockets from outside: a connection is allocated with its first
reference or drops a reference, a message is sent, a socket becomes writable, websockets are paused
or resumed. -/
inductive Op where
  | start (h : HybiId)
  | release (h : HybiId)
  | send (render : BackendMsg → List Frame) (k : SockId) (m : BackendMsg) (force : Bool)
  | unqueue (render : BackendMsg → List Frame) (k : SockId) (pollout : Bool)
  | pause (on : Bool)

/-- An operation, the answers ZeroMQ gives while it runs, and the allocations that succeed. -/
structure Input where
  op : Op
  outcomes : List SendResult
  memory : List Bool := []

def init (capacity : SockId → Nat) : Backend where
  paused := false
  socks k := ⟨[], capacity k, []⟩
  refcnt _ := 0
  backendQueued := 0
  outcomes := []
  memory := []
  calls := []

def step (i : Input) (b : Backend) : Except Fault Backend :=
  let b₀ := { b with outcomes := i.outcomes, memory := i.memory }
  match i.op with
  | .start h => .ok { b₀ with refcnt := Function.update b.refcnt h 1 }
  | .release h => b₀.decref h
  | .send render k m force => do
    let (_, b₁) ← b₀.send render k m force
    return b₁
  | .unqueue render k pollout => b₀.unqueue render k pollout
  | .pause on => .ok { b₀ with paused := on }

/-- The messages for which `backend_send` returned 0 on socket `k`, in order. -/
def acceptedOn (k : SockId) (calls : List Call) : List BackendMsg :=
  (calls.filter fun c => c.sock = k && c.status != .refused).map Call.msg

end Backend

end Zerogw
