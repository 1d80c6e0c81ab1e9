import Zerogw.Pools.Runs
import Zerogw.Server.Runs

/-!
# The queues of long-poll connections in memory

`Polling` keeps the messages of a connection as a list. Here the functions of `polling.c` work on
the items of `msgqueue.c`, which come from one pool behind all connections: `move_queue` and
`send_later` follow the pointers, `free_comet` closes the messages in their items, and the items
stay behind when the memory of their connection is freed. Both versions do the same in every run.
-/

namespace Zerogw

open Execution Intrusive
open Pools (access)

namespace Polling

/-! ### The calls with lists -/

/-- What happens to requests without a look at the queues: a request arrives or is changed by the
rest of the server, a parked one is answered without a message, `comet_request` turns a request away
whose connection it closes, a request is aborted, or its timer fires. -/
inductive Event where
  | request (r : ReqId) (q : Request)
  | emptyReply (h : HybiId)
  | closeReply (h : HybiId)
  | turnAway (r : ReqId) (h : HybiId)
  | aborted (r : ReqId) (h : HybiId)
  | timeout (r : ReqId) (h : HybiId)

/-- The calls that come to the queues. `free` is `free_comet` before it stops the connection, and
`gone` is `hybi_free`. -/
inductive Op where
  | event (e : Event)
  | connect (route : RouteId) (h : HybiId)
  | send (h : HybiId) (m : Bytes)
  | ack (h : HybiId) (msgid : Nat)
  | park (route : RouteId) (r : ReqId) (args : CometArgs) (h : HybiId)
  | later (h : HybiId)
  | free (h : HybiId)
  | gone (h : HybiId)

/-- A call, what it finds around it, and whether there is memory for an item. -/
structure Input where
  op : Op
  env : Env
  ok : Bool

/-- The replies of `comet_request` before it closes a connection: to the parked request, and to its
own. -/
def turnAway (cfg : Config) (env : Env) (r : ReqId) (h : HybiId) (P : Polling) :
    Except Fault Polling := do
  let P ← if (P.comet h).curRequest.isSome then P.closeReply cfg env h else .ok P
  let P := P.incref r
  let P := P.setComet h { P.comet h with curRequest := some r }
  P.closeReply cfg env h

def Event.run (cfg : Config) (env : Env) (P : Polling) : Event → Except Fault Polling
  | .request r q => .ok (P.setRequest r q)
  | .emptyReply h => P.emptyReply cfg env h
  | .closeReply h => P.closeReply cfg env h
  | .turnAway r h => P.turnAway cfg env r h
  | .aborted r h => P.requestAborted r h
  | .timeout r h => P.pollingTimeout cfg env r h

/-- A call and what it returns, 0 where it returns nothing. `comet_send` returns -1 without an item
and closes the connection then, which is a call of its own here. -/
def call (cfg : Config) (i : Input) (P : Polling) : Except Fault (Int × Polling) :=
  match i.op with
  | .event e => do return (0, ← e.run cfg i.env P)
  | .connect route h => .ok (0, P.openComet (cfg.route route) h)
  | .send h m =>
    if (P.comet h).queue.length ≥ (P.comet h).capacity ∨ i.ok = false then .ok (-1, P)
    else .ok (0, P.push h m)
  | .ack h msgid => P.moveQueue h msgid
  | .park route r args h => .ok (0, P.park (cfg.route route) r args h)
  | .later h => do return (0, ← P.sendLater cfg i.env h)
  | .free h => do return (0, ← P.freeComet h)
  | .gone _ => .ok (0, P)

end Polling

/-- `frontend_msg_t`: the ZeroMQ message, and whether it is closed. -/
structure FrontendMsg where
  data : Bytes
  closed : Bool
  deriving DecidableEq, Repr

/-- `Polling` with its queues in memory: `pool` is the `frontend_pool` with the queues over it. The
lists, limits and flags for closed messages that `rest` has are not looked at. -/
structure PooledPolling where
  pool : Pools HybiId FrontendMsg
  rest : Polling

namespace PooledPolling

/-! ### The calls in memory -/

/-- `comet_connect` sets up the queue in the memory that `hybi_start` has got. -/
def openComet (conf : RouteConf) (h : HybiId) (p : PooledPolling) : Except Fault PooledPolling := do
  let pool ← access ((p.pool.setOpened h true).initQueue h conf.queueLimit)
  .ok { pool, rest := p.rest.openComet conf h }

/-- `comet_send` -/
def cometSend (ok : Bool) (h : HybiId) (m : Bytes) (p : PooledPolling) :
    Except Fault (Int × PooledPolling) := do
  let (qitem, pool) ← access (p.pool.queuePush ok h)
  match qitem with
  | none => .ok (-1, { p with pool })
  | some item =>
    let pool ← access (Pools.fill ⟨m, false⟩ (some item, pool))
    let c := p.rest.comet h
    let rest := p.rest.setComet h { c with sendlater := c.sendlater || c.curRequest.isSome }
    .ok (0, { pool, rest })

/-- `zmq_msg_close`, which does nothing to a closed message. -/
def closeMsg (item : Nat) (memory : Memory (Option HybiId) FrontendMsg) :
    Except Fault (Memory (Option HybiId) FrontendMsg) := do
  let m ← access (memory.loadValue item)
  access (memory.storeValue item { m with closed := true })

/-- The loop of `move_queue` from the item `cur` on. -/
def removeItems (h : HybiId) :
    Nat → Option Nat → Pools HybiId FrontendMsg → Except Fault (Pools HybiId FrontendMsg)
  | 0, _, s => .ok s
  | _ + 1, none, _ => .error (.assertion .moveQueue)
  | n + 1, some cur, s => do
    let nxt ← access (s.memory.load (.link cur))
    let memory ← closeMsg cur s.memory
    let s ← access ({ s with memory }.queueRemove h cur)
    removeItems h n nxt s

/-- `move_queue` -/
def moveQueue (h : HybiId) (msgid : Nat) (p : PooledPolling) : Except Fault (Int × PooledPolling) :=
  let c := p.rest.comet h
  if msgid = 0 ∨ msgid < toSize c.firstIndex then .ok (0, p)
  else
    let amount := toSize (msgid - c.firstIndex + 1)
    if amount > (p.pool.queue h).size then .ok (-1, p)
    else if amount = 0 then .ok (0, p)
    else do
      let first ← access (p.pool.memory.load (.head (some h)))
      let pool ← removeItems h amount first p.pool
      let rest := p.rest.setComet h { c with firstIndex := toInt (c.firstIndex + amount) }
      .ok (0, { pool, rest })

/-- The part of `comet_request` that parks a request. -/
def park (conf : RouteConf) (r : ReqId) (args : CometArgs) (h : HybiId) (p : PooledPolling) :
    PooledPolling :=
  let c := p.rest.comet h
  let q := p.rest.request r
  let empty := (p.pool.queue h).size == 0
  let P := p.rest.setRequest r
    { q with
      refcnt := q.refcnt + 1
      hybi := some h
      finishCb := .cometRequestSent
      timeout := q.timeout || empty }
  let rest := P.setComet h
    { c with
      curRequest := some r
      curFormat := args.outFormat
      curLimit := Polling.limitFor conf args.limit
      sendlater := c.sendlater || !empty
      inactivity := false }
  { p with rest }

/-- The data of the message in an item, which must not be closed. -/
def readMsg (s : Pools HybiId FrontendMsg) : Option Nat → Except Fault Bytes
  | none => .error .nullPointer
  | some item => do
    let m ← access (s.memory.loadValue item)
    if m.closed then .error .closedMessage else .ok m.data

/-- The loop of `send_later` over the messages of a `jsonlist` reply. -/
def readMsgs (s : Pools HybiId FrontendMsg) : Nat → Option Nat → Except Fault (List Bytes)
  | 0, _ => .ok []
  | _ + 1, none => .error .nullPointer
  | n + 1, some cur => do
    let m ← readMsg s (some cur)
    let nxt ← access (s.memory.load (.link cur))
    let ms ← readMsgs s n nxt
    .ok (m :: ms)

/-- The reply `send_later` builds when messages wait. -/
def messageReply (cfg : Config) (env : Env) (r : ReqId) (h : HybiId) (p : PooledPolling) :
    Except Fault Reply := do
  let c := p.rest.comet h
  let q := p.rest.request r
  let first ← access (p.pool.memory.load (.head (some h)))
  match c.curFormat with
  | .single =>
    let m ← readMsg p.pool first
    .ok (Polling.okReply cfg env r q
      [Polling.text "X-Messages" "1", Polling.text "X-Format" "single",
        Polling.int "X-Message-ID" c.firstIndex] m)
  | .jsonlist =>
    let size : Int := (p.pool.queue h).size
    let num := if size > c.curLimit then c.curLimit else size
    let ms ← readMsgs p.pool num.toNat first
    .ok (Polling.okReply cfg env r q
      [Polling.int "X-Messages" num, Polling.int "X-Last-ID" (toInt (c.firstIndex + size - 1)),
        Polling.text "X-Format" "jsonlist", Polling.text "Content-Type" "application/json"]
      (Polling.jsonList ms))

/-- `send_later` -/
def sendLater (cfg : Config) (env : Env) (h : HybiId) (p : PooledPolling) :
    Except Fault PooledPolling :=
  let c := p.rest.comet h
  match c.curRequest with
  | none => .ok { p with rest := p.rest.setComet h { c with sendlater := false } }
  | some r =>
    if (p.pool.queue h).size = 0 then
      .ok { p with rest := p.rest.setComet h { c with sendlater := false, inactivity := true } }
    else do
      let rep ← p.messageReply cfg env r h
      let rest := (p.rest.answer r rep).setComet h
        { c with curRequest := none, sendlater := false, inactivity := true }
      .ok { p with rest }

/-- The loop of `free_comet`. The number bounds the items. -/
def closeItems : Nat → Option Nat → Memory (Option HybiId) FrontendMsg →
    Except Fault (Memory (Option HybiId) FrontendMsg)
  | _, none, memory => .ok memory
  | 0, some _, _ => .error .endless
  | n + 1, some cur, memory => do
    let memory ← closeMsg cur memory
    let nxt ← access (memory.load (.link cur))
    closeItems n nxt memory

/-- `free_comet` up to the call of `hybi_stop`. -/
def freeComet (h : HybiId) (p : PooledPolling) : Except Fault PooledPolling :=
  let c := p.rest.comet h
  if c.curRequest.isSome then .error (.assertion .freeComet)
  else do
    let first ← access (p.pool.memory.load (.head (some h)))
    let memory ← closeItems p.pool.memory.next first p.pool.memory
    let rest := p.rest.setComet h { c with sendlater := false, inactivity := false }
    .ok { pool := { p.pool with memory }, rest }

/-- `hybi_free`: the head of the queue goes with the connection, and nothing leads to its items any
more. -/
def hybiFree (h : HybiId) (p : PooledPolling) : Except Fault PooledPolling := do
  let pool ← access (p.pool.exec ⟨.drop h, true⟩)
  .ok { p with pool }

def call (cfg : Config) (i : Polling.Input) (p : PooledPolling) :
    Except Fault (Int × PooledPolling) :=
  match i.op with
  | .event e => do
    let rest ← e.run cfg i.env p.rest
    return (0, { p with rest })
  | .connect route h => do return (0, ← p.openComet (cfg.route route) h)
  | .send h m => p.cometSend i.ok h m
  | .ack h msgid => p.moveQueue h msgid
  | .park route r args h => .ok (0, p.park (cfg.route route) r args h)
  | .later h => do return (0, ← p.sendLater cfg i.env h)
  | .free h => do return (0, ← p.freeComet h)
  | .gone h => do return (0, ← p.hybiFree h)

def init (maxFree : Nat) : PooledPolling := ⟨Pools.init maxFree fun _ => none, Polling.init⟩

/-- The input as the version with lists sees it. -/
def seen (i : Polling.Input) (p : PooledPolling) : Polling.Input :=
  { i with ok := decide (p.pool.currentFree ≠ 0 ∨ i.ok) }

end PooledPolling

/-! ### Without the queues -/

/-- A comet without its queue. -/
def Comet.bare (c : Comet) : Comet := { c with queue := [], capacity := 0, closed := false }

namespace Polling

variable {cfg : Config} {env : Env} {P P' : Polling} {h g : HybiId} {r : ReqId} {c : Comet}

/-- Everything but the queues. -/
def bare (P : Polling) : Polling := { P with comet := fun h => (P.comet h).bare }

@[simp] lemma bare_comet : P.bare.comet h = (P.comet h).bare := rfl

@[simp] lemma bare_request : P.bare.request = P.request := rfl

@[simp] lemma bare_setComet : (P.setComet h c).bare = P.bare.setComet h c.bare := by
  rw [bare, bare, setComet, setComet]
  congr 1
  funext g
  by_cases hg : g = h
  · simp [hg]
  · simp [hg]

@[simp] lemma bare_setRequest (q : Request) : (P.setRequest r q).bare = P.bare.setRequest r q := rfl

@[simp] lemma bare_incref : (P.incref r).bare = P.bare.incref r := rfl

@[simp] lemma bare_answer (rep : Reply) : (P.answer r rep).bare = P.bare.answer r rep := rfl

/-- The queues are the same, and a parked request is parked as before. -/
def KeepsQueues (P P' : Polling) : Prop :=
  ∀ h, (P'.comet h).queue = (P.comet h).queue ∧ (P'.comet h).capacity = (P.comet h).capacity ∧
    (P'.comet h).closed = (P.comet h).closed ∧
    ((P'.comet h).curRequest.isSome →
      (P.comet h).curRequest.isSome ∧ (P'.comet h).curLimit = (P.comet h).curLimit)

lemma KeepsQueues.refl (P : Polling) : P.KeepsQueues P :=
  fun _ => ⟨rfl, rfl, rfl, fun hsome => ⟨hsome, rfl⟩⟩

lemma KeepsQueues.trans {P₁ P₂ : Polling} (h₁ : P.KeepsQueues P₁) (h₂ : P₁.KeepsQueues P₂) :
    P.KeepsQueues P₂ := by
  intro h
  obtain ⟨hqueue₁, hcapacity₁, hclosed₁, hlimit₁⟩ := h₁ h
  obtain ⟨hqueue₂, hcapacity₂, hclosed₂, hlimit₂⟩ := h₂ h
  refine ⟨hqueue₂.trans hqueue₁, hcapacity₂.trans hcapacity₁, hclosed₂.trans hclosed₁,
    fun hsome => ?_⟩
  obtain ⟨hsome₁, hsame⟩ := hlimit₂ hsome
  exact ⟨(hlimit₁ hsome₁).1, hsame.trans (hlimit₁ hsome₁).2⟩

/-- The comet of a connection changes, but its queue does not. -/
lemma keepsQueues_setComet {P₁ : Polling} (hcomet : P₁.comet = P.comet)
    (hqueue : c.queue = (P.comet h).queue) (hcapacity : c.capacity = (P.comet h).capacity)
    (hclosed : c.closed = (P.comet h).closed)
    (hlimit : c.curRequest.isSome →
      (P.comet h).curRequest.isSome ∧ c.curLimit = (P.comet h).curLimit) :
    P.KeepsQueues (P₁.setComet h c) := by
  intro g
  by_cases hg : g = h
  · subst hg
    rw [setComet_comet_self]
    exact ⟨hqueue, hcapacity, hclosed, hlimit⟩
  · rw [setComet_comet_of_ne hg, hcomet]
    exact ⟨rfl, rfl, rfl, fun hsome => ⟨hsome, rfl⟩⟩

/-- A step that leaves the queues alone and does not look at them. -/
structure Blind (f : Polling → Except Fault Polling) : Prop where
  bare : ∀ P, (f P).map bare = f P.bare
  keeps : ∀ P, Gives (P.KeepsQueues ·) (f P)

lemma blind_dismiss (own : List Header) (h : HybiId) :
    Blind fun P => P.dismiss cfg env own h := by
  constructor
  · intro P
    have hcur : (P.bare.comet h).curRequest = (P.comet h).curRequest := rfl
    simp only [dismiss, hcur]
    cases (P.comet h).curRequest with
    | none => rfl
    | some r =>
      simp only [Except.map, bare_setComet, bare_answer]
      rfl
  · intro P
    rw [dismiss]
    cases (P.comet h).curRequest with
    | none => trivial
    | some r => exact keepsQueues_setComet rfl rfl rfl rfl fun hsome => by cases hsome

lemma blind_requestAborted (r : ReqId) (h : HybiId) : Blind fun P => P.requestAborted r h := by
  constructor
  · intro P
    have hcur : (P.bare.comet h).curRequest = (P.comet h).curRequest := rfl
    simp only [requestAborted, hcur]
    split_ifs
    · simp only [Except.map, bare_setComet, bare_setRequest]
      rfl
    · rfl
  · intro P
    rw [requestAborted]
    split_ifs
    · exact keepsQueues_setComet rfl rfl rfl rfl fun hsome => by cases hsome
    · trivial

/-- One blind step after another one. -/
lemma Blind.bind {f f' : Polling → Except Fault Polling} (hf : Blind f) (hf' : Blind f') :
    Blind fun P => f P >>= f' := by
  constructor
  · intro P
    have hbare := hf.bare P
    rw [← hbare]
    cases f P with
    | error e => rfl
    | ok P₁ => exact hf'.bare P₁
  · intro P
    refine (hf.keeps P).bind fun P₁ h₁ => ?_
    exact (hf'.keeps P₁).mono (fun _ _ => trivial) fun P₂ h₂ => h₁.trans h₂

lemma blind_ok : Blind fun P => .ok P :=
  ⟨fun _ => rfl, fun P => KeepsQueues.refl P⟩

/-- A choice that does not depend on the queues. -/
lemma Blind.ite {f f' : Polling → Except Fault Polling} {C : Polling → Prop} [DecidablePred C]
    (hC : ∀ P, C P.bare ↔ C P) (hf : Blind f) (hf' : Blind f') :
    Blind fun P => if C P then f P else f' P := by
  constructor
  · intro P
    simp only [hC P]
    split_ifs
    · exact hf.bare P
    · exact hf'.bare P
  · exact fun P => (hf.keeps P).ite (hf'.keeps P)

lemma blind_pollingTimeout (r : ReqId) (h : HybiId) :
    Blind fun P => P.pollingTimeout cfg env r h := by
  refine Blind.ite (C := fun P => (P.comet h).curRequest = some r) (fun _ => Iff.rfl)
    ((blind_dismiss _ h).bind ⟨fun P => ?_, fun P => ?_⟩) ⟨fun _ => rfl, fun _ => trivial⟩
  · exact congrArg Except.ok bare_setComet
  · exact keepsQueues_setComet rfl rfl rfl rfl fun hsome => ⟨hsome, rfl⟩

lemma blind_turnAway (r : ReqId) (h : HybiId) : Blind fun P => P.turnAway cfg env r h := by
  have hlast : Blind fun P =>
      if (P.comet h).curRequest.isSome then P.closeReply cfg env h else .ok P :=
    Blind.ite (C := fun P => (P.comet h).curRequest.isSome) (fun _ => Iff.rfl) (blind_dismiss _ h)
      blind_ok
  have htake : Blind fun P =>
      ((P.incref r).setComet h { (P.incref r).comet h with curRequest := some r }).closeReply
        cfg env h := by
    constructor
    · intro P
      refine ((blind_dismiss _ h).bare _).trans ?_
      rw [bare_setComet, bare_incref]
      rfl
    · intro P
      simp only [closeReply, dismiss, setComet_comet_self]
      intro g
      by_cases hg : g = h
      · subst hg
        simp only [setComet_comet_self, answer_comet]
        exact ⟨rfl, rfl, rfl, fun hsome => by cases hsome⟩
      · rw [setComet_comet_of_ne hg, answer_comet, setComet_comet_of_ne hg]
        exact ⟨rfl, rfl, rfl, fun hsome => ⟨hsome, rfl⟩⟩
  have heq : (fun P : Polling => P.turnAway cfg env r h) = fun P =>
      (if (P.comet h).curRequest.isSome then P.closeReply cfg env h else .ok P) >>= fun P =>
        ((P.incref r).setComet h { (P.incref r).comet h with curRequest := some r }).closeReply
          cfg env h :=
    funext fun _ => ite_bind
  rw [heq]
  exact hlast.bind htake

/-- No event looks at the queues. -/
lemma Event.blind (e : Event) (cfg : Config) (env : Env) :
    Blind fun P => e.run cfg env P := by
  cases e with
  | request r q => exact ⟨fun _ => rfl, fun P => KeepsQueues.refl P⟩
  | emptyReply h => exact blind_dismiss _ h
  | closeReply h => exact blind_dismiss _ h
  | turnAway r h => exact blind_turnAway r h
  | aborted r h => exact blind_requestAborted r h
  | timeout r h => exact blind_pollingTimeout r h

end Polling

/-! ### What is in memory -/

namespace Pools

variable {κ α : Type} {o : Nat → Option (Owner κ)} {f l l' : List Nat} {L : κ → Option (List Nat)}
  {s : Pools κ α} {v : Nat → Option α} {a b : Nat} {q q' : κ}

/-- New values in the items. -/
lemma Settled.setValue (h : Settled o f L s) (hv : ∀ q l, L q = some l → ∀ a ∈ l, (v a).isSome) :
    Settled o f L { s with memory := { s.memory with value := v } } :=
  ⟨h.sound.congr rfl rfl rfl (fun _ _ _ => rfl) rfl rfl rfl rfl rfl, h.opened, h.size, hv, h.held,
    h.lost, h.nodup⟩

/-- No item is in two queues. -/
lemma Settled.ne_of_mem (h : Settled o f L s) (hl : L q = some l) (ha : a ∈ l)
    (hl' : L q' = some l') (hb : b ∈ l') (hne : q' ≠ q) : b ≠ a := by
  rintro rfl
  have hq := (h.sound.owned.queue b q).mpr ⟨l, hl, ha⟩
  rw [(h.sound.owned.queue b q').mpr ⟨l', hl', hb⟩] at hq
  simp at hq
  exact hne hq

end Pools

namespace PooledPolling

variable {cfg : Config} {env : Env} {conf : RouteConf} {p p' : PooledPolling} {P P' : Polling}
  {h g : HybiId} {o : Nat → Option (Owner HybiId)} {f l : List Nat}
  {L : HybiId → Option (List Nat)} {xs : List FrontendMsg} {ms : List Bytes} {n : Nat}
  {s : Pools HybiId FrontendMsg} {memory : Memory (Option HybiId) FrontendMsg}

/-- The message in an item. -/
def stored (closed : Bool) (m : Bytes) : FrontendMsg := ⟨m, closed⟩

/-- The memory holds the queues of the connections that are in memory, and everything else is the
same. A parked request can take a message. -/
structure Stores (p : PooledPolling) (P : Polling) : Prop where
  settled : ∃ o f L, Pools.Settled o f L p.pool
  rest : p.rest.bare = P.bare
  contents : ∀ h xs, p.pool.contents h = some xs →
    xs = (P.comet h).queue.map (stored (P.comet h).closed)
  capacity : ∀ h xs, p.pool.contents h = some xs →
    (p.pool.queue h).capacity = (P.comet h).capacity
  limit : ∀ h, (P.comet h).curRequest.isSome → 1 ≤ (P.comet h).curLimit

lemma Stores.comet (S : Stores p P) (h : HybiId) : (p.rest.comet h).bare = (P.comet h).bare :=
  congrFun (congrArg Polling.comet S.rest) h

lemma Stores.request (S : Stores p P) : p.rest.request = P.request := by
  have hsame := congrArg Polling.request S.rest
  exact hsame

lemma Stores.curRequest (S : Stores p P) (h : HybiId) :
    (p.rest.comet h).curRequest = (P.comet h).curRequest := by
  have hsame := congrArg Comet.curRequest (S.comet h)
  exact hsame

lemma Stores.firstIndex (S : Stores p P) (h : HybiId) :
    (p.rest.comet h).firstIndex = (P.comet h).firstIndex := by
  have hsame := congrArg Comet.firstIndex (S.comet h)
  exact hsame

lemma Stores.curLimit (S : Stores p P) (h : HybiId) :
    (p.rest.comet h).curLimit = (P.comet h).curLimit := by
  have hsame := congrArg Comet.curLimit (S.comet h)
  exact hsame

/-- The items of a queue in memory. -/
lemma Stores.exists_items (S : Stores p P) (hh : p.pool.memory.opened (some h) = true) :
    ∃ o f L l, Pools.Settled o f L p.pool ∧ L h = some l ∧
      l.mapM p.pool.memory.value = some ((P.comet h).queue.map (stored (P.comet h).closed)) ∧
      p.pool.contents h = some ((P.comet h).queue.map (stored (P.comet h).closed)) := by
  obtain ⟨o, f, L, hsettled⟩ := S.settled
  obtain ⟨l, hl⟩ := Option.isSome_iff_exists.mp ((hsettled.opened h).symm.trans hh)
  obtain ⟨xs, hcontents, hxs, -⟩ := hsettled.exists_contents hl
  have heq := S.contents h xs hcontents
  exact ⟨o, f, L, l, hsettled, hl, heq ▸ hxs, heq ▸ hcontents⟩

lemma Stores.size_eq (S : Stores p P) (hh : p.pool.memory.opened (some h) = true) :
    (p.pool.queue h).size = (P.comet h).queue.length := by
  obtain ⟨o, f, L, l, hsettled, -, -, hcontents⟩ := S.exists_items hh
  rw [hsettled.size_eq hcontents, List.length_map]

lemma Stores.empty_iff (S : Stores p P) (hh : p.pool.memory.opened (some h) = true) :
    ((p.pool.queue h).size == 0) = (P.comet h).queue.isEmpty := by
  rw [S.size_eq hh]
  cases (P.comet h).queue <;> rfl

/-- One connection changes, with its queue. -/
lemma Stores.update {ys : Option (List FrontendMsg)} (S : Stores p P)
    (hsettled : ∃ o f L, Pools.Settled o f L p'.pool) (hrest : p'.rest.bare = P'.bare)
    (hcontents : p'.pool.contents = Function.update p.pool.contents h ys)
    (hcapacity : ∀ g, g ≠ h → (p'.pool.queue g).capacity = (p.pool.queue g).capacity)
    (hothers : ∀ g, g ≠ h → P'.comet g = P.comet g)
    (hys : ∀ xs, ys = some xs → xs = (P'.comet h).queue.map (stored (P'.comet h).closed) ∧
      (p'.pool.queue h).capacity = (P'.comet h).capacity)
    (hlimit : (P'.comet h).curRequest.isSome → 1 ≤ (P'.comet h).curLimit) : Stores p' P' := by
  refine ⟨hsettled, hrest, fun g xs hg => ?_, fun g xs hg => ?_, fun g hg => ?_⟩
  · by_cases hgh : g = h
    · rw [hgh] at hg ⊢
      rw [hcontents, Function.update_self] at hg
      exact (hys xs hg).1
    · rw [hcontents, Function.update_of_ne hgh] at hg
      rw [hothers g hgh]
      exact S.contents g xs hg
  · by_cases hgh : g = h
    · rw [hgh] at hg ⊢
      rw [hcontents, Function.update_self] at hg
      exact (hys xs hg).2
    · rw [hcontents, Function.update_of_ne hgh] at hg
      rw [hothers g hgh, hcapacity g hgh]
      exact S.capacity g xs hg
  · by_cases hgh : g = h
    · rw [hgh] at hg ⊢
      exact hlimit hg
    · rw [hothers g hgh] at hg ⊢
      exact S.limit g hg

/-- The same change of a comet in both versions. -/
lemma Stores.setComet {c c' : Comet} (S : Stores p P) (φ : Comet → Comet)
    (hc : c.bare = φ (p.rest.comet h).bare) (hc' : c'.bare = φ (P.comet h).bare) :
    (p.rest.setComet h c).bare = (P.setComet h c').bare := by
  rw [Polling.bare_setComet, Polling.bare_setComet, S.rest, hc, hc', S.comet h]

/-- The queues are left alone. -/
lemma Stores.keep {rest : Polling} (S : Stores p P) (hrest : rest.bare = P'.bare)
    (hkeeps : P.KeepsQueues P') : Stores { p with rest } P' := by
  refine ⟨S.settled, hrest, fun g xs hg => ?_, fun g xs hg => ?_, fun g hg => ?_⟩
  · obtain ⟨hqueue, -, hclosed, -⟩ := hkeeps g
    rw [hqueue, hclosed]
    exact S.contents g xs hg
  · exact (S.capacity g xs hg).trans (hkeeps g).2.1.symm
  · obtain ⟨-, -, -, hlimit⟩ := hkeeps g
    obtain ⟨hsome, hsame⟩ := hlimit hg
    rw [hsame]
    exact S.limit g hsome

/-! ### The loops -/

/-- Closing the message in an item changes nothing else. -/
lemma closeMsg_eq {a : Nat} {x : FrontendMsg} (ha : memory.live a = true)
    (hx : memory.value a = some x) :
    closeMsg a memory = .ok
      { memory with value := Function.update memory.value a (some { x with closed := true }) } := by
  simp only [closeMsg, Memory.loadValue, Memory.storeValue, ha, hx, if_true, access, ok_bind]

/-- The loop of `move_queue` removes the first items of a queue. -/
lemma removeItems_spec (hs : Pools.Settled o f L s) (hl : L h = some l)
    (hxs : l.mapM s.memory.value = some xs) (hn : n ≤ l.length) :
    ∃ s', removeItems h n l.head? s = .ok s' ∧ (∃ o f L, Pools.Settled o f L s') ∧
      s'.contents = Function.update s.contents h (some (xs.drop n)) ∧
      (∀ g, (s'.queue g).capacity = (s.queue g).capacity) ∧ s'.lost = s.lost := by
  induction n generalizing o f L l xs s with
  | zero =>
    refine ⟨s, rfl, ⟨o, f, L, hs⟩, ?_, fun _ => rfl, rfl⟩
    have hcontents : s.contents h = some xs := by
      rw [hs.contents_eq]
      simp [hl, hxs]
    rw [List.drop_zero, ← hcontents, Function.update_eq_self]
  | succ n ih =>
    cases l with
    | nil => cases hn
    | cons a l =>
      obtain ⟨x, xs, rfl, hx, hrest⟩ := mapM_cons_eq_some hxs
      have hlist := hs.sound.holds.list (some h) _ hl
      obtain ⟨hlive, hnext, -⟩ := hlist.follows
      let v := Function.update s.memory.value a (some { x with closed := true })
      let s₁ : Pools HybiId FrontendMsg := { s with memory := { s.memory with value := v } }
      have hs₁ : Pools.Settled o f L s₁ := by
        refine hs.setValue fun q l' hl' b hb => ?_
        by_cases hba : b = a
        · simp [v, hba]
        · simp only [v, Function.update_of_ne hba]
          exact hs.filled q l' hl' b hb
      have hfirst : L h = some ([] ++ a :: l) := hl
      obtain ⟨o', f', s₂, hremove, hs₂, hvalues, -, hcapacity, hlost⟩ := hs₁.remove_spec hfirst
      have hlist₂ : Function.update L h (some ([] ++ l)) h = some l := Function.update_self ..
      have hvalue : ∀ b ∈ l, s₂.memory.value b = s.memory.value b := by
        intro b hb
        have hba : b ≠ a := fun heq => (List.nodup_cons.mp hlist.nodup).1 (heq ▸ hb)
        exact (hvalues h l hlist₂ b hb).trans (Function.update_of_ne hba _ _)
      have hrest₂ : l.mapM s₂.memory.value = some xs := (mapM_congr_value hvalue).trans hrest
      obtain ⟨s', hloop, hs', hcontents, hcapacity', hlost'⟩ :=
        ih hs₂ hlist₂ hrest₂ (Nat.le_of_succ_le_succ hn)
      refine ⟨s', ?_, hs', ?_, fun g => (hcapacity' g).trans (hcapacity g), hlost'.trans hlost⟩
      · rw [List.head?_cons, removeItems, Memory.load_eq (p := .link a) hlive, hnext,
          closeMsg_eq hlive hx]
        simp only [access, ok_bind]
        rw [hremove]
        exact hloop
      · have hstep : s₂.contents = Function.update s.contents h (some xs) := by
          refine hs.contents_update hs₂ (fun q l' hq hl' b hb => ?_) hrest₂
          refine (hvalues q l' (by rw [Function.update_of_ne hq, hl']) b hb).trans ?_
          exact Function.update_of_ne (hs.ne_of_mem hl (List.mem_cons_self ..) hl' hb hq) _ _
        rw [hcontents, hstep, Function.update_idem, List.drop_succ_cons]

/-- The loop of `free_comet` closes the messages in a list of items. -/
lemma closeItems_spec (hfollows : Follows memory l) (hxs : l.mapM memory.value = some xs)
    (hl : l.Nodup) (hn : l.length ≤ n) :
    ∃ v, closeItems n l.head? memory = .ok { memory with value := v } ∧
      (∀ b, b ∉ l → v b = memory.value b) ∧
      l.mapM v = some (xs.map fun x => { x with closed := true }) := by
  induction l generalizing n memory xs with
  | nil =>
    cases hxs
    exact ⟨memory.value, by cases n <;> rfl, fun _ _ => rfl, rfl⟩
  | cons a l ih =>
    obtain ⟨x, xs, rfl, hx, hrest⟩ := mapM_cons_eq_some hxs
    obtain ⟨hlive, hnext, hfollows⟩ := hfollows
    obtain ⟨hmem, hnodup⟩ := List.nodup_cons.mp hl
    cases n with
    | zero => cases hn
    | succ n =>
      let v₁ := Function.update memory.value a (some { x with closed := true })
      have hne : ∀ b ∈ l, v₁ b = memory.value b := by
        intro b hb
        refine Function.update_of_ne ?_ _ _
        rintro rfl
        exact hmem hb
      have hfollows₁ : Follows { memory with value := v₁ } l :=
        hfollows.congr (fun _ _ => rfl) fun _ _ => rfl
      obtain ⟨v, hloop, hsame, hclosed⟩ := ih hfollows₁ ((mapM_congr_value hne).trans hrest) hnodup
        (Nat.le_of_succ_le_succ hn)
      refine ⟨v, ?_, fun b hb => ?_, ?_⟩
      · rw [List.head?_cons, closeItems, closeMsg_eq hlive hx]
        have hload : ({ memory with value := v₁ } : Memory _ _).load (.link a) = some l.head? := by
          rw [← hnext]
          exact Memory.load_eq (p := .link a) hlive
        simp only [ok_bind]
        rw [hload]
        exact hloop
      · rw [List.mem_cons, not_or] at hb
        exact (hsame b hb.2).trans (Function.update_of_ne hb.1 _ _)
      · have ha : v a = some { x with closed := true } :=
          (hsame a hmem).trans (Function.update_self ..)
        simp [List.mapM_cons, ha, hclosed]

/-- The loop of `send_later` reads the first messages of a list of items that are not closed. -/
lemma readMsgs_spec (hfollows : Follows s.memory l)
    (hms : l.mapM s.memory.value = some (ms.map (stored false))) (hn : n ≤ l.length) :
    readMsgs s n l.head? = .ok (ms.take n) := by
  induction n generalizing l ms with
  | zero => rfl
  | succ n ih =>
    cases l with
    | nil => cases hn
    | cons a l =>
      obtain ⟨x, xs, heq, hx, hrest⟩ := mapM_cons_eq_some hms
      cases ms with
      | nil => cases heq
      | cons m ms =>
        obtain ⟨rfl, rfl⟩ := List.cons.inj heq
        obtain ⟨hlive, hnext, hfollows⟩ := hfollows
        have hloop := ih hfollows hrest (Nat.le_of_succ_le_succ hn)
        rw [List.head?_cons, readMsgs, readMsg, Memory.load_eq (p := .link a) hlive, hnext]
        simp only [Memory.loadValue, hlive, if_true, hx, access, ok_bind, stored,
          Bool.false_eq_true, if_false, hloop, List.take_succ_cons]

/-- The first message of a queue, if there is one, is read. -/
lemma readMsg_spec {closed : Bool} {m : Bytes} (hfollows : Follows s.memory l)
    (hms : l.mapM s.memory.value = some ((m :: ms).map (stored closed))) :
    readMsg s l.head? = if closed then .error .closedMessage else .ok m := by
  cases l with
  | nil => cases hms
  | cons a l =>
    obtain ⟨x, xs, heq, hx, -⟩ := mapM_cons_eq_some hms
    obtain ⟨rfl, -⟩ := List.cons.inj heq
    obtain ⟨hlive, -, -⟩ := hfollows
    rw [List.head?_cons, readMsg]
    simp only [Memory.loadValue, hlive, if_true, hx, access, ok_bind, stored]

/-! ### The calls -/

/-- Both versions return the same and have the same queues, and `lost` items have been lost. -/
def Alike (lost : Nat) (x : Int × PooledPolling) (y : Int × Polling) : Prop :=
  x.1 = y.1 ∧ Stores x.2 y.2 ∧ x.2.pool.lost.length = lost

lemma Stores.event (S : Stores p P) (e : Polling.Event) :
    Agree (Alike p.pool.lost.length)
      (do
        let rest ← e.run cfg env p.rest
        return ((0 : Int), { p with rest }))
      (do return ((0 : Int), ← e.run cfg env P)) := by
  have hblind := e.blind cfg env
  have hsame : (e.run cfg env p.rest).map Polling.bare = (e.run cfg env P).map Polling.bare :=
    (hblind.bare p.rest).trans
      ((congrArg (fun Q => e.run cfg env Q) S.rest).trans (hblind.bare P).symm)
  have hkeeps := hblind.keeps P
  cases hrest : e.run cfg env p.rest with
  | error e₁ =>
    cases hP : e.run cfg env P with
    | error e₂ =>
      rw [hrest, hP] at hsame
      exact Except.error.inj hsame
    | ok P' =>
      rw [hrest, hP] at hsame
      cases hsame
  | ok rest =>
    cases hP : e.run cfg env P with
    | error e₂ =>
      rw [hrest, hP] at hsame
      cases hsame
    | ok P' =>
      rw [hrest, hP] at hsame
      rw [hP] at hkeeps
      exact ⟨rfl, S.keep (Except.ok.inj hsame) hkeeps, rfl⟩

lemma Stores.openComet (S : Stores p P) (hnew : p.pool.memory.opened (some h) = false) :
    Agree (Alike p.pool.lost.length) (do return ((0 : Int), ← p.openComet conf h))
      (.ok (0, P.openComet conf h)) := by
  obtain ⟨o, f, L, hsettled⟩ := S.settled
  have hdoes : Pools.Does ⟨.init h conf.queueLimit, true⟩ p.pool := hsettled.does_init hnew
  obtain ⟨o', f', L', pool, hexec, hsettled', heffect⟩ := hdoes
  have hinit : (p.pool.setOpened h true).initQueue h conf.queueLimit = some pool := hexec
  have hcapacity : ∀ g, (pool.queue g).capacity
      = Function.update (fun q => (p.pool.queue q).capacity) h conf.queueLimit g := heffect.capacity
  rw [PooledPolling.openComet, hinit]
  refine ⟨rfl, S.update ⟨o', f', L', hsettled'⟩ ?_ heffect.contents (fun g hg => ?_)
    (fun g hg => Polling.setComet_comet_of_ne hg _) (fun xs hxs => ?_) fun hsome => ?_,
    heffect.lost⟩
  · simp only [Polling.openComet, Polling.bare_setComet, S.rest, S.curLimit]
  · exact (hcapacity g).trans (Function.update_of_ne hg _ _)
  · cases hxs
    rw [Polling.openComet, Polling.setComet_comet_self]
    exact ⟨rfl, (hcapacity h).trans (Function.update_self ..)⟩
  · rw [Polling.openComet, Polling.setComet_comet_self] at hsome
    cases hsome

lemma Stores.cometSend {ok : Bool} {m : Bytes} (S : Stores p P)
    (hh : p.pool.memory.opened (some h) = true) (hopen : (P.comet h).closed = false) :
    Agree (Alike p.pool.lost.length) (p.cometSend ok h m)
      (if (P.comet h).queue.length ≥ (P.comet h).capacity ∨
          decide (p.pool.currentFree ≠ 0 ∨ ok) = false then .ok (-1, P)
        else .ok (0, P.push h m)) := by
  obtain ⟨o, f, L, l, hsettled, -, -, hcontents⟩ := S.exists_items hh
  have hsize : (p.pool.queue h).size = (P.comet h).queue.length := S.size_eq hh
  have hcapacity : (p.pool.queue h).capacity = (P.comet h).capacity := S.capacity h _ hcontents
  rw [PooledPolling.cometSend, Pools.queuePush, hsize, hcapacity]
  by_cases hfull : (P.comet h).queue.length ≥ (P.comet h).capacity
  · rw [if_pos hfull, if_pos (Or.inl hfull)]
    exact ⟨rfl, S, rfl⟩
  · rw [if_neg hfull]
    rcases hsettled.forcePush_spec ok hh ⟨m, false⟩ with ⟨hnone, hempty, hok⟩ |
        ⟨item, pool, o', f', L', pool', hsome, hfill, hgranted, hsettled', heffect⟩
    · rw [hnone, if_pos (Or.inr (by simp [hempty, hok]))]
      exact ⟨rfl, S, rfl⟩
    · have hroom : ¬ ((P.comet h).queue.length ≥ (P.comet h).capacity ∨
          decide (p.pool.currentFree ≠ 0 ∨ ok) = false) := by
        rintro (hle | hmem)
        · exact hfull hle
        · exact of_decide_eq_false hmem hgranted
      rw [hsome, if_neg hroom]
      simp only [access, ok_bind, hfill]
      have hnew : pool'.contents = Function.update p.pool.contents h
          (some (((P.comet h).queue ++ [m]).map (stored false))) := by
        rw [heffect.contents, Pools.expected]
        simp only
        rw [if_pos hgranted, hcontents, hopen]
        simp [stored]
      refine ⟨rfl, S.update ⟨o', f', L', hsettled'⟩ ?_ hnew (fun g _ => heffect.capacity g)
        (fun g hg => Polling.setComet_comet_of_ne hg _) (fun xs hxs => ?_) fun hsome => ?_,
        heffect.lost⟩
      · exact S.setComet
          (fun c => { c with sendlater := c.sendlater || c.curRequest.isSome }) rfl rfl
      · cases hxs
        refine ⟨by simp [Polling.push, hopen], (heffect.capacity h).trans (hcapacity.trans ?_)⟩
        simp [Polling.push]
      · simp only [Polling.push, Polling.setComet_comet_self] at hsome ⊢
        exact S.limit h hsome

lemma Stores.moveQueue (S : Stores p P) (hh : p.pool.memory.opened (some h) = true)
    (msgid : Nat) :
    Agree (Alike p.pool.lost.length) (p.moveQueue h msgid) (P.moveQueue h msgid) := by
  rw [PooledPolling.moveQueue, Polling.moveQueue, S.firstIndex, S.size_eq hh]
  dsimp only
  split_ifs with hold hbeyond hnothing
  · exact ⟨rfl, S, rfl⟩
  · exact ⟨rfl, S, rfl⟩
  · exact ⟨rfl, S, rfl⟩
  · obtain ⟨o, f, L, l, hsettled, hl, hxs, hcontents⟩ := S.exists_items hh
    have hlist := hsettled.sound.holds.list (some h) l hl
    have hlen : l.length = (P.comet h).queue.length :=
      (length_eq_of_mapM hxs).trans (List.length_map _)
    obtain ⟨pool, hloop, hsettled', hnew, hcapacity, hlost⟩ :=
      removeItems_spec hsettled hl hxs ((Nat.not_lt.mp hbeyond).trans hlen.ge)
    rw [Memory.load_eq (p := .head (some h)) hh, hlist.first]
    simp only [access, ok_bind, hloop]
    refine ⟨rfl, S.update hsettled' ?_ hnew (fun g _ => hcapacity g)
      (fun g hg => Polling.setComet_comet_of_ne hg _) (fun xs heq => ?_) fun hsome => ?_,
      congrArg List.length hlost⟩
    · exact S.setComet
        (fun c => { c with firstIndex := toInt ((P.comet h).firstIndex + _) }) rfl rfl
    · cases heq
      rw [Polling.setComet_comet_self]
      exact ⟨List.map_drop.symm, (hcapacity h).trans (S.capacity h _ hcontents)⟩
    · rw [Polling.setComet_comet_self] at hsome ⊢
      exact S.limit h hsome

lemma Stores.park {r : ReqId} {args : CometArgs} (S : Stores p P)
    (hh : p.pool.memory.opened (some h) = true) (hlimit : args.limit ≠ 0) :
    Stores (p.park conf r args h) (P.park conf r args h) := by
  obtain ⟨o, f, L, l, hsettled, hl, hxs, hcontents⟩ := S.exists_items hh
  have hempty : ((p.pool.queue h).size == 0) = (P.comet h).queue.isEmpty := S.empty_iff hh
  refine S.update S.settled ?_ (Function.update_eq_self h p.pool.contents).symm (fun _ _ => rfl)
    (fun g hg => ?_) (fun xs hxs => ?_) fun _ => ?_
  · simp only [PooledPolling.park, Polling.park, hempty, S.request, Polling.bare_setComet,
      Polling.bare_setRequest, S.rest]
    congr 1
    have hcomet := congrArg (fun c : Comet => ({ c with
      curRequest := some r
      curFormat := args.outFormat
      curLimit := Polling.limitFor conf args.limit
      sendlater := c.sendlater || !(P.comet h).queue.isEmpty
      inactivity := false } : Comet)) (S.comet h)
    exact hcomet
  · exact Polling.park_comet_of_ne hg args
  · rw [Polling.park_comet_self]
    exact ⟨S.contents h xs hxs, S.capacity h xs hxs⟩
  · rw [Polling.park_comet_self]
    exact Polling.one_le_limitFor hlimit

lemma Stores.freeComet (S : Stores p P) (hh : p.pool.memory.opened (some h) = true) :
    Agree (Alike p.pool.lost.length) (do return ((0 : Int), ← p.freeComet h))
      (do return ((0 : Int), ← P.freeComet h)) := by
  rw [PooledPolling.freeComet, Polling.freeComet, S.curRequest]
  dsimp only
  split_ifs
  · rfl
  · obtain ⟨o, f, L, l, hsettled, hl, hxs, hcontents⟩ := S.exists_items hh
    have hlist := hsettled.sound.holds.list (some h) l hl
    obtain ⟨v, hloop, hsame, hclosed⟩ :=
      closeItems_spec hlist.follows hxs hlist.nodup (hsettled.sound.length_le hl)
    have hfilled : ∀ q l', L q = some l' → ∀ a ∈ l', (v a).isSome := by
      intro q l' hl' a ha
      by_cases hal : a ∈ l
      · have hmem : v a ∈ l.map v := List.mem_map_of_mem hal
        rw [mapM_eq_some_iff.mp hclosed] at hmem
        obtain ⟨x, -, hx⟩ := List.mem_map.mp hmem
        rw [← hx]
        rfl
      · rw [hsame a hal]
        exact hsettled.filled q l' hl' a ha
    have hsettled' := hsettled.setValue hfilled
    have hnew : ({ p.pool with memory := { p.pool.memory with value := v } } : Pools _ _).contents
        = Function.update p.pool.contents h (some ((P.comet h).queue.map (stored true))) := by
      have hL : Function.update L h (some l) = L := by rw [← hl, Function.update_eq_self]
      refine hsettled.contents_update (hL.symm ▸ hsettled') (fun q l' hq hl' b hb => hsame b ?_) ?_
      · exact fun hmem => hsettled.ne_of_mem hl hmem hl' hb hq rfl
      · rw [Option.bind_some]
        refine hclosed.trans ?_
        rw [List.map_map]
        rfl
    rw [Memory.load_eq (p := .head (some h)) hh, hlist.first]
    simp only [access, ok_bind, hloop]
    refine ⟨rfl, S.update ⟨o, f, L, hsettled'⟩ ?_ hnew (fun _ _ => rfl)
      (fun g hg => Polling.setComet_comet_of_ne hg _) (fun xs heq => ?_) fun hsome => ?_, rfl⟩
    · exact S.setComet (fun c => { c with
        curRequest := (P.comet h).curRequest, sendlater := false, inactivity := false }) rfl rfl
    · cases heq
      rw [Polling.setComet_comet_self]
      exact ⟨rfl, S.capacity h _ hcontents⟩
    · rw [Polling.setComet_comet_self] at hsome ⊢
      exact S.limit h hsome

lemma Stores.hybiFree (S : Stores p P) (hh : p.pool.memory.opened (some h) = true) :
    Agree (Alike (p.pool.lost.length + (P.comet h).queue.length))
      (do return ((0 : Int), ← p.hybiFree h)) (.ok (0, P)) := by
  obtain ⟨o, f, L, l, hsettled, -, -, hcontents⟩ := S.exists_items hh
  have hdoes : Pools.Does ⟨.drop h, true⟩ p.pool := hsettled.does_drop hh
  obtain ⟨o', f', L', pool, hexec, hsettled', heffect⟩ := hdoes
  rw [PooledPolling.hybiFree, hexec]
  refine ⟨rfl, S.update (h := h) ⟨o', f', L', hsettled'⟩ S.rest heffect.contents
    (fun g _ => heffect.capacity g) (fun _ _ => rfl) (fun xs heq => by cases heq) (S.limit h), ?_⟩
  refine heffect.lost.trans ?_
  rw [Pools.losses]
  simp [hcontents]

/-- A message that cannot be read ends the loop of `send_later`. -/
lemma readMsgs_error {e : Fault} (hfirst : readMsg s l.head? = .error e) (hl : l ≠ []) :
    readMsgs s (n + 1) l.head? = .error e := by
  cases l with
  | nil => exact absurd rfl hl
  | cons a l =>
    rw [List.head?_cons] at hfirst ⊢
    rw [readMsgs, hfirst]
    rfl

/-- `send_later` finds in memory what it is to reply, or a closed message. -/
lemma Stores.messageReply {r : ReqId} (S : Stores p P)
    (hh : p.pool.memory.opened (some h) = true) (hlimit : 1 ≤ (P.comet h).curLimit)
    (hne : (P.comet h).queue ≠ []) :
    p.messageReply cfg env r h = if (P.comet h).closed then .error .closedMessage
      else .ok (Polling.messageReply cfg env r (P.request r) (P.comet h)) := by
  obtain ⟨o, f, L, l, hsettled, hl, hxs, hcontents⟩ := S.exists_items hh
  obtain ⟨m, ms, hqueue⟩ := List.exists_cons_of_ne_nil hne
  have hlist := hsettled.sound.holds.list (some h) l hl
  have hlen : l.length = (P.comet h).queue.length :=
    (length_eq_of_mapM hxs).trans (List.length_map _)
  have hformat : (p.rest.comet h).curFormat = (P.comet h).curFormat := by
    have hsame := congrArg Comet.curFormat (S.comet h)
    exact hsame
  have hfirst : readMsg p.pool l.head?
      = if (P.comet h).closed then .error .closedMessage else .ok m := by
    rw [hqueue] at hxs
    exact readMsg_spec hlist.follows hxs
  rw [PooledPolling.messageReply, Memory.load_eq (p := .head (some h)) hh, hlist.first, hformat,
    S.curLimit, S.firstIndex, S.request, S.size_eq hh, Polling.messageReply]
  simp only [access, ok_bind]
  cases (P.comet h).curFormat with
  | single =>
    simp only [hfirst, hqueue]
    cases (P.comet h).closed <;> rfl
  | jsonlist =>
    have hcount : (if ((P.comet h).queue.length : Int) > (P.comet h).curLimit
        then (P.comet h).curLimit else ((P.comet h).queue.length : Int))
        = Polling.jsonlistCount (P.comet h) := rfl
    have hpos : 0 < (P.comet h).queue.length := List.length_pos_iff.mpr hne
    obtain ⟨n, hn⟩ : ∃ n, (Polling.jsonlistCount (P.comet h)).toNat = n + 1 := by
      refine Nat.exists_eq_add_one.mpr ?_
      rw [Polling.jsonlistCount]
      split_ifs <;> omega
    have hle : (Polling.jsonlistCount (P.comet h)).toNat ≤ l.length := by
      rw [Polling.jsonlistCount, hlen]
      split_ifs <;> omega
    simp only [hcount]
    cases hclosed : (P.comet h).closed with
    | false =>
      rw [hclosed] at hxs
      rw [readMsgs_spec hlist.follows hxs hle]
      rfl
    | true =>
      rw [hclosed] at hfirst
      rw [hn, readMsgs_error hfirst fun hnil => by simp [hnil] at hlen; omega]
      rfl

/-- `send_later` -/
lemma Stores.sendLater (S : Stores p P) (hh : p.pool.memory.opened (some h) = true) :
    Agree (Alike p.pool.lost.length) (do return ((0 : Int), ← p.sendLater cfg env h))
      (do return ((0 : Int), ← P.sendLater cfg env h)) := by
  have hsize : (p.pool.queue h).size = (P.comet h).queue.length := S.size_eq hh
  rw [PooledPolling.sendLater, Polling.sendLater, S.curRequest]
  dsimp only
  cases hcur : (P.comet h).curRequest with
  | none =>
    refine ⟨rfl, S.keep (S.setComet (fun c => { c with curRequest := none, sendlater := false })
      rfl rfl) ?_, rfl⟩
    exact Polling.keepsQueues_setComet rfl rfl rfl rfl fun hsome => by cases hsome
  | some r =>
    have hparked : (P.comet h).curRequest.isSome := by simp [hcur]
    simp only [hsize]
    by_cases hempty : (P.comet h).queue = []
    · rw [if_pos (by simp [hempty]), if_pos (by simp [hempty])]
      refine ⟨rfl, S.keep (S.setComet (fun c => { c with
        curRequest := some r, sendlater := false, inactivity := true }) rfl rfl) ?_, rfl⟩
      exact Polling.keepsQueues_setComet rfl rfl rfl rfl fun _ => ⟨hparked, rfl⟩
    · rw [if_neg (by simpa using hempty), if_neg (by simpa using hempty),
        S.messageReply hh (S.limit h hparked) hempty]
      cases hclosed : (P.comet h).closed with
      | true => rfl
      | false =>
        refine ⟨rfl, S.keep ?_ ?_, rfl⟩
        · simp only [Polling.bare_setComet, Polling.bare_answer, S.rest]
          congr 1
          have hcomet := congrArg (fun c : Comet =>
            ({ c with curRequest := none, sendlater := false, inactivity := true } : Comet))
            (S.comet h)
          exact hcomet
        · exact Polling.keepsQueues_setComet rfl rfl rfl hclosed.symm
            fun hsome => by cases hsome

/-! ### Runs -/

/-- How the server makes its calls: a queue is set up for a connection that is not in memory and
used while it is, nothing is sent to a connection that has been stopped, and only a request that
takes messages is parked. -/
def Proper (i : Polling.Input) (x : PooledPolling × Polling) : Prop :=
  match i.op with
  | .event _ => True
  | .connect _ h => x.1.pool.memory.opened (some h) = false
  | .send h _ => x.1.pool.memory.opened (some h) = true ∧ (x.2.comet h).closed = false
  | .park _ _ args h => x.1.pool.memory.opened (some h) = true ∧ args.limit ≠ 0
  | .ack h _ | .later h | .free h | .gone h => x.1.pool.memory.opened (some h) = true

instance (i : Polling.Input) (x : PooledPolling × Polling) : Decidable (Proper i x) :=
  match i with
  | ⟨.event _, _, _⟩ => inferInstanceAs (Decidable True)
  | ⟨.connect _ h, _, _⟩ => inferInstanceAs (Decidable (x.1.pool.memory.opened (some h) = false))
  | ⟨.send h _, _, _⟩ => inferInstanceAs
      (Decidable (x.1.pool.memory.opened (some h) = true ∧ (x.2.comet h).closed = false))
  | ⟨.park _ _ args h, _, _⟩ =>
    inferInstanceAs (Decidable (x.1.pool.memory.opened (some h) = true ∧ args.limit ≠ 0))
  | ⟨.ack h _, _, _⟩ | ⟨.later h, _, _⟩ | ⟨.free h, _, _⟩ | ⟨.gone h, _, _⟩ =>
    inferInstanceAs (Decidable (x.1.pool.memory.opened (some h) = true))

/-- How many items a call loses. -/
def losses (i : Polling.Input) (P : Polling) : Nat :=
  match i.op with
  | .gone h => (P.comet h).queue.length
  | _ => 0

/-- The same call in memory and with lists. -/
def step (cfg : Config) (i : Polling.Input) (x : PooledPolling × Polling) :
    Except Fault (PooledPolling × Polling) := do
  let (_, p) ← x.1.call cfg i
  let (_, P) ← x.2.call cfg (seen i x.1)
  return (p, P)

/-- Both versions do the same in one call. -/
lemma Stores.call {i : Polling.Input} (S : Stores p P) (hi : Proper i (p, P)) :
    Agree (Alike (p.pool.lost.length + losses i P)) (p.call cfg i) (P.call cfg (seen i p)) := by
  obtain ⟨op, env, ok⟩ := i
  cases op with
  | event e => exact S.event e
  | connect route h => exact S.openComet hi
  | send h m => exact S.cometSend hi.1 hi.2
  | ack h msgid => exact S.moveQueue hi msgid
  | park route r args h => exact ⟨rfl, S.park hi.1 hi.2, rfl⟩
  | later h => exact S.sendLater hi
  | free h => exact S.freeComet hi
  | gone h => exact S.hybiFree hi

lemma stores_init (n : Nat) : Stores (init n) Polling.init := by
  have hsettled := Pools.settled_init (κ := HybiId) (α := FrontendMsg) n fun _ => none
  have hnone : ∀ h xs, (init n).pool.contents h ≠ some xs := by
    intro h xs heq
    cases (congrFun hsettled.contents_eq h).symm.trans heq
  exact ⟨⟨_, _, _, hsettled⟩, rfl, fun h xs heq => absurd heq (hnone h xs),
    fun h xs heq => absurd heq (hnone h xs), fun h hsome => by cases hsome⟩

lemma stores_of_reachable (hr : ReachableVia (step cfg) Proper (init n, Polling.init) (p, P)) :
    Stores p P := by
  refine hr.invariant (I := fun x => Stores x.1 x.2) (stores_init n) fun i x x' hi S hstep => ?_
  obtain ⟨⟨k, p'⟩, hp, hrest⟩ := bind_eq_ok.mp hstep
  obtain ⟨⟨k', P'⟩, hP, heq⟩ := bind_eq_ok.mp hrest
  cases heq
  have hcall : Agree _ (x.1.call cfg i) (x.2.call cfg (seen i x.1)) := S.call hi
  rcases hcall.cases with ⟨e, herror, -⟩ | ⟨y, z, hy, hz, halike⟩
  · cases hp.symm.trans herror
  · cases hp.symm.trans hy
    cases hP.symm.trans hz
    exact halike.2.1

/-- The queues of the long-poll connections over one pool, of any size, are those with lists: in any
run every call returns the same in memory and with lists, replies the same, ends with the same fault
if it fails, so that it touches no memory that is not there, and leaves the same queues. Items are
lost exactly when a connection is freed, and then all that are still in its queue. -/
theorem frontend_queues_stored {i : Polling.Input}
    (hr : ReachableVia (step cfg) Proper (init n, Polling.init) (p, P)) (hi : Proper i (p, P)) :
    Agree (fun x y => x.1 = y.1 ∧ Stores x.2 y.2 ∧
        x.2.pool.lost.length = p.pool.lost.length + losses i P)
      (p.call cfg i) (P.call cfg (seen i p)) :=
  (stores_of_reachable hr).call hi

/-- A connection overflows, has a message acknowledged, gets another one into the item that the pool
has kept, is stopped, and is then freed with two closed messages in its queue. -/
theorem frontend_queues_stored_gone : ∃ (p p' : PooledPolling) (P P' : Polling),
    p.pool.contents 0 = some [stored true (str "b"), stored true (str "d")] ∧
      (P.request 0).replies.map Reply.body = [str "a"] ∧ p.pool.lost = [] ∧
      p.call Server.smallConfig ⟨.gone 0, Server.stalledEnv, true⟩ = .ok (0, p') ∧ Stores p' P' ∧
      p'.pool.lost.length = 2 := by
  have hrun : (run (guarded (step Server.smallConfig) Proper .useAfterFree)
      [⟨.connect 0 0, Server.stalledEnv, true⟩, ⟨.send 0 (str "a"), Server.stalledEnv, true⟩,
        ⟨.send 0 (str "b"), Server.stalledEnv, true⟩, ⟨.send 0 (str "c"), Server.stalledEnv, true⟩,
        ⟨.park 0 0 (Server.pollArgs 0 3 .single .single) 0, Server.stalledEnv, true⟩,
        ⟨.later 0, Server.stalledEnv, true⟩, ⟨.ack 0 1, Server.stalledEnv, true⟩,
        ⟨.send 0 (str "d"), Server.stalledEnv, false⟩, ⟨.free 0, Server.stalledEnv, true⟩]
      (init 1, Polling.init)).map
        (fun x => (x.1.pool.contents 0, (x.2.request 0).replies.map Reply.body, x.1.pool.lost,
          (x.2.comet 0).queue.length, x.1.pool.memory.opened (some 0)))
      = .ok (some [stored true (str "b"), stored true (str "d")], [str "a"], [], 2, true) := by
    decide +kernel
  obtain ⟨⟨p, P⟩, hr, hview⟩ := exists_of_guarded _ hrun
  simp only [Prod.mk.injEq] at hview
  obtain ⟨hcontents, hreplies, hlost, hqueue, hopened⟩ := hview
  rcases (frontend_queues_stored (i := ⟨.gone 0, Server.stalledEnv, true⟩) hr hopened).cases with
    ⟨e, -, herror⟩ | ⟨⟨k, p'⟩, ⟨k', P'⟩, hp', hP', hsame, hstores, hcount⟩
  · cases herror
  · cases hP'
    cases hsame
    refine ⟨p, p', P, P, hcontents, hreplies, hlost, hp', hstores, hcount.trans ?_⟩
    have hloss : losses ⟨.gone 0, Server.stalledEnv, true⟩ P = 2 := hqueue
    rw [hlost, hloss]
    rfl

end PooledPolling

end Zerogw
