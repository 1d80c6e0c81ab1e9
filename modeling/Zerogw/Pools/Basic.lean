import Zerogw.Basic
import Zerogw.Library.Execution
import Zerogw.Library.Intrusive

/-!
# Pools of objects and queues over them

`pool.c` keeps objects that are not in use on a list instead of freeing them, and `msgqueue.c` takes
the items of its queues from a pool. Both link their objects through the first words of the objects
themselves: an object on the free list uses for it what was the link of a queue item before.
-/

namespace Zerogw

open Intrusive

/-- `queue_t` without its items. -/
structure Queue where
  size : Nat
  capacity : Nat
  deriving DecidableEq, Repr

/-- A pool, which has the head `none`, and all queues over it. `held` records the objects that
`pool_alloc` has given to its other callers, and `lost` the items of queues that have gone together
with the connection they were part of. -/
structure Pools (κ α : Type) where
  memory : Memory (Option κ) α
  maxFree : Nat
  currentFree : Nat
  queue : κ → Queue
  held : List Nat
  lost : List Nat

namespace Pools

variable {κ α : Type}

/-- What has been read, or the access to memory that is not there. -/
def access : Option α → Except Fault α
  | some a => .ok a
  | none => .error .outOfBounds

/-! ### The pool -/

section

variable [DecidableEq κ]

/-- `pool_alloc`; `ok` tells whether `malloc` has memory. The list of a pool that counts free
objects is not looked at before its first object is taken. -/
def poolAlloc (ok : Bool) (s : Pools κ α) : Option (Option Nat × Pools κ α) :=
  if s.currentFree ≠ 0 then do
    let val ← ← s.memory.load (.head none)
    let memory ← s.memory.listRemove val
    some (some val, { s with memory, currentFree := s.currentFree - 1 })
  else if ok then some (some s.memory.malloc.1, { s with memory := s.memory.malloc.2 })
  else some (none, s)

/-- `pool_free` -/
def poolFree (obj : Nat) (s : Pools κ α) : Option (Pools κ α) :=
  if s.currentFree < s.maxFree then do
    let memory ← s.memory.listInsertHead none obj
    some { s with memory, currentFree := s.currentFree + 1 }
  else do
    let memory ← s.memory.free obj
    some { s with memory }

end

/-- The loop of `free_pool`. -/
def freeObjects : Nat → Option Nat → Pools κ α → Option (Pools κ α)
  | _, none, s => some s
  | 0, some _, _ => none
  | fuel + 1, some cur, s => do
    let nxt ← s.memory.load (.link cur)
    let memory ← s.memory.free cur
    freeObjects fuel nxt { s with memory }

/-- `free_pool`. A list with more objects than there have been blocks does not end. -/
def freePool (s : Pools κ α) : Option (Pools κ α) := do
  let first ← s.memory.load (.head none)
  freeObjects s.memory.next first s

/-! ### The queues -/

section

variable [DecidableEq κ]

/-- `init_queue` -/
def initQueue (q : κ) (capacity : Nat) (s : Pools κ α) : Option (Pools κ α) := do
  let memory ← s.memory.tailqInit (some q)
  some { s with memory, queue := Function.update s.queue q ⟨0, capacity⟩ }

/-- `queue_force_push` -/
def queueForcePush (ok : Bool) (q : κ) (s : Pools κ α) : Option (Option Nat × Pools κ α) := do
  let (res, s) ← s.poolAlloc ok
  match res with
  | none => some (none, s)
  | some res =>
    let memory ← s.memory.tailqInsertTail (some q) res
    some (some res, { s with
      memory
      queue := Function.update s.queue q { s.queue q with size := (s.queue q).size + 1 } })

/-- `queue_push` -/
def queuePush (ok : Bool) (q : κ) (s : Pools κ α) : Option (Option Nat × Pools κ α) :=
  if (s.queue q).size ≥ (s.queue q).capacity then some (none, s) else s.queueForcePush ok q

/-- `queue_remove` -/
def queueRemove (q : κ) (item : Nat) (s : Pools κ α) : Option (Pools κ α) := do
  let memory ← s.memory.tailqRemove (some q) item
  let s ← { s with memory }.poolFree item
  some { s with
    queue := Function.update s.queue q { s.queue q with size := (s.queue q).size - 1 } }

/-- The loop of `free_queue`. -/
def freeItems : Nat → Option Nat → Pools κ α → Option (Pools κ α)
  | _, none, s => some s
  | 0, some _, _ => none
  | fuel + 1, some cur, s => do
    let nxt ← s.memory.load (.link cur)
    let s ← s.poolFree cur
    freeItems fuel nxt s

/-- `free_queue` -/
def freeQueue (q : κ) (s : Pools κ α) : Option (Pools κ α) := do
  let first ← s.memory.load (.head (some q))
  freeItems s.memory.next first s

end

section

variable [DecidableEq κ]

/-- What `release_websockets` does with the pool behind the backend sockets: their queues are freed,
and then the pool is. The queues of connections are not freed before their pool. -/
def release (qs : List κ) (s : Pools κ α) : Option (Pools κ α) := do
  let s ← qs.foldlM (fun s q => s.freeQueue q) s
  s.freePool

end

/-- The objects the pool keeps, from the head of its list on. -/
def freeList (s : Pools κ α) : Option (List Nat) := do
  let first ← s.memory.load (.head none)
  s.memory.walk s.memory.next first

/-- The items of a queue, as `TAILQ_FOREACH` finds them. -/
def items (q : κ) (s : Pools κ α) : Option (List Nat) := do
  let first ← s.memory.load (.head (some q))
  s.memory.walk s.memory.next first

/-- What is in the items of a queue. -/
def contents (s : Pools κ α) (q : κ) : Option (List α) := do
  let items ← s.items q
  items.mapM s.memory.value

/-! ### Runs -/

/-- What is done with a pool and its queues: a queue is set up in memory that is there, a message is
pushed and written into its item, the item at a place of the queue is removed, a queue is freed, a
connection goes with its queue, and objects are taken and given back. -/
inductive Op (κ α : Type) where
  | init (q : κ) (capacity : Nat)
  | push (q : κ) (x : α)
  | forcePush (q : κ) (x : α)
  | remove (q : κ) (n : Nat)
  | free (q : κ)
  | drop (q : κ)
  | alloc
  | giveBack (obj : Nat)

/-- An operation, and whether `malloc` has memory while it runs. -/
structure Input (κ α : Type) where
  op : Op κ α
  ok : Bool

variable [DecidableEq κ]

/-- The head of a queue is in memory from now on, or is not any more. -/
def setOpened (q : κ) (on : Bool) (s : Pools κ α) : Pools κ α :=
  { s with
    memory := { s.memory with opened := Function.update s.memory.opened (some q) on } }

/-- The caller writes its message into the item it has got. -/
def fill (x : α) : Option Nat × Pools κ α → Option (Pools κ α)
  | (none, s) => some s
  | (some item, s) => do
    let memory ← s.memory.storeValue item x
    some { s with memory }

/-- One operation; a queue that is freed or gone is not to be touched again. -/
def exec (i : Input κ α) (s : Pools κ α) : Option (Pools κ α) :=
  match i.op with
  | .init q capacity => (s.setOpened q true).initQueue q capacity
  | .push q x => do fill x (← s.queuePush i.ok q)
  | .forcePush q x => do fill x (← s.queueForcePush i.ok q)
  | .remove q n => do
    let items ← s.items q
    let item ← items[n]?
    s.queueRemove q item
  | .free q => do
    let s ← s.freeQueue q
    some (s.setOpened q false)
  | .drop q => do
    let items ← s.items q
    some { s.setOpened q false with lost := items ++ s.lost }
  | .alloc => do
    let (obj, s) ← s.poolAlloc i.ok
    some { s with held := obj.toList ++ s.held }
  | .giveBack obj => do
    let s ← s.poolFree obj
    some { s with held := s.held.erase obj }

/-- An access to memory that is not there has no result. -/
def step (i : Input κ α) (s : Pools κ α) : Except Fault (Pools κ α) :=
  match s.exec i with
  | some s' => .ok s'
  | none => .error .useAfterFree

/-- The state behind `init_pool` and `init_queue` for the queues that `capacity` lists. -/
def init (maxFree : Nat) (capacity : κ → Option Nat) : Pools κ α where
  memory :=
    { live _ := false
      next := 0
      opened k := k.all fun q => (capacity q).isSome
      pointer _ := none
      back _ := .head none
      last := .head
      value _ := none }
  maxFree := maxFree
  currentFree := 0
  queue q := ⟨0, (capacity q).getD 0⟩
  held := []
  lost := []

/-- How the functions are to be used: a queue is set up once, and is used from then on until it is
freed or goes; only what is in a queue is removed, and only what has been taken is given back. -/
def Proper (i : Input κ α) (s : Pools κ α) : Prop :=
  match i.op with
  | .init q _ => s.memory.opened (some q) = false
  | .push q _ | .forcePush q _ | .free q | .drop q => s.memory.opened (some q) = true
  | .remove q n => n < ((s.contents q).getD []).length
  | .alloc => True
  | .giveBack obj => obj ∈ s.held

instance (i : Input κ α) (s : Pools κ α) : Decidable (Proper i s) :=
  match i with
  | ⟨.init q _, _⟩ => inferInstanceAs (Decidable (s.memory.opened (some q) = false))
  | ⟨.push q _, _⟩ | ⟨.forcePush q _, _⟩ | ⟨.free q, _⟩ | ⟨.drop q, _⟩ =>
    inferInstanceAs (Decidable (s.memory.opened (some q) = true))
  | ⟨.remove q n, _⟩ => inferInstanceAs (Decidable (n < ((s.contents q).getD []).length))
  | ⟨.alloc, _⟩ => inferInstanceAs (Decidable True)
  | ⟨.giveBack obj, _⟩ => inferInstanceAs (Decidable (obj ∈ s.held))

/-- What a proper operation makes of the contents of the queues. -/
def expected (i : Input κ α) (s : Pools κ α) : κ → Option (List α) :=
  match i.op with
  | .init q _ => Function.update s.contents q (some [])
  | .push q x =>
    if (s.queue q).size < (s.queue q).capacity ∧ (s.currentFree ≠ 0 ∨ i.ok) then
      Function.update s.contents q ((s.contents q).map (· ++ [x]))
    else s.contents
  | .forcePush q x =>
    if s.currentFree ≠ 0 ∨ i.ok then
      Function.update s.contents q ((s.contents q).map (· ++ [x]))
    else s.contents
  | .remove q n => Function.update s.contents q ((s.contents q).map (·.eraseIdx n))
  | .free q | .drop q => Function.update s.contents q none
  | .alloc | .giveBack _ => s.contents

/-- The limits of the queues after an operation. -/
def capacities (i : Input κ α) (s : Pools κ α) : κ → Nat :=
  match i.op with
  | .init q capacity => Function.update (fun q => (s.queue q).capacity) q capacity
  | _ => fun q => (s.queue q).capacity

/-- How many items an operation loses. -/
def losses (i : Input κ α) (s : Pools κ α) : Nat :=
  match i.op with
  | .drop q => ((s.contents q).getD []).length
  | _ => 0

/-- What a proper operation does. -/
structure Effect (i : Input κ α) (s s' : Pools κ α) : Prop where
  maxFree : s'.maxFree = s.maxFree
  contents : s'.contents = s.expected i
  capacity : ∀ q, (s'.queue q).capacity = s.capacities i q
  lost : s'.lost.length = s.lost.length + s.losses i

end Pools

end Zerogw
