import Zerogw.Library.Heap
import Zerogw.Basic

/-!
# Topics

The topic tables of `websocket.c`. A subscription is an object that is in two lists, the
subscribers of its topic and the subscriptions of its connection; a topic is in one cell of its
route's hash table. The list heads `hybi->subscribers` are kept here, by connection.

Memory allocation does not fail in this model.
-/

namespace Zerogw

abbrev SubId := Nat
abbrev TopicId := Nat

/-- `subscriber_t` -/
@[ext]
structure Subscriber where
  topic : TopicId
  connection : HybiId
  deriving DecidableEq

/-- `topic_t`; `table` is the route that owns the hash table. -/
structure Topic where
  table : RouteId
  hash : UInt64
  name : Bytes
  subscribers : List SubId

/-- `topic_hash_t`; `cells` is the array `table`. -/
structure TopicHash where
  hashSize : Nat
  ntopics : Int
  nsubscriptions : Int
  cells : Nat → List TopicId

/-- The cell of a table that a hash value selects. -/
def TopicHash.cellOf (table : TopicHash) (hash : UInt64) : Nat := hash.toNat % table.hashSize

/-- All topics and subscriptions, with the statistics counters about them. `tables r` is
`_topics` of route `r`, created with its array on the first subscription. -/
structure Topics where
  tables : RouteId → Option TopicHash
  topic : Heap Topic
  sub : Heap Subscriber
  clients : HybiId → List SubId
  topicsCreated : Nat
  topicsRemoved : Nat
  websockSubscribed : Nat
  websockUnsubscribed : Nat

/-- `topic_hash`; the bytes are signed `char`s and are sign extended. -/
def topicHash (s : Bytes) : UInt64 :=
  s.foldl (fun res c =>
    let res := res + ((res <<< 1) + (res <<< 4) + (res <<< 7) + (res <<< 8) + (res <<< 24))
    res ^^^ c.toInt8.toInt64.toUInt64) 0

namespace Topics

def init : Topics := ⟨fun _ => none, .empty, .empty, fun _ => [], 0, 0, 0, 0⟩

def setTable (r : RouteId) (f : TopicHash → TopicHash) (T : Topics) : Topics :=
  { T with tables := Function.update T.tables r ((T.tables r).map f) }

/-- `mktopic` and `LIST_INSERT_HEAD` into its cell, with the table's count. -/
def addTopic (r : RouteId) (name : Bytes) (T : Topics) : TopicId × Topics :=
  let t := T.topic.next
  let hash := topicHash name
  (t, setTable r
    (fun table =>
      { table with
        ntopics := table.ntopics + 1
        cells := Function.update table.cells (table.cellOf hash)
          (t :: table.cells (table.cellOf hash)) })
    { T with
      topic := T.topic.alloc ⟨r, hash, name, []⟩
      topicsCreated := T.topicsCreated + 1 })

/-- The comparison in the loop of `find_topic`. -/
def isNamed (name : Bytes) (T : Topics) (t : TopicId) : Bool :=
  match T.topic.get t with
  | some c => c.name.length == name.length && c.hash == topicHash name && c.name == name
  | none => false

/-- `find_topic`; `size` is `topic-hash-size`. The source tests for an empty cell before it scans
the cell, which changes nothing. -/
def findTopic (size : RouteId → Nat) (r : RouteId) (name : Bytes) (create : Bool) (T : Topics) :
    Option TopicId × Topics :=
  match T.tables r with
  | none =>
    if create then
      let T := { T with tables := Function.update T.tables r (some ⟨size r, 0, 0, fun _ => []⟩) }
      let (t, T) := T.addTopic r name
      (some t, T)
    else (none, T)
  | some table =>
    match (table.cells (table.cellOf (topicHash name))).find? (T.isNamed name) with
    | some t => (some t, T)
    | none =>
      if create then
        let (t, T) := T.addTopic r name
        (some t, T)
      else (none, T)

/-- Allocate a subscription and put it at the head of both of its lists. -/
def addSub (h : HybiId) (t : TopicId) (T : Topics) : Topics :=
  match T.topic.get t with
  | none => T
  | some c =>
    let i := T.sub.next
    setTable c.table (fun table => { table with nsubscriptions := table.nsubscriptions + 1 })
      { T with
        sub := T.sub.alloc ⟨t, h⟩
        topic := T.topic.modify t fun c => { c with subscribers := i :: c.subscribers }
        clients := Function.update T.clients h (i :: T.clients h)
        websockSubscribed := T.websockSubscribed + 1 }

/-- `LIST_REMOVE` of a subscription from both of its lists, `pool_free`, and the counters: what
`free_topic`, `topic_unsubscribe` and `hybi_stop` each do with a subscription. -/
def removeSub (i : SubId) (T : Topics) : Topics :=
  match T.sub.get i with
  | none => T
  | some s =>
    match T.topic.get s.topic with
    | none => T
    | some c =>
      setTable c.table (fun table => { table with nsubscriptions := table.nsubscriptions - 1 })
        { T with
          sub := T.sub.free i
          topic := T.topic.modify s.topic fun c => { c with subscribers := c.subscribers.erase i }
          clients := Function.update T.clients s.connection ((T.clients s.connection).erase i)
          websockUnsubscribed := T.websockUnsubscribed + 1 }

/-- The end of `free_topic`: take the topic out of its cell and free it. -/
def removeTopic (t : TopicId) (T : Topics) : Topics :=
  match T.topic.get t with
  | none => T
  | some c =>
    setTable c.table
      (fun table =>
        { table with
          ntopics := table.ntopics - 1
          cells := Function.update table.cells (table.cellOf c.hash)
            ((table.cells (table.cellOf c.hash)).erase t) })
      { T with topic := T.topic.free t, topicsRemoved := T.topicsRemoved + 1 }

/-- The list `topic->subscribers`. -/
def subscribers (T : Topics) (t : TopicId) : List SubId :=
  match T.topic.get t with
  | some c => c.subscribers
  | none => []

/-- `free_topic` -/
def freeTopic (t : TopicId) (T : Topics) : Topics :=
  ((T.subscribers t).foldl (fun T i => T.removeSub i) T).removeTopic t

/-- The subscription is for topic `t`. -/
def isFor (t : TopicId) (T : Topics) (i : SubId) : Bool :=
  match T.sub.get i with
  | some s => s.topic == t
  | none => false

/-- `topic_subscribe` -/
def topicSubscribe (h : HybiId) (t : TopicId) (T : Topics) : Topics :=
  if (T.clients h).any (T.isFor t) then T else T.addSub h t

/-- Remove a subscription, and its topic with it if nobody else is subscribed. -/
def leave (i : SubId) (T : Topics) : Topics :=
  match T.sub.get i with
  | none => T
  | some s =>
    let T := T.removeSub i
    if (T.subscribers s.topic).isEmpty then T.freeTopic s.topic else T

/-- `topic_unsubscribe` -/
def topicUnsubscribe (h : HybiId) (t : TopicId) (T : Topics) : Topics :=
  match (T.clients h).find? (T.isFor t) with
  | none => T
  | some i => T.leave i

/-- `topic_clone` -/
def topicClone (source target : TopicId) (T : Topics) : Topics :=
  let T := (T.subscribers source).foldl (fun T i =>
    match T.sub.get i with
    | some s => T.topicSubscribe s.connection target
    | none => T) T
  if (T.subscribers target).isEmpty then T.freeTopic target else T

/-- The loop of `hybi_stop` over the subscriptions of the connection. -/
def stop (h : HybiId) (T : Topics) : Topics := (T.clients h).foldl (fun T i => T.leave i) T

/-! ### The commands on topics -/

/-- `subscribe` in `websock_process`. -/
def subscribe (size : RouteId → Nat) (h : HybiId) (r : RouteId) (name : Bytes) (T : Topics) :
    Topics :=
  match T.findTopic size r name true with
  | (some t, T) => T.topicSubscribe h t
  | (none, T) => T

/-- `unsubscribe` in `websock_process`. -/
def unsubscribe (size : RouteId → Nat) (h : HybiId) (r : RouteId) (name : Bytes) (T : Topics) :
    Topics :=
  match T.findTopic size r name false with
  | (some t, T) => T.topicUnsubscribe h t
  | (none, T) => T

/-- `clone` in `websock_process`. -/
def clone (size : RouteId → Nat) (r : RouteId) (source target : Bytes) (T : Topics) : Topics :=
  match T.findTopic size r source false with
  | (none, T) => T
  | (some s, T) =>
    match T.findTopic size r target true with
    | (some t, T) => T.topicClone s t
    | (none, T) => T

/-- `drop` in `websock_process`. -/
def drop (size : RouteId → Nat) (r : RouteId) (name : Bytes) (T : Topics) : Topics :=
  match T.findTopic size r name false with
  | (some t, T) => T.freeTopic t
  | (none, T) => T

/-! ### What the tables stand for -/

/-- Connection, route, topic name. -/
abbrev Subscription := HybiId × RouteId × Bytes

/-- The subscriptions held by the tables. -/
def pairs (T : Topics) : Set Subscription :=
  {p | ∃ i s c, T.sub.get i = some s ∧ s.connection = p.1 ∧ T.topic.get s.topic = some c ∧
    c.table = p.2.1 ∧ c.name = p.2.2}

end Topics

end Zerogw
