import Zerogw.Backend.Basic

/-!
# Configuration and environment

The values the handlers read from the configuration file, with the bounds that `config.yaml` puts on
them, and what one event gets from the operating system and from the libraries.
-/

namespace Zerogw

/-- The part of `config_Route_t` that the websocket and long-poll handlers read. `namedOutputs` are
the keys of `named-outputs`. -/
structure RouteConf where
  frontendCommands : Bool
  pausedCommand : Bool
  allowOrigins : List Bytes
  accessControlMaxAge : Bytes
  headers : List (Bytes × Bytes)
  timestamps : Bool
  queueLimit : Nat
  topicHashSize : Nat
  maxBackendQueue : Nat
  namedOutputs : List Bytes
  queueLimit_ge : 2 ≤ queueLimit
  queueLimit_le : queueLimit ≤ 2 ^ 20
  topicHashSize_ge : 4 ≤ topicHashSize
  topicHashSize_le : topicHashSize ≤ 2 ^ 30
  maxBackendQueue_le : maxBackendQueue ≤ 2 ^ 30

/-- The routes, `instance_id`, `random_data`, and MD5. -/
structure Config where
  route : RouteId → RouteConf
  instanceId : Bytes
  randomData : Bytes
  md5 : Bytes → Bytes
  maxWebsockets : Nat
  instanceId_length : instanceId.length = iidLen
  maxWebsockets_ge : 4 ≤ maxWebsockets
  maxWebsockets_le : maxWebsockets ≤ 2 ^ 30

/-- `max-backend-queue` of the route that owns the socket. -/
def Config.capacity (cfg : Config) : SockId → Nat
  | .forward r => (cfg.route r).maxBackendQueue
  | .named r _ => (cfg.route r).maxBackendQueue

/-- What the world contributes to one event: the answers of `zmq_send`, which of the allocations for
connections and queue entries succeed (all of them if `memory` does not say), the connections on
which `ws_message_send` fails with `EXFULL` and is followed by the disconnect callback at once, the
clock as the handlers print it, and bytes from `/dev/urandom`. -/
structure Env where
  outcomes : List SendResult
  memory : List Bool := []
  full : HybiId → Bool
  now : Bytes
  timestamp : Bytes
  waitTime : ReqId → Bytes
  random : Bytes
  random_length : random.length = uidNRandom

end Zerogw
