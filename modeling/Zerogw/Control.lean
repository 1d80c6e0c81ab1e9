import Zerogw.Receive
import Zerogw.Server.Runs
import Zerogw.Http.Answers

/-!
# The control socket

`recv_command` copies the envelope of a message to its reply while it receives it, and does not look
behind the part with the command. Parts that follow it are taken for a new message, and the copy of
an envelope that does not end is left to the next reply.
-/

namespace Zerogw

open Execution Multipart

/-- The server, the parts sent on the control socket, and how often the timers of the named outputs
have been fed. -/
structure Control where
  server : Server
  sent : List (MsgPart Bytes)
  syncs : Nat

namespace Control

/-- What a command does. -/
def execute (cfg : Config) (env : Env) (cmd : Bytes) (c : Control) : Except Fault Control :=
  if cmd = str "pause_websockets" then do
    let s ← c.server.pauseWebsockets cfg env true
    return { c with server := s }
  else if cmd = str "resume_websockets" then do
    let s ← c.server.pauseWebsockets cfg env false
    return { c with server := s }
  else if cmd = str "sync_now" then .ok { c with syncs := c.syncs + 1 }
  else .ok c

/-- The parts that answer a command; `logs` is the result of `reopenlogs`. -/
def answer (logs : Bool) (cmd : Bytes) : List Bytes :=
  if cmd = str "list_commands" then
    [str "list_commands", str "pause_websockets", str "resume_websockets", str "sync_now",
      str "reopen_logs"]
  else if cmd = str "pause_websockets" then [str "paused"]
  else if cmd = str "resume_websockets" then [str "resumed"]
  else if cmd = str "sync_now" then [str "sync_sent"]
  else if cmd = str "reopen_logs" then
    [if logs then str "logs_reopened" else str "cant_reopen_logs"]
  else [str "error"]

/-- `REPLY_COMMAND` with `ZMQ_SNDMORE` -/
def sendMore (d : Bytes) (c : Control) : Control := { c with sent := c.sent ++ [⟨d, true⟩] }

/-- The inner loop, which has just received `d` and knows that more parts follow. -/
def recvEnvelope (k : Control → Round Control) : Control → Bytes → Round Control
  | c, d, [] => if d = [] then k (c.sendMore d) [] else .error noPart
  | c, d, p :: ps =>
    if d = [] then k (c.sendMore d) (p :: ps)
    else if p.more then recvEnvelope k (c.sendMore d) p.data ps
    else ended (.ok (c.sendMore d)) ps

/-- The part with the command. -/
def recvAnswer (cfg : Config) (env : Env) (logs : Bool) (c : Control) : Round Control :=
  recv noPart fun cmd _ => ended do
    let c ← c.execute cfg env cmd
    return { c with sent := c.sent ++ parts (answer logs cmd) }

/-- The body of the loop in `recv_command`. -/
def recvCommand (cfg : Config) (env : Env) (logs : Bool) (c : Control) : Round Control :=
  recvNext noPart (.ok c) fun d => recvEnvelope (recvAnswer cfg env logs) c d

/-! ### Whole messages -/

/-- The envelope of a message, up to an empty part, and the parts behind it. -/
def splitEnvelope : List Bytes → Option (List Bytes × List Bytes)
  | [] => none
  | d :: m => if d = [] then some ([], m) else (splitEnvelope m).map fun (e, m) => (d :: e, m)

/-- What a message should do: a command behind an envelope gets one reply with this envelope, and
any other message gets none. -/
def serve (cfg : Config) (env : Env) (logs : Bool) (m : List Bytes) (c : Control) :
    Except Fault Control :=
  match splitEnvelope m with
  | some (e, [cmd]) => do
    let c ← c.execute cfg env cmd
    return { c with sent := c.sent ++ parts (e ++ [] :: answer logs cmd) }
  | _ => .ok c

/-- A message of one part, or an envelope and a command without anything behind it. -/
def Proper (m : List Bytes) : Prop :=
  (∃ d, m = [d]) ∨ ∃ e cmd, [] ∉ e ∧ m = e ++ [[], cmd]

variable {cfg : Config} {env : Env} {logs : Bool} {c : Control} {e m : List Bytes} {d cmd : Bytes}
  {k : Control → Round Control} {rest : List (MsgPart Bytes)}

lemma splitEnvelope_append (he : [] ∉ e) : splitEnvelope (e ++ [] :: m) = some (e, m) := by
  induction e with
  | nil => rfl
  | cons d e ih =>
    rw [List.mem_cons, not_or] at he
    rw [List.cons_append, splitEnvelope, if_neg (Ne.symm he.1), ih he.2]
    rfl

lemma splitEnvelope_of_not_mem (he : [] ∉ e) : splitEnvelope e = none := by
  induction e with
  | nil => rfl
  | cons d e ih =>
    rw [List.mem_cons, not_or] at he
    rw [splitEnvelope, if_neg (Ne.symm he.1), ih he.2]
    rfl

/-- The envelope is not complete before the last part, or something follows it. -/
lemma envelope_cases (hm : m ≠ []) : (∃ e d, [] ∉ e ∧ m = e ++ [d]) ∨
    ∃ e cmd tail, [] ∉ e ∧ m = e ++ [] :: cmd :: tail := by
  induction m with
  | nil => exact absurd rfl hm
  | cons d m ih =>
    cases m with
    | nil => exact Or.inl ⟨[], d, List.not_mem_nil, rfl⟩
    | cons d' m =>
      by_cases hd : d = []
      · exact Or.inr ⟨[], d', m, List.not_mem_nil, by rw [hd, List.nil_append]⟩
      · have hcons : ∀ {e : List Bytes}, [] ∉ e → [] ∉ d :: e := fun he =>
          List.not_mem_cons_of_ne_of_not_mem (Ne.symm hd) he
        rcases ih (List.cons_ne_nil _ _) with ⟨e, d'', he, hm⟩ | ⟨e, cmd, tail, he, hm⟩
        · exact Or.inl ⟨d :: e, d'', hcons he, by rw [hm, List.cons_append]⟩
        · exact Or.inr ⟨d :: e, cmd, tail, hcons he, by rw [hm, List.cons_append]⟩

/-! ### Rounds -/

/-- Some parts with `ZMQ_SNDMORE`. -/
def sendAll (ds : List Bytes) (c : Control) : Control :=
  { c with sent := c.sent ++ ds.map (⟨·, true⟩) }

lemma recvEnvelope_of_ne (hd : d ≠ []) :
    recvEnvelope k c d = recvNext noPart (.ok (c.sendMore d)) (recvEnvelope k (c.sendMore d)) := by
  funext ps
  cases ps with
  | nil => rw [recvEnvelope, if_neg hd]; rfl
  | cons p ps =>
    rw [recvEnvelope, if_neg hd, recvNext, recv]
    split_ifs <;> rfl

lemma recvEnvelope_nil : recvEnvelope k c [] = k (c.sendMore []) := by
  funext ps
  cases ps <;> rfl

lemma sendMore_sendAll (ds : List Bytes) : (c.sendMore d).sendAll ds = c.sendAll (d :: ds) := by
  rw [sendAll, sendAll, sendMore, List.append_assoc, List.map_cons, List.singleton_append]

/-- A part of an envelope that is not empty and not the last one is copied. -/
lemma recvEnvelope_cons (hd : d ≠ []) (hm : m ≠ []) :
    recvNext noPart (.ok c) (recvEnvelope k c) (parts (d :: m) ++ rest)
      = recvNext noPart (.ok (c.sendMore d)) (recvEnvelope k (c.sendMore d)) (parts m ++ rest) := by
  obtain ⟨d', m, rfl⟩ := List.exists_cons_of_ne_nil hm
  rw [recvNext_cons, recvEnvelope_of_ne hd]

/-- An envelope that ends is copied. -/
lemma recvEnvelope_complete (he : [] ∉ e) :
    recvNext noPart (.ok c) (recvEnvelope k c) (parts (e ++ [] :: cmd :: m) ++ rest)
      = k (c.sendAll (e ++ [[]])) (parts (cmd :: m) ++ rest) := by
  induction e generalizing c with
  | nil =>
    rw [List.nil_append, recvNext_cons, recvEnvelope_nil]
    rfl
  | cons d e ih =>
    rw [List.mem_cons, not_or] at he
    rw [List.cons_append, recvEnvelope_cons (Ne.symm he.1) (by simp), ih he.2, sendMore_sendAll,
      List.cons_append]

/-- What there is of an envelope that does not end is copied too. -/
lemma recvEnvelope_incomplete (he : [] ∉ e) :
    recvNext noPart (.ok c) (recvEnvelope k c) (parts (e ++ [d]) ++ rest)
      = ended (.ok (c.sendAll e)) rest := by
  induction e generalizing c with
  | nil =>
    rw [List.nil_append, recvNext_singleton, sendAll, List.map_nil, List.append_nil]
  | cons d' e ih =>
    rw [List.mem_cons, not_or] at he
    rw [List.cons_append, recvEnvelope_cons (Ne.symm he.1) (by simp), ih he.2, sendMore_sendAll]

lemma answer_ne_nil : answer logs cmd ≠ [] := by
  rw [answer]
  split_ifs <;> exact List.cons_ne_nil _ _

lemma execute_sendAll (ds : List Bytes) :
    (c.sendAll ds).execute cfg env cmd = (c.execute cfg env cmd).map (sendAll ds) := by
  rw [execute, execute]
  split_ifs
  · show (c.server.pauseWebsockets cfg env true >>= _) = _
    cases c.server.pauseWebsockets cfg env true <;> rfl
  · show (c.server.pauseWebsockets cfg env false >>= _) = _
    cases c.server.pauseWebsockets cfg env false <;> rfl
  · rfl
  · rfl

/-- A round on a message with a complete envelope ends behind the command. -/
lemma recvCommand_complete (he : [] ∉ e) :
    c.recvCommand cfg env logs (parts (e ++ [] :: cmd :: m) ++ rest)
      = ended (c.serve cfg env logs (e ++ [[], cmd])) (parts m ++ rest) := by
  rw [recvCommand, recvEnvelope_complete he, serve, splitEnvelope_append he]
  have hreceived : recvAnswer cfg env logs (c.sendAll (e ++ [[]])) (parts (cmd :: m) ++ rest)
      = ended (do
        let c ← (c.sendAll (e ++ [[]])).execute cfg env cmd
        return { c with sent := c.sent ++ parts (answer logs cmd) }) (parts m ++ rest) := by
    cases m <;> rfl
  rw [hreceived, execute_sendAll]
  have hreply : parts (e ++ [] :: answer logs cmd)
      = (e ++ [[]]).map (⟨·, true⟩) ++ parts (answer logs cmd) := by
    rw [← parts_append _ answer_ne_nil, List.append_assoc, List.singleton_append]
  dsimp only
  cases c.execute cfg env cmd with
  | error f => rfl
  | ok c' =>
    rw [hreply]
    show ended (.ok _) _ = ended (.ok _) _
    rw [sendAll, List.append_assoc]

/-- A round on a message whose envelope does not end. -/
lemma recvCommand_incomplete (he : [] ∉ e) :
    c.recvCommand cfg env logs (parts (e ++ [d]) ++ rest) = ended (.ok (c.sendAll e)) rest :=
  recvEnvelope_incomplete he

lemma serve_incomplete (he : [] ∉ e) : c.serve cfg env logs (e ++ [d]) = .ok c := by
  by_cases hd : d = []
  · rw [hd, serve, splitEnvelope_append he]
  · rw [serve, splitEnvelope_of_not_mem]
    rw [List.mem_append, List.mem_singleton, not_or]
    exact ⟨he, Ne.symm hd⟩

lemma serve_trailing (he : [] ∉ e) {tail : List Bytes} (htail : tail ≠ []) :
    c.serve cfg env logs (e ++ [] :: cmd :: tail) = .ok c := by
  obtain ⟨d, tail, rfl⟩ := List.exists_cons_of_ne_nil htail
  rw [serve, splitEnvelope_append he]

/-! ### When a round takes one message -/

lemma proper_incomplete_iff (he : [] ∉ e) : Proper (e ++ [d]) ↔ e = [] := by
  constructor
  · rintro (⟨d', hm⟩ | ⟨e', cmd, he', hm⟩)
    · exact (List.append_eq_singleton_iff.mp hm).elim And.left fun h => absurd h.2 (by simp)
    · have hsame : e ++ [d] = (e' ++ [[]]) ++ [cmd] := by rw [hm, List.append_assoc]; rfl
      rw [(List.append_inj' hsame rfl).1] at he
      exact absurd (by simp) he
  · rintro rfl
    exact Or.inl ⟨d, rfl⟩

lemma proper_complete_iff (he : [] ∉ e) {tail : List Bytes} :
    Proper (e ++ [] :: cmd :: tail) ↔ tail = [] := by
  constructor
  · rintro (⟨d', hm⟩ | ⟨e', cmd', he', hm⟩)
    · have hlen := congrArg List.length hm
      simp only [List.length_append, List.length_cons, List.length_nil] at hlen
      omega
    · have hsplit := splitEnvelope_append (m := cmd :: tail) he
      rw [hm, splitEnvelope_append he'] at hsplit
      exact (List.cons.inj (Prod.mk.inj (Option.some.inj hsplit)).2).2.symm
  · rintro rfl
    exact Or.inr ⟨e, cmd, he, rfl⟩

/-- The round takes one message, whatever follows it. -/
lemma takes_one_iff {envs : Nat → Env} {results : Nat → Bool} (hm : m ≠ []) :
    (∀ i (c : Control) rest, c.recvCommand cfg (envs i) (results i) (parts m ++ rest)
      = ended (c.serve cfg (envs i) (results i) m) rest) ↔ Proper m := by
  rcases envelope_cases hm with ⟨e, d, he, rfl⟩ | ⟨e, cmd, tail, he, rfl⟩
  · rw [proper_incomplete_iff he]
    constructor
    · intro h
      have hround := h 0 ⟨.init cfg, [], 0⟩ []
      rw [recvCommand_incomplete he, serve_incomplete he] at hround
      have hsent := congrArg (fun p => p.1.sent) (Except.ok.inj hround)
      exact List.map_eq_nil_iff.mp hsent
    · rintro rfl i c rest
      rw [recvCommand_incomplete he, serve_incomplete he, sendAll, List.map_nil, List.append_nil]
  · rw [proper_complete_iff he]
    constructor
    · intro h
      by_contra htail
      have hround := h 0 ⟨.init cfg, [], 0⟩ []
      rw [recvCommand_complete he, serve_trailing he htail] at hround
      obtain ⟨c, -, hc⟩ := exists_of_map_eq_ok hround
      have hlen := congrArg (fun p => p.2.length) hc
      simp only [List.append_nil, length_parts, List.length_nil] at hlen
      exact htail (List.length_eq_zero_iff.mp hlen)
    · rintro rfl i c rest
      exact recvCommand_complete he

end Control

/-- In the loops of `websock_process`, `http_process` and `disk_process` every round takes one
message, and the loop handles the messages in order. In the loop of `recv_command` this is so
exactly if every message consists of one part, or of an envelope and a command without anything
behind it. -/
theorem messages_taken_whole {ms : List (List Bytes)} (hne : ∀ m ∈ ms, m ≠ []) (cfg : Config)
    (hcfg : HttpConfig) (env : Nat → Env) (logs : Nat → Bool) :
    (∀ route, TakesWhole (fun i s => Server.recvMessage cfg (env i) route s)
      (fun i s m => Server.websockProcess cfg (env i) route m s) ms) ∧
    (∀ route, TakesWhole (fun _ H => Http.recvReply hcfg route H)
      (fun _ H m => Http.httpProcess hcfg route m H) ms) ∧
    TakesWhole (fun _ H => Http.recvDisk hcfg H) (fun _ H m => Http.diskProcess hcfg m H) ms ∧
    (TakesWhole (fun i c => Control.recvCommand cfg (env i) (logs i) c)
      (fun i c m => Control.serve cfg (env i) (logs i) m c) ms ↔ ∀ m ∈ ms, Control.Proper m) := by
  refine ⟨fun route => ?_, fun route => ?_, ?_, ?_⟩
  · exact (takesWhole_iff hne).mpr fun m hm i s rest => Server.recvMessage_parts (hne m hm)
  · exact (takesWhole_iff hne).mpr fun m hm i H rest => Http.recvReply_parts (hne m hm)
  · exact (takesWhole_iff hne).mpr fun m hm i H rest => Http.recvDisk_parts (hne m hm)
  · rw [takesWhole_iff hne]
    exact forall₂_congr fun m hm => Control.takes_one_iff (hne m hm)

/-- A command behind an envelope, and a message without an envelope. -/
theorem messages_taken_whole_sync :
    (loop (fun _ c => Control.recvCommand Server.smallConfig Server.stalledEnv true c) 4 0
      ⟨.init Server.smallConfig, [], 0⟩
      ([[str "client", [], str "sync_now"], [str "hello"]].flatMap parts)).map Control.sent
      = .ok (parts [str "client", [], str "sync_sent"]) := by
  have hne : ∀ m ∈ [[str "client", [], str "sync_now"], [str "hello"]], m ≠ [] := by
    intro m hm
    simp only [List.mem_cons, List.not_mem_nil, or_false] at hm
    rcases hm with rfl | rfl <;> exact List.cons_ne_nil _ _
  have hproper : ∀ m ∈ [[str "client", [], str "sync_now"], [str "hello"]], Control.Proper m := by
    intro m hm
    simp only [List.mem_cons, List.not_mem_nil, or_false] at hm
    rcases hm with rfl | rfl
    · exact Or.inr ⟨[str "client"], str "sync_now", by decide, rfl⟩
    · exact Or.inl ⟨_, rfl⟩
  obtain ⟨-, -, -, hcontrol⟩ := messages_taken_whole hne Server.smallConfig Http.smallGateway
    (fun _ => Server.stalledEnv) (fun _ => true)
  have hloop := (hcontrol.mpr hproper).2 0 ⟨.init Server.smallConfig, [], 0⟩
  exact (congrArg (Except.map Control.sent) hloop).trans rfl

/-- A round leaves what is behind the command, and the parts are taken for a message with an
envelope and a command of its own; and a reply begins with what there was of an envelope before. -/
theorem trailing_parts_answered :
    (Control.recvCommand Server.smallConfig Server.stalledEnv true ⟨.init Server.smallConfig, [], 0⟩
      (parts [str "client", [], str "sync_now", str "other", [], str "sync_now"])).map Prod.snd
        = .ok (parts [str "other", [], str "sync_now"]) ∧
    (loop (fun _ c => Control.recvCommand Server.smallConfig Server.stalledEnv true c) 6 0
      ⟨.init Server.smallConfig, [], 0⟩
      (parts [str "client", [], str "sync_now", str "other", [], str "sync_now"])).map Control.sent
        = .ok (parts [str "client", [], str "sync_sent"]
          ++ parts [str "other", [], str "sync_sent"]) ∧
    (loop (fun _ c => Control.recvCommand Server.smallConfig Server.stalledEnv true c) 5 0
      ⟨.init Server.smallConfig, [], 0⟩
      ([[str "other", str "sync_now"], [str "client", [], str "sync_now"]].flatMap parts)).map
        Control.sent
        = .ok (parts [str "other", str "client", [], str "sync_sent"]) := ⟨rfl, rfl, rfl⟩

end Zerogw
