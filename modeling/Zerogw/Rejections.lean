import Zerogw.Lookups

/-!
# Rejected commands change nothing

A command is acceptable if its name is known, it has the right number of parts, and the connection,
the topic, the prefix or the named output that it needs is there. Every other message leaves the
server as it is, unless the lookup of its id reads behind the sieve.
-/

namespace Zerogw

open Execution

namespace Server

variable {cfg : Config} {env : Env} {s : Server} {h : HybiId} {route : RouteId} {id cmd : Bytes}
  {args frames : List Bytes}

/-- The id is that of a live connection of the route. -/
structure Serves (route : RouteId) (s : Server) (h : HybiId) (id : Bytes) : Prop where
  live : s.Live h
  uid : (s.info h).uid = id
  route : (s.info h).route = route

/-- The route has a topic with this name. -/
def HasTopic (route : RouteId) (s : Server) (name : Bytes) : Prop :=
  ∃ t, s.topics.key t = some (route, name)

/-- The messages that the backends of a route may send. -/
inductive Acceptable (cfg : Config) (route : RouteId) (s : Server) : Bytes → List Bytes → Prop
  | subscribe {h : HybiId} {id name : Bytes} (hh : s.Serves route h id) :
      Acceptable cfg route s (str "subscribe") [id, name]
  | unsubscribe {h : HybiId} {id name : Bytes} (hh : s.Serves route h id)
      (ht : s.HasTopic route name) : Acceptable cfg route s (str "unsubscribe") [id, name]
  | publish {name m : Bytes} (ht : s.HasTopic route name) :
      Acceptable cfg route s (str "publish") [name, m]
  | send {h : HybiId} {id m : Bytes} (hh : s.Serves route h id) :
      Acceptable cfg route s (str "send") [id, m]
  | clone {source target : Bytes} (ht : s.HasTopic route source) :
      Acceptable cfg route s (str "clone") [source, target]
  | drop {name : Bytes} (ht : s.HasTopic route name) : Acceptable cfg route s (str "drop") [name]
  | addOutput {h : HybiId} {id pre name : Bytes} (hh : s.Serves route h id)
      (ho : name ∈ (cfg.route route).namedOutputs) :
      Acceptable cfg route s (str "add_output") [id, pre, name]
  | delOutput {h : HybiId} {id pre : Bytes} {k : SockId} (hh : s.Serves route h id)
      (hk : s.outputs.mapping h pre = some k) :
      Acceptable cfg route s (str "del_output") [id, pre]
  | setCookie {h : HybiId} {id cookie : Bytes} (hh : s.Serves route h id) :
      Acceptable cfg route s (str "set_cookie") [id, cookie]
  | sendall {m : Bytes} : Acceptable cfg route s (str "sendall") [m]
  | disconnect {h : HybiId} {id : Bytes} (hh : s.Serves route h id) :
      Acceptable cfg route s (str "disconnect") [id]

/-- The command gets as far as the lookup of its id, whose slot number is the size of the sieve. -/
def ReadsBehind (cfg : Config) (cmd : Bytes) (args : List Bytes) : Prop :=
  ∃ c : IdCommand, cmd = c.name ∧ ∃ id rest, args = id :: rest ∧ c.Looks rest ∧
    uidHole id = cfg.maxWebsockets

/-! ### Commands with an id -/

section

variable (hs : s.Core cfg)

include hs

/-- The lookup of an id of the right length. -/
lemma hybiFind_eq_ok (hlen : id.length = uidLen) (hmax : uidHole id ≠ cfg.maxWebsockets) :
    ∃ o, s.hybiFind id = .ok o ∧ ∀ h, o = some h ↔ s.Live h ∧ (s.info h).uid = id :=
  (hybiFind_exact_iff hs).mpr
    ⟨hlen ▸ by decide, hmax, fun _ _ => ⟨hlen.ge, Or.inl hlen⟩⟩

lemma hybiFind_behind (hlen : id.length = uidLen) (hmax : uidHole id = cfg.maxWebsockets) :
    s.hybiFind id = .error .outOfBounds := by
  rw [hybiFind, if_neg (by rw [hlen]; decide), hmax, ← hs.size, Sieve.get_max, error_bind]

/-- A command whose connection would do nothing does nothing. -/
lemma withConnection_iff {sized : Bool} {f : HybiId → List Bytes → Except Fault Server}
    (hlen : ∀ id rest, frames = id :: rest → id.length = uidLen)
    (hf : ∀ id rest h, frames = id :: rest → rest ≠ [] → s.Serves route h id →
      f h rest = .ok s) :
    s.withConnection route sized frames f = .ok s ↔
      ¬ ∃ id rest, frames = id :: rest ∧ rest ≠ [] ∧ uidHole id = cfg.maxWebsockets := by
  rcases frames with _ | ⟨id, _ | ⟨frame, rest⟩⟩
  · exact iff_of_true rfl (by simp)
  · refine iff_of_true rfl ?_
    rintro ⟨_, _, ⟨⟩, hrest, -⟩
    exact hrest rfl
  · have hid := hlen id _ rfl
    rw [withConnection, if_neg fun hn => hn.2 hid]
    by_cases hmax : uidHole id = cfg.maxWebsockets
    · rw [hybiFind_behind hs hid hmax, error_bind]
      exact iff_of_false (by rintro ⟨⟩) fun hn => hn ⟨id, _, rfl, by simp, hmax⟩
    · refine iff_of_true ?_ ?_
      · obtain ⟨o, hfind, ho⟩ := hybiFind_eq_ok hs hid hmax
        rw [hfind, ok_bind]
        cases o with
        | none => rfl
        | some h =>
          obtain ⟨hl, huid⟩ := (ho h).mp rfl
          simp only [hs.deref_eq (hs.running hl), ok_bind]
          by_cases hroute : (s.info h).route = route
          · rw [if_neg (not_not.mpr hroute)]
            exact hf id _ h rfl (by simp) ⟨hl, huid, hroute⟩
          · rw [if_pos hroute]
            rfl
      · rintro ⟨_, _, ⟨⟩, -, hn⟩
        exact hmax hn

end

/-- Such a command reads behind the sieve exactly if it gets as far as the lookup. -/
lemma readsBehind_iff {c : IdCommand} (hc : c ≠ .disconnect) : ReadsBehind cfg c.name args ↔
    ∃ id rest, args = id :: rest ∧ rest ≠ [] ∧ uidHole id = cfg.maxWebsockets := by
  have hname : ∀ c' : IdCommand, c.name = c'.name → c = c' := by
    intro c' hname
    cases c <;> cases c' <;> first | rfl | exact absurd hname (by decide)
  constructor
  · rintro ⟨c', hc', id, rest, hargs, hlooks, hmax⟩
    obtain rfl := hname c' hc'
    exact ⟨id, rest, hargs, mt hlooks.mpr hc, hmax⟩
  · rintro ⟨id, rest, hargs, hrest, hmax⟩
    exact ⟨c, rfl, id, rest, hargs, iff_of_false hc hrest, hmax⟩

/-! ### What is missing -/

lemma findTopic_of_not (hs : s.Core cfg) {name : Bytes} (hnone : ¬ s.HasTopic route name) :
    s.topics.findTopic (hashSize cfg) route name false = (none, s.topics) := by
  rcases Topics.findTopic_false route name (hashSize cfg) hs.topics.toWF with
    ⟨t, -, ht⟩ | ⟨hfind, -⟩
  · exact absurd ⟨t, ht⟩ hnone
  · exact hfind

lemma namedOutput_of_not {name : Bytes} (hnone : name ∉ (cfg.route route).namedOutputs) :
    namedOutput cfg route name = none := by
  rw [namedOutput, Option.map_eq_none_iff, List.findIdx?_eq_none_iff]
  intro x hx
  rw [beq_eq_false_iff_ne]
  rintro rfl
  exact hnone hx

lemma delOutput_of_not (hs : s.Core cfg) {pre : Bytes} (hnone : s.outputs.mapping h pre = none) :
    s.outputs.delOutput h pre = s.outputs := by
  rw [Outputs.delOutput]
  cases hfind : (s.outputs.clients h).find? (s.outputs.hasPrefix pre) with
  | none => rfl
  | some o =>
    obtain ⟨e, he, -⟩ := (Outputs.find_prefix_iff hs.outputs).mp hfind
    simp [Outputs.mapping, hfind, Outputs.socketOf, he] at hnone

/-- The commands that begin with an id. -/
lemma process_id_iff (hs : s.Core cfg) (c : IdCommand)
    (hlen : ∀ id rest, args = id :: rest → id.length = uidLen)
    (hbad : ¬ Acceptable cfg route s c.name args) :
    websockProcess cfg env route (c.name :: args) s = .ok s ↔ ¬ ReadsBehind cfg c.name args := by
  cases c with
  | subscribe =>
    rw [readsBehind_iff (by decide)]
    show s.subscribe cfg route args = .ok s ↔ _
    refine withConnection_iff hs hlen ?_
    rintro id (_ | ⟨name, _ | ⟨x, rest⟩⟩) h rfl hrest hh
    · exact absurd rfl hrest
    · exact absurd (.subscribe hh) hbad
    · rfl
  | unsubscribe =>
    rw [readsBehind_iff (by decide)]
    show s.unsubscribe cfg route args = .ok s ↔ _
    refine withConnection_iff hs hlen ?_
    rintro id (_ | ⟨name, _ | ⟨x, rest⟩⟩) h rfl hrest hh
    · exact absurd rfl hrest
    · have hnone : ¬ s.HasTopic route name := fun ht => hbad (.unsubscribe hh ht)
      dsimp only
      rw [Topics.unsubscribe, findTopic_of_not hs hnone]
    · rfl
  | send =>
    rw [readsBehind_iff (by decide)]
    show s.send cfg env route args = .ok s ↔ _
    refine withConnection_iff hs hlen ?_
    rintro id (_ | ⟨m, _ | ⟨x, rest⟩⟩) h rfl hrest hh
    · exact absurd rfl hrest
    · exact absurd (.send hh) hbad
    · rfl
  | addOutput =>
    rw [readsBehind_iff (by decide)]
    show s.addOutput cfg route args = .ok s ↔ _
    refine withConnection_iff hs hlen ?_
    rintro id (_ | ⟨pre, _ | ⟨name, _ | ⟨x, rest⟩⟩⟩) h rfl hrest hh
    · exact absurd rfl hrest
    · rfl
    · have hnone : name ∉ (cfg.route route).namedOutputs := fun ho => hbad (.addOutput hh ho)
      dsimp only
      rw [namedOutput_of_not hnone]
    · rfl
  | delOutput =>
    rw [readsBehind_iff (by decide)]
    show s.delOutput route args = .ok s ↔ _
    refine withConnection_iff hs hlen ?_
    rintro id (_ | ⟨pre, _ | ⟨x, rest⟩⟩) h rfl hrest hh
    · exact absurd rfl hrest
    · have hnone : s.outputs.mapping h pre = none := by
        by_contra hsome
        obtain ⟨k, hk⟩ := Option.ne_none_iff_exists'.mp hsome
        exact hbad (.delOutput hh hk)
      dsimp only
      rw [delOutput_of_not hs hnone]
    · rfl
  | setCookie =>
    rw [readsBehind_iff (by decide)]
    show s.setCookie route args = .ok s ↔ _
    refine withConnection_iff hs hlen ?_
    rintro id (_ | ⟨cookie, _ | ⟨x, rest⟩⟩) h rfl hrest hh
    · exact absurd rfl hrest
    · exact absurd (.setCookie hh) hbad
    · rfl
  | disconnect =>
    show s.disconnect cfg env route args = .ok s ↔ _
    have hreads : ReadsBehind cfg IdCommand.disconnect.name args ↔
        ∃ id, args = [id] ∧ uidHole id = cfg.maxWebsockets := by
      constructor
      · rintro ⟨c, hc, id, rest, rfl, hlooks, hmax⟩
        obtain rfl : c = .disconnect := by
          cases c <;> first | rfl | exact absurd hc (by decide)
        obtain rfl := hlooks.mp rfl
        exact ⟨id, rfl, hmax⟩
      · rintro ⟨id, rfl, hmax⟩
        exact ⟨.disconnect, rfl, id, [], rfl, iff_of_true rfl rfl, hmax⟩
    rw [hreads]
    rcases args with _ | ⟨id, _ | ⟨x, rest⟩⟩
    · exact iff_of_true rfl (by simp)
    · have hid := hlen id [] rfl
      rw [disconnect]
      by_cases hmax : uidHole id = cfg.maxWebsockets
      · rw [hybiFind_behind hs hid hmax, error_bind]
        exact iff_of_false (by rintro ⟨⟩) fun hn => hn ⟨id, rfl, hmax⟩
      · refine iff_of_true ?_ ?_
        · obtain ⟨o, hfind, ho⟩ := hybiFind_eq_ok hs hid hmax
          rw [hfind, ok_bind]
          cases o with
          | none => rfl
          | some h =>
            obtain ⟨hl, huid⟩ := (ho h).mp rfl
            simp only [hs.deref_eq (hs.running hl), ok_bind]
            rw [if_pos fun hroute => hbad (.disconnect ⟨hl, huid, hroute⟩)]
            rfl
        · rintro ⟨_, ⟨⟩, hn⟩
          exact hmax hn
    · exact iff_of_true rfl (by simp)

/-- The other commands. -/
lemma process_other (hs : s.Core cfg) (hcmd : ∀ c : IdCommand, cmd ≠ c.name)
    (hbad : ¬ Acceptable cfg route s cmd args) :
    websockProcess cfg env route (cmd :: args) s = .ok s := by
  have h₁ : cmd ≠ str "subscribe" := hcmd .subscribe
  have h₂ : cmd ≠ str "unsubscribe" := hcmd .unsubscribe
  have h₃ : cmd ≠ str "send" := hcmd .send
  have h₄ : cmd ≠ str "add_output" := hcmd .addOutput
  have h₅ : cmd ≠ str "del_output" := hcmd .delOutput
  have h₆ : cmd ≠ str "set_cookie" := hcmd .setCookie
  have h₇ : cmd ≠ str "disconnect" := hcmd .disconnect
  unfold websockProcess
  dsimp only
  rw [if_neg h₁, if_neg h₂]
  by_cases hpublish : cmd = str "publish"
  · subst hpublish
    rw [if_pos rfl]
    rcases args with _ | ⟨name, _ | ⟨m, _ | ⟨x, rest⟩⟩⟩
    · rfl
    · rfl
    · have hnone : ¬ s.HasTopic route name := fun ht => hbad (.publish ht)
      rw [publish, findTopic_of_not hs hnone]
    · rfl
  rw [if_neg hpublish, if_neg h₃]
  by_cases hclone : cmd = str "clone"
  · subst hclone
    rw [if_pos rfl]
    rcases args with _ | ⟨source, _ | ⟨target, _ | ⟨x, rest⟩⟩⟩
    · rfl
    · rfl
    · have hnone : ¬ s.HasTopic route source := fun ht => hbad (.clone ht)
      rw [clone, Topics.clone, findTopic_of_not hs hnone]
    · rfl
  rw [if_neg hclone]
  by_cases hdrop : cmd = str "drop"
  · subst hdrop
    rw [if_pos rfl]
    rcases args with _ | ⟨name, _ | ⟨x, rest⟩⟩
    · rfl
    · have hnone : ¬ s.HasTopic route name := fun ht => hbad (.drop ht)
      rw [drop, Topics.drop, findTopic_of_not hs hnone]
    · rfl
  rw [if_neg hdrop, if_neg h₄, if_neg h₅, if_neg h₆]
  by_cases hall : cmd = str "sendall"
  · subst hall
    rw [if_pos rfl]
    rcases args with _ | ⟨m, _ | ⟨x, rest⟩⟩
    · rfl
    · exact absurd .sendall hbad
    · rfl
  rw [if_neg hall, if_neg h₇]

/-- The answers of ZeroMQ do not decide what is acceptable. -/
lemma Acceptable.of_expecting (ha : Acceptable cfg route (s.expecting env) cmd args) :
    Acceptable cfg route s cmd args := by
  have hserves : ∀ {h id}, (s.expecting env).Serves route h id → s.Serves route h id :=
    fun hh => ⟨hh.live, hh.uid, hh.route⟩
  cases ha with
  | subscribe hh => exact .subscribe (hserves hh)
  | unsubscribe hh ht => exact .unsubscribe (hserves hh) ht
  | publish ht => exact .publish ht
  | send hh => exact .send (hserves hh)
  | clone ht => exact .clone ht
  | drop ht => exact .drop ht
  | addOutput hh ho => exact .addOutput (hserves hh) ho
  | delOutput hh hk => exact .delOutput (hserves hh) hk
  | setCookie hh => exact .setCookie (hserves hh)
  | sendall => exact .sendall
  | disconnect hh => exact .disconnect (hserves hh)

/-- Only a live connection can be disconnected. -/
lemma Acceptable.serves (ha : Acceptable cfg route s cmd [id]) (hcmd : cmd = str "disconnect") :
    ∃ h, s.Serves route h id := by
  cases ha with
  | disconnect hh => exact ⟨_, hh⟩
  | _ => exact absurd hcmd (by decide)

lemma not_acceptable_init :
    ¬ Acceptable smallConfig 0 (init smallConfig) (str "disconnect") [id] := by
  intro ha
  obtain ⟨h, hh⟩ := ha.serves rfl
  exact absurd ((Core.init smallConfig).lt_next_of_live hh.live) (Nat.not_lt_zero _)

end Server

end Zerogw
