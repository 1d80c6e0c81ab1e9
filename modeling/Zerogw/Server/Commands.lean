import Zerogw.Server.Handlers

/-!
# Backend commands

The commands of `websock_process`. Six of them change topics and outputs, by what they say about the
connection they name; the others are sends, or close a connection.
-/

namespace Zerogw

open Execution

namespace Server

variable {cfg : Config} {env : Env} {s s' : Server} {h g : HybiId} {m : Bytes}
  {allow : Mark → Prop} {w : Option HybiId} {route : RouteId} {frames : List Bytes}

/-! ### The connection a command names -/

/-- The commands that begin with the id of a connection. -/
inductive IdCommand where
  | subscribe
  | unsubscribe
  | send
  | addOutput
  | delOutput
  | setCookie
  | disconnect
  deriving DecidableEq, Repr

namespace IdCommand

def name : IdCommand → Bytes
  | .subscribe => str "subscribe"
  | .unsubscribe => str "unsubscribe"
  | .send => str "send"
  | .addOutput => str "add_output"
  | .delOutput => str "del_output"
  | .setCookie => str "set_cookie"
  | .disconnect => str "disconnect"

/-- Two commands compare the length of the id with `UID_LEN`. -/
def sized : IdCommand → Bool
  | .subscribe => true
  | .unsubscribe => true
  | _ => false

/-- The frames behind the id with which a command gets as far as the lookup. -/
def Looks (c : IdCommand) (rest : List Bytes) : Prop := c = .disconnect ↔ rest = []

end IdCommand

/-- The connection of a route that an id leads to. -/
def addressed (route : RouteId) (sized : Bool) (id : Bytes) (s : Server) : Option HybiId :=
  if sized ∧ id.length ≠ uidLen then none
  else match s.hybiFind id with
    | .ok (some h) => if (s.info h).route = route then some h else none
    | _ => none

lemma addressed_live {sized : Bool} {id : Bytes} (hs : s.Core cfg)
    (ha : s.addressed route sized id = some h) : s.Live h ∧ (s.info h).route = route := by
  unfold addressed at ha
  split_ifs at ha
  have hspec := hybiFind_spec hs id
  split at ha
  · rename_i h' hfind
    rw [hfind] at hspec
    split_ifs at ha with hroute
    cases ha
    exact ⟨(hspec _ rfl).1, hroute⟩
  · cases ha

/-- A command gets as far as the lookup of its id, and `hybi_find` reads behind the id or behind the
sieve. -/
def Overreads (frames : List Bytes) (s : Server) : Prop :=
  ∃ (c : IdCommand) (id : Bytes) (rest : List Bytes), frames = c.name :: id :: rest ∧ c.Looks rest ∧
    (c.sized = true → id.length = uidLen) ∧ ¬ s.InBounds id

/-- The faults of such a lookup. -/
def Misreads (frames : List Bytes) (s : Server) (f : Fault) : Prop := Memory f ∧ s.Overreads frames

/-- A command misreads its id, or stops a connection whose slot is empty, which only happens when a
running connection has lost its slot. -/
def Slips (frames : List Bytes) (s : Server) (f : Fault) : Prop :=
  s.Misreads frames f ∨ f = .assertion .sieveEmpty ∧ ¬ s.Intact

/-- The lookup in front of a command: a live connection of the route is found, or nothing
happens. -/
lemma withConnection_spec {E : Fault → Prop} {Q : Server → Prop} {sized : Bool}
    {f : HybiId → List Bytes → Except Fault Server} (hs : s.Core cfg)
    (hread : ∀ id rest x, frames = id :: rest → rest ≠ [] → (sized = true → id.length = uidLen) →
      Memory x ∧ ¬ s.InBounds id → E x)
    (hnone : (∀ id rest, frames = id :: rest → rest ≠ [] → s.addressed route sized id = none) → Q s)
    (hsome : ∀ id rest h, frames = id :: rest → rest ≠ [] → s.addressed route sized id = some h →
      Ends E Q (f h rest)) :
    Ends E Q (s.withConnection route sized frames f) := by
  unfold withConnection
  split
  · rename_i id frame rest
    have hname : ∀ o, s.addressed route sized id = o → ∀ id' rest',
        id :: frame :: rest = id' :: rest' → rest' ≠ [] → s.addressed route sized id' = o := by
      rintro o ho id' rest' ⟨⟩ -
      exact ho
    by_cases hsize : sized ∧ id.length ≠ uidLen
    · rw [if_pos hsize]
      exact hnone (hname none (if_pos hsize))
    · rw [if_neg hsize]
      have hspec := hybiFind_spec hs id
      cases hfind : s.hybiFind id with
      | error f =>
        rw [hfind] at hspec
        refine hread id _ f rfl (by simp) (fun hsized => ?_) hspec
        by_contra hlen
        exact hsize ⟨hsized, hlen⟩
      | ok o =>
        rw [ok_bind]
        cases o with
        | none =>
          refine hnone (hname none ?_)
          rw [addressed, if_neg hsize, hfind]
        | some h =>
          rw [hfind] at hspec
          obtain ⟨hl, -⟩ := hspec h rfl
          simp only [hs.deref_eq (hs.running hl), ok_bind]
          split_ifs with hroute
          · refine hnone (hname none ?_)
            simp only [addressed, if_neg hsize, hfind, if_neg hroute]
          · refine hsome id _ h rfl (by simp) ?_
            simp only [addressed, if_neg hsize, hfind, if_pos (not_ne_iff.mp hroute)]
  · rename_i hne
    refine hnone fun id rest hframes hrest => ?_
    cases rest with
    | nil => exact absurd rfl hrest
    | cons frame rest => exact absurd hframes (hne id frame rest)

/-- The lookups of the commands with an id and something else. -/
lemma misreads_of_lookup (c : IdCommand) (hc : c ≠ .disconnect) (id : Bytes) (rest : List Bytes)
    (f : Fault) (hframes : frames = id :: rest) (hrest : rest ≠ [])
    (hsized : c.sized = true → id.length = uidLen) (hf : Memory f ∧ ¬ s.InBounds id) :
    s.Misreads (c.name :: frames) f :=
  ⟨hf.1, c, id, rest, by rw [hframes], iff_of_false hc hrest, hsized, hf.2⟩

lemma withConnection_of_addressed {sized : Bool} {id frame : Bytes} {rest : List Bytes}
    (hs : s.Core cfg) (ha : s.addressed route sized id = some h)
    (f : HybiId → List Bytes → Except Fault Server) :
    s.withConnection route sized (id :: frame :: rest) f = f h (frame :: rest) := by
  obtain ⟨hl, hroute⟩ := addressed_live hs ha
  unfold addressed at ha
  split_ifs at ha with hsize
  rw [withConnection, if_neg hsize]
  split at ha
  · rename_i g hfind
    split_ifs at ha
    cases ha
    simp only [hfind, ok_bind, hs.deref_eq (hs.running hl), if_neg (not_not.mpr hroute)]
  · cases ha

/-! ### What the commands say -/

/-- An operation on the connection that an id names, if there is one. -/
def onAddressed {α : Type} (route : RouteId) (sized : Bool) (id : Bytes) (f : HybiId → α → α)
    (s : Server) : α → α :=
  match s.addressed route sized id with
  | some h => f h
  | none => fun x => x

/-- What a command does to the subscriptions. -/
def rosterCommand (route : RouteId) (cmd : Bytes) (args : List Bytes) (s : Server) :
    Topics.Roster → Topics.Roster :=
  match args with
  | [id, name] =>
    if cmd = str "subscribe" then
      s.onAddressed route true id fun h => Topics.Roster.subscribe h route name
    else if cmd = str "unsubscribe" then
      s.onAddressed route true id fun h => Topics.Roster.unsubscribe h route name
    else if cmd = str "clone" then Topics.Roster.clone route id name
    else fun R => R
  | [name] => if cmd = str "drop" then Topics.Roster.drop route name else fun R => R
  | _ => fun R => R

/-- What a command does to the output mappings. -/
def mappingCommand (cfg : Config) (route : RouteId) (cmd : Bytes) (args : List Bytes) (s : Server) :
    Outputs.Mapping → Outputs.Mapping :=
  match args with
  | [id, pre, name] =>
    if cmd = str "add_output" then
      match namedOutput cfg route name with
      | some k => s.onAddressed route false id fun h => Outputs.Mapping.insert h pre k
      | none => fun M => M
    else fun M => M
  | [id, pre] =>
    if cmd = str "del_output" then
      s.onAddressed route false id fun h => Outputs.Mapping.delete h pre
    else fun M => M
  | _ => fun M => M

/-- Topics and outputs of other routes are the same. -/
def Confined (route : RouteId) (s : Server) (T : Topics) (O : Outputs) : Prop :=
  Topics.SameBut route (fun g => (s.info g).route = route) s.topics T ∧
    Outputs.SameBut route (fun g => (s.info g).route = route) s.outputs O

/-- Only topics and outputs of a route change, to what the tables `R` and `M` say. -/
structure Retabled (cfg : Config) (route : RouteId) (s : Server) (R : Topics.Roster)
    (M : Outputs.Mapping) (s' : Server) : Prop where
  eq : s' = { s with topics := s'.topics, outputs := s'.outputs }
  core : s'.Core cfg
  pairs : s'.topics.pairs = R
  mapping : s'.outputs.mapping = M
  confined : Confined route s s'.topics s'.outputs

lemma Retabled.refl (hs : s.Core cfg) : Retabled cfg route s s.topics.pairs s.outputs.mapping s :=
  ⟨rfl, hs, rfl, rfl, .refl, .refl⟩

/-- Topics change, and subscriptions belong to connections of their route. -/
lemma Core.withTopics {T : Topics} (hs : s.Core cfg) (hT : T.Tidy)
    (hrun : ∀ p ∈ T.pairs, s.Running p.1 ∧ (s.info p.1).route = p.2.1) :
    Core cfg { s with topics := T } :=
  { hs with
    topics := hT
    subsRunning := hT.forall_connection_iff.mpr fun p hp => (hrun p hp).1
    subsRoute := fun p hp => (hrun p hp).2 }

lemma Retabled.topics {T : Topics} {R : Topics.Roster} (hs : s.Core cfg) (hT : T.Tidy)
    (hR : T.pairs = R) (hrun : ∀ p ∈ R, s.Running p.1 ∧ (s.info p.1).route = p.2.1)
    (hconf : Confined route s T s.outputs) :
    Retabled cfg route s R s.outputs.mapping { s with topics := T } :=
  ⟨rfl, hs.withTopics hT (hR ▸ hrun), hR, rfl, hconf⟩

lemma Retabled.outputs {O : Outputs} {M : Outputs.Mapping} (hs : s.Core cfg) (hO : O.WF)
    (hM : O.mapping = M)
    (hrun : ∀ h pre k, M h pre = some k → s.Running h ∧ ∃ i, k = .named (s.info h).route i)
    (hconf : Confined route s s.topics O) :
    Retabled cfg route s s.topics.pairs M { s with outputs := O } := by
  have hall := (hO.forall_output_iff
    (L := fun h k => s.Running h ∧ ∃ i, k = .named (s.info h).route i)).mpr (hM ▸ hrun)
  refine ⟨rfl, ?_, rfl, hM, hconf⟩
  exact { hs with
    outputs := hO
    outputsRunning := fun o e he => (hall o e he).1
    outputsNamed := fun o e he => (hall o e he).2 }

/-- The tables a command leaves behind. -/
def Obeys (cfg : Config) (route : RouteId) (cmd : Bytes) (args : List Bytes)
    (s s' : Server) : Prop :=
  Retabled cfg route s (s.rosterCommand route cmd args s.topics.pairs)
    (s.mappingCommand cfg route cmd args s.outputs.mapping) s'

lemma pairs_owned (hs : s.Core cfg) {p : Topics.Subscription} (hp : p ∈ s.topics.pairs) :
    s.Running p.1 ∧ (s.info p.1).route = p.2.1 :=
  ⟨hs.pairs_running p hp, hs.subsRoute p hp⟩

lemma ownedBy (hs : s.Core cfg) : s.topics.OwnedBy route fun g => (s.info g).route = route :=
  fun p hp hr => (hs.subsRoute p hp).trans hr

lemma socket_route (hs : s.Core cfg) (hroute : (s.info h).route = route) (o : OutputId) (e : Output)
    (he : s.outputs.out.get o = some e) (hconn : e.connection = h) : e.socket.route = route := by
  obtain ⟨i, hi⟩ := hs.outputsNamed o e he
  rw [hi, hconn, hroute]
  rfl

lemma mapping_running (hs : s.Core cfg) {pre : Bytes} {k : SockId}
    (hk : s.outputs.mapping h pre = some k) : s.Running h ∧ ∃ i, k = .named (s.info h).route i := by
  obtain ⟨o, e, he, rfl, -, rfl⟩ := (Outputs.mapping_iff hs.outputs).mp hk
  exact ⟨hs.outputsRunning o e he, hs.outputsNamed o e he⟩

/-! ### Commands without effect -/

section

variable {cmd : Bytes} {args : List Bytes}

lemma rosterCommand_of_outputs (hcmd : cmd = str "add_output" ∨ cmd = str "del_output") :
    s.rosterCommand route cmd args = fun R => R := by
  obtain rfl | rfl := hcmd <;> unfold rosterCommand <;> split <;> rfl

lemma rosterCommand_of_none (hcmd : cmd = str "subscribe" ∨ cmd = str "unsubscribe")
    (hnone : ∀ id name, args = [id, name] → s.addressed route true id = none) :
    s.rosterCommand route cmd args = fun R => R := by
  unfold rosterCommand
  split
  · obtain rfl | rfl := hcmd
    · rw [if_pos rfl, onAddressed, hnone _ _ rfl]
    · rw [if_neg (by decide), if_pos rfl, onAddressed, hnone _ _ rfl]
  · obtain rfl | rfl := hcmd <;> rfl
  · rfl

lemma mappingCommand_of_topics (hcmd : cmd ≠ str "add_output" ∧ cmd ≠ str "del_output") :
    s.mappingCommand cfg route cmd args = fun M => M := by
  unfold mappingCommand
  split
  · rw [if_neg hcmd.1]
  · rw [if_neg hcmd.2]
  · rfl

lemma mappingCommand_of_none (hcmd : cmd = str "add_output" ∧ (∀ id pre name,
      args = [id, pre, name] →
        s.addressed route false id = none ∨ namedOutput cfg route name = none) ∨
    cmd = str "del_output" ∧ ∀ id pre, args = [id, pre] → s.addressed route false id = none) :
    s.mappingCommand cfg route cmd args = fun M => M := by
  unfold mappingCommand
  obtain ⟨rfl, hnone⟩ | ⟨rfl, hnone⟩ := hcmd
  · split
    · rw [if_pos rfl]
      obtain hnone | hnone := hnone _ _ _ rfl
      · cases namedOutput cfg route _ with
        | none => rfl
        | some k => simp only [onAddressed, hnone]
      · simp only [hnone]
    · rfl
    · rfl
  · split
    · rfl
    · rw [if_pos rfl, onAddressed, hnone _ _ rfl]
    · rfl

/-- A command without effect. -/
lemma Obeys.refl (hs : s.Core cfg) (hR : s.rosterCommand route cmd args = fun R => R)
    (hM : s.mappingCommand cfg route cmd args = fun M => M) : Obeys cfg route cmd args s s := by
  rw [Obeys, hR, hM]
  exact .refl hs

/-- A command that changes topics. -/
lemma Obeys.topics {T : Topics} (hs : s.Core cfg)
    (hcmd : cmd ≠ str "add_output" ∧ cmd ≠ str "del_output") (hT : T.Tidy)
    (hR : T.pairs = s.rosterCommand route cmd args s.topics.pairs)
    (hrun : ∀ p ∈ T.pairs, s.Running p.1 ∧ (s.info p.1).route = p.2.1)
    (hsame : Topics.SameBut route (fun g => (s.info g).route = route) s.topics T) :
    Obeys cfg route cmd args s { s with topics := T } := by
  rw [Obeys, ← hR, mappingCommand_of_topics hcmd]
  exact .topics hs hT rfl hrun ⟨hsame, .refl⟩

/-- A command that changes outputs. -/
lemma Obeys.outputs {O : Outputs} (hs : s.Core cfg)
    (hcmd : cmd = str "add_output" ∨ cmd = str "del_output") (hO : O.WF)
    (hM : O.mapping = s.mappingCommand cfg route cmd args s.outputs.mapping)
    (hrun : ∀ h pre k, O.mapping h pre = some k → s.Running h ∧ ∃ i, k = .named (s.info h).route i)
    (hsame : Outputs.SameBut route (fun g => (s.info g).route = route) s.outputs O) :
    Obeys cfg route cmd args s { s with outputs := O } := by
  rw [Obeys, ← hM, rosterCommand_of_outputs hcmd]
  exact .outputs hs hO rfl hrun ⟨.refl, hsame⟩

end

/-! ### The six commands -/

section tables

variable (hs : s.Core cfg)

include hs

lemma subscribe_spec : Ends (s.Misreads (str "subscribe" :: frames))
    (Obeys cfg route (str "subscribe") frames s)
    (subscribe cfg route frames s) := by
  have hcmd : str "subscribe" ≠ str "add_output" ∧ str "subscribe" ≠ str "del_output" := by
    decide
  refine withConnection_spec hs (misreads_of_lookup .subscribe (by decide)) (fun hnone => ?_)
    fun id rest h hframes hrest ha => ?_
  · refine .refl hs (rosterCommand_of_none (Or.inl rfl) fun id name hargs => ?_)
      (mappingCommand_of_topics hcmd)
    exact hnone id [name] hargs (by simp)
  · obtain ⟨hl, hroute⟩ := addressed_live hs ha
    subst hframes
    obtain _ | ⟨name, _ | ⟨x, l⟩⟩ := rest
    · exact absurd rfl hrest
    · rw [hroute]
      obtain ⟨htidy, hpairs⟩ := hs.topics.subscribe h route name (hashSize cfg)
      refine .topics hs hcmd htidy ?_ ?_ (Topics.sameBut_subscribe _ _ hs.topics.toWF hroute)
      · rw [hpairs, rosterCommand, if_pos rfl, onAddressed, ha]
      · rw [hpairs]
        rintro p (rfl | hp)
        · exact ⟨hs.running hl, hroute⟩
        · exact pairs_owned hs hp
    · exact .refl hs rfl (mappingCommand_of_topics hcmd)

lemma unsubscribe_spec : Ends (s.Misreads (str "unsubscribe" :: frames))
    (Obeys cfg route (str "unsubscribe") frames s)
    (unsubscribe cfg route frames s) := by
  have hcmd : str "unsubscribe" ≠ str "add_output" ∧ str "unsubscribe" ≠ str "del_output" := by
    decide
  refine withConnection_spec hs (misreads_of_lookup .unsubscribe (by decide)) (fun hnone => ?_)
    fun id rest h hframes hrest ha => ?_
  · refine .refl hs (rosterCommand_of_none (Or.inr rfl) fun id name hargs => ?_)
      (mappingCommand_of_topics hcmd)
    exact hnone id [name] hargs (by simp)
  · subst hframes
    obtain _ | ⟨name, _ | ⟨x, l⟩⟩ := rest
    · exact absurd rfl hrest
    · obtain ⟨htidy, hpairs⟩ := hs.topics.unsubscribe h route name (hashSize cfg)
      refine .topics hs hcmd htidy ?_ ?_
        (Topics.sameBut_unsubscribe _ _ hs.topics.toWF (addressed_live hs ha).2)
      · rw [hpairs, rosterCommand, if_neg (by decide), if_pos rfl, onAddressed, ha]
      · rw [hpairs]
        exact fun p hp => pairs_owned hs hp.1
    · exact .refl hs rfl (mappingCommand_of_topics hcmd)

lemma clone_spec : Ends (s.Misreads (str "clone" :: frames))
    (Obeys cfg route (str "clone") frames s)
    (clone cfg route frames s) := by
  have hcmd : str "clone" ≠ str "add_output" ∧ str "clone" ≠ str "del_output" := by decide
  obtain _ | ⟨source, _ | ⟨target, _ | ⟨x, l⟩⟩⟩ := frames
  · exact .refl hs rfl (mappingCommand_of_topics hcmd)
  · exact .refl hs rfl (mappingCommand_of_topics hcmd)
  · obtain ⟨htidy, hpairs⟩ := hs.topics.clone route (hashSize cfg) source target
    refine .topics hs hcmd htidy hpairs ?_
      (Topics.sameBut_clone _ source target hs.topics.toWF (ownedBy hs))
    rw [hpairs]
    rintro p (hp | ⟨hk, hp⟩)
    · exact pairs_owned hs hp
    · rw [hk]
      exact pairs_owned hs hp
  · exact .refl hs rfl (mappingCommand_of_topics hcmd)

lemma drop_spec : Ends (s.Misreads (str "drop" :: frames)) (Obeys cfg route (str "drop") frames s)
    (drop cfg route frames s) := by
  have hcmd : str "drop" ≠ str "add_output" ∧ str "drop" ≠ str "del_output" := by decide
  obtain _ | ⟨name, _ | ⟨x, l⟩⟩ := frames
  · exact .refl hs rfl (mappingCommand_of_topics hcmd)
  · obtain ⟨htidy, hpairs⟩ := hs.topics.drop route name (hashSize cfg)
    refine .topics hs hcmd htidy hpairs ?_
      (Topics.sameBut_drop _ _ hs.topics.toWF (ownedBy hs))
    rw [hpairs]
    exact fun p hp => pairs_owned hs hp.1
  · refine .refl hs ?_ (mappingCommand_of_topics hcmd)
    cases l <;> rfl

lemma addOutput_spec : Ends (s.Misreads (str "add_output" :: frames))
    (Obeys cfg route (str "add_output") frames s)
    (addOutput cfg route frames s) := by
  have hcmd : str "add_output" = str "add_output" ∨ str "add_output" = str "del_output" :=
    Or.inl rfl
  refine withConnection_spec hs (misreads_of_lookup .addOutput (by decide)) (fun hnone => ?_)
    fun id rest h hframes hrest ha => ?_
  · refine .refl hs (rosterCommand_of_outputs hcmd) (mappingCommand_of_none (Or.inl ⟨rfl, ?_⟩))
    exact fun id pre name hargs => Or.inl (hnone id [pre, name] hargs (by simp))
  · obtain ⟨hl, hroute⟩ := addressed_live hs ha
    subst hframes
    obtain _ | ⟨pre, _ | ⟨name, _ | ⟨x, l⟩⟩⟩ := rest
    · exact absurd rfl hrest
    · exact .refl hs (rosterCommand_of_outputs hcmd) rfl
    · dsimp only
      cases hname : namedOutput cfg route name with
      | none =>
        refine .refl hs (rosterCommand_of_outputs hcmd) (mappingCommand_of_none (Or.inl ⟨rfl, ?_⟩))
        rintro _ _ _ ⟨⟩
        exact Or.inr hname
      | some k =>
        obtain ⟨hwf, hmap⟩ := Outputs.addOutput_spec hs.outputs h pre k
        have hk : k.route = route := by
          obtain ⟨i, -, rfl⟩ := Option.map_eq_some_iff.mp hname
          rfl
        refine .outputs hs hcmd hwf ?_ ?_
          (Outputs.sameBut_addOutput pre hs.outputs hroute (socket_route hs hroute) hk)
        · rw [hmap, mappingCommand, if_pos rfl]
          simp only [hname, onAddressed, ha]
        · intro g pre' k' hk'
          rw [hmap, Outputs.Mapping.insert] at hk'
          by_cases hg : g = h
          · subst hg
            rw [Function.update_self] at hk'
            by_cases hpre : pre' = pre
            · subst hpre
              rw [Function.update_self] at hk'
              cases hk'
              obtain ⟨i, -, rfl⟩ := Option.map_eq_some_iff.mp hname
              exact ⟨hs.running hl, i, by rw [hroute]⟩
            · rw [Function.update_of_ne hpre] at hk'
              exact mapping_running hs hk'
          · rw [Function.update_of_ne hg] at hk'
            exact mapping_running hs hk'
    · exact .refl hs (rosterCommand_of_outputs hcmd) rfl

lemma delOutput_spec : Ends (s.Misreads (str "del_output" :: frames))
    (Obeys cfg route (str "del_output") frames s)
    (delOutput route frames s) := by
  have hcmd : str "del_output" = str "add_output" ∨ str "del_output" = str "del_output" :=
    Or.inr rfl
  refine withConnection_spec hs (misreads_of_lookup .delOutput (by decide)) (fun hnone => ?_)
    fun id rest h hframes hrest ha => ?_
  · refine .refl hs (rosterCommand_of_outputs hcmd) (mappingCommand_of_none (Or.inr ⟨rfl, ?_⟩))
    exact fun id pre hargs => hnone id [pre] hargs (by simp)
  · subst hframes
    obtain _ | ⟨pre, _ | ⟨x, l⟩⟩ := rest
    · exact absurd rfl hrest
    · obtain ⟨hwf, hmap⟩ := Outputs.delOutput_spec hs.outputs h pre
      have hroute := (addressed_live hs ha).2
      refine .outputs hs hcmd hwf ?_ ?_
        (Outputs.sameBut_delOutput pre hs.outputs hroute (socket_route hs hroute))
      · rw [hmap, mappingCommand, if_pos rfl, onAddressed, ha]
      · intro g pre' k' hk'
        rw [hmap, Outputs.Mapping.delete] at hk'
        by_cases hg : g = h
        · subst hg
          rw [Function.update_self] at hk'
          by_cases hpre : pre' = pre
          · subst hpre
            rw [Function.update_self] at hk'
            cases hk'
          · rw [Function.update_of_ne hpre] at hk'
            exact mapping_running hs hk'
        · rw [Function.update_of_ne hg] at hk'
          exact mapping_running hs hk'
    · refine .refl hs (rosterCommand_of_outputs hcmd) ?_
      cases l <;> rfl

/-- The commands that change topics or outputs. -/
def IsTable (cmd : Bytes) : Prop :=
  cmd = str "subscribe" ∨ cmd = str "unsubscribe" ∨ cmd = str "clone" ∨ cmd = str "drop" ∨
    cmd = str "add_output" ∨ cmd = str "del_output"

/-- Such a command does what it says, and nothing else. -/
lemma tables_spec {cmd : Bytes} (hcmd : IsTable cmd) :
    Ends (s.Misreads (cmd :: frames)) (Obeys cfg route cmd frames s)
    (websockProcess cfg env route (cmd :: frames) s) := by
  obtain rfl | rfl | rfl | rfl | rfl | rfl := hcmd
  · exact subscribe_spec hs
  · exact unsubscribe_spec hs
  · exact clone_spec hs
  · exact drop_spec hs
  · exact addOutput_spec hs
  · exact delOutput_spec hs

end tables

/-! ### The other commands -/

section others

variable (hs : s.Core cfg)

include hs

/-- A new cookie changes nothing else. -/
lemma withCookie_core (h : HybiId) (cookie : Bytes) :
    Core cfg { s with
      info := Function.update s.info h { s.info h with cookie := some cookie } } := by
  have hinfo : ∀ g,
      (Function.update s.info h { s.info h with cookie := some cookie } g).uid = (s.info g).uid ∧
      (Function.update s.info h { s.info h with cookie := some cookie } g).route
        = (s.info g).route := by
    intro g
    by_cases hg : g = h
    · subst hg
      simp
    · simp [hg]
  generalize Function.update s.info h { s.info h with cookie := some cookie } = info at hinfo ⊢
  have hslot : ∀ g, slot { s with info := info } g = s.slot g := fun g => by
    rw [slot, slot, (hinfo g).1]
  refine ⟨hs.size, fun k g hg => ?_, fun g hg => ?_, hs.fresh, hs.counts, hs.entries, hs.inOrder,
    fun g hg => ?_, hs.topics, hs.subsRunning, fun p hp => ?_, hs.outputs, hs.outputsRunning,
    fun o e he => ?_⟩
  · rw [hslot]
    exact hs.slots k g hg
  · rw [hslot]
    exact hs.placed g hg
  · show (info g).uid.length = _
    rw [(hinfo g).1]
    exact hs.uids g hg
  · show (info p.1).route = _
    rw [(hinfo p.1).2]
    exact hs.subsRoute p hp
  · show ∃ i, e.socket = .named (info e.connection).route i
    rw [(hinfo e.connection).2]
    exact hs.outputsNamed o e he

lemma setCookie_spec (ha : allow (.acts route)) (hallow : ∀ id cookie h, frames = [id, cookie] →
      s.addressed route false id = some h → allow (.cookie h)) :
    Ends (s.Misreads (str "set_cookie" :: frames)) (fun s' => Path cfg env allow (w, s) (w, s'))
      (setCookie route frames s) := by
  refine withConnection_spec hs (misreads_of_lookup .setCookie (by decide)) (fun _ => .refl)
    fun id rest h hframes hrest haddr => ?_
  obtain ⟨hl, hroute⟩ := addressed_live hs haddr
  clear hrest
  split
  · next cookie =>
    exact Path.single (.other (.baked (hroute ▸ ha) (hallow id cookie h hframes haddr) hl))
      (withCookie_core hs h _)
  · exact .refl

lemma disconnect_spec (ha : allow (.acts route)) :
    Ends (s.Misreads (str "disconnect" :: frames)) (fun s' => Path cfg env allow (w, s) (w, s'))
      (disconnect cfg env route frames s) := by
  unfold disconnect
  split
  · rename_i id
    have hspec := hybiFind_spec hs id
    cases hfind : s.hybiFind id with
    | error f =>
      rw [hfind] at hspec
      refine ⟨hspec.1, .disconnect, id, [], rfl, iff_of_true rfl rfl, fun hsized => ?_, hspec.2⟩
      cases hsized
    | ok o =>
      rw [ok_bind]
      cases o with
      | none => exact .refl
      | some h =>
        rw [hfind] at hspec
        obtain ⟨hl, -⟩ := hspec h rfl
        have hr := hs.running hl
        simp only [hs.deref_eq hr, ok_bind]
        split_ifs with hroute
        · exact .refl
        · have hacts : allow (.acts (s.info h).route) := not_ne_iff.mp hroute ▸ ha
          cases ht : (s.info h).type with
          | comet =>
            obtain ⟨s', hclose, hpath, -⟩ := cometClose_path env _ hacts hs hl ht
            exact .of_eq_ok hclose hpath
          | websocket =>
            exact (hybiStop_path env w hacts hs hr ht).mono (fun _ hf => absurd hl hf.2)
              fun _ hp => hp
  · exact .refl

/-- The subscribers of a topic are connections of its route. -/
lemma audience_route {t : TopicId} {name : Bytes} (ht : s.topics.key t = some (route, name))
    (hg : g ∈ s.audience t) : (s.info g).route = route := by
  obtain ⟨i, sub, hi, rfl, rfl⟩ := (mem_audience hs).mp hg
  exact hs.subsRoute (sub.connection, route, name) (Topics.mem_pairs.mpr ⟨i, sub, hi, rfl, ht⟩)

lemma publish_spec (ha : allow (.acts route)) :
    Ends (fun f => f = .assertion .sieveEmpty ∧ ¬ s.Intact)
      (fun s' => Path cfg env allow (w, s) (w, s'))
      (publish cfg env route frames s) := by
  unfold publish
  split
  · next name m =>
    rcases Topics.findTopic_false route name (hashSize cfg) hs.topics.toWF with
      ⟨t, hfind, ht⟩ | ⟨hfind, -⟩
    · rw [hfind]
      refine (topicPublish_spec env hs).mono (fun _ => id) fun s' hd =>
        hd.path fun p hp => ?_
      obtain ⟨g, hg, rfl⟩ := List.mem_map.mp hp
      rw [audience_route hs ht hg]
      exact ha
    · rw [hfind]
      exact .refl
  · exact .refl

lemma send_spec (ha : allow (.acts route)) :
    Ends (s.Misreads (str "send" :: frames)) (fun s' => Path cfg env allow (w, s) (w, s'))
      (send cfg env route frames s) := by
  refine withConnection_spec hs (misreads_of_lookup .send (by decide)) (fun _ => .refl)
    fun id rest h _ _ haddr => ?_
  obtain ⟨hl, hroute⟩ := addressed_live hs haddr
  split
  · obtain ⟨s', hsend, hd⟩ := doSend_ok env hs hl _
    exact .of_eq_ok hsend (hd.path (hroute ▸ ha))
  · exact .refl

/-- Commands that leave the tables alone. -/
lemma others_spec (ha : allow (.acts route)) {cmd : Bytes} (hcmd : ¬ IsTable cmd)
    (hallow : ∀ id cookie h, cmd = str "set_cookie" → frames = [id, cookie] →
      s.addressed route false id = some h → allow (.cookie h)) :
    Ends (s.Slips (cmd :: frames)) (fun s' => Path cfg env allow (w, s) (w, s'))
      (websockProcess cfg env route (cmd :: frames) s) := by
  simp only [IsTable, not_or] at hcmd
  obtain ⟨h₁, h₂, h₃, h₄, h₅, h₆⟩ := hcmd
  unfold websockProcess
  dsimp only
  rw [if_neg h₁, if_neg h₂]
  by_cases hpublish : cmd = str "publish"
  · rw [if_pos hpublish]
    exact (publish_spec hs ha).mono (fun _ => Or.inr) fun _ => id
  rw [if_neg hpublish]
  by_cases hsend : cmd = str "send"
  · subst hsend
    rw [if_pos rfl]
    exact (send_spec hs ha).mono (fun _ => Or.inl) fun _ => id
  rw [if_neg hsend, if_neg h₃, if_neg h₄, if_neg h₅, if_neg h₆]
  by_cases hcookie : cmd = str "set_cookie"
  · subst hcookie
    rw [if_pos rfl]
    exact (setCookie_spec hs ha fun id cookie h => hallow id cookie h rfl).mono (fun _ => Or.inl)
      fun _ => id
  rw [if_neg hcookie]
  by_cases hall : cmd = str "sendall"
  · rw [if_pos hall]
    split
    · obtain ⟨s', hall, hd⟩ := sendSelected_ok env hs
      refine .of_eq_ok hall (hd.path fun p hp => ?_)
      obtain ⟨g, hg, rfl⟩ := List.mem_map.mp hp
      have hroute : (s.info g).route = route := by simpa using ((mem_selected hs).mp hg).2
      exact hroute ▸ ha
    · exact .refl
  rw [if_neg hall]
  by_cases hdisconnect : cmd = str "disconnect"
  · subst hdisconnect
    rw [if_pos rfl]
    exact (disconnect_spec hs ha).mono (fun _ => Or.inl) fun _ => id
  · rw [if_neg hdisconnect]
    exact .refl

variable (env w) in
/-- `pause_websockets` tells the clients before it flips the flag. -/
lemma pauseWebsockets_path (ha : ∀ route, allow (.acts route)) (pause : Bool) :
    ∃ s', pauseWebsockets cfg env pause s = .ok s' ∧ Path cfg env allow (w, s) (w, s') := by
  rw [pauseWebsockets]
  by_cases hsame : s.backend.paused = pause
  · exact ⟨s, if_pos hsame, .refl⟩
  · obtain ⟨s', hall, hd⟩ := sendSelected_ok env hs
    rw [if_neg hsame]
    dsimp only
    rw [hall, ok_bind]
    exact ⟨_, rfl, (hd.path fun p _ => ha _).trans (Path.switched (hd.core hs) pause _ _)⟩

end others

end Server

end Zerogw
