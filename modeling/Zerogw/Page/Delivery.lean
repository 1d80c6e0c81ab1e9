import Mathlib.Data.List.Perm.Basic
import Zerogw.Page.Tracking

/-!
# What the page hands to the application

However late and in whatever order requests and responses arrive, and whichever get lost, the page
never skips a message of its connection, and it never stops asking for more unless a request fails.
If responses arrive in the order in which the server has sent them, the page hands out every message
once, in order.
-/

namespace Zerogw

open Execution

namespace Page

variable {cfg : Config} {path rnd data : Bytes} {w w' w₁ : World} {h : HybiId}
  {L : HybiId → Log Bytes}
  {T T' : Transfer Bytes} {ordered : Prop} {m : Sent} {k n : Nat} {rep : Reply} {e : Event}
  {callback : Callback} {spoken : List Bytes}

/-! ### Runs -/

/-- What `Math.random()` may give. -/
def IsRandom (rnd : Bytes) : Prop := 0 ∉ rnd ∧ amp ∉ rnd

instance : Decidable (IsRandom rnd) := inferInstanceAs (Decidable (_ ∧ _))

/-- What may happen in a run: nobody else uses the connection of the page, and if responses are
`ordered`, the oldest one comes first. -/
def Allowed (ordered : Prop) : Event → World → Prop
  | .other i, w => ∀ h, w.conn = some h → Server.ackOf i w.server h = none
  | .receive n _ rnd, _ => (ordered → n = 0) ∧ IsRandom rnd
  | .send _ rnd, _ => IsRandom rnd
  | .arrive .., _ | .fail .., _ => True

/-! ### The invariant -/

/-- The requests of the page that have not come to an end. -/
def World.underway (w : World) : List Callback :=
  w.sent.map Sent.callback ++ w.pending.map Prod.snd ++ w.wire.map Prod.snd

/-- A request on its way to the server. -/
def Asks (cfg : Config) (path : Bytes) (w : World) (T : Transfer Bytes) (m : Sent) : Prop :=
  m.callback = .connectReq ∧ w.conn = none ∧ m.uri = path ++ str "?action=CONNECT" ∨
  m.callback = .messageReq ∧ ∃ h k rnd, w.conn = some h ∧ (k = 0 ∨ k ∈ T.acks) ∧ IsRandom rnd ∧
    m.uri = pollUri cfg path (w.server.info h).uid k rnd

/-- Message number `k`, as it is handed to the application. -/
def Handed (entries : List Bytes) (k : Nat) (x : Option Bytes × Bytes) : Prop :=
  k ≠ 0 ∧ x.1 = some (Logging.decimal (k : Int)) ∧ entries[k - 1]? = some x.2

/-- The page knows its connection and what it took last, and counts its requests. -/
structure Kept (cfg : Config) (path : Bytes) (w : World) (T : Transfer Bytes) : Prop where
  sent : ∀ m ∈ w.sent, Asks cfg path w T m
  start : w.page.connectionId = none → T.taken = []
  known : ∀ id, w.page.connectionId = some id → w.page.lastMessage = some (ackText T.last) ∧
    ∃ h, w.conn = some h ∧ id = publicUid cfg (w.server.info h).uid
  handed : List.Forall₂ (Handed T.log.entries) T.taken w.page.handed
  connects : w.underway.count .connectReq ≤ if w.page.connectionId = none then 1 else 0
  messages : .messageReq ∈ w.underway → w.page.connectionId ≠ none
  nrequests : w.page.nrequests = w.underway.length

/-- Something is under way. -/
def Busy (w : World) : Prop := w.page.closed = false → w.underway ≠ []

lemma Handed.mono {entries entries' : List Bytes} {x : Option Bytes × Bytes}
    (hx : Handed entries k x) (hentries : entries <+: entries') : Handed entries' k x := by
  obtain ⟨hk, hid, hdata⟩ := hx
  obtain ⟨new, rfl⟩ := hentries
  obtain ⟨hlen, -⟩ := List.getElem?_eq_some_iff.mp hdata
  exact ⟨hk, hid, (List.getElem?_append_left hlen).trans hdata⟩

/-! ### The page asks for more -/

section asks

variable (hK : Kept cfg path w T)

include hK

lemma Kept.requestNext (hid : w.page.connectionId ≠ none) (hrnd : IsRandom rnd) (data : Bytes) :
    Kept cfg path (w.requestNext path rnd data) { T with acks := T.last :: T.acks } := by
  obtain ⟨id, hid⟩ := Option.ne_none_iff_exists'.mp hid
  obtain ⟨hlast, h, hh, huid⟩ := hK.known id hid
  have hunderway : (w.requestNext path rnd data).underway.Perm (.messageReq :: w.underway) := by
    simp only [World.underway, World.requestNext, List.map_append, List.map_cons, List.map_nil,
      List.append_assoc, List.singleton_append]
    exact List.perm_middle
  refine ⟨fun m hm => ?_, hK.start, hK.known, hK.handed, ?_, fun _ => ?_, ?_⟩
  · rcases List.mem_append.mp hm with hm | hm
    · rcases hK.sent m hm with hconnect | ⟨hcallback, g, k, rnd, hg, hk, hrest⟩
      · exact Or.inl hconnect
      · exact Or.inr ⟨hcallback, g, k, rnd, hg, hk.imp_right (List.mem_cons_of_mem _), hrest⟩
    · obtain rfl := List.mem_singleton.mp hm
      refine Or.inr ⟨rfl, h, T.last, rnd, hh, Or.inr List.mem_cons_self, hrnd, ?_⟩
      dsimp only
      rw [hid, hlast, huid]
      rfl
  · rw [hunderway.count_eq, List.count_cons_of_ne (by decide)]
    exact hK.connects
  · exact Option.ne_none_iff_exists'.mpr ⟨id, hid⟩
  · rw [hunderway.length_eq, List.length_cons, Nat.cast_succ, ← hK.nrequests]
    rfl

variable (ordered) in
lemma Kept.say (hid : w.page.connectionId ≠ none) (hrnd : IsRandom rnd) (spoken : List Bytes) :
    ∃ acks, T.Steps ordered { T with acks := acks } ∧
      Kept cfg path (w.say path rnd spoken) { T with acks := acks } := by
  induction spoken generalizing w T with
  | nil => exact ⟨T.acks, .refl, hK⟩
  | cons data spoken ih =>
    obtain ⟨acks, hsteps, hK'⟩ := ih (hK.requestNext hid hrnd data) hid
    exact ⟨acks, .head .send hsteps, hK'⟩

variable (ordered) in
lemma Kept.requestIfNone (hid : w.page.connectionId ≠ none) (hrnd : IsRandom rnd) :
    ∃ acks, T.Steps ordered { T with acks := acks } ∧
      Kept cfg path (w.requestIfNone path rnd) { T with acks := acks } ∧
      (w.requestIfNone path rnd).underway ≠ [] := by
  rw [World.requestIfNone]
  split_ifs with hnone
  · refine ⟨_, .single .send, hK.requestNext hid hrnd [], ?_⟩
    simp [World.underway, World.requestNext]
  · refine ⟨T.acks, .refl, hK, fun hnil => hnone ?_⟩
    rw [hK.nrequests, hnil]
    rfl

end asks

lemma busy_of_say (hbusy : w.underway ≠ []) (spoken : List Bytes) :
    (w.say path rnd spoken).underway ≠ [] := by
  induction spoken generalizing w with
  | nil => exact hbusy
  | cons data spoken ih =>
    refine ih (w := w.requestNext path rnd data) ?_
    simp [World.underway, World.requestNext]

variable (ordered) in
/-- The page asks for more if nothing is under way, and the application sends messages. -/
lemma Kept.resume (hK : Kept cfg path w T) (hid : w.page.connectionId ≠ none) (hrnd : IsRandom rnd)
    (spoken : List Bytes) : ∃ acks, T.Steps ordered { T with acks := acks } ∧
      Kept cfg path ((w.requestIfNone path rnd).say path rnd spoken) { T with acks := acks } ∧
      ((w.requestIfNone path rnd).say path rnd spoken).underway ≠ [] := by
  obtain ⟨acks, hsteps, hasks, hbusy⟩ := hK.requestIfNone ordered hid hrnd
  have hid' : (w.requestIfNone path rnd).page.connectionId ≠ none := by
    rw [World.requestIfNone]
    split_ifs <;> exact hid
  obtain ⟨acks', hsteps', hsaid⟩ := hasks.say ordered hid' hrnd spoken
  exact ⟨acks', hsteps.trans hsteps', hsaid, busy_of_say hbusy spoken⟩

lemma handed_requestIfNone (x : Option Bytes × Bytes) :
    { w.requestIfNone path rnd with page := { (w.requestIfNone path rnd).page with
      handed := (w.requestIfNone path rnd).page.handed ++ [x] } } =
      World.requestIfNone path rnd
        { w with page := { w.page with handed := w.page.handed ++ [x] } } := by
  rw [World.requestIfNone, World.requestIfNone]
  split_ifs <;> rfl

/-- The page has changed, and has sent requests for messages. -/
def Writes (w w' : World) : Prop :=
  ∃ page more, (∀ m ∈ more, m.callback = .messageReq) ∧
    w' = { w with page := page, sent := w.sent ++ more }

namespace Writes

lemma page (w : World) (page : HTTPPolling) : Writes w { w with page := page } :=
  ⟨page, [], nofun, by rw [List.append_nil]⟩

lemma requestNext (hw : Writes w w₁) (rnd data : Bytes) :
    Writes w (w₁.requestNext path rnd data) := by
  obtain ⟨page, more, hmore, rfl⟩ := hw
  rw [World.requestNext, List.append_assoc]
  refine ⟨_, _, fun m hm => ?_, rfl⟩
  rcases List.mem_append.mp hm with hm | hm
  · exact hmore m hm
  · obtain rfl := List.mem_singleton.mp hm
    rfl

lemma say (hw : Writes w w₁) (rnd : Bytes) (spoken : List Bytes) :
    Writes w (w₁.say path rnd spoken) := by
  induction spoken generalizing w₁ with
  | nil => exact hw
  | cons data spoken ih => exact ih (hw.requestNext rnd data)

lemma requestIfNone (hw : Writes w w₁) (rnd : Bytes) : Writes w (w₁.requestIfNone path rnd) := by
  rw [World.requestIfNone]
  split_ifs
  · exact hw.requestNext rnd []
  · exact hw

/-- The page changes once more. -/
lemma andPage (hw : Writes w w₁) (page : HTTPPolling) : Writes w { w₁ with page := page } := by
  obtain ⟨page', more, hmore, rfl⟩ := hw
  exact ⟨page, more, hmore, rfl⟩

lemma connectReq (w : World) : Writes w (w.connectReq path rnd spoken rep) := by
  rw [World.connectReq]
  split_ifs
  · exact ((Writes.page w _).say rnd spoken).requestNext rnd []
  · exact .page w _

lemma messageReq (w : World) : Writes w (w.messageReq path rnd spoken rep) := by
  rw [World.messageReq]
  split_ifs
  · dsimp only
    split
    · exact (Writes.page w _).requestIfNone rnd
    · exact .page w _
    · split_ifs
      · exact (((Writes.page w _).requestIfNone rnd).andPage _).say rnd spoken
      · exact (Writes.page w _).requestIfNone rnd
  · exact .page w _

end Writes

/-! ### A request comes to an end -/

/-- A request that is under way, and the others. -/
lemma perm_of_getElem? {α : Type} {l : List α} {x : α} (hx : l[n]? = some x) :
    l.Perm (x :: l.eraseIdx n) := by
  obtain ⟨hn, rfl⟩ := List.getElem?_eq_some_iff.mp hx
  exact (List.getElem_cons_eraseIdx_perm hn).symm

/-- The request with callback `callback` has come to an end. -/
structure Ended (w : World) (callback : Callback) (w₁ : World) : Prop where
  underway : w.underway.Perm (callback :: w₁.underway)
  server : w₁.server = w.server
  conn : w₁.conn = w.conn
  sent : ∀ m ∈ w₁.sent, m ∈ w.sent
  connectionId : w₁.page.connectionId = w.page.connectionId
  lastMessage : w₁.page.lastMessage = w.page.lastMessage
  handed : w₁.page.handed = w.page.handed
  nrequests : w₁.page.nrequests = w.page.nrequests - 1

lemma ended_sent (hm : w.sent[n]? = some m) :
    Ended w m.callback { w.ended with sent := w.sent.eraseIdx n } := by
  refine ⟨?_, rfl, rfl, fun m hm => List.mem_of_mem_eraseIdx hm, rfl, rfl, rfl, rfl⟩
  exact (((perm_of_getElem? hm).map _).append_right _).append_right _

lemma ended_pending {x : ReqId × Callback} (hx : w.pending[n]? = some x) :
    Ended w x.2 { w.ended with pending := w.pending.eraseIdx n } := by
  refine ⟨?_, rfl, rfl, fun _ hm => hm, rfl, rfl, rfl, rfl⟩
  exact ((((perm_of_getElem? hx).map _).append_left _).trans List.perm_middle).append_right _

lemma ended_wire {x : ReqId × Callback} (hx : w.wire[n]? = some x) :
    Ended w x.2 { w.ended with wire := w.wire.eraseIdx n } := by
  refine ⟨?_, rfl, rfl, fun _ hm => hm, rfl, rfl, rfl, rfl⟩
  exact (((perm_of_getElem? hx).map _).append_left _).trans List.perm_middle

lemma Ended.kept (hw : Ended w callback w₁) (hK : Kept cfg path w T) : Kept cfg path w₁ T := by
  have hconnects := hK.connects
  have hnrequests := hK.nrequests
  rw [hw.underway.count_eq] at hconnects
  rw [hw.underway.length_eq, List.length_cons, Nat.cast_succ] at hnrequests
  refine ⟨fun m hm => ?_, ?_, fun id hid => ?_, ?_, ?_, fun hmem => ?_, ?_⟩
  · rw [Asks, hw.conn, hw.server]
    exact hK.sent m (hw.sent m hm)
  · rw [hw.connectionId]
    exact hK.start
  · rw [hw.lastMessage, hw.conn, hw.server]
    exact hK.known id (hw.connectionId ▸ hid)
  · rw [hw.handed]
    exact hK.handed
  · rw [hw.connectionId]
    exact le_trans List.count_le_count_cons hconnects
  · rw [hw.connectionId]
    exact hK.messages (hw.underway.mem_iff.mpr (List.mem_cons_of_mem _ hmem))
  · rw [hw.nrequests, hnrequests, add_sub_cancel_right]

/-- Only the request for a connection comes to an end before there is one. -/
lemma Ended.of_connect (hw : Ended w .connectReq w₁) (hK : Kept cfg path w T) :
    w.page.connectionId = none ∧ w₁.underway.count .connectReq = 0 := by
  have hconnects := hK.connects
  rw [hw.underway.count_eq, List.count_cons_self] at hconnects
  split_ifs at hconnects with hid
  · exact ⟨hid, Nat.le_zero.mp (Nat.le_of_succ_le_succ hconnects)⟩
  · exact absurd hconnects (Nat.not_succ_le_zero _)

lemma Ended.of_message (hw : Ended w .messageReq w₁) (hK : Kept cfg path w T) :
    w₁.page.connectionId ≠ none := by
  rw [hw.connectionId]
  exact hK.messages (hw.underway.mem_iff.mpr List.mem_cons_self)

/-- The page learns its connection. -/
lemma Kept.learn (hK : Kept cfg path w T) (hid : w.page.connectionId = none)
    (hcount : w.underway.count .connectReq = 0) (hh : w.conn = some h) :
    Kept cfg path { w with page := { w.page with
      connectionId := some (publicUid cfg (w.server.info h).uid), lastMessage := some [] } } T := by
  refine ⟨hK.sent, nofun, ?_, hK.handed, hcount.le, nofun, hK.nrequests⟩
  rintro _ ⟨⟩
  refine ⟨?_, h, hh, rfl⟩
  rw [Transfer.last, hK.start hid]
  rfl

/-- The page takes a message. -/
lemma Kept.take (hK : Kept cfg path w T) (hid : w.page.connectionId ≠ none) (hk : k ≠ 0)
    (hdata : T.log.entries[k - 1]? = some data) (offers : List Nat) :
    Kept cfg path { w with page := { w.page with
        lastMessage := some (Logging.decimal (k : Int))
        handed := w.page.handed ++ [(some (Logging.decimal (k : Int)), data)] } }
      { T with offers := offers, taken := T.taken ++ [k] } := by
  refine ⟨hK.sent, fun hnone => absurd hnone hid, fun id hid => ⟨?_, (hK.known id hid).2⟩, ?_,
    hK.connects, hK.messages, hK.nrequests⟩
  · rw [Transfer.last, List.getLast?_concat, Option.getD_some, ackText, if_neg hk]
  · exact List.rel_append hK.handed (.cons ⟨hk, rfl, hdata⟩ .nil)

/-! ### Responses arrive -/

section ended

variable (hended : Kept cfg path w.ended T) (hid : w.page.connectionId ≠ none)
  (hrnd : IsRandom rnd) (hok : succeeded rep = true)

include hended hid hrnd hok

variable (ordered) in
/-- There is no message. -/
lemma Kept.nothing (hread : read rep = .nothing) (spoken : List Bytes) :
    ∃ acks, T.Steps ordered { T with acks := acks } ∧
      Kept cfg path (w.messageReq path rnd spoken rep) { T with acks := acks } ∧
      Busy (w.messageReq path rnd spoken rep) := by
  obtain ⟨acks, hsteps, hasks, hbusy⟩ := hended.requestIfNone ordered hid hrnd
  have hresult : w.messageReq path rnd spoken rep = w.ended.requestIfNone path rnd := by
    rw [World.messageReq, if_pos hok]
    dsimp only
    rw [hread]
  rw [hresult]
  exact ⟨acks, hsteps, hasks, fun _ => hbusy⟩

variable (ordered) in
/-- There is a message, which the page takes unless it is the one it took last. -/
lemma Kept.message (hT : T.Sound) (hfew : T.log.entries.length < 2 ^ 31 - 1)
    (hrep : Carries T.log.entries k rep) (spoken : List Bytes) (offers : List Nat) :
    ∃ acks, Transfer.Steps ordered { T with offers := offers, taken := T.received k }
        { T with offers := offers, acks := acks, taken := T.received k } ∧
      Kept cfg path (w.messageReq path rnd spoken rep)
        { T with offers := offers, acks := acks, taken := T.received k } ∧
      Busy (w.messageReq path rnd spoken rep) := by
  obtain ⟨hk, hlt, data, hdata, hread⟩ := hrep
  obtain ⟨id, hsome⟩ := Option.ne_none_iff_exists'.mp hid
  have hlast : w.ended.page.lastMessage = some (ackText T.last) := (hended.known id hsome).1
  have hlast_lt : T.last < 2 ^ 63 := by
    rcases T.last_cases with hzero | hmem
    · rw [hzero]
      exact Nat.two_pow_pos 63
    · exact (hT.taken _ hmem).trans_lt (hfew.trans (by norm_num))
  have hback : ackText T.last = Logging.decimal (k : Int) ↔ k = T.last := by
    have htext : ackText k = Logging.decimal (k : Int) := if_neg hk
    rw [← htext]
    exact ⟨fun h => (ackText_inj hlast_lt hlt h).symm, fun h => congrArg ackText h.symm⟩
  rw [World.messageReq, if_pos hok]
  dsimp only
  rw [hread]
  dsimp only
  by_cases hagain : k = T.last
  · have hsame : T.received k = T.taken := if_pos hagain
    have hkept : Kept cfg path w.ended { T with offers := offers } :=
      ⟨hended.sent, hended.start, hended.known, hended.handed, hended.connects, hended.messages,
        hended.nrequests⟩
    obtain ⟨acks, hsteps, hasks, hbusy⟩ := hkept.requestIfNone ordered hid hrnd
    rw [hsame, if_neg]
    · exact ⟨acks, hsteps, hasks, fun _ => hbusy⟩
    · rw [not_not, hlast]
      exact congrArg some (hback.mpr hagain)
  · have hnew : T.received k = T.taken ++ [k] := if_neg hagain
    obtain ⟨acks, hsteps, hsaid, hbusy⟩ :=
      (hended.take hid hk hdata offers).resume ordered hid hrnd spoken
    rw [hnew, if_pos, handed_requestIfNone]
    · exact ⟨acks, hsteps, hsaid, fun _ => hbusy⟩
    · rw [hlast]
      exact fun heq => hagain (hback.mp (Option.some.inj heq))

end ended

section receive

variable {pending wire : List (ReqId × Callback)} {x : ReqId × Callback} {s : Server}
  {conn : Option HybiId}

/-- The numbers in the responses without one of them. -/
lemma offers_of_erase {f : ReqId × Callback → Option Nat} (hx : wire[n]? = some x) :
    ∃ pre post, wire.filterMap f = pre ++ (f x).toList ++ post ∧
      (wire.eraseIdx n).filterMap f = pre ++ post ∧ (n = 0 → pre = []) := by
  obtain ⟨hn, rfl⟩ := List.getElem?_eq_some_iff.mp hx
  refine ⟨(wire.take n).filterMap f, (wire.drop (n + 1)).filterMap f, ?_, ?_, ?_⟩
  · conv_lhs => rw [← List.take_append_drop n wire, ← List.getElem_cons_drop hn]
    rw [List.filterMap_append, List.append_assoc, List.filterMap_cons]
    cases f wire[n] <;> rfl
  · rw [List.eraseIdx_eq_take_drop_succ, List.filterMap_append]
  · rintro rfl
    rfl

/-- A response is no longer on its way. -/
lemma Tracked.erase (hI : Tracked cfg s conn pending wire L T) (n : Nat) (acks taken : List Nat) :
    Tracked cfg s conn pending (wire.eraseIdx n) L
      { T with
        offers := (wire.eraseIdx n).filterMap (offerOf s), acks := acks, taken := taken } :=
  ⟨hI.recorded, hI.owned, hI.apart, hI.arrived,
    fun x hx => hI.returning x (List.mem_of_mem_eraseIdx hx), rfl⟩

/-- Writing does not concern the requests that have arrived. -/
lemma Tracked.writes (hI : Tracked cfg w.server w.conn w.pending w.wire L T) (hw : Writes w w')
    (acks : List Nat) :
    Tracked cfg w'.server w'.conn w'.pending w'.wire L { T with acks := acks } := by
  obtain ⟨page, more, -, rfl⟩ := hw
  exact ⟨hI.recorded, hI.owned, hI.apart, hI.arrived, hI.returning, hI.offers⟩

/-- The state of the page and the server together. -/
structure Linked (cfg : Config) (path : Bytes) (w : World) (L : HybiId → Log Bytes)
    (T : Transfer Bytes) : Prop where
  tracked : Tracked cfg w.server w.conn w.pending w.wire L T
  kept : Kept cfg path w T

variable (hI : Linked cfg path w L T) (hx : w.wire[n]? = some x) (hrnd : IsRandom rnd)

variable (ordered) in
include hI hx hrnd in
/-- The page has a connection. -/
lemma Linked.connectReq (hcallback : x.2 = .connectReq)
    (hrep : (w.server.polling.request x.1).replies = [rep]) (spoken : List Bytes) :
    ∃ T', T.Steps ordered T' ∧
      Linked cfg path
        ({ w with wire := w.wire.eraseIdx n }.connectReq path rnd spoken rep) L T' ∧
      Busy ({ w with wire := w.wire.eraseIdx n }.connectReq path rnd spoken rep) := by
  have hended := ended_wire hx
  rw [hcallback] at hended
  obtain ⟨-, h, rep', hh, hrep', hok, hfits⟩ := hI.tracked.returning x (List.mem_of_getElem? hx)
  obtain rfl : rep = rep' := by
    rw [hrep] at hrep'
    exact (List.cons.inj hrep').1
  rw [hcallback] at hfits
  obtain ⟨hid, hcount⟩ := hended.of_connect hI.kept
  have hlearn := (hended.kept hI.kept).learn hid hcount hh
  obtain ⟨acks, hsteps, hsaid⟩ :=
    hlearn.say ordered (Option.some_ne_none _) hrnd (spoken ++ [[]])
  have herased := hI.tracked.erase n T.acks T.taken
  have hoffers : (w.wire.eraseIdx n).filterMap (offerOf w.server) = T.offers := by
    obtain ⟨pre, post, hall, hrest, -⟩ := offers_of_erase (f := offerOf w.server) hx
    rw [hI.tracked.offers, hall, hrest, offerOf, hcallback, Option.toList_none, List.append_nil]
  rw [hoffers] at herased
  have hresult : ({ w with wire := w.wire.eraseIdx n }.connectReq path rnd spoken rep) =
      World.say path rnd (spoken ++ [[]]) { w.ended with
        wire := w.wire.eraseIdx n
        page :=
          { w.ended.page with
            connectionId := some (publicUid cfg (w.server.info h).uid)
            lastMessage := some [] } } := by
    rw [World.connectReq, if_pos hok, World.say, List.foldl_concat, hfits]
    rfl
  refine ⟨_, hsteps, ⟨herased.writes (Writes.connectReq _) acks, ?_⟩, fun _ => ?_⟩
  · rw [hresult]
    exact hsaid
  · rw [World.connectReq, if_pos hok]
    simp [World.underway, World.requestNext]

variable (ordered) in
include hI hx hrnd in
/-- The page takes a message, or it has nothing to take. -/
lemma Linked.messageReq (hcallback : x.2 = .messageReq)
    (hrep : (w.server.polling.request x.1).replies = [rep]) (spoken : List Bytes)
    (hT : T.Sound) (hfew : T.log.entries.length < 2 ^ 31 - 1) (hfirst : ordered → n = 0) :
    ∃ T', T.Steps ordered T' ∧
      Linked cfg path
        ({ w with wire := w.wire.eraseIdx n }.messageReq path rnd spoken rep) L T' ∧
      Busy ({ w with wire := w.wire.eraseIdx n }.messageReq path rnd spoken rep) := by
  have hended := ended_wire hx
  rw [hcallback] at hended
  obtain ⟨-, h, rep', hh, hrep', hok, hfits⟩ := hI.tracked.returning x (List.mem_of_getElem? hx)
  obtain rfl : rep = rep' := by
    rw [hrep] at hrep'
    exact (List.cons.inj hrep').1
  rw [hcallback] at hfits
  have hid := hended.of_message hI.kept
  have hkept := hended.kept hI.kept
  obtain ⟨pre, post, hall, hrest, hpre⟩ := offers_of_erase (f := offerOf w.server) hx
  have hoffer : offerOf w.server x = numberOf rep := by
    rw [offerOf, hcallback, hrep]
    rfl
  rw [← hI.tracked.offers, hoffer] at hall
  have hwrites : Writes { w with wire := w.wire.eraseIdx n }
      ({ w with wire := w.wire.eraseIdx n }.messageReq path rnd spoken rep) := Writes.messageReq _
  rcases hfits with hread | ⟨k, hcarries⟩
  · have herased := hI.tracked.erase n T.acks T.taken
    rw [hrest, ← List.append_nil pre, ← @Option.toList_none Nat] at herased
    obtain ⟨acks, hsteps, hnothing, hbusy⟩ := Kept.nothing ordered
      (w := { w with wire := w.wire.eraseIdx n }) hkept hid hrnd hok hread spoken
    have hnone : numberOf rep = none := by rw [numberOf, hread]
    rw [← hnone, ← hall] at herased
    exact ⟨_, hsteps, ⟨herased.writes hwrites acks, hnothing⟩, hbusy⟩
  · rw [hcarries.numberOf_eq, Option.toList_some, List.append_assoc] at hall
    have hreceive : T.Step ordered { T with offers := pre ++ post, taken := T.received k } :=
      .receive hall fun ho => hpre (hfirst ho)
    have herased := hI.tracked.erase n T.acks (T.received k)
    rw [hrest] at herased
    obtain ⟨acks, hsteps, hmessage, hbusy⟩ := Kept.message ordered
      (w := { w with wire := w.wire.eraseIdx n }) hkept hid hrnd hok hT hfew hcarries spoken
      (pre ++ post)
    exact ⟨_, .head hreceive hsteps, ⟨herased.writes hwrites acks, hmessage⟩, hbusy⟩

end receive

/-! ### Requests fail -/

lemma Kept.failed (hK : Kept cfg path w.ended T) : Kept cfg path w.failed T :=
  ⟨hK.sent, hK.start, hK.known, hK.handed, hK.connects, hK.messages, hK.nrequests⟩

variable (ordered) in
/-- A request comes to an end without a response. -/
lemma Linked.fail (hI : Linked cfg path w L T) {leg : Leg} (hstep : w.step cfg path (.fail leg n) =
    .ok w') (hbusy : Busy w) : ∃ T', T.Steps ordered T' ∧ Linked cfg path w' L T' ∧ Busy w' := by
  have hsame : (Except.ok w : Except Fault World) = .ok w' →
      ∃ T', T.Steps ordered T' ∧ Linked cfg path w' L T' ∧ Busy w' := by
    rintro ⟨⟩
    exact ⟨T, .refl, hI, hbusy⟩
  have hT := hI.tracked
  cases leg with
  | sent =>
    rw [World.step] at hstep
    split_ifs at hstep with hn
    · cases hstep
      have hended := (ended_sent (List.getElem?_eq_getElem hn)).kept hI.kept
      exact ⟨T, .refl, ⟨⟨hT.recorded, hT.owned, hT.apart, hT.arrived, hT.returning, hT.offers⟩,
        Kept.failed (w := { w with sent := w.sent.eraseIdx n }) hended⟩, nofun⟩
    · exact hsame hstep
  | pending =>
    rw [World.step] at hstep
    split_ifs at hstep with hn
    · cases hstep
      have hended := (ended_pending (List.getElem?_eq_getElem hn)).kept hI.kept
      exact ⟨T, .refl, ⟨⟨hT.recorded, hT.owned, hT.apart,
        fun x hx => hT.arrived x (List.mem_of_mem_eraseIdx hx), hT.returning, hT.offers⟩,
        Kept.failed (w := { w with pending := w.pending.eraseIdx n }) hended⟩, nofun⟩
    · exact hsame hstep
  | wire =>
    rw [World.step] at hstep
    split_ifs at hstep with hn
    · cases hstep
      have hx := List.getElem?_eq_getElem hn
      have hended := (ended_wire hx).kept hI.kept
      have hfailed := Kept.failed (w := { w with wire := w.wire.eraseIdx n }) hended
      obtain ⟨pre, post, hall, hrest, -⟩ := offers_of_erase (f := offerOf w.server) hx
      have herased := hT.erase n T.acks T.taken
      rw [← hT.offers] at hall
      rw [hrest] at herased
      have hkept : Kept cfg path ({ w with wire := w.wire.eraseIdx n } : World).failed
          { T with offers := pre ++ post } :=
        ⟨hfailed.sent, hfailed.start, hfailed.known, hfailed.handed, hfailed.connects,
          hfailed.messages, hfailed.nrequests⟩
      refine ⟨_, ?_, ⟨herased, hkept⟩, nofun⟩
      cases hoffer : offerOf w.server w.wire[n] with
      | none =>
        rw [hoffer, Option.toList_none, List.append_nil] at hall
        rw [← hall]
      | some k =>
        rw [hoffer, Option.toList_some, List.append_assoc] at hall
        exact .single (.lose hall)
    · exact hsame hstep

/-! ### The application sends -/

variable (ordered) in
/-- The application sends a message. -/
lemma Linked.send (hI : Linked cfg path w L T) (hstep : w.step cfg path (.send data rnd) = .ok w')
    (hrnd : IsRandom rnd) (hbusy : Busy w) :
    ∃ T', T.Steps ordered T' ∧ Linked cfg path w' L T' ∧ Busy w' := by
  rw [World.step] at hstep
  split_ifs at hstep with hopen
  · cases hstep
    refine ⟨_, .single .send, ⟨hI.tracked.writes ((Writes.page w w.page).requestNext rnd data) _,
      hI.kept.requestNext (Option.isSome_iff_ne_none.mp hopen.1) hrnd data⟩, fun _ => ?_⟩
    simp [World.underway, World.requestNext]
  · cases hstep
    exact ⟨T, .refl, hI, hbusy⟩

/-! ### The server goes on -/

variable (w') in
/-- Requests move on. -/
lemma Kept.move (hK : Kept cfg path w T) {log : Log Bytes} (hpage : w'.page = w.page)
    (hsent : ∀ m ∈ w'.sent, m ∈ w.sent ∧ (m.callback = .connectReq → w'.conn = none))
    (hconn : ∀ h, w.conn = some h →
      w'.conn = some h ∧ (w'.server.info h).uid = (w.server.info h).uid)
    (hpre : T.log.entries <+: log.entries) (hperm : w'.underway.Perm w.underway)
    (offers : List Nat) : Kept cfg path w' { T with log := log, offers := offers } := by
  refine ⟨fun m hm => ?_, ?_, fun id hid => ?_, ?_, ?_, ?_, ?_⟩
  · obtain ⟨hm, hnone⟩ := hsent m hm
    rcases hK.sent m hm with ⟨hcallback, -, huri⟩ | ⟨hcallback, h, k, rnd, hh, hk, hrnd, huri⟩
    · exact Or.inl ⟨hcallback, hnone hcallback, huri⟩
    · obtain ⟨hh', huid⟩ := hconn h hh
      exact Or.inr ⟨hcallback, h, k, rnd, hh', hk, hrnd, huid ▸ huri⟩
  · rw [hpage]
    exact hK.start
  · rw [hpage] at hid ⊢
    obtain ⟨hlast, h, hh, huid⟩ := hK.known id hid
    obtain ⟨hh', huid'⟩ := hconn h hh
    exact ⟨hlast, h, hh', huid' ▸ huid⟩
  · rw [hpage]
    exact hK.handed.imp fun _ _ hx => hx.mono hpre
  · rw [hpage, hperm.count_eq]
    exact hK.connects
  · rw [hpage]
    exact fun hmem => hK.messages (hperm.mem_iff.mp hmem)
  · rw [hpage, hperm.length_eq]
    exact hK.nrequests

lemma collect_underway (s : Server) (w : World) : (w.collect s).underway.Perm w.underway := by
  have hpending : ∀ p : ReqId × Callback → Bool, ((w.pending.filter fun x => !p x).map Prod.snd ++
      (w.wire ++ w.pending.filter p).map Prod.snd).Perm
        (w.pending.map Prod.snd ++ w.wire.map Prod.snd) := by
    intro p
    rw [← List.map_append, ← List.map_append]
    refine List.Perm.map _ ?_
    have hfilter := (List.filter_append_perm p w.pending).append_right w.wire
    rw [List.append_assoc] at hfilter
    refine List.Perm.trans ?_ hfilter
    exact (List.perm_append_comm.append_left _).trans (List.perm_append_comm_assoc _ _ _)
  rw [World.underway, World.underway, List.append_assoc, List.append_assoc]
  exact (hpending _).append_left _

lemma Busy.perm (hbusy : Busy w) (hpage : w'.page = w.page) (hperm : w'.underway.Perm w.underway) :
    Busy w' := by
  intro hclosed hnil
  rw [hnil] at hperm
  exact hbusy (hpage ▸ hclosed) hperm.nil_eq.symm

end Page

end Zerogw
