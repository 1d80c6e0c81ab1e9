import Zerogw.Library.Transfer
import Zerogw.Page.Exchange
import Zerogw.Server.Identity

/-!
# The requests of the page at the server

As long as nobody else uses the connection of the page, each request of the page that has arrived
waits on that connection or will never be replied to, and the responses with messages are offers of
the first message that has not been acknowledged.
-/

namespace Zerogw

open Execution

namespace Page

variable {cfg : Config} {i : Server.Input} {s s' : Server} {conn : Option HybiId} {h g : HybiId}
  {r : ReqId} {rep : Reply} {L : HybiId → Log Bytes} {T T' : Transfer Bytes} {ordered : Prop}
  {pending wire : List (ReqId × Callback)} {x : ReqId × Callback} {callback : Callback}
  {entries entries' : List Bytes} {k : Nat}

/-! ### What responses say -/

/-- The number of the message in a response. -/
def numberOf (rep : Reply) : Option Nat :=
  match read rep with
  | .message (some id) _ => some (strtol id).1.toNat
  | _ => none

/-- The number of the message in the response to a request, if that asks for messages. -/
def offerOf (s : Server) (x : ReqId × Callback) : Option Nat :=
  match x.2 with
  | .connectReq => none
  | .messageReq => (s.polling.request x.1).replies.head?.bind numberOf

/-- The response has message number `k`. -/
def Carries (entries : List Bytes) (k : Nat) (rep : Reply) : Prop :=
  k ≠ 0 ∧ k < 2 ^ 63 ∧ ∃ data, entries[k - 1]? = some data ∧
    read rep = .message (some (Logging.decimal (k : Int))) data

/-- What the response to a request may be. -/
def Fits (cfg : Config) (s : Server) (h : HybiId) (entries : List Bytes) (rep : Reply) :
    Callback → Prop
  | .connectReq => rep.body = publicUid cfg (s.info h).uid
  | .messageReq => read rep = .nothing ∨ ∃ k, Carries entries k rep

lemma Carries.numberOf_eq (hrep : Carries entries k rep) : numberOf rep = some k := by
  obtain ⟨-, hlt, data, -, hread⟩ := hrep
  rw [numberOf, hread]
  dsimp only
  rw [strtol_decimal hlt]
  rfl

lemma Carries.mono (hrep : Carries entries k rep) (hentries : entries <+: entries') :
    Carries entries' k rep := by
  obtain ⟨hk, hlt, data, hdata, hread⟩ := hrep
  obtain ⟨new, rfl⟩ := hentries
  obtain ⟨hlen, -⟩ := List.getElem?_eq_some_iff.mp hdata
  exact ⟨hk, hlt, data, (List.getElem?_append_left hlen).trans hdata, hread⟩

lemma Fits.mono (hrep : Fits cfg s h entries rep callback) (hentries : entries <+: entries')
    (huid : (s'.info h).uid = (s.info h).uid) : Fits cfg s' h entries' rep callback := by
  cases callback with
  | connectReq => exact hrep.trans (congrArg _ huid.symm)
  | messageReq => exact hrep.imp_right fun ⟨k, hk⟩ => ⟨k, hk.mono hentries⟩

/-! ### The invariant -/

/-- The connection of the page, and its log. -/
structure Owned (s : Server) (h : HybiId) (log : Log Bytes) (L : HybiId → Log Bytes) : Prop where
  born : h < s.next
  type : (s.info h).type = .comet
  format : (s.polling.comet h).curFormat = .single
  log : log = L h

/-- The server follows the logs, and the requests of the page that have arrived are in order. -/
structure Tracked (cfg : Config) (s : Server) (conn : Option HybiId)
    (pending wire : List (ReqId × Callback)) (L : HybiId → Log Bytes) (T : Transfer Bytes) :
    Prop where
  recorded : s.Recorded L
  owned : ∀ h, conn = some h → Owned s h T.log L
  apart : conn = none → T.log = .empty
  arrived : ∀ x ∈ pending, x.1 < s.polling.next ∧ (s.polling.request x.1).replies = [] ∧
    ∀ g, (s.polling.comet g).curRequest = some x.1 → conn = some g ∧ x.2 = .messageReq
  returning : ∀ x ∈ wire, x.1 < s.polling.next ∧ ∃ h rep, conn = some h ∧
    (s.polling.request x.1).replies = [rep] ∧ succeeded rep = true ∧
    Fits cfg s h T.log.entries rep x.2
  offers : T.offers = wire.filterMap (offerOf s)

/-- The requests that have been replied to. -/
def answered (s : Server) (x : ReqId × Callback) : Bool := !(s.polling.request x.1).replies.isEmpty

lemma answered_eq_false : answered s x = false ↔ (s.polling.request x.1).replies = [] := by
  rw [answered, Bool.not_eq_false', List.isEmpty_iff]

/-! ### Steps of the server -/

section step

variable (hplain : Plain cfg) (hr : Reachable (Server.step cfg) (Server.init cfg) s)
  (hstep : Server.step cfg i s = .ok s')

include hplain hr hstep in
/-- A request of the page that has arrived is not replied to, or there is nothing new, or it gets
the first message that has not been acknowledged. -/
lemma reply_of_pending (hpending : ∀ g, (s.polling.comet g).curRequest = some r → conn = some g)
    (hnone : (s.polling.request r).replies = []) (hlt : r < s.polling.next)
    (hconn : ∀ h, conn = some h → Owned s h T.log L) (hrec : s.Recorded L)
    (hfew : T.log.entries.length < 2 ^ 31 - 1) :
    (s'.polling.request r).replies = [] ∨
    ∃ h rep, conn = some h ∧ (s.polling.comet h).curRequest = some r ∧
      (s'.polling.request r).replies = [rep] ∧ succeeded rep = true ∧
      (read rep = .nothing ∨ i.event = .sendLater h ∧ T.log.acked < T.log.entries.length ∧
        Carries T.log.entries (T.log.acked + 1) rep) := by
  have hs := Server.sound_of_reachable hr
  by_cases hwaits : ∃ h, (s.polling.comet h).curRequest = some r
  · obtain ⟨h, hcur⟩ := hwaits
    have hh := hpending h hcur
    obtain ⟨hborn, htype, hformat, hlog⟩ := hconn h hh
    rcases Server.replies_of_step hr hstep r with hsame | ⟨-, rep, hrep, hnew⟩
    · exact Or.inl (hsame.trans hnone)
    · refine Or.inr ⟨h, rep, hh, hcur, hrep, ?_⟩
      rcases hnew with hsilent | ⟨rfl, -⟩ | ⟨g, hi, hcurg, hqueue, rfl⟩
      · exact ⟨(read_of_silent hplain hsilent).2, Or.inl (read_of_silent hplain hsilent).1⟩
      · exact absurd hlt (Nat.lt_irrefl _)
      · obtain rfl := Option.some.inj (hh.symm.trans (hpending g hcurg))
        have hrun : s.Running h := by
          apply Server.running_of_sendLater hs hi hstep
          rw [hrep, hnone]
          exact List.cons_ne_nil _ _
        have hfollows := hlog ▸ hrec.follows h hrun htype (hlog ▸ hfew)
        obtain ⟨hread, hok⟩ := read_messageReply i.env r (s.polling.request r) hplain hformat
        obtain ⟨m, ms, hms⟩ := List.exists_cons_of_ne_nil hqueue
        have hfirst : T.log.entries[T.log.acked]? = some m := by
          rw [← Nat.add_zero T.log.acked, ← Log.getElem?_waiting, ← hfollows.queue, hms]
          rfl
        obtain ⟨hlen, -⟩ := List.getElem?_eq_some_iff.mp hfirst
        refine ⟨hok, Or.inr ⟨hi, hlen, Nat.succ_ne_zero _, ?_, m, hfirst, ?_⟩⟩
        · omega
        · rw [hread, hms, hfollows.firstIndex]
          rfl
  · obtain ⟨q, hseats⟩ := Server.seats_of_step hs.core hstep
    refine Or.inl ((hseats.spares r ⟨hlt.ne, fun h hcur => hwaits ⟨h, hcur⟩⟩).trans hnone)

/-- The requests that are carried out on the connection are those of the page. -/
def Polite (i : Server.Input) (s : Server) (h : HybiId) (T : Transfer Bytes) : Prop :=
  ∀ args, Server.CarriedOut i s h args →
    args.outFormat = .single ∧ (args.lastMessage = 0 ∨ args.lastMessage ∈ T.acks)

lemma Polite.ack (hpolite : Polite i s h T) (hk : Server.ackOf i s h = some k) :
    k = 0 ∨ k ∈ T.acks := by
  obtain ⟨route, method, body, origin, date, args, hi, rfl, hreach⟩ := Server.ackOf_eq_some.mp hk
  exact (hpolite args ⟨route, method, body, origin, date, hi, hreach⟩).2

variable (s') in
/-- The log of the connection after a step: first the ack, then the messages. -/
lemma exists_append_of_step (hpolite : Polite i s h T) (hlog : T.log = L h) : ∃ as,
    (Server.ackOf i s h = none ∧ Server.logStep i s s' L h = T.log.append as) ∨
    ∃ k, Server.ackOf i s h = some k ∧ (k = 0 ∨ k ∈ T.acks) ∧
      Server.logStep i s s' L h = (T.log.ack k).append as := by
  refine ⟨Server.messagesFor h (s'.sends.drop s.sends.length), ?_⟩
  rw [Server.logStep, hlog]
  cases hk : Server.ackOf i s h with
  | none => exact Or.inl ⟨rfl, rfl⟩
  | some k => exact Or.inr ⟨k, rfl, hpolite.ack hk, rfl⟩

variable (s' ordered) in
/-- The offers of a step, and then the new messages. -/
lemma steps_of_step {l : List Nat} (hpolite : Polite i s h T) (hlog : T.log = L h)
    (hl : ∀ k ∈ l, k = T.log.acked + 1 ∧ T.log.acked < T.log.entries.length ∧
      i.event = .sendLater h) :
    T.log.entries <+: (Server.logStep i s s' L h).entries ∧ T.Steps ordered
      { T with log := Server.logStep i s s' L h, offers := T.offers ++ l } := by
  obtain ⟨as, ⟨-, heq⟩ | ⟨k, hk, hsent, heq⟩⟩ := exists_append_of_step s' hpolite hlog
  · rw [heq]
    exact ⟨List.prefix_append _ _,
      (Transfer.Steps.offers l fun k hk => ⟨(hl k hk).1, (hl k hk).2.1⟩).tail (.append as)⟩
  · obtain rfl : l = [] := by
      refine List.eq_nil_iff_forall_not_mem.mpr fun n hn => ?_
      rw [Server.ackOf, (hl n hn).2.2] at hk
      cases hk
    rw [heq, List.append_nil]
    refine ⟨List.prefix_append _ _, ?_⟩
    rcases hsent with rfl | hsent
    · rw [Log.ack_of_le (Nat.zero_le _)]
      exact .single (.append as)
    · exact (Relation.ReflTransGen.single (.ack hsent)).tail (.append as)

include hr hstep in
/-- The connection of the page stays what it is. -/
lemma Owned.step {log : Log Bytes} (hh : Owned s h log L) (hpolite : Polite i s h T) :
    Owned s' h (Server.logStep i s s' L h) (Server.logStep i s s' L) ∧
      (s'.info h).uid = (s.info h).uid := by
  have hs := Server.sound_of_reachable hr
  have hsince := Server.since_of_step hs hstep
  obtain ⟨hnext, huid⟩ := Server.uid_of_step hs.core hstep
  obtain ⟨q, hseats⟩ := Server.seats_of_step hs.core hstep
  refine ⟨⟨hh.born.trans_le hnext, (hsince.type h hh.born).trans hh.type, ?_, rfl⟩, huid h hh.born⟩
  rcases hseats.formats h with hsame | hsingle | ⟨args, hcarried, hformat⟩
  · exact hsame.trans hh.format
  · exact hsingle
  · exact hformat.trans (hpolite args hcarried).1

variable (ordered) in
include hplain hr hstep in
/-- One step of the server, for the requests of the page that have arrived before. -/
lemma Tracked.step (hI : Tracked cfg s conn pending wire L T)
    (hpolite : ∀ h, conn = some h → Polite i s h T) (hfew : T.log.entries.length < 2 ^ 31 - 1) :
    ∃ log offers, T.Steps ordered { T with log := log, offers := offers } ∧
      T.log.entries <+: log.entries ∧
      Tracked cfg s' conn (pending.filter fun x => !answered s' x)
        (wire ++ pending.filter (answered s')) (Server.logStep i s s' L)
        { T with log := log, offers := offers } := by
  have hs := Server.sound_of_reachable hr
  have hnext := Server.next_le_of_step hs.core hstep
  obtain ⟨q, hseats⟩ := Server.seats_of_step hs.core hstep
  have hreply : ∀ x ∈ pending, answered s' x = true → ∃ h rep, conn = some h ∧
      x.2 = .messageReq ∧ (s'.polling.request x.1).replies = [rep] ∧ succeeded rep = true ∧
      (read rep = .nothing ∨ i.event = .sendLater h ∧ T.log.acked < T.log.entries.length ∧
        Carries T.log.entries (T.log.acked + 1) rep) := by
    intro x hx hanswered
    obtain ⟨hlt, hnone, hwaits⟩ := hI.arrived x hx
    rcases reply_of_pending hplain hr hstep (fun g hg => (hwaits g hg).1) hnone hlt hI.owned
      hI.recorded hfew with hnone' | ⟨h, rep, hh, hcur, hrest⟩
    · rw [answered_eq_false.mpr hnone'] at hanswered
      cases hanswered
    · exact ⟨h, rep, hh, (hwaits h hcur).2, hrest⟩
  have hkept : ∀ x ∈ wire, (s'.polling.request x.1).replies = (s.polling.request x.1).replies := by
    intro x hx
    obtain ⟨-, h, rep, -, hrep, -⟩ := hI.returning x hx
    rcases Server.replies_of_step hr hstep x.1 with hsame | ⟨hnone, -⟩
    · exact hsame
    · rw [hnone] at hrep
      cases hrep
  have hoffers : ∀ h, conn = some h → ∀ k ∈ (pending.filter (answered s')).filterMap (offerOf s'),
      k = T.log.acked + 1 ∧ T.log.acked < T.log.entries.length ∧ i.event = .sendLater h := by
    intro h hh k hk
    obtain ⟨x, hx, hxk⟩ := List.mem_filterMap.mp hk
    obtain ⟨hx, hanswered⟩ := List.mem_filter.mp hx
    obtain ⟨h', rep, hh', hcallback, hrep, -, hread⟩ := hreply x hx hanswered
    obtain rfl := Option.some.inj (hh.symm.trans hh')
    rw [offerOf, hcallback] at hxk
    dsimp only at hxk
    rw [hrep, List.head?_cons, Option.bind_some] at hxk
    rcases hread with hread | ⟨hi, hlt, hcarries⟩
    · rw [numberOf, hread] at hxk
      cases hxk
    · rw [hcarries.numberOf_eq] at hxk
      exact ⟨(Option.some.inj hxk).symm, hlt, hi⟩
  obtain ⟨log, hpre, hsteps, hlog, hnolog⟩ : ∃ log, T.log.entries <+: log.entries ∧
      T.Steps ordered { T with
        log := log
        offers := T.offers ++ (pending.filter (answered s')).filterMap (offerOf s') } ∧
      (∀ h, conn = some h → log = Server.logStep i s s' L h) ∧ (conn = none → log = T.log) := by
    cases hconn : conn with
    | none =>
      have hnil : pending.filter (answered s') = [] := by
        refine List.filter_eq_nil_iff.mpr fun x hx hanswered => ?_
        obtain ⟨h, rep, hh, -⟩ := hreply x hx hanswered
        rw [hconn] at hh
        cases hh
      refine ⟨T.log, List.prefix_rfl, ?_, nofun, fun _ => rfl⟩
      rw [hnil, List.filterMap_nil, List.append_nil]
    | some h =>
      obtain ⟨hpre, hsteps⟩ := steps_of_step s' ordered (hpolite h hconn)
        (hI.owned h hconn).log (hoffers h hconn)
      exact ⟨_, hpre, hsteps, fun g hg => by rw [← Option.some.inj hg], nofun⟩
  have huid : ∀ h, conn = some h → (s'.info h).uid = (s.info h).uid := fun h hh =>
    ((hI.owned h hh).step hr hstep (hpolite h hh)).2
  refine ⟨log, _, hsteps, hpre, Server.recorded_of_step hr hI.recorded hstep, fun h hh => ?_,
    fun hnone => (hnolog hnone).trans (hI.apart hnone), fun x hx => ?_, fun x hx => ?_, ?_⟩
  · rw [hlog h hh]
    exact ((hI.owned h hh).step hr hstep (hpolite h hh)).1
  · obtain ⟨hx, hanswered⟩ := List.mem_filter.mp hx
    obtain ⟨hlt, -, hwaits⟩ := hI.arrived x hx
    refine ⟨hlt.trans_le hnext, answered_eq_false.mp ?_, fun g hg => ?_⟩
    · rwa [Bool.not_eq_true'] at hanswered
    · rcases hseats.waits g x.1 hg with hold | ⟨hnew, -⟩
      · exact hwaits g hold
      · exact absurd hnew hlt.ne
  · rcases List.mem_append.mp hx with hx | hx
    · obtain ⟨hlt, h, rep, hh, hrep, hok, hfits⟩ := hI.returning x hx
      exact ⟨hlt.trans_le hnext, h, rep, hh, (hkept x hx).trans hrep, hok,
        hfits.mono hpre (huid h hh)⟩
    · obtain ⟨hx, hanswered⟩ := List.mem_filter.mp hx
      obtain ⟨h, rep, hh, hcallback, hrep, hok, hread⟩ := hreply x hx hanswered
      refine ⟨(hI.arrived x hx).1.trans_le hnext, h, rep, hh, hrep, hok, ?_⟩
      rw [hcallback]
      exact hread.imp_right fun ⟨_, _, hcarries⟩ => ⟨_, hcarries.mono hpre⟩
  · have hsame : wire.filterMap (offerOf s) = wire.filterMap (offerOf s') := by
      refine List.filterMap_congr fun x hx => ?_
      rw [offerOf, offerOf, hkept x hx]
    rw [List.filterMap_append, ← hsame, ← hI.offers]

end step

/-! ### Arrivals -/

/-- One more request of the page has arrived. -/
lemma Tracked.add (hI : Tracked cfg s conn pending wire L T) (hlt : x.1 < s.polling.next)
    (hx : (s.polling.request x.1).replies = [] ∧
        (∀ g, (s.polling.comet g).curRequest = some x.1 → conn = some g ∧ x.2 = .messageReq) ∨
      ∃ h rep, conn = some h ∧ (s.polling.request x.1).replies = [rep] ∧ succeeded rep = true ∧
        Fits cfg s h T.log.entries rep x.2 ∧ offerOf s x = none) :
    Tracked cfg s conn (pending ++ [x].filter fun x => !answered s x)
      (wire ++ [x].filter (answered s)) L T := by
  rcases hx with ⟨hnone, hwaits⟩ | ⟨h, rep, hh, hrep, hok, hfits, hoffer⟩
  · have hanswered : answered s x = false := answered_eq_false.mpr hnone
    rw [List.filter_singleton, List.filter_singleton, hanswered]
    rw [Bool.not_false, cond_true, cond_false, List.append_nil]
    refine ⟨hI.recorded, hI.owned, hI.apart, fun y hy => ?_, hI.returning, hI.offers⟩
    rcases List.mem_append.mp hy with hy | hy
    · exact hI.arrived y hy
    · obtain rfl := List.mem_singleton.mp hy
      exact ⟨hlt, hnone, hwaits⟩
  · have hanswered : answered s x = true := by
      rw [answered, hrep]
      rfl
    rw [List.filter_singleton, List.filter_singleton, hanswered]
    rw [Bool.not_true, cond_true, cond_false, List.append_nil]
    refine ⟨hI.recorded, hI.owned, hI.apart, hI.arrived, fun y hy => ?_, ?_⟩
    · rcases List.mem_append.mp hy with hy | hy
      · exact hI.returning y hy
      · obtain rfl := List.mem_singleton.mp hy
        exact ⟨hlt, h, rep, hh, hrep, hok, hfits⟩
    · rw [List.filterMap_append, List.filterMap_cons, hoffer, List.filterMap_nil, List.append_nil]
      exact hI.offers

variable (ordered) in
/-- The page gets its connection. -/
lemma Tracked.open (hI : Tracked cfg s none pending wire L T) (hborn : h < s.next)
    (htype : (s.info h).type = .comet) (hformat : (s.polling.comet h).curFormat = .single)
    (hacked : (L h).acked = 0) :
    T.Steps ordered { T with log := L h } ∧
      Tracked cfg s (some h) pending wire L { T with log := L h } := by
  have hlog : L h = T.log.append (L h).entries := by
    rw [hI.apart rfl]
    exact Log.ext rfl hacked
  refine ⟨.single ?_, hI.recorded, fun g hg => ?_, nofun, fun x hx => ?_, fun x hx => ?_, hI.offers⟩
  · conv_rhs => rw [hlog]
    exact .append _
  · cases hg
    exact ⟨hborn, htype, hformat, rfl⟩
  · obtain ⟨hlt, hnone, hwaits⟩ := hI.arrived x hx
    exact ⟨hlt, hnone, fun g hg => nomatch (hwaits g hg).1⟩
  · obtain ⟨-, g, rep, hg, -⟩ := hI.returning x hx
    cases hg

section arrival

variable {route : RouteId} {method data date : Bytes} {origin : Option Bytes} {args : CometArgs}
  (hr : Reachable (Server.step cfg) (Server.init cfg) s) (hstep : Server.step cfg i s = .ok s')

include hr in
/-- The next request is not known to the server. -/
lemma next_absent : (s.polling.request s.polling.next).replies = [] ∧
    ∀ g, (s.polling.comet g).curRequest ≠ some s.polling.next :=
  ⟨((Server.desk_of_reachable hr).fresh _ le_rfl).1,
    ((Server.desk_of_reachable hr).fresh _ le_rfl).2.2⟩

include hr hstep in
/-- A request for messages waits on the connection that it names, or it is never replied to, or
there is nothing new. -/
lemma arrived_poll (hplain : Plain cfg) (hfew : s.next ≤ 2 ^ 64) (hborn : h < s.next)
    (hi : i.event = .cometRequest route (str "POST") data origin date (some args))
    (huid : args.uid = (s.info h).uid) (haction : args.action = .unknown) :
    (s'.polling.request s.polling.next).replies = [] ∧
        (∀ g, (s'.polling.comet g).curRequest = some s.polling.next → g = h) ∨
      ∃ rep, (s'.polling.request s.polling.next).replies = [rep] ∧ succeeded rep = true ∧
        read rep = .nothing := by
  have hs := Server.sound_of_reachable hr
  obtain ⟨hnone, habsent⟩ := next_absent hr
  obtain ⟨q, hseats⟩ := Server.seats_of_step hs.core hstep
  rcases Server.replies_of_step hr hstep s.polling.next with hsame | ⟨-, rep, hrep, hnew⟩
  · refine Or.inl ⟨hsame.trans hnone, fun g hg => ?_⟩
    rcases hseats.waits g _ hg with
      hold | ⟨-, args', route', method, body, origin', date', hi', hreach⟩
    · exact absurd hold (habsent g)
    · rw [hi] at hi'
      cases hi'
      exact Server.eq_of_uid_eq hr hfew (hs.core.lt_next_of_live hreach.live) hborn
        (hreach.uid.trans huid)
  · refine Or.inr ⟨rep, hrep, ?_⟩
    rcases hnew with hsilent | ⟨-, hasks, -⟩ | ⟨g, hi', -⟩
    · exact (read_of_silent hplain hsilent).symm
    · obtain ⟨route', method, body, origin', date', args', hi', hask⟩ := hasks
      rw [hi] at hi'
      cases hi'
      rw [haction] at hask
      rcases hask with hask | hask
      · cases hask
      · exact absurd hask (by decide)
    · rw [hi] at hi'
      cases hi'

include hr hstep in
/-- A request for a connection never waits. -/
lemma arrived_connect (hi : i.event = .cometRequest route method data origin date (some args))
    (haction : args.action = .connect) (g : HybiId) :
    (s'.polling.comet g).curRequest ≠ some s.polling.next := by
  obtain ⟨q, hseats⟩ := Server.seats_of_step (Server.sound_of_reachable hr).core hstep
  intro hg
  rcases hseats.waits g _ hg with
    hold | ⟨-, args', route', method, body, origin', date', hi', hreach⟩
  · exact (next_absent hr).2 g hold
  · rw [hi] at hi'
    cases hi'
    exact hreach.action haction

end arrival

end Page

end Zerogw
