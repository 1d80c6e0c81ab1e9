import Zerogw.Page.Basic
import Zerogw.Logging.Decimal
import Zerogw.Server.PublicId
import Zerogw.Server.Replies

/-!
# What the page and the server make of each other's texts

The server reads the parameters of a request as the page has written them, and the page reads the
headers of a response as the server has set them.
-/

namespace Zerogw

open Execution

namespace Page

variable {cfg : Config} {env : Env} {i : Server.Input} {s s' : Server} {r : ReqId} {x : Request}
  {c : Comet} {rep : Reply} {own headers headers' : List Header} {name path uid rnd : Bytes}
  {k l : Nat}

/-! ### Numbers -/

/-- A number is read back. -/
lemma strtol_decimal (hk : k < 2 ^ 63) : strtol (Logging.decimal (k : Int)) = ((k : Int), []) := by
  have hdigit : ∀ b ∈ Logging.decimal (k : Int), 48 ≤ b ∧ b ≤ 57 := fun b =>
    Logging.isDigit_of_mem_decimal
  have hdigits : ∀ b ∈ Logging.decimal (k : Int), decide (48 ≤ b ∧ b ≤ 57) = true := fun b hb =>
    decide_eq_true (hdigit b hb)
  obtain ⟨b, bs, hb⟩ := List.exists_cons_of_ne_nil (Logging.decimal_ne_nil k)
  have hfirst : 48 ≤ b.toNat := (hdigit b (hb ▸ List.mem_cons_self)).1
  have hspace : (Logging.decimal (k : Int)).dropWhile (fun b => b = 32 ∨ 9 ≤ b ∧ b ≤ 13) =
      Logging.decimal k := by
    rw [hb]
    apply List.dropWhile_cons_of_neg
    rw [decide_eq_true_eq, UInt8.le_iff_toNat_le, UInt8.le_iff_toNat_le]
    rintro (rfl | ⟨-, hhigh⟩)
    · exact absurd hfirst (by decide)
    · exact absurd (hfirst.trans hhigh) (by decide)
  have hsign : ∀ c : UInt8, c.toNat < 48 → (Logging.decimal (k : Int)).head? ≠ some c := by
    intro c hc hhead
    rw [hb] at hhead
    cases hhead
    exact absurd hfirst (Nat.not_le.mpr hc)
  have hread : (Logging.decimal (k : Int)).takeWhile (fun b => 48 ≤ b ∧ b ≤ 57) =
      Logging.decimal k := List.takeWhile_eq_self_iff.mpr hdigits
  rw [strtol]
  rw [hspace, if_neg (not_or.mpr ⟨hsign 45 (by decide), hsign 43 (by decide)⟩), hread,
    if_neg (Logging.decimal_ne_nil k), if_neg (hsign 45 (by decide)), Logging.foldl_decimal,
    List.drop_length]
  have hlt : (k : Int) ≤ 2 ^ 63 - 1 := by omega
  rw [min_eq_left hlt]

/-- What `last_message` is after message number `k`, and before the first one. -/
def ackText (k : Nat) : Bytes := if k = 0 then [] else Logging.decimal k

lemma strtol_ackText (hk : k < 2 ^ 63) : strtol (ackText k) = ((k : Int), []) := by
  rw [ackText]
  split_ifs with h
  · rw [h]
    rfl
  · exact strtol_decimal hk

lemma isDigit_of_mem_ackText {b : UInt8} (hb : b ∈ ackText k) : 48 ≤ b ∧ b ≤ 57 := by
  rw [ackText] at hb
  split_ifs at hb
  · cases hb
  · exact Logging.isDigit_of_mem_decimal hb

lemma ackText_inj (hk : k < 2 ^ 63) (hl : l < 2 ^ 63) (h : ackText k = ackText l) : k = l := by
  have heq := congrArg strtol h
  rw [strtol_ackText hk, strtol_ackText hl] at heq
  exact Int.natCast_inj.mp (congrArg Prod.fst heq)

/-! ### Requests -/

/-- The URI of a request on the connection with a given id. -/
def pollUri (cfg : Config) (path uid : Bytes) (k : Nat) (rnd : Bytes) : Bytes :=
  path ++ str "?id=" ++ publicUid cfg uid ++ str "&ack=" ++ ackText k ++ str "&rnd=" ++ rnd

/-- The arguments of such a request. -/
def pollArgs (uid : Bytes) (k : Nat) (huid : uid.length = uidLen) (hk : k < 2 ^ 64) : CometArgs :=
  { CometArgs.start with uid := uid, uid_length := huid, lastMessage := k, lastMessage_lt := hk }

/-- The numbers of `strtol` fit. -/
lemma lt_size (hk : k < 2 ^ 63) : k < 2 ^ 64 :=
  hk.trans (Nat.pow_lt_pow_right (Nat.lt_succ_self 1) (Nat.lt_succ_self 63))

lemma isHexDigit_of_mem_publicUid (huid : uid.length = uidLen) {b : UInt8}
    (hb : b ∈ publicUid cfg uid) : IsHexDigit b := by
  rw [publicUid_eq huid] at hb
  obtain ⟨a, -, ha⟩ := List.mem_flatMap.mp hb
  obtain ⟨c, d, c', d', heq, hc, hd, -⟩ := exists_hexValue a
  rw [heq] at ha
  rcases List.mem_cons.mp ha with rfl | ha
  · exact hexValue_isSome.mp ⟨c', hc⟩
  · obtain rfl := List.mem_singleton.mp ha
    exact hexValue_isSome.mp ⟨d', hd⟩

/-- The query of a request. -/
lemma scans_poll {id ack : Bytes} (hid : amp ∉ id) (hack : amp ∉ ack) (hrnd : amp ∉ rnd) :
    Scans (str "id" ++ equals :: (id ++ amp :: (str "ack" ++ equals :: (ack ++ amp ::
      (str "rnd" ++ equals :: rnd))))) [(str "id", id), (str "ack", ack), (str "rnd", rnd)] :=
  .more (by decide) hid (.more (by decide) hack (.value (by decide) hrnd))

/-- The server understands a request for messages. -/
lemma parseArgs_poll (hpath : 0 ∉ path ∧ question ∉ path) (hrnd : 0 ∉ rnd ∧ amp ∉ rnd)
    (huid : uid.length = uidLen) (hk : k < 2 ^ 63) :
    parseArgs cfg (pollUri cfg path uid k rnd) =
      .ok (some (pollArgs uid k huid (lt_size hk))) := by
  have hhex : ∀ z : UInt8, ¬ IsHexDigit z → z ∉ publicUid cfg uid := fun z hz hmem =>
    hz (isHexDigit_of_mem_publicUid huid hmem)
  have hdigit : ∀ z : UInt8, ¬ (48 ≤ z ∧ z ≤ 57) → z ∉ ackText k := fun z hz hmem =>
    hz (isDigit_of_mem_ackText hmem)
  have hscans :=
    scans_poll (hhex amp (by unfold IsHexDigit; decide)) (hdigit amp (by decide)) hrnd.2
  have huri : pollUri cfg path uid k rnd = path ++ question :: (str "id" ++ equals ::
      (publicUid cfg uid ++ amp :: (str "ack" ++ equals :: (ackText k ++ amp ::
        (str "rnd" ++ equals :: rnd))))) := by
    simp only [pollUri, str, question, equals, amp, List.append_assoc]
    rfl
  have h0 : (0 : UInt8) ∉ path ++ question :: (str "id" ++ equals :: (publicUid cfg uid ++
      amp :: (str "ack" ++ equals :: (ackText k ++ amp :: (str "rnd" ++ equals :: rnd))))) := by
    simp only [List.mem_append, List.mem_cons, not_or]
    exact ⟨hpath.1, by decide, by decide, by decide,
      hhex 0 (by unfold IsHexDigit; decide), by decide,
      by decide, by decide, hdigit 0 (by decide), by decide, by decide, by decide, hrnd.1⟩
  rw [parseArgs, huri, hscans.parseUri_eq h0 hpath.2]
  have hlast : toSize (k : Int) = k := by
    rw [toSize]
    omega
  have hnum := strtol_ackText hk
  simp only [List.foldlM_cons, List.foldlM_nil, addLine_id_of_some (readId_publicUid huid) huid,
    Option.bind_eq_bind, Option.bind_some]
  have hackLine : ∀ args : CometArgs, addLine cfg (str "ack") (ackText k) args =
      some { args with lastMessage := k, lastMessage_lt := hk.trans (by norm_num) } := by
    intro args
    rw [addLine, if_neg (by decide), if_neg (by decide), if_pos rfl, if_pos (by rw [hnum])]
    simp only [hnum, hlast]
  have hrndLine : ∀ args : CometArgs, addLine cfg (str "rnd") rnd args = some args := by
    intro args
    rw [addLine, if_neg (by decide), if_neg (by decide), if_neg (by decide), if_neg (by decide),
      if_neg (by decide), if_neg (by decide)]
  rw [hackLine, Option.bind_some, hrndLine]
  rfl

/-- The server understands the request for a connection. -/
lemma parseArgs_connect (hpath : 0 ∉ path ∧ question ∉ path) :
    parseArgs cfg (path ++ str "?action=CONNECT") = .ok (some { CometArgs.start with
      action := .connect, action_parsed := Action.parsed_connect }) := by
  have hscans : Scans (str "action" ++ equals :: str "CONNECT") [(str "action", str "CONNECT")] :=
    .value (by decide) (by decide)
  have huri : path ++ str "?action=CONNECT" =
      path ++ question :: (str "action" ++ equals :: str "CONNECT") := rfl
  have h0 : (0 : UInt8) ∉ path ++ question :: (str "action" ++ equals :: str "CONNECT") := by
    rw [List.mem_append, not_or]
    exact ⟨hpath.1, by decide⟩
  rw [parseArgs, huri, hscans.parseUri_eq h0 hpath.2]
  rfl

/-! ### Responses -/

/-- The names, in lower case, of the headers that the page looks at. -/
def readNames : List Bytes := [str "x-messages", str "x-format", str "x-message-id"]

/-- None of the headers is one of those that the page looks at. -/
def Unread (headers : List Header) : Prop := ∀ x ∈ headers, x.1.map lower ∉ readNames

/-- No configured header is one of those that the page looks at. -/
def Plain (cfg : Config) : Prop :=
  ∀ route, ∀ line ∈ (cfg.route route).headers, line.1.map lower ∉ readNames

lemma Unread.nil : Unread [] := List.forall_mem_nil _

lemma Unread.cons {v : HeaderValue} (hname : name.map lower ∉ readNames) (hrest : Unread headers) :
    Unread ((name, v) :: headers) :=
  List.forall_mem_cons.mpr ⟨hname, hrest⟩

lemma Unread.append (hfirst : Unread headers) (hrest : Unread headers') :
    Unread (headers ++ headers') := by
  intro x hx
  rcases List.mem_append.mp hx with hx | hx
  · exact hfirst x hx
  · exact hrest x hx

lemma unread_setHeaders (hplain : Plain cfg) : Unread (Polling.setHeaders cfg env r x) := by
  have hcommon : ∀ v w y z : HeaderValue, Unread [(str "Date", v), (str "Cache-Control", w),
      (str "Pragma", y), (str "Expires", z)] := fun v w y z =>
    .cons (by decide) (.cons (by decide) (.cons (by decide) (.cons (by decide) .nil)))
  have hgrants : ∀ v w y z u : HeaderValue, Unread [(str "Access-Control-Allow-Origin", v),
      (str "Access-Control-Allow-Methods", w), (str "Access-Control-Allow-Headers", y),
      (str "Access-Control-Expose-Headers", z), (str "Access-Control-Max-Age", u)] :=
    fun v w y z u => .cons (by decide) (.cons (by decide) (.cons (by decide) (.cons (by decide)
      (.cons (by decide) .nil))))
  rw [Polling.setHeaders]
  refine (((hcommon _ _ _ _).append ?_).append ?_).append ?_
  · intro y hy
    obtain ⟨line, hline, rfl⟩ := List.mem_map.mp hy
    exact hplain _ line hline
  · split
    · exact hgrants _ _ _ _ _
    · exact .nil
  · split_ifs
    · exact .cons (by decide) (.cons (by decide) .nil)
    · exact .nil

/-- The headers of `set_headers` do not change what the page finds. -/
lemma getResponseHeader_append (hunread : Unread headers) (hname : name.map lower ∈ readNames) :
    getResponseHeader name (own ++ headers) = getResponseHeader name own := by
  have hnone : headers.filter (fun x => x.1.map lower == name.map lower) = [] := by
    refine List.filter_eq_nil_iff.mpr fun x hx heq => hunread x hx ?_
    rw [beq_iff_eq.mp heq]
    exact hname
  rw [getResponseHeader, List.filter_append, hnone, List.append_nil]
  rfl

lemma getResponseHeader_okReply {body : Bytes} (hplain : Plain cfg)
    (hname : name.map lower ∈ readNames) :
    getResponseHeader name (Polling.okReply cfg env r x own body).headers =
      getResponseHeader name own :=
  getResponseHeader_append (unread_setHeaders hplain) hname

/-- The page understands a reply without a message. -/
lemma read_of_silent (hplain : Plain cfg) (hrep : Server.Silent cfg i rep) :
    read rep = .nothing ∧ succeeded rep = true := by
  obtain ⟨r, x, own, rfl, hown⟩ := hrep
  refine ⟨?_, rfl⟩
  rw [read, getResponseHeader_okReply hplain (by decide)]
  apply if_pos
  rcases hown with rfl | rfl <;> rfl

variable (env r x) in
/-- The page understands a reply with one message. -/
lemma read_messageReply (hplain : Plain cfg) (hformat : c.curFormat = .single) :
    read (Polling.messageReply cfg env r x c) =
        .message (some (Logging.decimal c.firstIndex)) (c.queue.head?.getD []) ∧
      succeeded (Polling.messageReply cfg env r x c) = true := by
  rw [Polling.messageReply, hformat]
  refine ⟨?_, rfl⟩
  generalize hown : [Polling.text "X-Messages" "1", Polling.text "X-Format" "single",
    Polling.int "X-Message-ID" c.firstIndex] = own
  have hcount : getResponseHeader (str "X-Messages") own = some (str "1") := by
    rw [← hown]
    rfl
  have hsingle : getResponseHeader (str "X-Format") own = some (str "single") := by
    rw [← hown]
    rfl
  have hid : getResponseHeader (str "X-Message-ID") own =
      some ((str ", ").intercalate [Logging.decimal c.firstIndex]) := by
    rw [← hown]
    rfl
  rw [List.intercalate_singleton] at hid
  rw [read, getResponseHeader_okReply hplain (by decide),
    getResponseHeader_okReply hplain (by decide),
    getResponseHeader_okReply hplain (by decide), hcount, hsingle, hid, if_neg (by decide),
    if_neg (by decide)]
  rfl

/-! ### The request for a connection -/

end Page

namespace Server

variable {cfg : Config} {i : Input} {s s' : Server} {route : RouteId} {method body date : Bytes}
  {origin : Option Bytes} {args : CometArgs}

/-- A connection has been opened for a request. -/
structure Opens (cfg : Config) (s : Server) (r : ReqId) (s' : Server) : Prop where
  live : s'.Live s.next
  type : (s'.info s.next).type = .comet
  format : (s'.polling.comet s.next).curFormat = .single
  nobody : (s'.polling.comet s.next).curRequest = none
  next : s'.next = s.next + 1
  reply : ∃ rep, (s'.polling.request r).replies = [rep] ∧ rep.status = str "200 OK" ∧
    rep.body = publicUid cfg (s'.info s.next).uid

/-- No connection has been opened for a request, which has no response. -/
structure Refuses (s : Server) (r : ReqId) (s' : Server) : Prop where
  dead : ¬ s'.Live s.next
  replies : (s'.polling.request r).replies = []

variable {r : ReqId} {rc : Int}

/-- `comet_connect` for a request that has just arrived. -/
lemma opens_of_cometConnect (hs : s.Core cfg) (hfresh : (s.polling.request r).replies = [])
    (hok : cometConnect cfg i.env r s = .ok (rc, s')) : Opens cfg s r s' ∨ Refuses s r s' := by
  obtain ⟨res, s₁, heq, -, hstarted⟩ := hybiStart_ok i.env hs (s.polling.request r).route .comet
  rw [cometConnect, heq, ok_bind] at hok
  have hdead : ¬ s.Live s.next := fun hl => absurd (hs.lt_next_of_live hl) (Nat.lt_irrefl _)
  cases hstarted with
  | failed =>
    cases hok
    exact Or.inr ⟨hdead, hfresh⟩
  | refused hlive _ _ _ _ hpolling =>
    cases hok
    exact Or.inr ⟨mt (hlive _).mp hdead, by rw [hpolling, hfresh]⟩
  | started _ hlive hnext _ _ _ htype _ hpolling =>
    cases hok
    have hreq : ((s₁.polling.openComet (cfg.route (s.polling.request r).route) s.next).request
        r).replies = [] := by
      rw [Polling.openComet, hpolling]
      exact hfresh
    have hcomet : ∀ conf, ((s₁.polling.openComet conf s.next).comet s.next).curFormat = .single ∧
        ((s₁.polling.openComet conf s.next).comet s.next).curRequest = none := fun conf => by
      rw [Polling.openComet, Polling.setComet_comet_self]
      exact ⟨rfl, rfl⟩
    refine Or.inl ⟨(hlive _).mpr (Or.inr rfl), htype, (hcomet _).1, (hcomet _).2, hnext,
      Polling.okReply cfg i.env r (s.polling.request r) [] (publicUid cfg (s₁.info s.next).uid),
      ?_, rfl, rfl⟩
    refine (congrArg Request.replies (Function.update_self _ _ _)).trans ?_
    rw [hreq]
    rfl

/-- A request for a connection opens one and is told its id, or it opens none and is not replied
to. -/
lemma opens_of_step (hs : s.Core cfg)
    (hi : i.event = .cometRequest route method body origin date (some args))
    (haction : args.action = .connect) (hstep : step cfg i s = .ok s') :
    Opens cfg s s.polling.next s' ∨ Refuses s s.polling.next s' := by
  have hcore := hs.switched s.backend.paused i.env.outcomes i.env.memory
  rw [step, handle, hi] at hstep
  obtain ⟨⟨rc, s₂⟩, hp, hret⟩ := bind_eq_ok.mp hstep
  cases hret
  have hnew := newRequest_request (s := s.expecting i.env) route method body origin date
  have hcore₁ : Core cfg ((s.expecting i.env).newRequest route method body origin date).2 :=
    hcore.withPolling _
  have hnext : ((s.expecting i.env).newRequest route method body origin date).2.next =
      s.next := rfl
  change cometRequest cfg i.env s.polling.next (some args)
    ((s.expecting i.env).newRequest route method body origin date).2 = .ok (rc, s') at hp
  have hdead : ¬ ((s.expecting i.env).newRequest route method body origin date).2.Live s.next :=
    fun hl => absurd (hcore₁.lt_next_of_live hl) (Nat.lt_irrefl _)
  generalize ((s.expecting i.env).newRequest route method body origin date).2 = s₁
    at hp hnew hcore₁ hnext hdead
  have hnone : (s₁.polling.request s.polling.next).replies = [] := congrArg Request.replies hnew
  have hconnect (hok : cometConnect cfg i.env s.polling.next s₁ = .ok (rc, s')) :
      Opens cfg s s.polling.next s' ∨ Refuses s s.polling.next s' := by
    rcases opens_of_cometConnect hcore₁ hnone hok with
      ⟨hlive, htype, hformat, hnobody, hone, hreply⟩ |
      ⟨hdead, hnoReply⟩
    · rw [hnext] at hlive htype hformat hnobody hone hreply
      exact Or.inl ⟨hlive, htype, hformat, hnobody, hone, hreply⟩
    · rw [hnext] at hdead
      exact Or.inr ⟨hdead, hnoReply⟩
  have hrefused (hok : (Except.ok (-1, s₁) : Except Fault (Int × Server)) = .ok (rc, s')) :
      Opens cfg s s.polling.next s' ∨ Refuses s s.polling.next s' := by
    cases hok
    exact Or.inr ⟨hdead, hnone⟩
  rw [cometRequest] at hp
  simp only [if_pos haction] at hp
  split at hp
  · split_ifs at hp
    · exact hconnect hp
    · exact hrefused hp
  · exact hconnect hp

end Server

end Zerogw
