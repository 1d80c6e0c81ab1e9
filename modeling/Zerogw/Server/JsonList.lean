import Zerogw.Library.Json
import Zerogw.Server.Acknowledge

/-!
# Lists of messages

A `jsonlist` reply as its reader sees it. `send_later` copies the messages into the reply: a message
behind the prefix `ZEROGW:` between quotes, every other one as it is.
-/

namespace Zerogw

namespace Polling

open Json Server

variable {cfg : Config} {env : Env} {conf : RouteConf} {c : Comet} {h : HybiId} {r : ReqId}
  {P P' : Polling} {m : Bytes} {ms : List Bytes} {v : Value} {vs : List Value} {limit : Int}

/-- The encoding of a text. -/
def utf8 (cs : List Char) : Bytes := cs.flatMap String.utf8EncodeChar

/-- The message is put between quotes. -/
def IsQuoted (m : Bytes) : Prop := 7 < m.length ∧ m.take 7 = str "ZEROGW:"

instance (m : Bytes) : Decidable (IsQuoted m) := inferInstanceAs (Decidable (_ ∧ _))

/-- What a message means to the reader of a list. -/
inductive IsMessage : Bytes → Value → Prop
  | json {cs : List Char} {v : Value} (h : Derives .text cs v)
      (hbare : (utf8 cs).take 7 ≠ str "ZEROGW:") : IsMessage (utf8 cs) v
  | quoted {cs : List Char} (h : IsQuoted (utf8 cs)) :
      IsMessage (utf8 cs) (Value.string (cs.flatMap units))

/-- The reply is an array of as many messages as it says, the first ones of the queue. -/
def ListsMessages (queue : List Bytes) (rep : Reply) : Prop :=
  ∃ cs vs, rep.body = utf8 cs ∧ Derives .text cs (Value.array vs) ∧
    rep.headers.head? = some (int "X-Messages" vs.length) ∧
    List.Forall₂ IsMessage (queue.take vs.length) vs

/-- No character of the message has to be escaped in a string. -/
def NeedsNoEscape (m : Bytes) : Prop := ∃ cs, m = utf8 cs ∧ ∀ c ∈ cs, Unescaped c

/-! ### Encoded texts -/

lemma utf8_injective : Function.Injective utf8 := by
  intro cs cs' h
  have hbytes : cs.utf8Encode = cs'.utf8Encode := congrArg List.toByteArray h
  have hdecode := congrArg ByteArray.utf8Decode? hbytes
  rw [List.utf8Decode?_utf8Encode, List.utf8Decode?_utf8Encode] at hdecode
  exact List.toArray_inj (Option.some.inj hdecode)

lemma utf8_append (cs cs' : List Char) : utf8 (cs ++ cs') = utf8 cs ++ utf8 cs' :=
  List.flatMap_append

lemma utf8_quote (cs : List Char) : utf8 (quote cs) = str "\"" ++ utf8 cs ++ str "\"" := by
  show utf8 (['"'] ++ (cs ++ ['"'])) = _
  rw [utf8_append, utf8_append, ← List.append_assoc]
  rfl

lemma utf8_intercalate (ts : List (List Char)) :
    utf8 ([','].intercalate ts) = (str ",").intercalate (ts.map utf8) := by
  induction ts with
  | nil => rfl
  | cons t ts ih =>
    cases ts with
    | nil => simp [List.intercalate]
    | cons t' ts =>
      have hlist : [','].intercalate (t :: t' :: ts)
          = t ++ ([','] ++ [','].intercalate (t' :: ts)) :=
        intercalate_cons (List.cons_ne_nil _ _)
      rw [hlist, utf8_append, utf8_append, ih]
      simp [List.intercalate, utf8]
      rfl

lemma utf8_array (ts : List (List Char)) :
    utf8 ('[' :: ([','].intercalate ts ++ [']'])) =
      str "[" ++ (str ",").intercalate (ts.map utf8) ++ str "]" := by
  show utf8 (['['] ++ ([','].intercalate ts ++ [']'])) = _
  rw [utf8_append, utf8_append, utf8_intercalate, ← List.append_assoc]
  rfl

/-! ### The messages of a list -/

lemma jsonItem_of_isQuoted (hm : IsQuoted m) : jsonItem m = str "\"" ++ m ++ str "\"" := by
  rw [jsonItem, if_pos]
  rw [Bool.and_eq_true, decide_eq_true_iff, beq_iff_eq]
  exact hm

lemma jsonItem_of_not_isQuoted (hm : ¬ IsQuoted m) : jsonItem m = m := by
  rw [jsonItem, if_neg]
  rw [Bool.and_eq_true, decide_eq_true_iff, beq_iff_eq]
  exact hm

/-- The text that stands in the list for a message. -/
lemma IsMessage.exists_item (hm : IsMessage m v) :
    ∃ t, jsonItem m = utf8 t ∧ Item t v ∧
      (Derives .text t v ↔ (IsQuoted m → NeedsNoEscape m)) := by
  cases hm with
  | @json cs _ h hbare =>
    have hquoted : ¬ IsQuoted (utf8 cs) := fun hm => hbare hm.2
    exact ⟨cs, jsonItem_of_not_isQuoted hquoted, .text h,
      iff_of_true h fun hm => absurd hm hquoted⟩
  | @quoted cs h =>
    refine ⟨quote cs, (jsonItem_of_isQuoted h).trans (utf8_quote cs).symm, .quoted cs, ?_⟩
    rw [derives_quote_iff]
    constructor
    · intro hcs _
      exact ⟨cs, rfl, hcs⟩
    · intro hm
      obtain ⟨cs', heq, hcs'⟩ := hm h
      rwa [utf8_injective heq]

lemma exists_items (h : List.Forall₂ IsMessage ms vs) :
    ∃ ts, ms.map jsonItem = ts.map utf8 ∧ List.Forall₂ Item ts vs ∧
      (List.Forall₂ (Derives .text) ts vs ↔ ∀ m ∈ ms, IsQuoted m → NeedsNoEscape m) := by
  induction h with
  | nil => exact ⟨[], rfl, .nil, iff_of_true .nil (List.forall_mem_nil _)⟩
  | cons hm _ ih =>
    obtain ⟨t, ht, hitem, hiff⟩ := hm.exists_item
    obtain ⟨ts, hts, hitems, hiffs⟩ := ih
    refine ⟨t :: ts, by rw [List.map_cons, List.map_cons, ht, hts], .cons hitem hitems, ?_⟩
    rw [List.forall₂_cons, List.forall_mem_cons, hiff, hiffs]

/-- The list is the array of the messages just if no quoted message has to be escaped. -/
lemma jsonList_eq_array_iff (h : List.Forall₂ IsMessage ms vs) :
    (∃ cs, jsonList ms = utf8 cs ∧ Derives .text cs (Value.array vs)) ↔
      ∀ m ∈ ms, IsQuoted m → NeedsNoEscape m := by
  obtain ⟨ts, hts, hitems, hiff⟩ := exists_items h
  have hlist : jsonList ms = utf8 ('[' :: ([','].intercalate ts ++ [']'])) := by
    rw [utf8_array, jsonList, hts]
  rw [← hiff, ← array_iff hitems, hlist]
  constructor
  · rintro ⟨cs, heq, hcs⟩
    rwa [utf8_injective heq]
  · intro harray
    exact ⟨_, rfl, harray⟩

lemma exists_values (h : ∀ m ∈ ms, ∃ v, IsMessage m v) : ∃ vs, List.Forall₂ IsMessage ms vs := by
  induction ms with
  | nil => exact ⟨[], .nil⟩
  | cons m ms ih =>
    obtain ⟨⟨v, hv⟩, hms⟩ := List.forall_mem_cons.mp h
    obtain ⟨vs, hvs⟩ := ih hms
    exact ⟨v :: vs, .cons hv hvs⟩

/-! ### Replies -/

/-- How many messages `send_later` puts into the list, for a limit that a request can set. -/
lemma take_jsonlistCount (c : Comet) : c.queue.take (jsonlistCount c).toNat
    = c.queue.take c.curLimit.toNat := by
  rw [jsonlistCount]
  split_ifs with hlimit
  · rfl
  · have hle : c.queue.length ≤ c.curLimit.toNat := by omega
    rw [Int.toNat_natCast, List.take_length, List.take_of_length_le hle]

lemma jsonlistCount_nonneg (hlimit : 0 ≤ c.curLimit) : 0 ≤ jsonlistCount c := by
  rw [jsonlistCount]
  split_ifs
  · exact hlimit
  · exact Int.natCast_nonneg _

lemma limitFor_nonneg : 0 ≤ limitFor conf limit := by
  rw [limitFor]
  split_ifs with hlimit
  · exact hlimit.1
  · exact Int.natCast_nonneg _

variable (cfg env r) in
/-- The reply lists its messages just if the body is the array of their values. -/
lemma listsMessages_iff (q : Request) (hformat : c.curFormat = .jsonlist)
    (hlimit : 0 ≤ c.curLimit) :
    ListsMessages c.queue (messageReply cfg env r q c) ↔
      ∃ vs, List.Forall₂ IsMessage (c.queue.take c.curLimit.toNat) vs ∧
        ∃ cs, jsonList (c.queue.take c.curLimit.toNat) = utf8 cs ∧
          Derives .text cs (Value.array vs) := by
  have hnum := Int.toNat_of_nonneg (jsonlistCount_nonneg hlimit)
  rw [messageReply, hformat]
  constructor
  · rintro ⟨cs, vs, hbody, hcs, hhead, hvs⟩
    have hcount : jsonlistCount c = vs.length := by
      have hvalue := congrArg Prod.snd (Option.some.inj hhead)
      exact HeaderValue.int.inj hvalue
    have hbody : jsonList (c.queue.take (jsonlistCount c).toNat) = utf8 cs := hbody
    rw [take_jsonlistCount] at hbody
    rw [← Int.toNat_natCast vs.length, ← hcount, take_jsonlistCount] at hvs
    exact ⟨vs, hvs, cs, hbody, hcs⟩
  · rintro ⟨vs, hvs, cs, hbody, hcs⟩
    rw [← take_jsonlistCount] at hvs hbody
    have hcount : jsonlistCount c = vs.length := by
      have hlength := hvs.length_eq
      rw [List.length_take] at hlength
      have hle : jsonlistCount c ≤ c.queue.length := by
        rw [jsonlistCount]
        split_ifs with hmore
        · exact hmore.le
        · exact le_rfl
      omega
    refine ⟨cs, vs, hbody, hcs, ?_, ?_⟩
    · show some (int "X-Messages" (jsonlistCount c)) = _
      rw [hcount]
    · rwa [← Int.toNat_natCast vs.length, ← hcount]

/-- What `send_later` replies to the parked request of an open connection. -/
lemma sendLater_lists_iff (hcur : (P.comet h).curRequest = some r) (hq : (P.comet h).queue ≠ [])
    (hopen : (P.comet h).closed = false) (hformat : (P.comet h).curFormat = .jsonlist)
    (hlimit : (P.comet h).curLimit = limitFor conf limit) :
    (∃ P' rep, P.sendLater cfg env h = .ok P' ∧
        (P'.request r).replies = (P.request r).replies ++ [rep] ∧
        ListsMessages (P.comet h).queue rep) ↔
      ∃ vs, List.Forall₂ IsMessage ((P.comet h).queue.take (P.comet h).curLimit.toNat) vs ∧
        ∃ cs, jsonList ((P.comet h).queue.take (P.comet h).curLimit.toNat) = utf8 cs ∧
          Derives .text cs (Value.array vs) := by
  have hnonneg : 0 ≤ (P.comet h).curLimit := hlimit ▸ limitFor_nonneg
  obtain ⟨P', hsend⟩ : ∃ P', P.sendLater cfg env h = .ok P' := by
    simp [sendLater, hcur, hq, hopen]
  obtain ⟨-, -, hreplies⟩ := sendLater_reply hcur hq hsend
  rw [← listsMessages_iff cfg env r (P.request r) hformat hnonneg]
  constructor
  · rintro ⟨P'', rep, hsend', hreplies', hlists⟩
    cases hsend.symm.trans hsend'
    have hrep := List.append_cancel_left (hreplies.symm.trans hreplies')
    rwa [(List.cons.inj hrep).1]
  · intro hlists
    exact ⟨P', _, hsend, hreplies, hlists⟩

/-- For every queue of texts and quoted messages and every limit that a request asks for, the reply
lists the messages if and only if no quoted message in it has to be escaped. Lengths are unbounded
here, while `send_later` keeps those of the reply and of a message in an `int`. -/
theorem lists_messages_iff (hcur : (P.comet h).curRequest = some r) (hq : (P.comet h).queue ≠ [])
    (hopen : (P.comet h).closed = false) (hformat : (P.comet h).curFormat = .jsonlist)
    (hlimit : (P.comet h).curLimit = limitFor conf limit)
    (hmessages : ∀ m ∈ (P.comet h).queue, ∃ v, IsMessage m v) :
    (∃ P' rep, P.sendLater cfg env h = .ok P' ∧
        (P'.request r).replies = (P.request r).replies ++ [rep] ∧
        ListsMessages (P.comet h).queue rep) ↔
      ∀ m ∈ (P.comet h).queue.take (P.comet h).curLimit.toNat, IsQuoted m → NeedsNoEscape m := by
  rw [sendLater_lists_iff hcur hq hopen hformat hlimit]
  constructor
  · rintro ⟨vs, hvs, harray⟩
    exact (jsonList_eq_array_iff hvs).mp harray
  · intro hplain
    obtain ⟨vs, hvs⟩ := exists_values fun m hm => hmessages m (List.mem_of_mem_take hm)
    exact ⟨vs, hvs, (jsonList_eq_array_iff hvs).mpr hplain⟩

/-- A request that waits for a list of up to two messages. -/
def waiting (queue : List Bytes) : Polling :=
  init.setComet 0 ⟨some 0, .jsonlist, 2, 1, true, false, queue, 2, false⟩

lemma isMessage_quoted {m : Bytes} (cs : List Char) (hm : utf8 cs = m) (hquoted : IsQuoted m) :
    ∃ v, IsMessage m v := by
  subst hm
  exact ⟨_, .quoted hquoted⟩

/-- A client gets an empty list and a word. -/
theorem lists_messages_iff_word : ∃ P' rep,
    (waiting [str "[]", str "ZEROGW:echo"]).sendLater smallConfig stalledEnv 0 = .ok P' ∧
      (P'.request 0).replies = [rep] ∧ ListsMessages [str "[]", str "ZEROGW:echo"] rep := by
  have hmessages : ∀ m ∈ [str "[]", str "ZEROGW:echo"], ∃ v, IsMessage m v := by
    rw [List.forall_mem_cons, List.forall_mem_singleton]
    refine ⟨⟨Value.array [], ?_⟩, isMessage_quoted "ZEROGW:echo".toList (by decide) (by decide)⟩
    have hempty : Derives .text "[]".toList (Value.array []) := by
      have htext := Derives.text .nil (.emptyArray .nil) .nil
      rwa [List.append_nil] at htext
    exact IsMessage.json hempty (by decide)
  have hlimit : ((waiting [str "[]", str "ZEROGW:echo"]).comet 0).curLimit
      = limitFor smallRoute 4 := by
    decide
  refine (lists_messages_iff rfl (List.cons_ne_nil _ _) rfl rfl hlimit hmessages).mpr ?_
  intro m hm hquoted
  rcases List.mem_pair.mp hm with rfl | rfl
  · exact absurd hquoted (by decide)
  · have hall : "ZEROGW:echo".toList.all fun c => decide (Unescaped c) := by decide
    exact ⟨"ZEROGW:echo".toList, by decide,
      fun c hc => of_decide_eq_true (List.all_eq_true.mp hall c hc)⟩

/-- A quote in a quoted message ends the string, and what follows it is no element. -/
theorem quote_breaks_list : ¬ ∀ (cfg : Config) (env : Env) (conf : RouteConf) (limit : Int)
    (P : Polling) (h : HybiId) (r : ReqId), (P.comet h).curRequest = some r →
      (P.comet h).queue ≠ [] → (P.comet h).closed = false → (P.comet h).curFormat = .jsonlist →
      (P.comet h).curLimit = limitFor conf limit →
      (∀ m ∈ (P.comet h).queue, ∃ v, IsMessage m v) →
      ∃ P' rep, P.sendLater cfg env h = .ok P' ∧
        (P'.request r).replies = (P.request r).replies ++ [rep] ∧
        ListsMessages (P.comet h).queue rep := by
  intro hall
  have hmessages : ∀ m ∈ [str "ZEROGW:\""], ∃ v, IsMessage m v := by
    rw [List.forall_mem_singleton]
    exact isMessage_quoted "ZEROGW:\"".toList (by decide) (by decide)
  have hlists := hall smallConfig stalledEnv smallRoute 4 (waiting [str "ZEROGW:\""]) 0 0 rfl
    (List.cons_ne_nil _ _) rfl rfl (by decide) hmessages
  have hlimit : ((waiting [str "ZEROGW:\""]).comet 0).curLimit = limitFor smallRoute 4 := by
    decide
  obtain ⟨vs, hvs, harray⟩ :=
    (sendLater_lists_iff rfl (List.cons_ne_nil _ _) rfl rfl hlimit).mp hlists
  obtain ⟨cs, hcs, hplain⟩ :=
    (jsonList_eq_array_iff hvs).mp harray (str "ZEROGW:\"") List.mem_cons_self (by decide)
  have hchars : utf8 "ZEROGW:\"".toList = utf8 cs := Eq.trans (by decide) hcs
  rw [← utf8_injective hchars] at hplain
  exact (hplain '"' (by decide)).2.1 rfl

end Polling

end Zerogw
