import Zerogw.Library.Log
import Zerogw.Server.Acknowledge

/-!
# The numbers of long-poll messages

The messages of a connection form a log: `comet_send` adds to it, and the acks of its requests
acknowledge what has been added. As long as its numbers fit into an `int`, the queue holds the
entries that wait, the first of which has the number `first_index`.
-/

namespace Zerogw

open Execution

/-- The comet has the messages of the log that wait. -/
structure Comet.Follows (c : Comet) (L : Log Bytes) : Prop where
  firstIndex : c.firstIndex = L.acked + 1
  queue : c.queue = L.waiting

namespace Polling

variable {cfg : Config} {env : Env} {P : Polling} {h : HybiId} {r : ReqId} {q : Request} {c : Comet}
  {L : Log Bytes} {k : Nat}

/-- `move_queue` takes the messages up to a number off the queue if the last of them waits, does
nothing for one that has been acknowledged, and fails if there is no such message. -/
lemma moveQueue_eq (hc : (P.comet h).Follows L)
    (hfew : L.entries.length < 2 ^ 31 - 1) (hk : k < 2 ^ 64) :
    P.moveQueue h k = .ok (if k ≤ L.acked then (0, P)
      else if k ≤ L.entries.length then
        (0, P.setComet h { P.comet h with queue := L.entries.drop k, firstIndex := k + 1 })
      else (-1, P)) := by
  have hle := L.acked_le
  have hfirst : toSize (L.acked + 1) = L.acked + 1 := by
    rw [toSize]
    omega
  rw [moveQueue]
  dsimp only
  rw [hc.firstIndex, hc.queue, hfirst, L.length_waiting]
  rcases Nat.lt_or_ge L.acked k with hlow | hlow
  · have hamount : toSize (k - (L.acked + 1) + 1) = k - L.acked := by
      rw [toSize]
      omega
    rw [if_neg (by omega), hamount, if_neg (Nat.not_le.mpr hlow)]
    rcases Nat.lt_or_ge L.entries.length k with hhigh | hhigh
    · rw [if_pos (by omega), if_neg (Nat.not_le.mpr hhigh)]
    · have hnext : toInt (L.acked + 1 + (k - L.acked : Nat)) = k + 1 := by
        rw [toInt_of_isInt ⟨by omega, by omega⟩]
        omega
      rw [if_neg (by omega), if_neg (by omega), if_pos hhigh, hnext, Log.waiting, List.drop_drop,
        Nat.add_sub_cancel' hlow.le]
  · rw [if_pos (by omega), if_pos hlow]

/-- What `move_queue` leaves follows the log after the acknowledgement. -/
lemma moveQueue_follows {P' : Polling} {rc : Int} (hc : (P.comet h).Follows L)
    (hfew : L.entries.length < 2 ^ 31 - 1) (hk : k < 2 ^ 64)
    (hmove : P.moveQueue h k = .ok (rc, P')) : (P'.comet h).Follows (L.ack k) := by
  rw [moveQueue_eq hc hfew hk] at hmove
  rcases Nat.lt_or_ge L.acked k with hlow | hlow
  · rw [if_neg (Nat.not_le.mpr hlow)] at hmove
    rcases Nat.lt_or_ge L.entries.length k with hhigh | hhigh
    · rw [if_neg (Nat.not_le.mpr hhigh)] at hmove
      cases hmove
      rw [Log.ack_of_lt hhigh]
      exact hc
    · rw [if_pos hhigh] at hmove
      cases hmove
      have hacked := Log.acked_ack hlow.le hhigh
      rw [setComet_comet_self]
      refine ⟨by rw [hacked], ?_⟩
      rw [Log.waiting, hacked, Log.entries_ack]
  · rw [if_pos hlow] at hmove
    cases hmove
    rw [Log.ack_of_le hlow]
    exact hc

/-- A `single` reply carries the first message that waits, with its number. -/
lemma messageReply_single (hc : c.Follows L) (hq : c.queue ≠ []) (hformat : c.curFormat = .single) :
    (messageReply cfg env r q c).headers.lookup (str "X-Message-ID")
        = some (.int ((L.acked + 1 : Nat) : Int)) ∧
      L.entries[L.acked]? = some (messageReply cfg env r q c).body := by
  have hhead : c.queue.head? = L.entries[L.acked]? := by
    rw [List.head?_eq_getElem?, hc.queue, Log.getElem?_waiting, Nat.add_zero]
  rw [messageReply, hformat]
  constructor
  · have hid : ((L.acked + 1 : Nat) : Int) = c.firstIndex := by
      rw [hc.firstIndex]
      rfl
    rw [hid]
    rfl
  · obtain ⟨m, ms, hms⟩ := List.exists_cons_of_ne_nil hq
    rw [← hhead, hms]
    rfl

/-- A `jsonlist` reply carries as many of the messages that wait as it says, from the first one
on. -/
lemma messageReply_jsonlist (hc : c.Follows L) (hlimit : 1 ≤ c.curLimit) (hq : c.queue ≠ [])
    (hformat : c.curFormat = .jsonlist) :
    ∃ n : Nat, 1 ≤ n ∧ L.acked + n ≤ L.entries.length ∧
      (messageReply cfg env r q c).headers.lookup (str "X-Messages") = some (.int n) ∧
      (messageReply cfg env r q c).body = jsonList ((L.entries.drop L.acked).take n) := by
  have hpos := List.length_pos_iff.mpr hq
  have hlen : c.queue.length = L.entries.length - L.acked := by rw [hc.queue, L.length_waiting]
  have hle := L.acked_le
  have hcount : ((jsonlistCount c).toNat : Int) = jsonlistCount c := by
    rw [jsonlistCount]
    split_ifs <;> omega
  refine ⟨(jsonlistCount c).toNat, ?_, ?_, ?_, ?_⟩
  · rw [jsonlistCount]
    split_ifs <;> omega
  · rw [jsonlistCount]
    split_ifs <;> omega
  · rw [messageReply, hformat, hcount]
    rfl
  · rw [messageReply, hformat]
    dsimp only
    rw [hc.queue]
    rfl

end Polling

namespace Server

variable {cfg : Config} {env : Env} {s s' s₀ : Server} {h g : HybiId} {r : ReqId} {m : Bytes}
  {allow : Mark → Prop} {w w' : Option HybiId} {P : Polling} {i : Input}

/-! ### The log of a connection -/

/-- The messages for a connection. -/
def messagesFor (h : HybiId) (sends : List (HybiId × Bytes)) : List Bytes :=
  (sends.filter fun x => x.1 = h).map Prod.snd

/-- The ack of a long-poll request that is carried out on connection `h`. -/
def ackOf (i : Input) (s : Server) (h : HybiId) : Option Nat :=
  match i.event with
  | .cometRequest _ method body _ _ (some args) =>
    if args.action ≠ .connect ∧ method ≠ str "OPTIONS" ∧ (cometAction args body).isSome ∧
        s.Live h ∧ (s.info h).uid = args.uid ∧ (s.info h).type = .comet then some args.lastMessage
    else none
  | _ => none

/-- The log of every connection after an event: first the ack, then the messages handed to it. -/
def logStep (i : Input) (s s' : Server) (L : HybiId → Log Bytes) : HybiId → Log Bytes := fun h =>
  let acked := match ackOf i s h with
    | some k => (L h).ack k
    | none => L h
  acked.append (messagesFor h (s'.sends.drop s.sends.length))

lemma ackOf_eq_some {k : Nat} : ackOf i s h = some k ↔ ∃ route, Names i s route h k := by
  rw [ackOf]
  constructor
  · intro hk
    split at hk
    · next route method body origin date args hi =>
      split_ifs at hk with hreach
      cases hk
      obtain ⟨haction, hmethod, hknown, hl, huid, ht⟩ := hreach
      exact ⟨route, method, body, origin, date, args, hi, rfl, haction, hmethod, hknown, hl, huid,
        ht⟩
    · cases hk
  · rintro ⟨route, method, body, origin, date, args, hi, rfl, hreach⟩
    rw [hi]
    exact if_pos ⟨hreach.action, hreach.method, hreach.known, hreach.live, hreach.uid, hreach.type⟩

lemma Names.lt {route : RouteId} {k : Nat} (hn : Names i s route h k) : k < 2 ^ 64 := by
  obtain ⟨method, body, origin, date, args, -, rfl, -⟩ := hn
  exact args.lastMessage_lt

/-! ### Moves -/

lemma messagesFor_append (l l' : List (HybiId × Bytes)) :
    messagesFor h (l ++ l') = messagesFor h l ++ messagesFor h l' := by
  rw [messagesFor, List.filter_append, List.map_append]
  rfl

lemma messagesFor_self : messagesFor h [(h, m)] = [m] := by simp [messagesFor]

lemma messagesFor_of_ne (hg : g ≠ h) : messagesFor g [(h, m)] = [] := by
  simp [messagesFor, Ne.symm hg]

lemma messagesFor_eq_nil {l : List (HybiId × Bytes)} (hl : ∀ x ∈ l, x.1 ≠ h) :
    messagesFor h l = [] := by
  rw [messagesFor, List.map_eq_nil_iff, List.filter_eq_nil_iff]
  simpa using hl

/-- Nothing but an ack takes messages off a queue. -/
lemma PollMove.queue_eq (hm : PollMove cfg allow s w P w') (g : HybiId) :
    (P.comet g).queue = (s.polling.comet g).queue ∧
        (P.comet g).firstIndex = (s.polling.comet g).firstIndex ∨
      ∃ k, allow (.ack g k) ∧ s.Live g ∧ s.polling.moveQueue g k = .ok (0, P) := by
  have hset : ∀ {h : HybiId} {c : Comet}, c.queue = (s.polling.comet h).queue →
      c.firstIndex = (s.polling.comet h).firstIndex →
      ((s.polling.setComet h c).comet g).queue = (s.polling.comet g).queue ∧
        ((s.polling.setComet h c).comet g).firstIndex = (s.polling.comet g).firstIndex :=
    fun hq hf => Polling.forall_setComet (p := fun g c => c.queue = (s.polling.comet g).queue ∧
      c.firstIndex = (s.polling.comet g).firstIndex) (fun _ => ⟨rfl, rfl⟩) ⟨hq, hf⟩ g
  cases hm with
  | @acked h k n first ha hack hl ht hfirst hmove =>
    by_cases hg : g = h
    · subst hg
      exact Or.inr ⟨k, hack, hl, hmove⟩
    · rw [Polling.setComet_comet_of_ne hg]
      exact Or.inl ⟨rfl, rfl⟩
  | arrived => exact Or.inl ⟨rfl, rfl⟩
  | replied => exact Or.inl ⟨rfl, rfl⟩
  | dismissed => exact Or.inl (hset rfl rfl)
  | parked => exact Or.inl (hset rfl rfl)
  | woken => exact Or.inl (hset rfl rfl)
  | wokenInVain => exact Or.inl (hset rfl rfl)
  | served => exact Or.inl (hset rfl rfl)
  | aborted => exact Or.inl (hset rfl rfl)
  | finished => exact Or.inl ⟨rfl, rfl⟩
  | released => exact Or.inl ⟨rfl, rfl⟩

/-- Messages are for connections that have been started, and every running comet follows the log of
what has been handed to it. -/
structure Logged (s : Server) : Prop where
  born : ∀ x ∈ s.sends, x.1 < s.next
  follows : ∀ h, s.Running h → (s.info h).type = .comet →
    (messagesFor h s.sends).length < 2 ^ 31 - 1 →
    ∃ L : Log Bytes, L.entries = messagesFor h s.sends ∧ (s.polling.comet h).Follows L

lemma Logged.init (cfg : Config) : (init cfg).Logged := by
  refine ⟨fun x hx => by simp [Server.init] at hx, fun h hr => ?_⟩
  exact absurd ((Core.init cfg).lt_next hr) (Nat.not_lt_zero _)

namespace Logged

variable (hI : s.Logged)

include hI

/-- Some queues change that follow a log before and after. -/
lemma withPolling (hP : ∀ h, s.Running h → (s.info h).type = .comet →
      (messagesFor h s.sends).length < 2 ^ 31 - 1 → ∀ L : Log Bytes,
      L.entries = messagesFor h s.sends → (s.polling.comet h).Follows L →
      ∃ L' : Log Bytes, L'.entries = L.entries ∧ (P.comet h).Follows L') :
    Logged { s with polling := P } := by
  refine ⟨hI.born, fun h hl ht hfew => ?_⟩
  obtain ⟨L, hL, hfollows⟩ := hI.follows h hl ht hfew
  obtain ⟨L', hL', hfollows'⟩ := hP h hl ht hfew L hL hfollows
  exact ⟨L', hL'.trans hL, hfollows'⟩

/-- No queue changes. -/
lemma same (hrunning : ∀ g, s'.Running g → s.Running g)
    (htype : ∀ g, (s'.info g).type = (s.info g).type)
    (hnext : s'.next = s.next) (hpolling : s'.polling.comet = s.polling.comet)
    (hsends : s'.sends = s.sends) : s'.Logged := by
  refine ⟨?_, fun h hl ht hfew => ?_⟩
  · rw [hsends, hnext]
    exact hI.born
  · rw [htype] at ht
    rw [hsends] at hfew ⊢
    rw [hpolling]
    exact hI.follows h (hrunning h hl) ht hfew

/-- A message is handed to a running connection; if that is a comet, it follows. -/
lemma handed (hh : h < s.next) (hfollows : (s.info h).type = .comet → ∀ L : Log Bytes,
      (s.polling.comet h).Follows L → (P.comet h).Follows (L.append [m]))
    (hothers : ∀ g, g ≠ h → P.comet g = s.polling.comet g) (hr : s.Running h) :
    Logged { s with sends := s.sends ++ [(h, m)], polling := P } := by
  refine ⟨fun x hx => ?_, fun g hg ht hfew => ?_⟩
  · rcases List.mem_append.mp hx with hx | hx
    · exact hI.born x hx
    · obtain rfl := List.mem_singleton.mp hx
      exact hh
  · dsimp only at ht hfew ⊢
    rw [messagesFor_append] at hfew ⊢
    have hfew' : (messagesFor g s.sends).length < 2 ^ 31 - 1 := by
      rw [List.length_append] at hfew
      exact lt_of_le_of_lt (Nat.le_add_right _ _) hfew
    by_cases hgh : g = h
    · subst hgh
      obtain ⟨L, hL, hL'⟩ := hI.follows g hr ht hfew'
      refine ⟨L.append [m], ?_, hfollows ht L hL'⟩
      rw [Log.entries_append, hL, messagesFor_self]
    · rw [messagesFor_of_ne hgh, List.append_nil, hothers g hgh]
      exact hI.follows g hg ht hfew'

end Logged

lemma PollMove.logged (hbound : ∀ h k, allow (.ack h k) → k < 2 ^ 64)
    (hm : PollMove cfg allow s w P w') (hI : s.Logged) : Logged { s with polling := P } := by
  refine hI.withPolling fun h hl ht hfew L hL hfollows => ?_
  rcases hm.queue_eq h with ⟨hqueue, hfirst⟩ | ⟨k, hack, -, hmove⟩
  · exact ⟨L, rfl, hfirst.trans hfollows.firstIndex, hqueue.trans hfollows.queue⟩
  · exact ⟨L.ack k, rfl, Polling.moveQueue_follows hfollows (hL ▸ hfew) (hbound h k hack) hmove⟩

lemma Move.logged (hbound : ∀ h k, allow (.ack h k) → k < 2 ^ 64) (hs : s.Sound cfg)
    (hm : Move cfg env allow w s w' s') (hI : s.Logged) : s'.Logged := by
  cases hm with
  | polling hP => exact hP.logged hbound hI
  | other hact =>
    have hsame := hact.same
    cases hact with
    | told ha hr ht =>
      refine hI.handed (hs.core.lt_next hr) (fun hcomet => ?_) (fun _ _ => rfl) hr
      rw [ht] at hcomet
      cases hcomet
    | _ => exact hI.same (fun g => (hsame.running g).mp) hsame.type rfl rfl rfl
  | @pushed h m ha hr ht hroom =>
    refine hI.handed (hs.core.lt_next hr) (fun _ L hfollows => ?_)
      (fun g hg => Polling.setComet_comet_of_ne hg _) hr
    rw [Polling.push, Polling.setComet_comet_self]
    refine ⟨hfollows.firstIndex, ?_⟩
    rw [Log.waiting_append, ← hfollows.queue]
  | offered => exact hI.same (fun _ => id) (fun _ => rfl) rfl rfl rfl
  | @gone h P l _ ha hr hP hlog hst =>
    have hsends : s'.sends = l := hst.sends
    have hnext : s'.next = s.next := hst.next
    have hinfo : s'.info = s.info := hst.info
    have hpolling : s'.polling = P := hst.polling
    refine ⟨fun x hx => ?_, fun g hg ht hfew => ?_⟩
    · rw [hnext]
      rw [hsends] at hx
      rcases hlog with rfl | ⟨m, rfl⟩
      · exact hI.born x hx
      · rcases List.mem_append.mp hx with hx | hx
        · exact hI.born x hx
        · obtain rfl := List.mem_singleton.mp hx
          exact hs.lt_next_of_stop hr
    · obtain ⟨hlg, hgh⟩ := hst.running_iff.mp hg
      have hfor : messagesFor g s'.sends = messagesFor g s.sends := by
        rw [hsends]
        rcases hlog with rfl | ⟨m, rfl⟩
        · rfl
        · rw [messagesFor_append, messagesFor_of_ne hgh, List.append_nil]
      have hcomet : s'.polling.comet g = s.polling.comet g := by
        rw [hpolling]
        rcases hP with ⟨-, rfl⟩ | ⟨-, rfl⟩
        · rfl
        · exact Polling.shut_comet_of_ne hgh
      rw [hinfo] at ht
      rw [hfor] at hfew ⊢
      rw [hcomet]
      exact hI.follows g hlg ht hfew
  | @started route type s₁ P ha hst hP =>
    obtain _ | _ | ⟨-, -, hnext, hinfo, hstarted, hstops, htype, -, -, hsends⟩ := hst
    have hborn : ∀ x ∈ s₁.sends, x.1 < s.next := by
      rw [hsends]
      exact hI.born
    refine ⟨fun x hx => (hborn x hx).trans_le (hnext ▸ Nat.le_succ _), fun g hg ht hfew => ?_⟩
    dsimp only at ht hfew ⊢
    by_cases hgn : g = s.next
    · subst hgn
      rcases hP with ⟨rfl, -⟩ | ⟨-, rfl⟩
      · rw [htype] at ht
        cases ht
      · refine ⟨.empty, (messagesFor_eq_nil fun x hx => (hborn x hx).ne).symm, ?_, ?_⟩
        · rw [Polling.openComet, Polling.setComet_comet_self]
          rfl
        · rw [Polling.openComet, Polling.setComet_comet_self]
          rfl
    · have hcomet : P.comet g = s.polling.comet g := by
        rcases hP with ⟨-, rfl⟩ | ⟨-, rfl⟩
        · rfl
        · exact Polling.setComet_comet_of_ne hgn _
      rw [hinfo g hgn] at ht
      rw [hsends] at hfew ⊢
      rw [hcomet]
      change s₁.Running g at hg
      rw [Running, hstarted, hstops, Function.update_of_ne hgn] at hg
      exact hI.follows g hg ht hfew
  | unstarted ha hst =>
    obtain _ | ⟨-, hnext, hinfo, hstarted, hstops, hpolling, hsends⟩ := hst
    · exact ⟨hI.born, hI.follows⟩
    · refine ⟨fun x hx => ?_, fun g hg ht hfew => ?_⟩
      · rw [hsends] at hx
        exact (hI.born x hx).trans (hnext ▸ Nat.lt_succ_self _)
      · rw [Running, hstarted, hstops] at hg
        rw [hinfo g (hs.core.lt_next hg).ne] at ht
        rw [hsends] at hfew ⊢
        rw [hpolling]
        exact hI.follows g hg ht hfew
  | tables => exact hI.same (fun _ => id) (fun _ => rfl) rfl rfl rfl
  | settled => exact hI

/-- Connections and messages have come up since `s₀`. -/
structure Since (s₀ s : Server) : Prop where
  next : s₀.next ≤ s.next
  sends : s₀.sends <+: s.sends
  born : ∀ h, s.Running h → s₀.Running h ∨ s₀.next ≤ h
  type : ∀ h, h < s₀.next → (s.info h).type = (s₀.info h).type

lemma Since.refl : Since s s := ⟨le_rfl, List.prefix_rfl, fun _ => Or.inl, fun _ _ => rfl⟩

lemma Since.of_le (hI : Since s₀ s) (hnext : s.next ≤ s'.next) (hsends : s.sends <+: s'.sends)
    (hrunning : ∀ h, s'.Running h → s.Running h ∨ s.next ≤ h)
    (htype : ∀ h, h < s.next → (s'.info h).type = (s.info h).type) : Since s₀ s' := by
  refine ⟨hI.next.trans hnext, hI.sends.trans hsends, fun h hl => ?_, fun h hh => ?_⟩
  · rcases hrunning h hl with hl | hh
    · exact hI.born h hl
    · exact Or.inr (hI.next.trans hh)
  · exact (htype h (hh.trans_le hI.next)).trans (hI.type h hh)

lemma Move.since (hm : Move cfg env allow w s w' s') (hI : Since s₀ s) : Since s₀ s' := by
  cases hm with
  | polling => exact ⟨hI.next, hI.sends, hI.born, hI.type⟩
  | other hact =>
    refine hI.of_le hact.same.next.ge ?_ (fun h hl => Or.inl ((hact.same.running h).mp hl))
      fun h _ => hact.same.type h
    cases hact with
    | told => exact List.prefix_append _ _
    | _ => exact List.prefix_rfl
  | pushed => exact hI.of_le le_rfl (List.prefix_append _ _) (fun _ => Or.inl) fun _ _ => rfl
  | offered => exact ⟨hI.next, hI.sends, hI.born, hI.type⟩
  | gone ha hl hP hlog hst =>
    have hnext : s'.next = s.next := hst.next
    have hinfo : s'.info = s.info := hst.info
    refine hI.of_le hnext.ge ?_ (fun h hl => Or.inl (hst.running_iff.mp hl).1) fun h _ => by
      rw [hinfo]
    rw [hst.sends]
    rcases hlog with rfl | ⟨m, rfl⟩
    · exact List.prefix_rfl
    · exact List.prefix_append _ _
  | started ha hst hP =>
    obtain _ | _ | ⟨-, -, hnext, hinfo, hstarted, hstops, -, -, -, hsends⟩ := hst
    refine hI.of_le (hnext ▸ Nat.le_succ _) (hsends ▸ List.prefix_rfl) (fun h hl => ?_)
      fun h hh => by rw [hinfo h hh.ne]
    by_cases hh : h = s.next
    · exact Or.inr hh.ge
    · refine Or.inl ?_
      simp only [Running, hstarted, hstops, Function.update_of_ne hh] at hl
      exact hl
  | unstarted ha hst =>
    obtain _ | ⟨-, hnext, hinfo, hstarted, hstops, -, hsends⟩ := hst
    · exact ⟨hI.next, hI.sends, hI.born, hI.type⟩
    · refine hI.of_le (hnext ▸ Nat.le_succ _) (hsends ▸ List.prefix_rfl) (fun h hl => ?_)
        fun h hh => by rw [hinfo h hh.ne]
      rw [Running, hstarted, hstops] at hl
      exact Or.inl hl
  | tables => exact ⟨hI.next, hI.sends, hI.born, hI.type⟩
  | settled => exact hI

/-- The first number of a connection is that of `s₀`, or 1 if the connection is new. -/
def Steady (s₀ : Server) (h : HybiId) (s : Server) : Prop :=
  s.Running h → (s.info h).type = .comet →
    (s.polling.comet h).firstIndex = if s₀.Running h then (s₀.polling.comet h).firstIndex else 1

lemma Steady.refl : Steady s h s := fun hl _ => (if_pos hl).symm

/-- Without an ack, no number changes. -/
lemma Move.steady (hnack : ∀ k, ¬ allow (.ack h k)) (hs₀ : s₀.Core cfg) (hs : s.Core cfg)
    (hsince : Since s₀ s)
    (hm : Move cfg env allow w s w' s') (hI : Steady s₀ h s) : Steady s₀ h s' := by
  cases hm with
  | polling hP =>
    intro hl ht
    rcases hP.queue_eq h with ⟨-, hfirst⟩ | ⟨k, hack, -⟩
    · exact hfirst.trans (hI hl ht)
    · exact absurd hack (hnack k)
  | other hact =>
    intro hl ht
    rw [hact.polling]
    exact hI ((hact.same.running h).mp hl) ((hact.same.type h).symm.trans ht)
  | @pushed g m ha hl ht hroom =>
    intro hl ht
    refine (?_ : _ = (s.polling.comet h).firstIndex).trans (hI hl ht)
    refine Polling.forall_setComet (p := fun g c => c.firstIndex = (s.polling.comet g).firstIndex)
      (fun _ => rfl) ?_ h
    rfl
  | offered => exact hI
  | @gone g P l _ ha hl hP hlog hst =>
    intro hlh ht
    obtain ⟨hlh', hne⟩ := hst.running_iff.mp hlh
    have hinfo : s'.info = s.info := hst.info
    rw [hinfo] at ht
    rw [hst.polling]
    refine (?_ : _ = (s.polling.comet h).firstIndex).trans (hI hlh' ht)
    rcases hP with ⟨-, rfl⟩ | ⟨-, rfl⟩
    · rfl
    · dsimp only
      rw [Polling.shut_comet_of_ne hne]
  | @started route type s₁ P ha hst hP =>
    obtain _ | _ | ⟨-, -, -, hinfo, hstarted, hstops, htype⟩ := hst
    intro hl ht
    dsimp only at ht ⊢
    by_cases hh : h = s.next
    · have hnew : ¬ s₀.Running h := fun hl₀ =>
        absurd (hs₀.lt_next hl₀) (Nat.not_lt.mpr (hh ▸ hsince.next))
      subst hh
      rw [if_neg hnew]
      rcases hP with ⟨rfl, -⟩ | ⟨-, rfl⟩
      · rw [htype] at ht
        cases ht
      · rw [Polling.openComet, Polling.setComet_comet_self]
    · rw [hinfo h hh] at ht
      change s₁.Running h at hl
      rw [Running, hstarted, hstops, Function.update_of_ne hh] at hl
      refine (?_ : _ = (s.polling.comet h).firstIndex).trans (hI hl ht)
      rcases hP with ⟨-, rfl⟩ | ⟨-, rfl⟩
      · rfl
      · rw [Polling.openComet, Polling.setComet_comet_of_ne hh]
  | unstarted ha hst =>
    obtain _ | ⟨-, -, hinfo, hstarted, hstops, hpolling⟩ := hst
    · exact hI
    · intro hl ht
      rw [Running, hstarted, hstops] at hl
      rw [hinfo h (hs.lt_next hl).ne] at ht
      rw [hpolling]
      exact hI hl ht
  | tables => exact hI
  | settled => exact hI

/-! ### Every run -/

lemma logged_of_reachable (hr : Reachable (step cfg) (init cfg) s) : s.Logged := by
  refine keeps_of_reachable (fun x => ∃ h k, x = .ack h k ∧ 2 ^ 64 ≤ k) (fun _ s => s.Logged) ?_
    (.init cfg) (fun env allow w s w' s' hallow hs _ hm hI => hm.logged (fun h k hack => ?_) hs hI)
      hr
  · rintro i s _ - ⟨h, k, rfl, hk⟩ ⟨route, hn⟩
    exact absurd hn.lt (Nat.not_lt.mpr hk)
  · by_contra hk
    exact hallow _ ⟨h, k, rfl, Nat.not_lt.mp hk⟩ hack

lemma since_of_step (hs : s.Sound cfg) (hstep : step cfg i s = .ok s') : Since s s' :=
  ((path_of_step hs hstep).keeps hs (I := fun _ t => Since s t)
    (fun _ _ _ _ _ _ hm hI => hm.since hI) .refl).2

lemma steady_of_step (hs : s.Sound cfg) (hstep : step cfg i s = .ok s')
    (hack : ackOf i s h = none) :
    Steady s h s' := by
  have hnack : ∀ k, ¬ Shows cfg i s (.ack h k) := by
    intro k hn
    rw [ackOf_eq_some.mpr hn] at hack
    cases hack
  exact ((path_of_step hs hstep).keeps hs (I := fun _ t => Since s t ∧ Steady s h t)
    (fun _ _ _ _ hs' _ hm hI =>
      ⟨hm.since hI.1, hm.steady hnack hs.core hs'.core hI.1 hI.2⟩)
    ⟨.refl, .refl⟩).2.2

/-- After a request that is carried out on a connection, the queue begins where the ack says. -/
lemma acked_of_step {k : Nat} (hs : s.Sound cfg) (hstep : step cfg i s = .ok s')
    (hk : ackOf i s h = some k) : Acked s s' h k := by
  obtain ⟨route, hn⟩ := ackOf_eq_some.mp hk
  obtain ⟨method, body, origin, date, args, hi, -, -⟩ := id hn
  have hpath : Path cfg i.env (Shows cfg i s) (none, s) _ :=
    .switched hs.core s.backend.paused i.env.outcomes i.env.memory
  have hsound := hpath.sound hs
  have hspec := cometRequest_step i.env (Shows cfg i (s.expecting i.env)) hsound rfl hi
    fun _ hx => hx
  rw [step, handle, hi] at hstep
  obtain ⟨p, hp, hret⟩ := bind_eq_ok.mp hstep
  cases hret
  exact (hspec.result hp).2 h k (names_expecting.mpr hn)

/-- The logs have the messages handed to the connections, and the queues follow them. -/
structure Recorded (s : Server) (L : HybiId → Log Bytes) : Prop where
  entries : ∀ h, (L h).entries = messagesFor h s.sends
  follows : ∀ h, s.Running h → (s.info h).type = .comet → (L h).entries.length < 2 ^ 31 - 1 →
    (s.polling.comet h).Follows (L h)

lemma Recorded.init (cfg : Config) : (init cfg).Recorded fun _ => .empty :=
  ⟨fun _ => rfl, fun _ hl => absurd ((Core.init cfg).lt_next hl) (Nat.not_lt_zero _)⟩

lemma recorded_of_step {L : HybiId → Log Bytes} (hr : Reachable (step cfg) (init cfg) s)
    (hI : s.Recorded L) (hstep : step cfg i s = .ok s') : s'.Recorded (logStep i s s' L) := by
  have hs := sound_of_reachable hr
  have hsince := since_of_step hs hstep
  have hentries : ∀ h, (logStep i s s' L h).entries = messagesFor h s'.sends := by
    intro h
    obtain ⟨new, hnew⟩ := hsince.sends
    have hlog : (logStep i s s' L h).entries
        = (L h).entries ++ messagesFor h (s'.sends.drop s.sends.length) := by
      rw [logStep]
      cases ackOf i s h <;> rfl
    rw [hlog, hI.entries, ← hnew, List.drop_left, messagesFor_append]
  refine ⟨hentries, fun h hl' ht' hfew' => ?_⟩
  obtain ⟨L', hL', hfollows'⟩ :=
    (logged_of_reachable (hr.step trivial hstep)).follows h hl' ht' (hentries h ▸ hfew')
  have hfew : (L h).entries.length < 2 ^ 31 - 1 := by
    refine lt_of_le_of_lt ?_ hfew'
    rw [hentries h, hI.entries h]
    obtain ⟨new, hnew⟩ := hsince.sends
    rw [← hnew, messagesFor_append, List.length_append]
    exact Nat.le_add_right _ _
  -- the numbers determine the log
  refine (?_ : L' = logStep i s s' L h) ▸ hfollows'
  refine Log.ext (hL'.trans (hentries h).symm) ?_
  have hfirst : (s'.polling.comet h).firstIndex = L'.acked + 1 := hfollows'.firstIndex
  have hgoal : (s'.polling.comet h).firstIndex = ((logStep i s s' L h).acked : Int) + 1 := by
    rw [logStep]
    cases hack : ackOf i s h with
    | none =>
      dsimp only
      rw [Log.acked_append, steady_of_step hs hstep hack hl' ht']
      by_cases hl : s.Running h
      · rw [if_pos hl]
        rw [hsince.type h (hs.core.lt_next hl)] at ht'
        exact (hI.follows h hl ht' hfew).firstIndex
      · have hborn := (hsince.born h hl').resolve_left hl
        have hnil : (L h).entries = [] := by
          rw [hI.entries h]
          refine messagesFor_eq_nil fun x hx => ?_
          exact (((logged_of_reachable hr).born x hx).trans_le hborn).ne
        have hzero : (L h).acked = 0 := by
          have hle := (L h).acked_le
          rw [hnil] at hle
          exact Nat.le_zero.mp hle
        rw [if_neg hl, hzero]
        rfl
    | some k =>
      dsimp only
      rw [Log.acked_append]
      obtain ⟨route, hn⟩ := ackOf_eq_some.mp hack
      obtain ⟨rc, P, hmove, hP⟩ := acked_of_step hs hstep hack hl'
      obtain ⟨method, body, origin, date, args, -, -, hreach⟩ := id hn
      rw [hP]
      have hfollows := hI.follows h (hs.core.running hreach.live) hreach.type hfew
      exact (Polling.moveQueue_follows hfollows hfew hn.lt hmove).firstIndex
  omega

/-- In every run, a running comet that has been handed fewer than `2 ^ 31 - 1` messages follows its
log: `first_index` is one more than the number of acknowledged messages, and the queue holds the
others, in order, and no more than `queue-limit`. An ack takes exactly the messages up to its number
off the queue if one of them waits, and else it changes nothing, and fails if there is no such
message. A reply with messages carries them from `first_index` on, and says which. -/
theorem numbers_follow_log {L : HybiId → Log Bytes}
    (hrun : Lockstep (step cfg) logStep (init cfg) (fun _ => .empty) s L) (hl : s.Running h)
    (ht : (s.info h).type = .comet) (hfew : (L h).entries.length < 2 ^ 31 - 1) :
    (L h).entries = messagesFor h s.sends ∧
    (s.polling.comet h).firstIndex = (L h).acked + 1 ∧ (s.polling.comet h).queue = (L h).waiting ∧
    (s.polling.comet h).queue.length ≤ (cfg.route (s.info h).route).queueLimit ∧
    (∀ k < 2 ^ 64, s.polling.moveQueue h k = .ok (if k ≤ (L h).acked then (0, s.polling)
      else if k ≤ (L h).entries.length then (0, s.polling.setComet h
        { s.polling.comet h with queue := (L h).entries.drop k, firstIndex := k + 1 })
      else (-1, s.polling))) ∧
    ∀ env r s', (s.polling.comet h).curRequest = some r → (s.polling.comet h).queue ≠ [] →
      sendLater cfg env h s = .ok s' →
      ∃ rep, (s'.polling.request r).replies = (s.polling.request r).replies ++ [rep] ∧
        match (s.polling.comet h).curFormat with
        | .single => rep.headers.lookup (str "X-Message-ID") = some (.int ((L h).acked + 1 : Nat)) ∧
            (L h).entries[(L h).acked]? = some rep.body
        | .jsonlist => ∃ n : Nat, 1 ≤ n ∧ (L h).acked + n ≤ (L h).entries.length ∧
            rep.headers.lookup (str "X-Messages") = some (.int n) ∧
            rep.body = Polling.jsonList (((L h).entries.drop (L h).acked).take n) := by
  have hrec : s.Recorded L :=
    hrun.invariant (.init cfg) fun _ _ _ _ hr hI hstep => recorded_of_step hr hI hstep
  have hs := sound_of_reachable hrun.reachable
  have hc := hs.comets h
  have hfollows := hrec.follows h hl ht hfew
  refine ⟨hrec.entries h, hfollows.firstIndex, hfollows.queue,
    hc.room.trans (hc.capacity hl ht).le, fun k hk => ?_, fun env r s' hcur hq hsend => ?_⟩
  · exact Polling.moveQueue_eq hfollows hfew hk
  · obtain ⟨_, -, hrest⟩ := bind_eq_ok.mp hsend
    obtain ⟨P, hP, hret⟩ := bind_eq_ok.mp hrest
    cases hret
    obtain ⟨-, -, hreplies⟩ := Polling.sendLater_reply hcur hq hP
    refine ⟨_, hreplies, ?_⟩
    split
    · next hformat => exact Polling.messageReply_single hfollows hq hformat
    · next hformat =>
      exact Polling.messageReply_jsonlist hfollows (hc.limited (by simp [hcur])) hq hformat

/-- Two messages wait for a client. The ack of the first takes that one, and an ack of the third is
refused. -/
theorem numbers_follow_log_two : ∃ s : Server, (s.polling.comet 0).queue = [[1], [2]] ∧
    (∃ P, s.polling.moveQueue 0 1 = .ok (0, P) ∧ (P.comet 0).queue = [[2]]) ∧
    s.polling.moveQueue 0 3 = .ok (-1, s.polling) := by
  obtain ⟨s, hr, hview⟩ := exists_of_small_run (C := fun _ _ => True)
    [arrives connectArgs [], tells [1], tells [2]]
    (fun s =>
      (decide (s.Running 0), (s.info 0).type, messagesFor 0 s.sends, (s.polling.comet 0).queue))
    (true, .comet, [[1], [2]], [[1], [2]]) (fun _ _ _ => trivial) rfl
  simp only [Prod.mk.injEq, decide_eq_true_eq] at hview
  obtain ⟨hl, ht, hsends, hqueue⟩ := hview
  obtain ⟨L, hrun⟩ := Lockstep.exists_of_reachable logStep (fun _ => .empty) hr
  have hrec : s.Recorded L :=
    hrun.invariant (.init smallConfig) fun _ _ _ _ hr hI hstep => recorded_of_step hr hI hstep
  have hentries : (L 0).entries = [[1], [2]] := (hrec.entries 0).trans hsends
  obtain ⟨-, -, hwaiting, -, hmove, -⟩ :=
    numbers_follow_log hrun hl ht (by rw [hentries]; norm_num)
  have hacked : (L 0).acked = 0 := by
    have hle := (L 0).acked_le
    have hlen := (L 0).length_waiting
    rw [← hwaiting, hqueue, hentries] at hlen
    rw [hentries] at hle
    simp only [List.length_cons, List.length_nil] at hlen hle
    omega
  have hfirst := hmove 1 (by norm_num)
  have hthird := hmove 3 (by norm_num)
  rw [hacked, hentries] at hfirst hthird
  refine ⟨s, hqueue, ⟨_, hfirst, ?_⟩, hthird⟩
  show ((s.polling.setComet 0 _).comet 0).queue = [[2]]
  rw [Polling.setComet_comet_self]
  rfl

end Server

end Zerogw
