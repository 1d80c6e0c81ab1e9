import Zerogw.Polling.Properties
import Zerogw.Server.Connections

/-!
# Messages to clients

One `do_send` to a running connection: it may close that connection and no other, and fails only if
that has lost its slot. The two loops that send to many connections are sequences of such steps.
-/

namespace Zerogw

open Execution

namespace Server

variable {cfg : Config} {env : Env} {s s' : Server} {h g : HybiId} {m : Bytes}

lemma Core.withPolling (hs : s.Core cfg) (P : Polling) : Core cfg { s with polling := P } :=
  ⟨hs.size, hs.slots, hs.placed, hs.fresh, hs.counts, hs.entries, hs.inOrder, hs.uids, hs.topics,
    hs.subsRunning, hs.subsRoute, hs.outputs, hs.outputsRunning, hs.outputsNamed⟩

lemma Core.withSendLog (hs : s.Core cfg) (l : List (HybiId × Bytes)) :
    Core cfg { s with sends := l } :=
  ⟨hs.size, hs.slots, hs.placed, hs.fresh, hs.counts, hs.entries, hs.inOrder, hs.uids, hs.topics,
    hs.subsRunning, hs.subsRoute, hs.outputs, hs.outputsRunning, hs.outputsNamed⟩

/-! ### Closing a long-poll connection -/

variable (env) in
/-- `free_comet` of a connection without a parked request. -/
lemma freeComet_spec (hs : s.Core cfg) (hh : h < s.next) (hne : s.backend.refcnt h ≠ 0)
    (hcur : (s.polling.comet h).curRequest = none) :
    Ends (fun f => f = .assertion .sieveEmpty ∧ ¬ s.Live h)
      (fun s' => s'.Core cfg ∧ Stopped h { s with polling := s.polling.shut cfg env h } s')
      (freeComet h s) := by
  have hfree : s.polling.freeComet h = .ok (s.polling.shut cfg env h) := by
    simp only [Polling.freeComet, hcur, Polling.shut, Option.isSome_none, Bool.false_eq_true,
      if_false]
  rw [freeComet, deref, if_neg hne, ok_bind, hfree, ok_bind]
  exact hybiStop_spec (hs.withPolling (s.polling.shut cfg env h)) hh hne

variable (env) in
/-- `comet_close` answers the request of the connection and stops it. -/
lemma cometClose_spec (hs : s.Core cfg) (hh : h < s.next) (hne : s.backend.refcnt h ≠ 0) :
    Ends (fun f => f = .assertion .sieveEmpty ∧ ¬ s.Live h)
      (fun s' => s'.Core cfg ∧ Stopped h { s with polling := s.polling.shut cfg env h } s')
      (cometClose cfg env h s) := by
  rw [cometClose, deref, if_neg hne, ok_bind]
  cases hcur : (s.polling.comet h).curRequest with
  | none =>
    simp only [Option.isSome_none, Bool.false_eq_true, if_false, ok_bind]
    exact freeComet_spec env hs hh hne hcur
  | some r =>
    have hreply : s.polling.closeReply cfg env h = .ok ((s.polling.answer r
        (Polling.okReply cfg env r (s.polling.request r)
          [Polling.text "X-Messages" "0", Polling.text "X-Connection" "close"] [])).setComet h
        { s.polling.comet h with curRequest := none }) := by
      simp only [Polling.closeReply, Polling.dismiss, hcur, Polling.answer_comet]
    simp only [Option.isSome_some, if_true, hreply, ok_bind]
    generalize hP : (s.polling.answer r _).setComet h _ = P
    have hcomet : P.comet h = { s.polling.comet h with curRequest := none } := by
      rw [← hP, Polling.setComet_comet_self]
    have hshut : P.shut cfg env h = s.polling.shut cfg env h := by
      simp only [Polling.shut, hcomet, hcur]
      rw [← hP, Polling.setComet_setComet]
    have hfree := freeComet_spec env (hs.withPolling P) (h := h) hh hne (by simp only [hcomet])
    simp only [hshut] at hfree
    exact hfree

variable (env) in
/-- `comet_close` of a live connection never fails. -/
lemma cometClose_ok (hs : s.Core cfg) (hl : s.Live h) :
    ∃ s', cometClose cfg env h s = .ok s' ∧ s'.Core cfg ∧
      Stopped h { s with polling := s.polling.shut cfg env h } s' :=
  (cometClose_spec env hs (hs.lt_next_of_live hl) (hs.refcnt_ne_zero (hs.running hl))).exists_ok
    fun _ hf => hf.2 hl

/-! ### One message -/

/-- This send closes the connection: the comet queue is full, or the websocket fails. -/
def Closes (env : Env) (s : Server) (h : HybiId) : Prop :=
  match (s.info h).type with
  | .websocket => env.full h = true
  | .comet => (s.polling.comet h).capacity ≤ (s.polling.comet h).queue.length

instance (env : Env) (s : Server) (h : HybiId) : Decidable (Closes env s h) := by
  rw [Closes]
  cases (s.info h).type <;> infer_instance

/-- The long-poll state after a send. -/
def pollingAfter (cfg : Config) (env : Env) (s : Server) (h : HybiId) (m : Bytes) : Polling :=
  match (s.info h).type with
  | .websocket => s.polling
  | .comet => if Closes env s h then s.polling.shut cfg env h else s.polling.push h m

/-- The call of `do_send` is recorded, and the long-poll state is updated. -/
def sent (cfg : Config) (env : Env) (s : Server) (h : HybiId) (m : Bytes) : Server :=
  { s with sends := s.sends ++ [(h, m)], polling := pollingAfter cfg env s h m }

/-- One `do_send` to a running connection. -/
structure Delivered (cfg : Config) (env : Env) (h : HybiId) (m : Bytes) (s s' : Server) :
    Prop where
  running : s.Running h
  core : s'.Core cfg
  stays : ¬ Closes env s h → s' = sent cfg env s h m
  goes : Closes env s h → Stopped h (sent cfg env s h m) s'

variable (env) in
/-- `do_send` to a running connection fails only if it closes a connection whose slot is empty. -/
lemma doSend_spec (hs : s.Core cfg) (hr : s.Running h) (m : Bytes) :
    Ends (fun f => f = .assertion .sieveEmpty ∧ ¬ s.Live h) (Delivered cfg env h m s)
      (doSend cfg env h m s) := by
  have hs₁ := hs.withSendLog (s.sends ++ [(h, m)])
  have hh := hs.lt_next hr
  have hne := hs.refcnt_ne_zero hr
  rw [doSend, hs.deref_eq hr, ok_bind]
  cases htype : (s.info h).type with
  | websocket =>
    have hsent : sent cfg env s h m = { s with sends := s.sends ++ [(h, m)] } := by
      simp only [sent, pollingAfter, htype]
    by_cases hfull : env.full h = true
    · simp only [hfull, if_true]
      refine (hybiStop_spec hs₁ (h := h) hh hne).mono (fun _ => id) fun s' ⟨hcore, hst⟩ =>
        ⟨hr, hcore, fun hn => absurd (by simpa only [Closes, htype] using hfull) hn, fun _ => ?_⟩
      rw [hsent]
      exact hst
    · simp only [hfull]
      refine .ok ⟨hr, hs₁, fun _ => hsent.symm, fun hc => ?_⟩
      simp only [Closes, htype] at hc
      exact absurd hc hfull
  | comet =>
    simp only [cometSend, hs₁.deref_eq (h := h) hr, ok_bind]
    by_cases hfull : (s.polling.comet h).capacity ≤ (s.polling.comet h).queue.length
    · have hc : Closes env s h := by simpa only [Closes, htype] using hfull
      rw [if_pos hfull]
      refine (cometClose_spec env hs₁ (h := h) hh hne).mono (fun _ => id) fun s' ⟨hcore, hst⟩ =>
        ⟨hr, hcore, fun hn => absurd hc hn, fun _ => ?_⟩
      simpa only [sent, pollingAfter, htype, if_pos hc] using hst
    · have hc : ¬ Closes env s h := by simpa only [Closes, htype] using hfull
      rw [if_neg hfull]
      refine .ok ⟨hr, hs₁.withPolling _, fun _ => ?_, fun hn => absurd hn hc⟩
      simp only [sent, pollingAfter, htype, if_neg hc]

variable (env) in
/-- `do_send` to a live connection never fails. -/
lemma doSend_ok (hs : s.Core cfg) (hl : s.Live h) (m : Bytes) :
    ∃ s', doSend cfg env h m s = .ok s' ∧ Delivered cfg env h m s s' :=
  (doSend_spec env hs (hs.running hl) m).exists_ok fun _ hf => hf.2 hl

namespace Delivered

variable (hd : Delivered cfg env h m s s')

include hd

/-- A send that closes a connection takes whatever is in its slot out of the sieve. -/
lemma live_iff_slot : s'.Live g ↔ s.Live g ∧ ¬ (s.slot g = s.slot h ∧ Closes env s h) := by
  by_cases hc : Closes env s h
  · rw [(hd.goes hc).live]
    simp only [hc, and_true]
    rfl
  · rw [hd.stays hc]
    simp only [hc, and_false, not_false_eq_true, and_true]
    rfl

/-- If the recipient is live, no other connection leaves the sieve. -/
lemma live_iff (hl : s.Live h) : s'.Live g ↔ s.Live g ∧ ¬ (g = h ∧ Closes env s h) := by
  by_cases hc : Closes env s h
  · rw [(hd.goes hc).live_iff hl]
    simp only [hc, and_true]
    rfl
  · rw [hd.stays hc]
    simp only [hc, and_false, not_false_eq_true, and_true]
    rfl

lemma running_iff : s'.Running g ↔ s.Running g ∧ ¬ (g = h ∧ Closes env s h) := by
  by_cases hc : Closes env s h
  · rw [(hd.goes hc).running_iff]
    simp only [hc, and_true]
    rfl
  · rw [hd.stays hc]
    simp only [hc, and_false, not_false_eq_true, and_true]
    rfl

/-- If no running connection has lost its slot, none loses it. -/
lemma intact (hi : s.Intact) : s'.Intact := by
  intro g hg
  obtain ⟨hg, hne⟩ := hd.running_iff.mp hg
  exact (hd.live_iff (hi h hd.running)).mpr ⟨hi g hg, hne⟩

lemma info_eq : s'.info = s.info := by
  by_cases hc : Closes env s h
  · exact (hd.goes hc).info
  · rw [hd.stays hc]
    rfl

lemma next_eq : s'.next = s.next := by
  by_cases hc : Closes env s h
  · exact (hd.goes hc).next
  · rw [hd.stays hc]
    rfl

lemma sends_eq : s'.sends = s.sends ++ [(h, m)] := by
  by_cases hc : Closes env s h
  · exact (hd.goes hc).sends
  · rw [hd.stays hc]
    rfl

lemma polling_eq : s'.polling = pollingAfter cfg env s h m := by
  by_cases hc : Closes env s h
  · exact (hd.goes hc).polling
  · rw [hd.stays hc]
    rfl

lemma topics_eq : s'.topics = if Closes env s h then s.topics.stop h else s.topics := by
  split_ifs with hc
  · exact (hd.goes hc).topics
  · rw [hd.stays hc]
    rfl

lemma outputs_eq : s'.outputs = if Closes env s h then s.outputs.stop h else s.outputs := by
  split_ifs with hc
  · exact (hd.goes hc).outputs
  · rw [hd.stays hc]
    rfl

/-- The long-poll state of other connections stays as it is. -/
lemma comet_eq (hg : g ≠ h) : s'.polling.comet g = s.polling.comet g := by
  rw [hd.polling_eq, pollingAfter]
  cases (s.info h).type with
  | websocket => rfl
  | comet =>
    dsimp only
    split_ifs
    · exact Polling.shut_comet_of_ne hg
    · exact Polling.setComet_comet_of_ne hg _

/-- Whether a send closes another connection is not affected. -/
lemma closes_iff (hg : g ≠ h) : Closes env s' g ↔ Closes env s g := by
  simp only [Closes, hd.info_eq, hd.comet_eq hg]

/-- The subscriptions that are left are those of the running connections. -/
lemma subs_iff (hs : s.Core cfg) (i : SubId) (sub : Subscriber) :
    s'.topics.sub.get i = some sub ↔
      s.topics.sub.get i = some sub ∧ s'.Running sub.connection := by
  have hlive := hs.subsRunning i sub
  by_cases hc : Closes env s h
  · obtain ⟨-, -, -, hsub, -⟩ := hs.topics.stop (h := h)
    rw [hd.topics_eq, if_pos hc, hsub, hd.running_iff]
    simp only [hc, and_true, and_congr_right_iff]
    exact fun hi => (and_iff_right (hlive hi)).symm
  · rw [hd.topics_eq, if_neg hc, hd.running_iff]
    simp only [hc, and_false, not_false_eq_true, and_true]
    exact ⟨fun hi => ⟨hi, hlive hi⟩, fun hi => hi.1⟩

/-- The outputs that are left are those of the running connections. -/
lemma outputs_iff (hs : s.Core cfg) (o : OutputId) (e : Output) :
    s'.outputs.out.get o = some e ↔ s.outputs.out.get o = some e ∧ s'.Running e.connection := by
  have hlive := hs.outputsRunning o e
  by_cases hc : Closes env s h
  · obtain ⟨-, -, hout, -⟩ := Outputs.stop_spec hs.outputs h
    rw [hd.outputs_eq, if_pos hc, hout, hd.running_iff]
    simp only [hc, and_true, and_congr_right_iff]
    exact fun ho => (and_iff_right (hlive ho)).symm
  · rw [hd.outputs_eq, if_neg hc, hd.running_iff]
    simp only [hc, and_false, not_false_eq_true, and_true]
    exact ⟨fun ho => ⟨ho, hlive ho⟩, fun ho => ho.1⟩

lemma slot_eq : s'.slot g = s.slot g := by rw [slot, hd.info_eq, slot]

end Delivered

/-! ### Many messages -/

/-- Calls of `do_send` to running connections, one after the other. -/
inductive Deliveries (cfg : Config) (env : Env) : List (HybiId × Bytes) → Server → Server → Prop
  | nil (s : Server) : Deliveries cfg env [] s s
  | cons {h : HybiId} {m : Bytes} {l : List (HybiId × Bytes)} {s s' s'' : Server}
      (hd : Delivered cfg env h m s s') (hrest : Deliveries cfg env l s' s'') :
      Deliveries cfg env ((h, m) :: l) s s''

namespace Deliveries

variable {l : List (HybiId × Bytes)}

/-- Whatever every single send keeps is kept. -/
lemma keeps {I : Server → Prop}
    (hI : ∀ h m s s', I s → Delivered cfg env h m s s' → I s')
    (hd : Deliveries cfg env l s s') (h₀ : I s) : I s' := by
  induction hd with
  | nil => exact h₀
  | cons hd _ ih => exact ih (hI _ _ _ _ h₀ hd)

lemma sends_eq (hd : Deliveries cfg env l s s') : s'.sends = s.sends ++ l := by
  induction hd with
  | nil => simp
  | cons hd _ ih => rw [ih, hd.sends_eq, List.append_assoc, List.singleton_append]

/-- If no connection gets two messages, those that stop running are the recipients whose own send
closes them. -/
lemma running_iff (hd : Deliveries cfg env l s s') (hnodup : (l.map Prod.fst).Nodup) :
    s'.Running g ↔ s.Running g ∧ ¬ (g ∈ l.map Prod.fst ∧ Closes env s g) := by
  induction hd with
  | nil => simp
  | @cons h m l s s' s'' hd hrest ih =>
    obtain ⟨hnew, hnodup⟩ := List.nodup_cons.mp hnodup
    rw [ih hnodup, hd.running_iff, List.map_cons, List.mem_cons]
    by_cases hg : g = h
    · subst hg
      simp [hnew]
    · simp [hg, hd.closes_iff hg]

/-- If all of them are live, the same holds of those that leave the sieve. -/
lemma live_iff (hd : Deliveries cfg env l s s') (hnodup : (l.map Prod.fst).Nodup)
    (hlive : ∀ p ∈ l, s.Live p.1) :
    s'.Live g ↔ s.Live g ∧ ¬ (g ∈ l.map Prod.fst ∧ Closes env s g) := by
  induction hd with
  | nil => simp
  | @cons h m l s s' s'' hd hrest ih =>
    obtain ⟨hnew, hnodup⟩ := List.nodup_cons.mp hnodup
    have hl := hlive _ List.mem_cons_self
    have hothers : ∀ p ∈ l, s'.Live p.1 := by
      intro p hp
      refine (hd.live_iff hl).mpr ⟨hlive p (List.mem_cons_of_mem _ hp), fun hc => ?_⟩
      have hmem := List.mem_map_of_mem (f := Prod.fst) hp
      exact hnew (hc.1 ▸ hmem)
    rw [ih hnodup hothers, hd.live_iff hl, List.map_cons, List.mem_cons]
    by_cases hg : g = h
    · subst hg
      simp [hnew]
    · simp [hg, hd.closes_iff hg]

lemma intact (hi : s.Intact) (hd : Deliveries cfg env l s s') : s'.Intact :=
  hd.keeps (fun _ _ _ _ hi hd => hd.intact hi) hi

/-- No send makes a connection run. -/
lemma running_mono (hd : Deliveries cfg env l s s') (hg : s'.Running g) : s.Running g := by
  induction hd with
  | nil => exact hg
  | cons hd _ ih => exact (hd.running_iff.mp (ih hg)).1

lemma core (hs : s.Core cfg) (hd : Deliveries cfg env l s s') : s'.Core cfg :=
  hd.keeps (fun _ _ _ _ _ hd => hd.core) hs

/-- The subscriptions that are left are those of the running connections. -/
lemma subs_iff (hs : s.Core cfg) (hd : Deliveries cfg env l s s') (i : SubId) (sub : Subscriber) :
    s'.topics.sub.get i = some sub ↔
      s.topics.sub.get i = some sub ∧ s'.Running sub.connection := by
  induction hd with
  | nil => exact ⟨fun hi => ⟨hi, hs.subsRunning i sub hi⟩, fun hi => hi.1⟩
  | cons hd hrest ih =>
    rw [ih hd.core, hd.subs_iff hs, and_assoc, and_congr_right_iff]
    exact fun _ => ⟨fun hl => hl.2, fun hl => ⟨hrest.running_mono hl, hl⟩⟩

/-- The outputs that are left are those of the running connections. -/
lemma outputs_iff (hs : s.Core cfg) (hd : Deliveries cfg env l s s') (o : OutputId) (e : Output) :
    s'.outputs.out.get o = some e ↔ s.outputs.out.get o = some e ∧ s'.Running e.connection := by
  induction hd with
  | nil => exact ⟨fun ho => ⟨ho, hs.outputsRunning o e ho⟩, fun ho => ho.1⟩
  | cons hd hrest ih =>
    rw [ih hd.core, hd.outputs_iff hs, and_assoc, and_congr_right_iff]
    exact fun _ => ⟨fun hl => hl.2, fun hl => ⟨hrest.running_mono hl, hl⟩⟩

end Deliveries

end Server

end Zerogw
