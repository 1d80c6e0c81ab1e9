import Zerogw.Backend.References
import Zerogw.Topics.Properties
import Zerogw.Outputs.Properties
import Zerogw.Server.Basic

/-!
# Connections start and stop

The invariant of everything that refers to connections except the long-poll state: slots, reference
counts, subscriptions and outputs. Stopping a live connection always succeeds, and takes it out of
all of them. Stopping a connection that has lost its slot, or has been stopped before, empties
whatever slot its id names, and fails if that is empty.
-/

namespace Zerogw

open Execution

namespace Server

variable {cfg : Config} {env : Env} {s s' : Server} {h g : HybiId} {k : SockId} {m : BackendMsg}
  {force : Bool}

/-- A connection that has started has one reference of its own, and every stop gives one up. -/
def owned (s : Server) (h : HybiId) : ℤ := (if s.started h then 1 else 0) - s.stops h

lemma owned_pos (hr : s.Running h) : 0 < s.owned h := by simp [owned, hr.1, hr.2]

/-- Every running connection is in the sieve. -/
def Intact (s : Server) : Prop := ∀ h, s.Running h → s.Live h

/-- Every slot holds a running connection whose id names it, references are counted, and
subscriptions and outputs belong to running connections of the route of the topic or the named
output. -/
structure Core (cfg : Config) (s : Server) : Prop where
  size : s.sieve.max = cfg.maxWebsockets
  slots : ∀ k h, s.sieve.Holds k h → s.slot h = k ∧ s.Running h
  placed : ∀ h, h < s.next → s.slot h < s.sieve.max
  fresh : ∀ h, s.next ≤ h → s.started h = false ∧ s.stops h = 0
  counts : s.backend.Counts s.owned
  entries : ∀ k, ∀ m ∈ (s.backend.socks k).queue, m.hybi < s.next
  inOrder : s.backend.InOrder
  uids : ∀ h, h < s.next → (s.info h).uid.length = uidLen
  topics : s.topics.Tidy
  subsRunning : ∀ i sub, s.topics.sub.get i = some sub → s.Running sub.connection
  subsRoute : ∀ p ∈ s.topics.pairs, (s.info p.1).route = p.2.1
  outputs : s.outputs.WF
  outputsRunning : ∀ o e, s.outputs.out.get o = some e → s.Running e.connection
  outputsNamed : ∀ o e, s.outputs.out.get o = some e →
    ∃ i, e.socket = .named (s.info e.connection).route i

namespace Core

variable (hs : s.Core cfg)

include hs

lemma live_iff : s.Live h ↔ ∃ k, s.sieve.Holds k h := by
  constructor
  · exact fun hl => ⟨_, hl⟩
  · rintro ⟨k, hk⟩
    rw [Live, (hs.slots k h hk).1]
    exact hk

lemma holds_iff {k : Nat} : s.sieve.Holds k h ↔ s.Live h ∧ s.slot h = k := by
  constructor
  · intro hk
    exact ⟨hs.live_iff.mpr ⟨k, hk⟩, (hs.slots k h hk).1⟩
  · rintro ⟨hl, rfl⟩
    exact hl

omit hs in
/-- No two live connections share a slot. -/
lemma slot_inj (hl : s.Live h) (hg : s.Live g) (he : s.slot g = s.slot h) : g = h := by
  rw [Live, he] at hg
  exact hg.unique hl

lemma running (hl : s.Live h) : s.Running h := (hs.slots _ _ hl).2

lemma lt_next (hr : s.Running h) : h < s.next := by
  by_contra hh
  have hfalse := (hs.fresh h (Nat.not_lt.mp hh)).1
  rw [hr.1] at hfalse
  cases hfalse

lemma lt_next_of_live (hl : s.Live h) : h < s.next := hs.lt_next (hs.running hl)

/-- Subscriptions belong to running connections. -/
lemma pairs_running : ∀ p ∈ s.topics.pairs, s.Running p.1 :=
  hs.topics.forall_connection_iff.mp hs.subsRunning

lemma refcnt_ne_zero (hr : s.Running h) : s.backend.refcnt h ≠ 0 :=
  hs.counts.refcnt_ne_zero_of_owned (owned_pos hr)

lemma deref_eq (hr : s.Running h) : s.deref h = .ok (s.info h) := by
  rw [deref, if_neg (hs.refcnt_ne_zero hr)]

lemma owned_fresh (hh : s.next ≤ h) : s.owned h = 0 := by
  obtain ⟨hstarted, hstops⟩ := hs.fresh h hh
  simp [owned, hstarted, hstops]

/-- Addresses that have not been handed out yet are not referenced. -/
lemma refcnt_fresh (hh : s.next ≤ h) : s.backend.refcnt h = 0 := by
  have hzero : tally (Backend.names h) s.backend.queues = 0 := by
    refine tally_eq_zero fun k m hm => ?_
    have hlt := hs.entries k m hm
    simp only [Backend.names, decide_eq_false_iff_not]
    exact Nat.ne_of_lt (hlt.trans_le hh)
  have hcount := hs.counts.refcnt h
  rw [hzero, hs.owned_fresh hh] at hcount
  omega

end Core

/-! ### Messages to the backends -/

lemma Core.withBackend {b : Backend} (hs : s.Core cfg) (hc : b.Counts s.owned) (ho : b.InOrder)
    (he : ∀ k, ∀ m ∈ (b.socks k).queue, m.hybi < s.next) :
    Core cfg { s with backend := b } :=
  { hs with counts := hc, inOrder := ho, entries := he }

lemma Core.withSends {b : Backend} (hs : s.Core cfg) (hm : m.hybi < s.next)
    (hb : Backend.Sends m s.backend b) : Core cfg { s with backend := b } := by
  refine hs.withBackend (hb.counts _ hs.counts) (hb.inOrder hs.inOrder) fun k x hx => ?_
  rcases hb.entries k x hx with hx | rfl
  · exact hs.entries k x hx
  · exact hm

/-- A message about a running connection is sent, queued or refused, but never fails. -/
lemma Core.backendSend (hs : s.Core cfg) (hr : s.Running m.hybi) (k : SockId) (force : Bool) :
    ∃ status b, s.backendSend k m force = .ok (status, { s with backend := b }) ∧
      Core cfg { s with backend := b } ∧ s.backend.send s.render k m force = .ok (status, b) ∧
      b.calls = s.backend.calls ++ [⟨k, m, force, status⟩] := by
  obtain ⟨status, b, hsend, hb, hcalls, -⟩ :=
    Backend.send_ok s.render k force (hs.refcnt_ne_zero hr)
  refine ⟨status, b, ?_, hs.withSends (hs.lt_next hr) hb, hsend, hcalls⟩
  rw [Server.backendSend, hsend]
  rfl

/-! ### Stopping a connection -/

/-- The sockets on which `hybi_stop` notifies the backends. -/
def noticeSocks (s : Server) (h : HybiId) : List SockId :=
  .forward (s.info h).route :: groupEnds ((s.outputs.clients h).filterMap s.outputs.socketOf)

/-- The backends that are notified are the forward socket and the named outputs of the mapping. -/
lemma mem_noticeSocks (hs : s.Core cfg) : k ∈ s.noticeSocks h ↔
    k = .forward (s.info h).route ∨ ∃ pre, s.outputs.mapping h pre = some k := by
  rw [noticeSocks, List.mem_cons, mem_groupEnds, List.mem_filterMap]
  refine or_congr Iff.rfl ?_
  simp only [Outputs.mapping_iff hs.outputs, Outputs.socketOf, Option.map_eq_some_iff]
  constructor
  · rintro ⟨o, ho, e, he, hk⟩
    obtain ⟨e', he', hconn⟩ := (hs.outputs.clients h o).mp ho
    obtain rfl : e = e' := Option.some.inj (he.symm.trans he')
    exact ⟨e.pre, o, e, he, hconn, rfl, hk⟩
  · rintro ⟨pre, o, e, he, hconn, -, hk⟩
    exact ⟨o, (hs.outputs.clients h o).mpr ⟨e, he, hconn⟩, e, he, hk⟩

/-- No backend is notified twice: the outputs of the connection are grouped, and none of them is the
forward socket. -/
lemma nodup_noticeSocks (hs : s.Core cfg) : (s.noticeSocks h).Nodup := by
  have hsome : ((s.outputs.clients h).filterMap s.outputs.socketOf).map some
      = (s.outputs.clients h).map s.outputs.socketOf := by
    rw [List.map_filterMap]
    refine List.filterMap_eq_map_iff_forall_eq_some.mpr fun o ho => ?_
    obtain ⟨e, he, -⟩ := (hs.outputs.clients h o).mp ho
    simp [Outputs.socketOf, he]
  refine List.nodup_cons.mpr ⟨fun hmem => ?_, Contiguous.nodup_groupEnds ?_⟩
  · obtain ⟨o, -, ho⟩ := List.mem_filterMap.mp (mem_groupEnds.mp hmem)
    obtain ⟨e, he, hk⟩ := Option.map_eq_some_iff.mp ho
    obtain ⟨i, hnamed⟩ := hs.outputsNamed o e he
    rw [hnamed] at hk
    cases hk
  · apply Contiguous.of_map (Option.some_injective SockId)
    rw [hsome]
    exact hs.outputs.clientsGrouped h

lemma head?_filterMap_of_some {α β : Type} {f : α → Option β} {l : List α}
    (hl : ∀ a ∈ l, f a ≠ none) : (l.filterMap f).head? = l.head?.bind f := by
  cases l with
  | nil => rfl
  | cons a l =>
    obtain ⟨b, hb⟩ := Option.ne_none_iff_exists'.mp (hl a (by simp))
    simp [hb]

/-- The loop over the outputs sends on the last entry of every group and removes all entries. -/
lemma stopOutputs_eq {outs : List OutputId} (hnodup : outs.Nodup)
    (houts : ∀ o ∈ outs, s.outputs.out.get o ≠ none) :
    stopOutputs h outs s = (do
      let b ← Backend.sendTo s.render ⟨h, .disconnect⟩ true
        (groupEnds (outs.filterMap s.outputs.socketOf)) s.backend
      .ok { s with backend := b, outputs := outs.foldl (fun O o => O.remove o) s.outputs }) := by
  induction outs generalizing s with
  | nil => rfl
  | cons o rest ih =>
    obtain ⟨hnew, hrest⟩ := List.nodup_cons.mp hnodup
    obtain ⟨e, he⟩ := Option.ne_none_iff_exists'.mp (houts o (by simp))
    have hsock : s.outputs.socketOf o = some e.socket := by simp [Outputs.socketOf, he]
    have hsome : ∀ p ∈ rest, s.outputs.socketOf p ≠ none := by
      intro p hp
      obtain ⟨f, hf⟩ := Option.ne_none_iff_exists'.mp (houts p (by simp [hp]))
      simp [Outputs.socketOf, hf]
    have hget : ∀ p ∈ rest, (s.outputs.remove o).out.get p = s.outputs.out.get p := by
      intro p hp
      rw [Outputs.remove_out he, if_neg]
      rintro rfl
      exact hnew hp
    have hmap : rest.filterMap (s.outputs.remove o).socketOf
        = rest.filterMap s.outputs.socketOf :=
      List.filterMap_congr fun p hp => Outputs.socketOf_of_get (hget p hp)
    have hloop : ∀ b : Backend, stopOutputs h rest
        { s with backend := b, outputs := s.outputs.remove o } = (do
          let b ← Backend.sendTo s.render ⟨h, .disconnect⟩ true
            (groupEnds (rest.filterMap s.outputs.socketOf)) b
          .ok { s with
            backend := b
            outputs := (o :: rest).foldl (fun O o => O.remove o) s.outputs }) := by
      intro b
      rw [ih hrest fun p hp => by rw [hget p hp]; exact houts p (by simp [hp])]
      rw [hmap]
      rfl
    rw [stopOutputs]
    simp only [he]
    rw [List.filterMap_cons_some hsock, groupEnds, head?_filterMap_of_some hsome]
    split_ifs with hlast
    · exact hloop s.backend
    · rw [Backend.sendTo]
      simp only [Server.backendSend]
      cases Backend.send s.render e.socket ⟨h, .disconnect⟩ true s.backend with
      | error f => rfl
      | ok p =>
        obtain ⟨status, b⟩ := p
        exact hloop b

/-- What is left after `hybi_stop`. -/
structure Stopped (h : HybiId) (s s' : Server) : Prop where
  live : ∀ g, s'.Live g ↔ s.Live g ∧ s.slot g ≠ s.slot h
  max : s'.sieve.max = s.sieve.max
  info : s'.info = s.info
  next : s'.next = s.next
  started : s'.started = s.started
  stops : s'.stops = Function.update s.stops h (s.stops h + 1)
  polling : s'.polling = s.polling
  sends : s'.sends = s.sends
  topics : s'.topics = s.topics.stop h
  outputs : s'.outputs = s.outputs.stop h
  paused : s'.backend.paused = s.backend.paused
  posts : Backend.Posts s.render (s.noticeSocks h) ⟨h, .disconnect⟩ s.backend s'.backend
  notices : ∃ cs, s'.backend.calls = s.backend.calls ++ cs ∧
    cs.map (fun c => (c.sock, c.msg, c.force))
      = ((s.noticeSocks h).map fun k => (k, ⟨h, .disconnect⟩, true)) ∧
    ∀ c ∈ cs, s.backend.Limited c

namespace Stopped

variable (hst : Stopped h s s')

include hst

lemma running_iff : s'.Running g ↔ s.Running g ∧ g ≠ h := by
  rw [Running, hst.started, hst.stops, Running]
  by_cases hg : g = h
  · subst hg
    simp
  · simp [hg]

/-- Of a live connection, nothing but the connection itself leaves the sieve. -/
lemma live_iff (hl : s.Live h) : s'.Live g ↔ s.Live g ∧ g ≠ h := by
  rw [hst.live]
  refine and_congr_right fun hg => not_congr ⟨fun he => ?_, fun he => by rw [he]⟩
  rw [Live, he] at hg
  exact hg.unique hl

lemma slot_eq : s'.slot g = s.slot g := by rw [slot, hst.info, slot]

lemma owned_eq : s'.owned = Function.update s.owned h (s.owned h - 1) := by
  funext g
  rw [owned, hst.started, hst.stops]
  by_cases hg : g = h
  · subst hg
    simp only [Function.update_self, owned]
    omega
  · rw [Function.update_of_ne hg, Function.update_of_ne hg, owned]

end Stopped

/-- `hybi_stop` of a connection whose slot is not empty: the slot is emptied, all notices are
attempted, and its subscriptions and outputs are gone. -/
lemma hybiStop_eq (hs : s.Core cfg) (hne : s.backend.refcnt h ≠ 0)
    (hocc : s.sieve.Holds (s.slot h) g) :
    ∃ sieve, sieve.max = s.sieve.max ∧
      (∀ j b, sieve.Holds j b ↔ s.sieve.Holds j b ∧ j ≠ s.slot h) ∧
      hybiStop h s = (do
        let b ← Backend.sendTo s.render ⟨h, .disconnect⟩ true (s.noticeSocks h) s.backend
        let b ← b.decref h
        .ok { s with
          sieve := sieve, backend := b, topics := s.topics.stop h, outputs := s.outputs.stop h
          stops := Function.update s.stops h (s.stops h + 1) }) := by
  obtain ⟨sieve, hclear, hmax, hholds⟩ := Sieve.clear_of_holds hocc
  refine ⟨sieve, hmax, hholds, ?_⟩
  have houts : ∀ o ∈ s.outputs.clients h, s.outputs.out.get o ≠ none := by
    intro o ho
    obtain ⟨e, he, -⟩ := (hs.outputs.clients h o).mp ho
    simp [he]
  have hloop : ∀ b : Backend, stopOutputs h (s.outputs.clients h)
      { s with sieve := sieve, backend := b, topics := s.topics.stop h } = (do
        let b ← Backend.sendTo s.render ⟨h, .disconnect⟩ true
          (groupEnds ((s.outputs.clients h).filterMap s.outputs.socketOf)) b
        .ok { s with
          sieve := sieve, backend := b, topics := s.topics.stop h, outputs := s.outputs.stop h }) :=
    fun b => stopOutputs_eq
      (s := { s with sieve := sieve, backend := b, topics := s.topics.stop h })
      (hs.outputs.clientsNodup h) houts
  rw [hybiStop, deref, if_neg hne, ok_bind, show uidHole (s.info h).uid = s.slot h from rfl, hclear,
    ok_bind, noticeSocks, Backend.sendTo]
  simp only [Server.backendSend]
  change ((Backend.send s.render _ _ _ s.backend >>= _) >>= _) = _
  cases Backend.send s.render (.forward (s.info h).route) ⟨h, .disconnect⟩ true s.backend with
  | error f => rfl
  | ok p =>
    obtain ⟨status, b⟩ := p
    simp only [ok_bind]
    change (stopOutputs h (s.outputs.clients h)
      { s with sieve := sieve, backend := b, topics := s.topics.stop h } >>= _) = _
    rw [hloop b]
    cases Backend.sendTo s.render ⟨h, .disconnect⟩ true
      (groupEnds ((s.outputs.clients h).filterMap s.outputs.socketOf)) b with
    | error f => rfl
    | ok b' => rfl

/-- The invariant after `hybi_stop`. -/
lemma Core.stop (hs : s.Core cfg) (hh : h < s.next) (hst : Stopped h s s')
    (hslots : ∀ k g, s'.sieve.Holds k g ↔ s.sieve.Holds k g ∧ k ≠ s.slot h)
    (hcounts : s'.backend.Counts s'.owned) (hinOrder : s'.backend.InOrder) : s'.Core cfg := by
  obtain ⟨htidy, hpairs, -, hsub, -⟩ := hs.topics.stop (h := h)
  obtain ⟨hwf, -, hout, -⟩ := Outputs.stop_spec hs.outputs h
  constructor
  · exact hst.max.trans hs.size
  · intro j g hg
    obtain ⟨hj, hne⟩ := (hslots j g).mp hg
    obtain ⟨hslot, hr⟩ := hs.slots j g hj
    refine ⟨hst.slot_eq.trans hslot, hst.running_iff.mpr ⟨hr, ?_⟩⟩
    rintro rfl
    exact hne hslot.symm
  · intro g hg
    rw [hst.slot_eq, hst.max]
    exact hs.placed g (by rwa [hst.next] at hg)
  · intro g hg
    rw [hst.next] at hg
    obtain ⟨hstarted, hstops⟩ := hs.fresh g hg
    rw [hst.started, hst.stops, Function.update_of_ne (Nat.ne_of_gt (hh.trans_le hg))]
    exact ⟨hstarted, hstops⟩
  · exact hcounts
  · intro j x hx
    rw [hst.next]
    rcases hst.posts.entries j x hx with hx | rfl
    · exact hs.entries j x hx
    · exact hh
  · exact hinOrder
  · rw [hst.info, hst.next]
    exact hs.uids
  · rw [hst.topics]
    exact htidy
  · intro i sub hi
    rw [hst.topics] at hi
    obtain ⟨hi, hne⟩ := (hsub i sub).mp hi
    exact hst.running_iff.mpr ⟨hs.subsRunning i sub hi, hne⟩
  · intro p hp
    rw [hst.topics, hpairs] at hp
    rw [hst.info]
    exact hs.subsRoute p hp.1
  · rw [hst.outputs]
    exact hwf
  · intro o e he
    rw [hst.outputs] at he
    obtain ⟨he, hne⟩ := (hout o e).mp he
    exact hst.running_iff.mpr ⟨hs.outputsRunning o e he, hne⟩
  · intro o e he
    rw [hst.outputs] at he
    rw [hst.info]
    exact hs.outputsNamed o e ((hout o e).mp he).1

/-- Stopping a connection whose slot is not empty never fails, and keeps the invariant. -/
lemma hybiStop_of_holds (hs : s.Core cfg) (hh : h < s.next) (hne : s.backend.refcnt h ≠ 0)
    (hocc : s.sieve.Holds (s.slot h) g) :
    ∃ s', hybiStop h s = .ok s' ∧ s'.Core cfg ∧ Stopped h s s' := by
  obtain ⟨sieve, hmax, hholds, heq⟩ := hybiStop_eq hs hne hocc
  obtain ⟨b₁, cs, hsend, hS, hcalls, hcs, hlim⟩ :=
    Backend.sendTo_ok (m := ⟨h, .disconnect⟩) s.render true (nodup_noticeSocks hs (h := h)) hne
  obtain ⟨b₂, hdec, hcounts, hsocks, hcalls', hpaused, -⟩ :=
    (hS.counts _ hs.counts).decref (hS.alive hne)
  rw [hsend, ok_bind, hdec, ok_bind] at heq
  have hlive : ∀ g, sieve.Holds (s.slot g) g ↔ s.Live g ∧ s.slot g ≠ s.slot h :=
    fun g => hholds _ _
  have hposts : Backend.Posts s.render (s.noticeSocks h) ⟨h, .disconnect⟩ s.backend b₂ := by
    have hP := Backend.sendTo_posts hsend
    obtain ⟨-, rfl⟩ := Backend.decref_eq_ok.mp hdec
    refine ⟨hP.sent, hP.entries, hP.others, fun g hg => ?_⟩
    exact (Function.update_of_ne hg _ _).trans (hP.refcnt g hg)
  have hst : Stopped h s { s with
      sieve := sieve, backend := b₂, topics := s.topics.stop h, outputs := s.outputs.stop h
      stops := Function.update s.stops h (s.stops h + 1) } :=
    ⟨hlive, hmax, rfl, rfl, rfl, rfl, rfl, rfl, rfl, rfl, hpaused.trans hS.paused, hposts, cs,
      hcalls'.trans hcalls, hcs, hlim⟩
  refine ⟨_, heq, hs.stop hh hst hholds ?_ ((hS.inOrder hs.inOrder).of_eq hsocks hcalls'), hst⟩
  rw [hst.owned_eq]
  exact hcounts

/-- Stopping a connection fails only if its slot is empty, so never if the connection is in it. -/
lemma hybiStop_spec (hs : s.Core cfg) (hh : h < s.next) (hne : s.backend.refcnt h ≠ 0) :
    Ends (fun f => f = .assertion .sieveEmpty ∧ ¬ s.Live h)
      (fun s' => s'.Core cfg ∧ Stopped h s s') (hybiStop h s) := by
  have hlt := hs.placed h hh
  cases hslot : s.sieve.items[s.slot h]? with
  | none => exact absurd (List.getElem?_eq_none_iff.mp hslot) (Nat.not_le.mpr hlt)
  | some o =>
    cases o with
    | none =>
      have hclear : s.sieve.clear (s.slot h) = .error (.assertion .sieveEmpty) := by
        simp only [Sieve.clear, hslot]
      rw [hybiStop, deref, if_neg hne, ok_bind, show uidHole (s.info h).uid = s.slot h from rfl,
        hclear]
      refine ⟨rfl, fun hl => ?_⟩
      rw [Live, Sieve.Holds, hslot] at hl
      cases hl
    | some g =>
      obtain ⟨s', hok, hcore, hst⟩ := hybiStop_of_holds hs hh hne hslot
      rw [hok]
      exact ⟨hcore, hst⟩

/-- Stopping a live connection never fails, and keeps the invariant. -/
lemma hybiStop_ok (hs : s.Core cfg) (hl : s.Live h) :
    ∃ s', hybiStop h s = .ok s' ∧ s'.Core cfg ∧ Stopped h s s' :=
  (hybiStop_spec hs (hs.lt_next_of_live hl) (hs.refcnt_ne_zero (hs.running hl))).exists_ok
    fun _ hf => hf.2 hl

/-! ### Starting a connection -/

/-- The result of `hybi_start`: there was no memory or no slot for the connection, its connect
message was refused for lack of memory, or there is one more running connection. -/
inductive Started (cfg : Config) (route : RouteId) (type : HybiType) (s : Server) :
    Option HybiId → Server → Prop
  | failed : Started cfg route type s none { s with backend := s.backend.useMemory }
  | refused {s' : Server} (hlive : ∀ g, s'.Live g ↔ s.Live g)
      (hnext : s'.next = s.next + 1)
      (hinfo : ∀ g, g ≠ s.next → s'.info g = s.info g)
      (hstarted : s'.started = s.started) (hstops : s'.stops = s.stops)
      (hpolling : s'.polling = s.polling) (hsends : s'.sends = s.sends)
      (htopics : s'.topics = s.topics) (houtputs : s'.outputs = s.outputs)
      (hsocks : s'.backend.socks = s.backend.socks) (hrefcnt : s'.backend.refcnt = s.backend.refcnt)
      (hcalls : s'.backend.calls
        = s.backend.calls ++ [⟨.forward route, ⟨s.next, .connect⟩, false, .refused⟩])
      (hmemory : false ∈ s.backend.memory) (hroute : (s'.info s.next).route = route) :
      Started cfg route type s none s'
  | started {s' : Server} (hdead : ¬ s.Live s.next)
      (hlive : ∀ g, s'.Live g ↔ s.Live g ∨ g = s.next)
      (hnext : s'.next = s.next + 1)
      (hinfo : ∀ g, g ≠ s.next → s'.info g = s.info g)
      (hstarted : s'.started = Function.update s.started s.next true) (hstops : s'.stops = s.stops)
      (htype : (s'.info s.next).type = type) (hroute : (s'.info s.next).route = route)
      (hpolling : s'.polling = s.polling) (hsends : s'.sends = s.sends)
      (htopics : s'.topics = s.topics) (houtputs : s'.outputs = s.outputs)
      (hcookie : (s'.info s.next).cookie = none)
      (hposts : Backend.Posts s'.render [.forward route] ⟨s.next, .connect⟩ s.backend s'.backend)
      (hcalls : ∃ status, status ≠ .refused ∧ s'.backend.calls
        = s.backend.calls ++ [⟨.forward route, ⟨s.next, .connect⟩, false, status⟩]) :
      Started cfg route type s (some s.next) s'

/-- A new connection in a slot of the sieve, before anything is sent. -/
def occupy (type : HybiType) (uid : Bytes) (route : RouteId) (sieve : Sieve HybiId) (s : Server) :
    Server :=
  { s with
    sieve := sieve
    next := s.next + 1
    info := Function.update s.info s.next ⟨type, uid, none, route⟩
    backend := { s.backend with refcnt := Function.update s.backend.refcnt s.next 1 } }

/-- The connection counts as started. -/
def start (h : HybiId) (s : Server) : Server :=
  { s with started := Function.update s.started h true }

section occupy

variable {type : HybiType} {uid : Bytes} {route : RouteId} {sieve : Sieve HybiId} {index hole : Nat}

variable (sieve) in
lemma occupy_info_self : (s.occupy type uid route sieve).info s.next = ⟨type, uid, none, route⟩ :=
  Function.update_self _ _ _

variable (sieve) in
lemma occupy_info_of_ne {g : HybiId} (hg : g ≠ s.next) :
    (s.occupy type uid route sieve).info g = s.info g :=
  Function.update_of_ne hg _ _

variable (sieve) in
lemma occupy_slot_self (huid : uidHole uid = hole) :
    (s.occupy type uid route sieve).slot s.next = hole := by
  rw [slot, occupy_info_self sieve, huid]

variable (sieve) in
lemma occupy_slot_of_ne {g : HybiId} (hg : g ≠ s.next) :
    (s.occupy type uid route sieve).slot g = s.slot g := by
  rw [slot, occupy_info_of_ne sieve hg, slot]

variable (type route) in
lemma occupy_live (hfind : s.sieve.findHole s.next = some (index, hole, sieve))
    (huid : uidHole uid = hole) (g : HybiId) :
    (s.occupy type uid route sieve).Live g ↔ s.Live g ∨ g = s.next := by
  show sieve.Holds _ g ↔ _
  rw [Sieve.findHole_holds hfind]
  by_cases hg : g = s.next
  · subst hg
    simp [occupy_slot_self sieve huid]
  · rw [occupy_slot_of_ne sieve hg]
    simp [hg, Live]

lemma start_running_self (hstops : s.stops h = 0) : (s.start h).Running h :=
  ⟨Function.update_self _ _ _, hstops⟩

lemma start_running_of_ne (hg : g ≠ h) : (s.start h).Running g ↔ s.Running g := by
  simp only [Running, start, Function.update_of_ne hg]

/-- The connection itself is its only reference. -/
lemma start_owned (hstops : s.stops h = 0) : (s.start h).owned = Function.update s.owned h 1 := by
  funext g
  by_cases hg : g = h
  · subst hg
    simp only [owned, start, Function.update_self, hstops]
    rfl
  · rw [Function.update_of_ne hg]
    simp only [owned, start, Function.update_of_ne hg]

lemma Core.occupy (hs : s.Core cfg) (hfind : s.sieve.findHole s.next = some (index, hole, sieve))
    (huid : uidHole uid = hole) (hlength : uid.length = uidLen) :
    ((s.occupy type uid route sieve).start s.next).Core cfg := by
  obtain ⟨-, hstops⟩ := hs.fresh s.next le_rfl
  have hrunning : ∀ g, s.Running g → ((s.occupy type uid route sieve).start s.next).Running g :=
    fun g hg => (start_running_of_ne (Nat.ne_of_lt (hs.lt_next hg))).mpr hg
  have hmax : sieve.max = s.sieve.max := Sieve.findHole_max hfind
  constructor
  · exact hmax.trans hs.size
  · intro j g hj
    rcases (Sieve.findHole_holds hfind j g).mp hj with ⟨rfl, rfl⟩ | hj
    · exact ⟨occupy_slot_self sieve huid, start_running_self hstops⟩
    · obtain ⟨hsl, hg⟩ := hs.slots j g hj
      exact ⟨(occupy_slot_of_ne sieve (Nat.ne_of_lt (hs.lt_next hg))).trans hsl, hrunning g hg⟩
  · intro g hg
    show (s.occupy type uid route sieve).slot g < sieve.max
    rw [hmax]
    by_cases hgn : g = s.next
    · rw [hgn, occupy_slot_self sieve huid]
      exact Sieve.findHole_lt_max hfind
    · rw [occupy_slot_of_ne sieve hgn]
      exact hs.placed g (lt_of_le_of_ne (Nat.lt_succ_iff.mp hg) hgn)
  · intro g hg
    obtain ⟨hstarted, hstops⟩ := hs.fresh g (Nat.le_of_succ_le hg)
    exact ⟨(Function.update_of_ne (Nat.ne_of_gt hg) _ _).trans hstarted, hstops⟩
  · rw [start_owned (s := s.occupy type uid route sieve) hstops]
    refine hs.counts.start ?_
    rw [hs.refcnt_fresh le_rfl, hs.owned_fresh le_rfl]
    rfl
  · exact fun j x hx => Nat.lt_succ_of_lt (hs.entries j x hx)
  · exact hs.inOrder.of_eq rfl rfl
  · intro g hg
    by_cases hgn : g = s.next
    · rw [hgn]
      exact (congrArg (fun i => i.uid.length) (occupy_info_self sieve)).trans hlength
    · exact (congrArg (fun i => i.uid.length) (occupy_info_of_ne sieve hgn)).trans
        (hs.uids g (lt_of_le_of_ne (Nat.lt_succ_iff.mp hg) hgn))
  · exact hs.topics
  · exact fun i sub hi => hrunning _ (hs.subsRunning i sub hi)
  · intro p hp
    exact (congrArg Hybi.route (occupy_info_of_ne sieve
      (Nat.ne_of_lt (hs.lt_next (hs.pairs_running p hp))))).trans (hs.subsRoute p hp)
  · exact hs.outputs
  · exact fun o e he => hrunning _ (hs.outputsRunning o e he)
  · intro o e he
    obtain ⟨i, hi⟩ := hs.outputsNamed o e he
    have hinfo : (s.occupy type uid route sieve).info e.connection = s.info e.connection :=
      occupy_info_of_ne sieve (Nat.ne_of_lt (hs.lt_next (hs.outputsRunning o e he)))
    exact ⟨i, hi.trans (by rw [← hinfo]; rfl)⟩

/-- A connection that could not be announced leaves its slot again. -/
lemma Core.unoccupy {sieve' : Sieve HybiId} {b : Backend} (hs : s.Core cfg)
    (hlt : hole < s.sieve.max) (huid : uidHole uid = hole) (hlength : uid.length = uidLen)
    (hmax : sieve'.max = s.sieve.max) (hholds : ∀ j g, sieve'.Holds j g ↔ s.sieve.Holds j g)
    (hsocks : b.socks = s.backend.socks) (hrefcnt : b.refcnt = s.backend.refcnt)
    (hinOrder : b.InOrder) :
    Core cfg { s.occupy type uid route sieve with sieve := sieve', backend := b } := by
  have hinfo : ∀ g, g < s.next →
      (s.occupy type uid route sieve).info g = s.info g := fun g hg =>
    occupy_info_of_ne sieve (Nat.ne_of_lt hg)
  constructor
  · exact hmax.trans hs.size
  · intro j g hj
    obtain ⟨hslot, hr⟩ := hs.slots j g ((hholds j g).mp hj)
    exact ⟨(occupy_slot_of_ne sieve (Nat.ne_of_lt (hs.lt_next hr))).trans hslot, hr⟩
  · intro g hg
    show (s.occupy type uid route sieve).slot g < sieve'.max
    rw [hmax]
    by_cases hgn : g = s.next
    · rwa [hgn, occupy_slot_self sieve huid]
    · rw [occupy_slot_of_ne sieve hgn]
      exact hs.placed g (lt_of_le_of_ne (Nat.lt_succ_iff.mp hg) hgn)
  · exact fun g hg => hs.fresh g (Nat.le_of_succ_le hg)
  · exact hs.counts.of_eq (funext fun j => congrArg Socket.queue (congrFun hsocks j)) hrefcnt
  · intro j x hx
    change x ∈ (b.socks j).queue at hx
    rw [hsocks] at hx
    exact Nat.lt_succ_of_lt (hs.entries j x hx)
  · exact hinOrder
  · intro g hg
    by_cases hgn : g = s.next
    · rw [hgn]
      exact (congrArg (fun i => i.uid.length) (occupy_info_self sieve)).trans hlength
    · have hlt : g < s.next := lt_of_le_of_ne (Nat.lt_succ_iff.mp hg) hgn
      exact (congrArg (fun i => i.uid.length) (hinfo g hlt)).trans (hs.uids g hlt)
  · exact hs.topics
  · exact hs.subsRunning
  · exact fun p hp => (congrArg Hybi.route (hinfo _ (hs.lt_next (hs.pairs_running p hp)))).trans
      (hs.subsRoute p hp)
  · exact hs.outputs
  · exact hs.outputsRunning
  · intro o e he
    obtain ⟨i, hi⟩ := hs.outputsNamed o e he
    exact ⟨i, hi.trans (by rw [← hinfo _ (hs.lt_next (hs.outputsRunning o e he))])⟩

end occupy

lemma Core.useMemory (hs : s.Core cfg) : Core cfg { s with backend := s.backend.useMemory } :=
  hs.withBackend (hs.counts.of_eq rfl rfl) (hs.inOrder.of_eq rfl rfl) hs.entries

lemma Started.polling_eq {route : RouteId} {type : HybiType} {res : Option HybiId}
    (hst : Started cfg route type s res s') : s'.polling = s.polling := by
  cases hst with
  | failed => rfl
  | refused => assumption
  | started => assumption

/-- Whether the memory of the connection comes first makes no difference. -/
lemma Started.of_useMemory {route : RouteId} {type : HybiType} {res : Option HybiId}
    (hst : Started cfg route type { s with backend := s.backend.useMemory } res s')
    (hnew : s'.next = s.next + 1) : Started cfg route type s res s' := by
  cases hst with
  | failed => exact absurd hnew (Nat.ne_of_lt (Nat.lt_succ_self _))
  | refused hlive hnext hinfo hstarted hstops hpolling hsends htopics houtputs hsocks hrefcnt
      hcalls hmemory hroute =>
    exact .refused hlive hnext hinfo hstarted hstops hpolling hsends htopics houtputs hsocks
      hrefcnt hcalls (List.mem_of_mem_tail hmemory) hroute
  | started hdead hlive hnext hinfo hstarted hstops htype hroute hpolling hsends htopics houtputs
      hcookie hposts hcalls =>
    exact .started hdead hlive hnext hinfo hstarted hstops htype hroute hpolling hsends htopics
      houtputs hcookie ⟨hposts.sent, hposts.entries, hposts.others, hposts.refcnt⟩ hcalls

/-- The connection whose connect message is refused is taken back. -/
lemma started_refused {type : HybiType} {uid : Bytes} {route : RouteId} {sieve : Sieve HybiId}
    {index hole : Nat} {b : Backend} (hs : s.Core cfg)
    (hfind : s.sieve.findHole s.next = some (index, hole, sieve)) (huid : uidHole uid = hole)
    (hlength : uid.length = uidLen)
    (hsend : (s.occupy type uid route sieve).backend.send (s.occupy type uid route sieve).render
      (.forward route) ⟨s.next, .connect⟩ false = .ok (.refused, b)) :
    ∃ sieve', sieve.clear hole = .ok sieve' ∧
      Core cfg { s.occupy type uid route sieve with
        sieve := sieve', backend := { b with refcnt := Function.update b.refcnt s.next 0 } } ∧
      Started cfg route type s none { s.occupy type uid route sieve with
        sieve := sieve', backend := { b with refcnt := Function.update b.refcnt s.next 0 } } := by
  obtain ⟨sieve', hclear, hmax, hholds⟩ := Sieve.clear_of_holds (s := sieve) (k := hole)
    (a := s.next) ((Sieve.findHole_holds hfind hole s.next).mpr (Or.inl ⟨rfl, rfl⟩))
  have hholds' : ∀ j g, sieve'.Holds j g ↔ s.sieve.Holds j g := by
    intro j g
    rw [hholds, Sieve.findHole_holds hfind]
    constructor
    · rintro ⟨⟨hj, -⟩ | hj, hne⟩
      · exact absurd hj hne
      · exact hj
    · intro hj
      refine ⟨Or.inr hj, ?_⟩
      rintro rfl
      rw [Sieve.Holds, (Sieve.findHole_some hfind).1] at hj
      cases hj
  obtain ⟨hsocks, hrefcnt, hcalls, hinOrder⟩ := Backend.eq_of_refused hsend
  have hcount : Function.update b.refcnt s.next 0 = s.backend.refcnt := by
    funext g
    rw [hrefcnt]
    by_cases hg : g = s.next
    · subst hg
      rw [Function.update_self, hs.refcnt_fresh le_rfl]
    · rw [Function.update_of_ne hg]
      exact Function.update_of_ne hg _ _
  have hinOrder' : Backend.InOrder { b with refcnt := Function.update b.refcnt s.next 0 } :=
    (hinOrder (hs.inOrder.of_eq rfl rfl)).of_eq rfl rfl
  have hnone : s.backend.hasMemory = false := (Backend.stalled_of_refused hsend).2
  refine ⟨sieve', hclear, hs.unoccupy (Sieve.findHole_lt_max hfind) huid hlength
    (hmax.trans (Sieve.findHole_max hfind)) hholds' hsocks hcount hinOrder',
    .refused (fun g => ?_) rfl (fun g hg => occupy_info_of_ne sieve hg) rfl rfl rfl rfl rfl rfl
      hsocks hcount hcalls ?_ (congrArg Hybi.route (occupy_info_self sieve))⟩
  · show sieve'.Holds ((s.occupy type uid route sieve).slot g) g ↔ _
    rw [hholds']
    by_cases hg : g = s.next
    · subst hg
      refine iff_of_false (fun hj => ?_) fun hl => ?_
      · exact absurd (hs.lt_next (hs.slots _ _ hj).2) (Nat.lt_irrefl _)
      · exact absurd (hs.lt_next_of_live hl) (Nat.lt_irrefl _)
    · rw [occupy_slot_of_ne sieve hg]
      rfl
  · by_contra hno
    rw [Backend.hasMemory_of_not_mem hno] at hnone
    cases hnone

/-- The connection whose connect message is sent or queued has started. -/
lemma started_ok {type : HybiType} {uid : Bytes} {route : RouteId} {sieve : Sieve HybiId}
    {index hole : Nat} {b : Backend} {status : SendStatus} (hs : s.Core cfg)
    (hfind : s.sieve.findHole s.next = some (index, hole, sieve)) (huid : uidHole uid = hole)
    (hlength : uid.length = uidLen) (hstatus : status ≠ .refused)
    (hsend : (s.occupy type uid route sieve).backend.send (s.occupy type uid route sieve).render
      (.forward route) ⟨s.next, .connect⟩ false = .ok (status, b)) :
    Core cfg (start s.next { s.occupy type uid route sieve with backend := b }) ∧
      Started cfg route type s (some s.next)
        (start s.next { s.occupy type uid route sieve with backend := b }) := by
  have hcore : ((s.occupy type uid route sieve).start s.next).Core cfg :=
    hs.occupy hfind huid hlength
  obtain ⟨status', b', hsend', hS, hcalls, -⟩ :=
    Backend.send_ok (m := ⟨s.next, .connect⟩) (s.occupy type uid route sieve).render
      (.forward route) false (Backend.refcnt_of_send hsend)
  cases hsend.symm.trans hsend'
  have hposts : Backend.Posts (s.occupy type uid route sieve).render [.forward route]
      ⟨s.next, .connect⟩ s.backend b := by
    have hP := Backend.posts_of_send hsend
    exact ⟨hP.sent, hP.entries, hP.others,
      fun g hg => (hP.refcnt g hg).trans (Function.update_of_ne hg _ _)⟩
  have hinfo : (s.occupy type uid route sieve).info s.next = ⟨type, uid, none, route⟩ :=
    occupy_info_self sieve
  refine ⟨hcore.withSends (Nat.lt_succ_self _) hS, .started
    (fun hl => absurd (hs.lt_next_of_live hl) (Nat.lt_irrefl _))
    (occupy_live type route hfind huid) rfl (fun _ hg => occupy_info_of_ne sieve hg) rfl rfl
    ?_ ?_ rfl rfl rfl rfl ?_ hposts ⟨status, hstatus, hcalls⟩⟩
  · exact congrArg Hybi.type hinfo
  · exact congrArg Hybi.route hinfo
  · exact congrArg Hybi.cookie hinfo

variable (env) in
/-- `hybi_start` never fails. -/
lemma hybiStart_ok (hs : s.Core cfg) (route : RouteId) (type : HybiType) :
    ∃ res s', hybiStart cfg env route type s = .ok (res, s') ∧ s'.Core cfg ∧
      Started cfg route type s res s' := by
  rw [hybiStart, Backend.allocate]
  cases hmem : s.backend.hasMemory with
  | false => exact ⟨none, _, rfl, hs.useMemory, .failed⟩
  | true =>
    simp only [Bool.not_true, Bool.false_eq_true, if_false]
    cases hfind : s.sieve.findHole s.next with
    | none => exact ⟨none, _, rfl, hs.useMemory, .failed⟩
    | some found =>
      obtain ⟨index, hole, sieve⟩ := found
      have hlt : hole < 2 ^ 64 := calc
        hole < s.sieve.max := Sieve.findHole_lt_max hfind
        _ = cfg.maxWebsockets := hs.size
        _ ≤ 2 ^ 30 := cfg.maxWebsockets_le
        _ < 2 ^ 64 := by norm_num
      simp only
      generalize huid : mkUid cfg.instanceId hole index _ = uid
      have hhole : uidHole uid = hole := by
        rw [← huid]
        exact uidHole_mkUid _ _ cfg.instanceId_length hlt
      have hlength : uid.length = uidLen := by
        rw [← huid]
        refine length_mkUid cfg.instanceId_length ?_
        split_ifs
        · exact env.random_length
        · exact List.length_replicate
      have hs₀ := hs.useMemory
      have hne : ((occupy type uid route sieve
          { s with backend := s.backend.useMemory }).backend).refcnt s.next ≠ 0 := by
        simp [occupy]
      obtain ⟨status, b, hsend, -, -, -⟩ := Backend.send_ok (m := ⟨s.next, .connect⟩)
        (occupy type uid route sieve { s with backend := s.backend.useMemory }).render
        (.forward route) false hne
      show ∃ res s', ((occupy type uid route sieve
        { s with backend := s.backend.useMemory }).backendSend (.forward route) _ false >>= _) = _
          ∧ _
      rw [Server.backendSend, hsend, ok_bind]
      simp only [pure_bind]
      by_cases hstatus : status = .refused
      · subst hstatus
        obtain ⟨sieve', hclear, hcore, hst⟩ := started_refused hs₀ hfind hhole hlength hsend
        refine ⟨none, _, ?_, hcore, hst.of_useMemory rfl⟩
        rw [if_pos rfl, hhole]
        change (sieve.clear hole >>= _) = _
        rw [hclear, ok_bind]
        rfl
      · obtain ⟨hcore, hst⟩ := started_ok hs₀ hfind hhole hlength hstatus hsend
        refine ⟨_, _, ?_, hcore, hst.of_useMemory rfl⟩
        rw [if_neg hstatus]
        rfl

namespace Started

variable {route : RouteId} {type : HybiType} {res : Option HybiId}
  (hst : Started cfg route type s res s')

include hst

/-- Only the new connection starts to run. -/
lemma running_iff (hs : s.Core cfg) : s'.Running g ↔ s.Running g ∨ res = some g := by
  cases hst with
  | failed => simp [Running]
  | refused _ _ _ hstarted hstops =>
    rw [Running, hstarted, hstops]
    simp [Running]
  | started _ _ _ _ hstarted hstops =>
    rw [Running, hstarted, hstops]
    by_cases hg : g = s.next
    · subst hg
      simp [(hs.fresh s.next le_rfl).2]
    · simp [Running, hg, Ne.symm hg]

lemma info_eq (hg : g ≠ s.next) : s'.info g = s.info g := by
  cases hst with
  | failed => rfl
  | refused _ _ hinfo => exact hinfo g hg
  | started _ _ _ hinfo => exact hinfo g hg

lemma live_iff : s'.Live g ↔ s.Live g ∨ res = some g := by
  cases hst with
  | failed => exact (or_iff_left (by simp)).symm
  | refused hlive => exact (hlive g).trans (or_iff_left (by simp)).symm
  | started _ hlive => exact (hlive g).trans (or_congr_right (by rw [Option.some.injEq, eq_comm]))

lemma intact (hs : s.Core cfg) (hi : s.Intact) : s'.Intact := by
  intro g hg
  exact hst.live_iff.mpr (((hst.running_iff hs).mp hg).imp_left (hi g))

/-- No connection loses a reference of its own. -/
lemma owned_le (hs : s.Core cfg) : s.owned g ≤ s'.owned g := by
  cases hst with
  | failed => exact le_rfl
  | refused _ _ _ hstarted hstops => rw [owned, owned, hstarted, hstops]
  | started _ _ _ _ hstarted hstops =>
    rw [owned, owned, hstarted, hstops]
    by_cases hg : g = s.next
    · subst hg
      simp [(hs.fresh s.next le_rfl).1]
    · rw [Function.update_of_ne hg]

end Started

end Server

end Zerogw
