import Zerogw.Server.Runs

/-!
# Requests are freed once

Every reference on a long-poll request is owed to somebody: to libwebsite until its callback has
run, to the connection where the request is parked, or to a backend that has accepted the body. In
every run in which libwebsite does not give up the request while it is parked and memory does not
run out for its body, the reference count is the number of these references, and the request is
freed when there are none.
-/

namespace Zerogw

open Execution

namespace Request

variable {q q' : Request} {taken taken' : Nat}

/-- The reference count is what is owed, and the request has been freed once if that is nothing. -/
structure Balanced (taken : Nat) (q : Request) : Prop where
  refs : q.owed + taken = q.refcnt + q.released
  freed : q.freed = if q.refcnt = 0 then 1 else 0

namespace Balanced

/-- Nothing about the references changes. -/
lemma of_eq (hq : q.Balanced taken) (hf : q'.finished = q.finished) (hh : q'.hybi = q.hybi)
    (hr : q'.refcnt = q.refcnt) (hrel : q'.released = q.released) (hfreed : q'.freed = q.freed) :
    q'.Balanced taken := by
  refine ⟨?_, ?_⟩
  · rw [owed, hf, hh, hr, hrel]
    exact hq.refs
  · rw [hfreed, hr]
    exact hq.freed

/-- A reference is taken for somebody. -/
lemma incref (hq : q.Balanced taken) (hpos : 0 < q.refcnt) (hr : q'.refcnt = q.refcnt + 1)
    (howed : q'.owed + taken' = q.owed + taken + 1) (hrel : q'.released = q.released)
    (hfreed : q'.freed = q.freed) : q'.Balanced taken' := by
  have hrefs := hq.refs
  refine ⟨by omega, ?_⟩
  rw [hfreed, hq.freed, if_neg (by omega), if_neg (by omega)]

/-- A reference is given back. -/
lemma decref (hq : q.Balanced taken) (hpos : 0 < q.refcnt) (hr : q'.refcnt = q.refcnt)
    (howed : q'.owed + q.released + 1 = q.owed + q'.released) (hfreed : q'.freed = q.freed) :
    q'.decref.Balanced taken := by
  have hrefs := hq.refs
  have hnone : q'.freed = 0 := by rw [hfreed, hq.freed, if_neg (by omega)]
  have hcount : q'.decref.freed = if q'.decref.refcnt = 0 then 1 else 0 := by
    rw [decref_refcnt]
    rw [Request.decref]
    split_ifs
    · exact congrArg (· + 1) hnone
    · exact hnone
  refine ⟨?_, hcount⟩
  rw [owed, decref_finished, decref_hybi, decref_refcnt, decref_released, ← owed]
  omega

/-- The count is zero when libwebsite is done with the request and the backends have given back its
body, and at no other time. -/
lemma refcnt_eq_zero (hq : q.Balanced taken) (hle : q.released ≤ taken) :
    q.refcnt = 0 ↔ q.finished = true ∧ q.released = taken := by
  have hrefs := hq.refs
  rw [owed] at hrefs
  cases hf : q.finished with
  | true =>
    rw [hf, if_pos rfl] at hrefs
    constructor
    · exact fun hr => ⟨rfl, by omega⟩
    · rintro ⟨-, hrel⟩
      omega
  | false =>
    rw [hf, if_neg (by decide)] at hrefs
    refine iff_of_false (fun hr => ?_) (fun hn => by cases hn.1)
    split_ifs at hrefs <;> omega

end Balanced

end Request

namespace Server

variable {cfg : Config} {env : Env} {s s' : Server} {h : HybiId} {r : ReqId}
  {allow : Mark → Prop} {w w' : Option HybiId} {P : Polling}

/-- The references on a request that has arrived are balanced. -/
def Balanced (r : ReqId) (s : Server) : Prop :=
  r < s.polling.next → (s.polling.request r).Balanced (s.taken r)

lemma Balanced.of_eq (hI : s.Balanced r) (hnext : s'.polling.next = s.polling.next)
    (hrequest : s'.polling.request r = s.polling.request r) (htaken : s'.taken r = s.taken r) :
    s'.Balanced r := by
  intro hr
  rw [hrequest, htaken]
  exact hI (hnext ▸ hr)

/-- One request changes. -/
lemma Balanced.setRequest (hI : s.Balanced r) {r' : ReqId} {q : Request}
    (hq : r' = r → (s.polling.request r).Balanced (s.taken r) → q.Balanced (s.taken r)) :
    Balanced r { s with polling := s.polling.setRequest r' q } := by
  intro hr
  by_cases hr' : r = r'
  · subst hr'
    show ((s.polling.setRequest r q).request r).Balanced (s.taken r)
    rw [Polling.setRequest_request_self]
    exact hq rfl (hI hr)
  · show ((s.polling.setRequest r' q).request r).Balanced (s.taken r)
    rw [Polling.setRequest_request_of_ne hr']
    exact hI hr

section

variable (hs : s.Sound cfg) (hI : s.Balanced r)

include hs hI

/-- A parked request is answered: the reference of its connection is given back. -/
lemma Balanced.answer {r' : ReqId} {rep : Reply} (hcur : (s.polling.comet h).curRequest = some r') :
    Balanced r { s with polling := s.polling.answer r' rep } := by
  refine hI.setRequest fun hr hq => ?_
  subst hr
  obtain ⟨hh, hf⟩ := (hs.links.parked h r').mp hcur
  refine hq.decref ((hs.refs r').refcnt_pos hf) rfl ?_ rfl
  simp only [Request.owed, hh, hf, Option.isSome_some, Option.isSome_none, if_true, if_false,
    Bool.false_eq_true]
  omega

lemma PollMove.balanced (hallow : ¬ allow (.aborted r)) (hm : PollMove cfg allow s w P w') :
    Balanced r { s with polling := P } := by
  cases hm with
  | @arrived q ha hh hf ht href hrel hfreed =>
    intro hr
    by_cases hr' : r = s.polling.next
    · subst hr'
      have hfresh := (hs.refs s.polling.next).refs
      rw [hs.links.fresh _ le_rfl] at hfresh
      have hnone : s.taken s.polling.next = 0 := by
        simp only [Request.owed, Polling.noRequest, if_true] at hfresh
        omega
      show ((s.polling.setRequest s.polling.next q).request s.polling.next).Balanced _
      rw [Polling.setRequest_request_self]
      refine ⟨?_, by rw [hfreed, href]; rfl⟩
      show q.owed + s.taken s.polling.next = q.refcnt + q.released
      rw [Request.owed, hf, hh, href, hrel, hnone]
      rfl
    · show ((s.polling.setRequest s.polling.next q).request r).Balanced (s.taken r)
      rw [Polling.setRequest_request_of_ne hr']
      exact hI (lt_of_le_of_ne (Nat.lt_succ_iff.mp hr) hr')
  | @replied r' rep ha hf =>
    refine hI.setRequest fun hr hq => ?_
    subst hr
    exact hq.of_eq rfl rfl rfl rfl rfl
  | dismissed ha hw hcur => exact hI.answer hs hcur
  | acked => exact hI
  | @parked h r' args ha hroute hw hf hh =>
    refine hI.setRequest fun hr hq => ?_
    subst hr
    refine hq.incref ((hs.refs r').refcnt_pos hf) rfl ?_ rfl rfl
    simp only [Request.owed, hh, hf, Option.isSome_some, Option.isSome_none, if_true, if_false,
      Bool.false_eq_true]
    omega
  | woken => exact hI
  | wokenInVain => exact hI
  | served ha hcur => exact hI.answer hs hcur
  | @aborted h r' ha hallow' hcur =>
    refine hI.setRequest fun hr => ?_
    subst hr
    exact absurd hallow' hallow
  | @finished r' ha hf hh =>
    refine hI.setRequest fun hr hq => ?_
    subst hr
    refine hq.decref ((hs.refs r').refcnt_pos hf) rfl ?_ rfl
    simp only [Request.owed, hh, hf, Option.isSome_none, if_true, if_false, Bool.false_eq_true]
    omega
  | @released r' ha hrel =>
    refine hI.setRequest fun hr hq => ?_
    subst hr
    have hrefs := hq.refs
    refine hq.decref ?_ rfl ?_ rfl
    · rw [Request.owed] at hrefs
      split_ifs at hrefs <;> omega
    · show (s.polling.request r').owed + _ + 1 = (s.polling.request r').owed + _
      push_cast
      omega

lemma Move.balanced (hallow : ¬ allow (.aborted r)) (hleaks : ¬ allow (.leaks r))
    (hm : Move cfg env allow w s w' s') : s'.Balanced r := by
  cases hm with
  | polling hP => exact hP.balanced hs hI hallow
  | other hact => exact hI.of_eq (by rw [hact.polling]) (by rw [hact.polling]) (hact.taken r)
  | pushed => exact hI
  | @offered b k h r' status ha har hl hk hf hsend hstatus =>
    obtain ⟨hself, hother⟩ := taken_of_offer hsend
    intro hr
    by_cases hr' : r = r'
    · subst hr'
      show ((s.polling.incref r).request r).Balanced (taken { s with backend := b } r)
      rw [Polling.incref, Polling.setRequest_request_self, hself,
        if_neg (hstatus.resolve_right hleaks)]
      refine (hI hr).incref ((hs.refs r).refcnt_pos hf) rfl ?_ rfl rfl
      rw [Nat.cast_succ, ← add_assoc]
      rfl
    · show ((s.polling.incref r').request r).Balanced (taken { s with backend := b } r)
      rw [Polling.incref, Polling.setRequest_request_of_ne hr', hother r hr']
      exact hI hr
  | @gone h P l _ ha hl hP hlog hst =>
    have hpolling : s'.polling = P := hst.polling
    have hshut : Balanced r { s with polling := P } := by
      rcases hP with ⟨-, rfl⟩ | ⟨-, rfl⟩
      · exact hI
      · cases hcur : (s.polling.comet h).curRequest with
        | none =>
          rw [Polling.shut_of_none hcur]
          exact hI
        | some r' =>
          rw [Polling.shut_of_some hcur]
          exact hI.answer hs hcur
    exact hshut.of_eq (by rw [hpolling]) (by rw [hpolling]) (hst.taken_eq r)
  | started ha hst hP =>
    obtain _ | _ | ⟨-, -, -, -, -, -, -, -, hpolling, -, -, -, -, -, status, -, hcalls⟩ := hst
    refine hI.of_eq ?_ ?_ (taken_append hcalls (by simp))
    · rcases hP with ⟨-, rfl⟩ | ⟨-, rfl⟩ <;> rfl
    · rcases hP with ⟨-, rfl⟩ | ⟨-, rfl⟩ <;> rfl
  | unstarted ha hst =>
    obtain _ | ⟨-, -, -, -, -, hpolling, -, -, -, -, -, hcalls⟩ := hst
    · exact hI.of_eq rfl rfl rfl
    · exact hI.of_eq (by rw [hpolling]) (by rw [hpolling]) (taken_append hcalls (by simp))
  | tables => exact hI
  | settled => exact hI

end

/-- The copies of a request's body that ZeroMQ has taken or that wait for it. -/
noncomputable def copies (r : ReqId) (s : Server) : Nat :=
  tally (fun m : BackendMsg => m.msg = .request r)
    fun k => (s.backend.socks k).sent.map Sent.msg ++ (s.backend.socks k).queue

lemma taken_eq_copies (hs : s.Core cfg) (r : ReqId) : s.taken r = s.copies r := by
  have haccepted : ∀ k, Backend.acceptedOn k s.backend.calls =
      ((s.backend.calls.filter fun c => c.status != .refused).filter fun c => c.sock = k).map
        Call.msg := by
    intro k
    rw [Backend.acceptedOn, List.filter_filter]
  have hmap : s.copies r = tally (fun c : Call => c.msg.msg = .request r) fun k =>
      (s.backend.calls.filter fun c => c.status != .refused).filter fun c => c.sock = k := by
    rw [copies, tally, tally]
    congr 1
    funext k
    rw [hs.inOrder.order, haccepted, List.countP_map]
    rfl
  rw [hmap, (tally_fibers Call.sock _).2, List.countP_filter, taken]

/-- In every run in which the request is not given up while it is parked, and its body is not
offered to a backend that cannot take it at once while there is no memory to queue it, it is freed
once, when libwebsite is done with it and ZeroMQ has given back its body wherever that has been
passed on; its reference count is not zero before. -/
theorem freed_exactly_once
    (hr : ReachableVia (step cfg) (fun i s => ¬ Aborts r i s ∧ ¬ Leaks cfg r i s) (init cfg) s)
    (harrived : r < s.polling.next) :
    ((s.polling.request r).refcnt = 0 ↔
      (s.polling.request r).finished = true ∧ (s.polling.request r).released = s.copies r) ∧
    (s.polling.request r).freed = if (s.polling.request r).refcnt = 0 then 1 else 0 := by
  have hs := sound_of_reachable hr
  have hI := keeps_of_reachable (fun x => x = .aborted r ∨ x = .leaks r) (fun _ s => s.Balanced r)
    (by rintro i s x hC (rfl | rfl); exacts [hC.1, hC.2]) (fun hr => absurd hr (Nat.not_lt_zero _))
    (fun env allow w s w' s' hallow hs _ hm hI =>
      hm.balanced hs hI (hallow _ (Or.inl rfl)) (hallow _ (Or.inr rfl))) hr harrived
  refine ⟨?_, hI.freed⟩
  rw [← taken_eq_copies hs.core]
  exact hI.refcnt_eq_zero (hs.refs r).released_le

/-- The callback of libwebsite for a request. -/
def finishes (r : ReqId) : Input := ⟨.requestFinish r, stalledEnv⟩

/-- No body is lost for lack of memory if nothing is allocated in vain. -/
lemma not_leaks_of_memory {i : Input} (hmemory : i.env.memory = []) : ¬ Leaks cfg r i s := by
  rintro ⟨-, -, -, -, -, -, -, -, -, -, -, hmem⟩
  simp [expecting, Backend.hasMemory, hmemory] at hmem

/-- Long-poll requests are not callbacks of libwebsite. -/
lemma not_aborts_arrives {args : CometArgs} {body : Bytes} : ¬ Aborts r (arrives args body) s := by
  rintro ⟨hevent, -⟩
  cases hevent

/-- A request that is not parked is not given up. -/
lemma not_aborts_of_free {i : Input} (hh : (s.polling.request r).hybi = none) : ¬ Aborts r i s := by
  rintro ⟨-, h, hpark⟩
  have hsome := hpark.1
  rw [hh] at hsome
  cases hsome

/-- A request waits for messages after its body has been queued for a backend, and a newer request
takes its place. It is freed when libwebsite is done with it and ZeroMQ has sent its body. -/
theorem freed_exactly_once_superseded : ∃ s : Server, s.copies 1 = 1 ∧
    (s.polling.request 1).finished = true ∧ (s.polling.request 1).freed = 1 := by
  have hbefore : ∀ i ∈ [arrives connectArgs [], arrives (pollArgs 0 3 .single .single) [7],
      arrives (pollArgs 0 3 .single .single) []], ∀ s,
      ¬ Aborts 1 i s ∧ ¬ Leaks smallConfig 1 i s := by
    intro i hi s
    simp only [List.mem_cons, List.not_mem_nil, or_false] at hi
    obtain rfl | rfl | rfl := hi <;> exact ⟨not_aborts_arrives, not_leaks_of_memory rfl⟩
  let takes : Input :=
    ⟨.backendUnqueue (.forward 0) true, { stalledEnv with outcomes := [.accepted, .accepted] }⟩
  let releases : Input := ⟨.requestRelease (.forward 0) 1, stalledEnv⟩
  obtain ⟨s, hr, hview⟩ := exists_of_small_run _
    (fun s => ((s.polling.request 1).hybi,
      (run (step smallConfig) [finishes 1, takes, releases] s).map fun s' =>
        (s'.polling.next, s'.taken 1, (s'.polling.request 1).finished,
          (s'.polling.request 1).refcnt)))
    (none, .ok (3, 1, true, 0)) hbefore rfl
  obtain ⟨hh, hview⟩ := Prod.mk.inj hview
  obtain ⟨s', hrun, hview⟩ := exists_of_map_eq_ok hview
  simp only [Prod.mk.injEq] at hview
  obtain ⟨hnext, htaken, hfinished, href⟩ := hview
  obtain ⟨s₁, hstep, hrest⟩ := bind_eq_ok.mp hrun
  have hr₁ := hr.step ⟨not_aborts_of_free hh, not_leaks_of_memory rfl⟩ hstep
  have hafter : ∀ i ∈ [takes, releases], ∀ s, ¬ Aborts 1 i s ∧ ¬ Leaks smallConfig 1 i s := by
    intro i hi s
    simp only [List.mem_cons, List.not_mem_nil, or_false] at hi
    refine ⟨fun ha => ?_, ?_⟩
    · obtain rfl | rfl := hi <;> cases ha.1
    · obtain rfl | rfl := hi <;> exact not_leaks_of_memory rfl
  have hr' := hr₁.of_run hafter hrest
  obtain ⟨-, hfreed⟩ := freed_exactly_once hr' (by rw [hnext]; decide)
  refine ⟨s', ?_, hfinished, by rw [hfreed, if_pos href]⟩
  rw [← taken_eq_copies (sound_of_reachable hr').core, htaken]

/-- A request that nobody refers to any more has been freed. -/
def FreedWhenDone (C : Input → Server → Prop) : Prop :=
  ∀ s : Server, ReachableVia (step smallConfig) C (init smallConfig) s → ∀ r < s.polling.next,
    (s.polling.request r).finished = true → (s.polling.request r).released = s.copies r →
      (s.polling.request r).refcnt = 0 ∧ (s.polling.request r).freed = 1

/-- Neither condition can be left out. If the client goes away while its request is parked, the
callback takes one of the two references, and nobody takes the other; if there is no memory for the
body of a request, nobody takes the reference that was meant for the backend. -/
theorem aborted_or_unsent_request_leaks :
    ¬ FreedWhenDone (fun i s => ∀ r, ¬ Leaks smallConfig r i s) ∧
      ¬ FreedWhenDone (fun i s => ∀ r, ¬ Aborts r i s) := by
  constructor
  · intro hall
    obtain ⟨s, hr, hview⟩ := exists_of_small_run (C := fun i s => ∀ r, ¬ Leaks smallConfig r i s)
      [arrives connectArgs [], arrives (pollArgs 0 3 .single .single) [], finishes 1]
      (fun s => (s.polling.next, s.taken 1, (s.polling.request 1).finished,
        (s.polling.request 1).released, (s.polling.request 1).refcnt))
      (2, 0, true, 0, 1) (fun i hi s r => by
        simp only [List.mem_cons, List.not_mem_nil, or_false] at hi
        obtain rfl | rfl | rfl := hi <;> exact not_leaks_of_memory rfl) rfl
    simp only [Prod.mk.injEq] at hview
    obtain ⟨hnext, htaken, hfinished, hreleased, href⟩ := hview
    rw [taken_eq_copies (sound_of_reachable hr).core] at htaken
    obtain ⟨hzero, -⟩ :=
      hall s hr 1 (by rw [hnext]; decide) hfinished (by rw [hreleased, htaken])
    rw [href] at hzero
    cases hzero
  · intro hall
    let forgets : Input :=
      ⟨.cometRequest 0 (str "POST") [7] none [] (some (pollArgs 0 0 .single .single)),
        { stalledEnv with memory := [false] }⟩
    obtain ⟨s, hr, hview⟩ := exists_of_small_run (C := fun i s => ∀ r, ¬ Aborts r i s)
      [arrives connectArgs [], forgets]
      (fun s => ((s.polling.request 1).hybi, (step smallConfig (finishes 1) s).map fun s' =>
        (s'.polling.next, s'.taken 1, (s'.polling.request 1).finished,
          (s'.polling.request 1).released, (s'.polling.request 1).refcnt)))
      (none, .ok (2, 0, true, 0, 1)) (fun i hi s r ha => by
        simp only [List.mem_cons, List.not_mem_nil, or_false] at hi
        obtain rfl | rfl := hi <;> cases ha.1) rfl
    obtain ⟨hh, hview⟩ := Prod.mk.inj hview
    obtain ⟨s', hstep, hview⟩ := exists_of_map_eq_ok hview
    simp only [Prod.mk.injEq] at hview
    obtain ⟨hnext, htaken, hfinished, hreleased, href⟩ := hview
    have hr' := hr.step (fun r ha => ?_) hstep
    · rw [taken_eq_copies (sound_of_reachable hr').core] at htaken
      obtain ⟨hzero, -⟩ :=
        hall s' hr' 1 (by rw [hnext]; decide) hfinished (by rw [hreleased, htaken])
      rw [href] at hzero
      cases hzero
    · obtain rfl : r = 1 := by
        have hevent := ha.1
        cases hevent
        rfl
      exact not_aborts_of_free hh ha

end Server

end Zerogw
