import Zerogw.Library.Tally
import Zerogw.Backend.Properties

/-!
# The reference counts of connections

A connection is referenced by its owner until it is stopped, and by every queue entry that names it.
While nobody gives up a reference that is not theirs, nobody touches a freed connection, and
draining a queue never fails. A connection that is stopped again is owned a negative number of
times: then its count falls below its queue entries.
-/

namespace Zerogw

open Execution

namespace Backend

variable {render : BackendMsg → List Frame} {k : SockId} {m : BackendMsg} {force : Bool}
  {b b' : Backend} {status : SendStatus} {owned : HybiId → ℤ} {h : HybiId}

/-- All queues. -/
def queues (b : Backend) : SockId → List BackendMsg := fun k => (b.socks k).queue

/-- The entry names connection `h`. -/
def names (h : HybiId) (m : BackendMsg) : Bool := m.hybi = h

@[simp] lemma names_self : names m.hybi m = true := decide_eq_true rfl

lemma names_of_ne (hh : m.hybi ≠ h) : ¬ names h m = true := by
  rw [names, decide_eq_true_iff]
  exact hh

/-- Every reference count is what its owners hold plus the number of queue entries. -/
structure Counts (owned : HybiId → ℤ) (b : Backend) : Prop where
  finite : FinitelyMany b.queues
  refcnt : ∀ h, (b.refcnt h : ℤ) = owned h + tally (names h) b.queues

lemma Counts.of_eq (hb : Counts owned b) (hq : b'.queues = b.queues)
    (hr : b'.refcnt = b.refcnt) : Counts owned b' :=
  ⟨by rw [hq]; exact hb.finite, fun h => by rw [hq, hr]; exact hb.refcnt h⟩

lemma Counts.init (capacity : SockId → Nat) : Counts (fun _ => 0) (Backend.init capacity) := by
  have hq : (Backend.init capacity).queues = fun _ => [] := rfl
  exact ⟨by rw [hq]; exact finitelyMany_nil, fun h => by rw [hq, tally_nil]; rfl⟩

/-- A queued message is a reference. -/
lemma Counts.refcnt_ne_zero_of_mem (hb : Counts owned b) (hm : m ∈ (b.socks k).queue)
    (hh : 0 ≤ owned m.hybi) : b.refcnt m.hybi ≠ 0 := by
  have hle := countP_le_tally (k := k) (p := names m.hybi) hb.finite
  have hpos : 0 < (b.queues k).countP (names m.hybi) :=
    List.countP_pos_iff.mpr ⟨m, hm, names_self⟩
  have := hb.refcnt m.hybi
  omega

lemma Counts.refcnt_ne_zero_of_owned (hb : Counts owned b) (hh : 0 < owned h) :
    b.refcnt h ≠ 0 := by
  have := hb.refcnt h
  omega

/-! ### One call -/

lemma queues_queued : (queued k m b).queues
    = Function.update b.queues k ((b.socks k).queue ++ [m]) := by
  funext j
  by_cases hj : j = k
  · subst hj
    simp [queues]
  · simp [queues, hj]

lemma Counts.queued (hb : Counts owned b) : Counts owned (queued k m b) := by
  refine ⟨by rw [queues_queued]; exact hb.finite.update, fun h => ?_⟩
  have hupdate := tally_update (k := k) (p := names h) (l := (b.socks k).queue ++ [m]) hb.finite
  rw [List.countP_append, List.countP_singleton] at hupdate
  rw [queues_queued, queued_refcnt]
  have hold : (b.queues k).countP (names h) = (b.socks k).queue.countP (names h) := rfl
  have hcount := hb.refcnt h
  by_cases hh : m.hybi = h
  · subst hh
    rw [Function.update_self]
    rw [if_pos names_self] at hupdate
    omega
  · rw [Function.update_of_ne (Ne.symm hh)]
    rw [if_neg (names_of_ne hh)] at hupdate
    omega

lemma Counts.refused (hb : Counts owned b) : Counts owned (refused k force b) :=
  hb.of_eq (funext fun j => by simp [queues]) refused_refcnt

lemma Counts.sendNow (hb : Counts owned b) : Counts owned (sendNow render k m b) := by
  refine hb.of_eq (funext fun j => ?_) rfl
  by_cases hj : j = k
  · subst hj
    simp [queues, Backend.sendNow, handOver]
  · simp [queues, Backend.sendNow, handOver, hj]

lemma Counts.logCall {c : Call} (hb : Counts owned b) : Counts owned (b.logCall c) :=
  hb.of_eq rfl rfl

/-- What a call leaves alone: the pause flag, every limit, and all queue entries but possibly one
that is new. It uses the next answers about memory, if any. -/
structure Sends (m : BackendMsg) (b b' : Backend) : Prop where
  paused : b'.paused = b.paused
  memory : ∀ x ∈ b'.memory, x ∈ b.memory
  capacity : ∀ j, (b'.socks j).capacity = (b.socks j).capacity
  entries : ∀ j, ∀ x ∈ (b'.socks j).queue, x ∈ (b.socks j).queue ∨ x = m
  counts : ∀ owned, Counts owned b → Counts owned b'
  inOrder : InOrder b → InOrder b'
  alive : b.refcnt m.hybi ≠ 0 → b'.refcnt m.hybi ≠ 0

lemma Sends.refl (m : BackendMsg) (b : Backend) : Sends m b b :=
  ⟨rfl, fun _ hx => hx, fun _ => rfl, fun _ _ hx => Or.inl hx, fun _ hb => hb, fun hb => hb,
    fun h => h⟩

lemma Sends.trans {b'' : Backend} (h₁ : Sends m b b') (h₂ : Sends m b' b'') : Sends m b b'' where
  paused := h₂.paused.trans h₁.paused
  memory x hx := h₁.memory x (h₂.memory x hx)
  capacity j := (h₂.capacity j).trans (h₁.capacity j)
  entries j x hx := by
    rcases h₂.entries j x hx with hx | hx
    · exact h₁.entries j x hx
    · exact Or.inr hx
  counts owned hb := h₂.counts owned (h₁.counts owned hb)
  inOrder hb := h₂.inOrder (h₁.inOrder hb)
  alive h := h₂.alive (h₁.alive h)

lemma Sends.sendNow (hst : ¬ Stalled k b) :
    Sends m b ((sendNow render k m b).logCall ⟨k, m, force, .sent⟩) := by
  have hsock : ∀ j, ((Backend.sendNow render k m b).socks j).queue = (b.socks j).queue ∧
      ((Backend.sendNow render k m b).socks j).capacity = (b.socks j).capacity := by
    intro j
    by_cases hj : j = k
    · subst hj
      simp [Backend.sendNow, handOver]
    · simp [Backend.sendNow, handOver, hj]
  refine ⟨rfl, fun _ hx => hx, fun j => (hsock j).2, fun j x hx => Or.inl ?_,
    fun _ hb => hb.sendNow.logCall, fun hb => hb.sendNow hst, fun h => h⟩
  rwa [← (hsock j).1]

lemma Sends.queued : Sends m b ((queued k m b).logCall ⟨k, m, force, .queued⟩) := by
  have hsock : ∀ j, ((Backend.queued k m b).socks j).capacity = (b.socks j).capacity ∧
      ∀ x ∈ ((Backend.queued k m b).socks j).queue, x ∈ (b.socks j).queue ∨ x = m := by
    intro j
    by_cases hj : j = k
    · subst hj
      simp
    · simp +contextual [hj]
  exact ⟨by simp [logCall], fun x hx => List.mem_of_mem_tail (by
      simpa [logCall, Backend.queued, Backend.append, incref, useMemory] using hx),
    fun j => (hsock j).1, fun j => (hsock j).2, fun _ hb => hb.queued.logCall,
    fun hb => hb.queued, fun h => by simp [logCall]⟩

lemma memory_of_refused {x : Bool} (hx : x ∈ (refused k force b).memory) : x ∈ b.memory := by
  rw [refused, decline] at hx
  split_ifs at hx
  · simpa using hx
  · exact List.mem_of_mem_tail (by simpa [useMemory] using hx)

lemma Sends.refused : Sends m b ((refused k force b).logCall ⟨k, m, force, .refused⟩) :=
  ⟨by simp [logCall], fun _ hx => memory_of_refused hx, fun j => by simp [logCall],
    fun j x hx => Or.inl (by simpa [logCall] using hx), fun _ hb => hb.refused.logCall,
    fun hb => hb.refused, fun h => by simpa [logCall] using h⟩

/-- `backend_send` on a connection that is not freed returns, and records one call. It refuses
exactly a message that cannot be sent at once and either is forced and finds the queue full or gets
no memory for its entry. -/
lemma send_ok (render : BackendMsg → List Frame) (k : SockId) (force : Bool)
    (hm : b.refcnt m.hybi ≠ 0) :
    ∃ status b', send render k m force b = .ok (status, b') ∧ Sends m b b' ∧
      b'.calls = b.calls ++ [⟨k, m, force, status⟩] ∧
      (status = .refused ↔ Stalled k b ∧ Refuses k force b) := by
  rcases send_eq render k m force b hm with ⟨hst, he⟩ | ⟨hst, href, he⟩ | ⟨hst, href, he⟩
  · exact ⟨_, _, he, .sendNow hst, calls_of_send he, by simp [hst]⟩
  · exact ⟨_, _, he, .queued, calls_of_send he, by simp [href]⟩
  · exact ⟨_, _, he, .refused, calls_of_send he, by simp [hst, href]⟩

/-- A call leaves the other sockets alone. -/
lemma send_socks_of_ne (hm : b.refcnt m.hybi ≠ 0)
    (hsend : send render k m force b = .ok (status, b'))
    {j : SockId} (hj : j ≠ k) : b'.socks j = b.socks j := by
  rcases send_eq render k m force b hm with ⟨-, he⟩ | ⟨-, -, he⟩ | ⟨-, -, he⟩
  · cases he.symm.trans hsend
    simp [logCall, sendNow, handOver, hj]
  · cases he.symm.trans hsend
    simp [logCall, hj]
  · cases he.symm.trans hsend
    simp [logCall]

/-! ### What the calls hand over -/

/-- Message `m` is sent to the sockets `ks`, and nothing else happens to any socket or
connection. -/
structure Posts (render : BackendMsg → List Frame) (ks : List SockId) (m : BackendMsg)
    (b b' : Backend) : Prop where
  sent : ∀ j, ∃ new, (b'.socks j).sent = (b.socks j).sent ++ new ∧
    ∀ x ∈ new, x.msg = m ∧ x.frames = render m
  entries : ∀ j, ∀ x ∈ (b'.socks j).queue, x ∈ (b.socks j).queue ∨ x = m
  others : ∀ j, j ∉ ks → b'.socks j = b.socks j
  refcnt : ∀ h, h ≠ m.hybi → b'.refcnt h = b.refcnt h

lemma Posts.refl {ks : List SockId} : Posts render ks m b b :=
  ⟨fun _ => ⟨[], by simp⟩, fun _ _ hx => Or.inl hx, fun _ _ => rfl, fun _ _ => rfl⟩

lemma Posts.trans {b'' : Backend} {ks : List SockId} (h₁ : Posts render ks m b b')
    (h₂ : Posts render ks m b' b'') : Posts render ks m b b'' where
  sent j := by
    obtain ⟨new₁, hnew₁, hall₁⟩ := h₁.sent j
    obtain ⟨new₂, hnew₂, hall₂⟩ := h₂.sent j
    refine ⟨new₁ ++ new₂, by rw [hnew₂, hnew₁, List.append_assoc], fun x hx => ?_⟩
    rcases List.mem_append.mp hx with hx | hx
    · exact hall₁ x hx
    · exact hall₂ x hx
  entries j x hx := by
    rcases h₂.entries j x hx with hx | hx
    · exact h₁.entries j x hx
    · exact Or.inr hx
  others j hj := (h₂.others j hj).trans (h₁.others j hj)
  refcnt h hh := (h₂.refcnt h hh).trans (h₁.refcnt h hh)

lemma Posts.mono {ks ks' : List SockId} (h : Posts render ks m b b') (hks : ∀ j ∈ ks, j ∈ ks') :
    Posts render ks' m b b' :=
  ⟨h.sent, h.entries, fun j hj => h.others j fun hmem => hj (hks j hmem), h.refcnt⟩

/-- Only the frames of the message matter. -/
lemma Posts.congr {render' : BackendMsg → List Frame} {ks : List SockId}
    (h : Posts render ks m b b') (hrender : render m = render' m) : Posts render' ks m b b' :=
  ⟨hrender ▸ h.sent, h.entries, h.others, h.refcnt⟩

/-- An ordinary message is refused only for lack of memory, when it cannot be sent at once. -/
lemma stalled_of_refused (h : send render k m false b = .ok (.refused, b')) :
    Stalled k b ∧ b.hasMemory = false := by
  rcases send_eq render k m false b (refcnt_of_send h) with ⟨_, he⟩ | ⟨_, _, he⟩ | ⟨hst, href, he⟩
  · cases he.symm.trans h
  · cases he.symm.trans h
  · exact ⟨hst, by simpa [Refuses] using href⟩

/-- A refused message leaves everything but the answers and the log as it is. -/
lemma eq_of_refused (h : send render k m force b = .ok (.refused, b')) :
    b'.socks = b.socks ∧ b'.refcnt = b.refcnt ∧
      b'.calls = b.calls ++ [⟨k, m, force, .refused⟩] ∧
      (InOrder b → InOrder b') := by
  rcases send_eq render k m force b (refcnt_of_send h) with ⟨_, he⟩ | ⟨_, _, he⟩ | ⟨_, _, he⟩
  · cases he.symm.trans h
  · cases he.symm.trans h
  · cases he.symm.trans h
    exact ⟨by simp [logCall], by simp [logCall], by simp [logCall], fun hb => hb.refused⟩

/-- A call does nothing but send its message. -/
lemma posts_of_send (h : send render k m force b = .ok (status, b')) :
    Posts render [k] m b b' := by
  have hm := refcnt_of_send h
  rcases send_eq render k m force b hm with ⟨-, he⟩ | ⟨-, -, he⟩ | ⟨-, -, he⟩
  · cases he.symm.trans h
    refine ⟨fun j => ?_, fun j x hx => Or.inl ?_, fun j hj => ?_, fun _ _ => rfl⟩
    · by_cases hj : j = k
      · subst hj
        exact ⟨[⟨m, render m, b.paused⟩], by simp [logCall, sendNow, handOver]⟩
      · exact ⟨[], by simp [logCall, sendNow, handOver, hj]⟩
    · by_cases hj : j = k
      · subst hj
        simpa [logCall, sendNow, handOver] using hx
      · simpa [logCall, sendNow, handOver, hj] using hx
    · have hj : j ≠ k := by simpa using hj
      simp [logCall, sendNow, handOver, hj]
  · cases he.symm.trans h
    refine ⟨fun j => ⟨[], ?_⟩, fun j x hx => ?_, fun j hj => ?_, fun h hh => ?_⟩
    · by_cases hj : j = k
      · subst hj
        simp [logCall]
      · simp [logCall, hj]
    · by_cases hj : j = k
      · subst hj
        simpa [logCall] using hx
      · exact Or.inl (by simpa [logCall, hj] using hx)
    · have hj : j ≠ k := by simpa using hj
      simp [logCall, hj]
    · simp [logCall, hh]
  · cases he.symm.trans h
    exact ⟨fun _ => ⟨[], by simp [logCall]⟩, fun j x hx => Or.inl (by simpa [logCall] using hx),
      fun _ _ => by simp [logCall], fun _ _ => by simp [logCall]⟩

/-- The limit decides about a call if no allocation fails: unless websockets are not paused and the
queue and the limit are empty, so that ZeroMQ decides, a message is refused exactly if it is forced
and the queue is full. -/
def Limited (b : Backend) (c : Call) : Prop :=
  false ∉ b.memory →
  b.paused = true ∨ (b.socks c.sock).queue ≠ [] ∨ 0 < (b.socks c.sock).capacity →
    (c.status = .refused ↔ c.force = true ∧
      (b.socks c.sock).capacity ≤ (b.socks c.sock).queue.length)

/-- The same message to several sockets, one after the other. -/
def sendTo (render : BackendMsg → List Frame) (m : BackendMsg) (force : Bool) :
    List SockId → Backend → Except Fault Backend
  | [], b => .ok b
  | k :: ks, b => do
    let (_, b') ← b.send render k m force
    sendTo render m force ks b'

lemma sendTo_posts {ks : List SockId} (h : sendTo render m force ks b = .ok b') :
    Posts render ks m b b' := by
  induction ks generalizing b with
  | nil =>
    cases h
    exact .refl
  | cons k ks ih =>
    rw [sendTo] at h
    obtain ⟨⟨status, b₁⟩, hsend, hrest⟩ := bind_eq_ok.mp h
    exact ((posts_of_send hsend).mono (by simp)).trans
      ((ih hrest).mono fun j hj => List.mem_cons_of_mem k hj)

lemma sendTo_ok (render : BackendMsg → List Frame) (force : Bool) {ks : List SockId}
    (hks : ks.Nodup) (hm : b.refcnt m.hybi ≠ 0) :
    ∃ b' cs, sendTo render m force ks b = .ok b' ∧ Sends m b b' ∧ b'.calls = b.calls ++ cs ∧
      cs.map (fun c => (c.sock, c.msg, c.force)) = (ks.map fun k => (k, m, force)) ∧
      ∀ c ∈ cs, Limited b c := by
  induction ks generalizing b with
  | nil => exact ⟨b, [], rfl, .refl m b, by simp, rfl, by simp⟩
  | cons k ks ih =>
    obtain ⟨hnew, hks⟩ := List.nodup_cons.mp hks
    obtain ⟨status, b₁, hsend, hS, hcalls, hstatus⟩ := send_ok render k force hm
    obtain ⟨b₂, cs, hrest, hS', hcalls', hcs, hlim⟩ := ih hks (hS.alive hm)
    have hmem' : false ∉ b.memory → false ∉ b₁.memory := fun h hx => h (hS.memory _ hx)
    refine ⟨b₂, ⟨k, m, force, status⟩ :: cs, ?_, hS.trans hS', ?_, by simp [hcs], ?_⟩
    · rw [sendTo, hsend, ok_bind]
      exact hrest
    · rw [hcalls', hcalls, List.append_assoc, List.singleton_append]
    · rintro c hc
      rcases List.mem_cons.mp hc with rfl | hc
      · intro hmem hdecided
        rw [hstatus, refuses_iff hmem]
        refine ⟨fun hr => hr.2, fun hr => ⟨?_, hr⟩⟩
        rcases hdecided with hp | hq | hcap
        · exact Or.inl hp
        · exact Or.inr (Or.inl hq)
        · refine Or.inr (Or.inl fun hempty => ?_)
          rw [hempty, List.length_nil] at hr
          exact absurd hcap (Nat.not_lt.mpr hr.2)
      · have hmem : c.sock ∈ ks := by
          have := List.mem_map_of_mem (f := fun c : Call => (c.sock, c.msg, c.force)) hc
          rw [hcs, List.mem_map] at this
          obtain ⟨j, hj, heq⟩ := this
          exact (Prod.mk.inj heq).1 ▸ hj
        have hsock : b₁.socks c.sock = b.socks c.sock := by
          apply send_socks_of_ne hm hsend
          rintro rfl
          exact hnew hmem
        intro hmem
        have hc := hlim c hc (hmem' hmem)
        rwa [hsock, hS.paused] at hc

/-- A reference to a connection that is not freed can be dropped, whoever owns it. -/
lemma Counts.decref (hb : Counts owned b) (hh : b.refcnt h ≠ 0) :
    ∃ b', b.decref h = .ok b' ∧ Counts (Function.update owned h (owned h - 1)) b' ∧
      b'.socks = b.socks ∧ b'.calls = b.calls ∧ b'.paused = b.paused ∧ b'.memory = b.memory := by
  refine ⟨_, decref_eq_ok.mpr ⟨hh, rfl⟩, ⟨hb.finite, fun g => ?_⟩, rfl, rfl, rfl, rfl⟩
  change ((Function.update b.refcnt h (b.refcnt h - 1) g : ℕ) : ℤ) = _ + tally (names g) b.queues
  have hcount := hb.refcnt g
  by_cases hg : g = h
  · subst hg
    rw [Function.update_self, Function.update_self]
    omega
  · rw [Function.update_of_ne hg, Function.update_of_ne hg, hcount]

/-- A new connection starts with one reference. -/
lemma Counts.start (hb : Counts owned b) (hfresh : b.refcnt h = owned h) :
    Counts (Function.update owned h 1) { b with refcnt := Function.update b.refcnt h 1 } := by
  refine ⟨hb.finite, fun g => ?_⟩
  change ((Function.update b.refcnt h 1 g : ℕ) : ℤ) = _ + tally (names g) b.queues
  have hcount := hb.refcnt g
  by_cases hg : g = h
  · subst hg
    rw [Function.update_self, Function.update_self]
    omega
  · rw [Function.update_of_ne hg, Function.update_of_ne hg, hcount]

/-! ### Writable sockets -/

lemma Counts.unqueueOne {rest : List BackendMsg} (hb : Counts owned b)
    (hq : (b.socks k).queue = m :: rest) (hm : b.refcnt m.hybi ≠ 0) :
    Counts owned (unqueueOne render k m b) := by
  have hqueues : (Backend.unqueueOne render k m b).queues = Function.update b.queues k rest := by
    funext j
    by_cases hj : j = k
    · subst hj
      simp [queues, Backend.unqueueOne, hq]
    · simp [queues, Backend.unqueueOne, hj]
  refine ⟨by rw [hqueues]; exact hb.finite.update, fun h => ?_⟩
  have hupdate := tally_update (k := k) (p := names h) (l := rest) hb.finite
  have hold : (b.queues k).countP (names h) = (m :: rest).countP (names h) := by
    rw [← hq]
    rfl
  rw [hold, List.countP_cons] at hupdate
  rw [hqueues]
  change ((Function.update b.refcnt m.hybi (b.refcnt m.hybi - 1) h : ℕ) : ℤ) = _
  have hcount := hb.refcnt h
  by_cases hh : m.hybi = h
  · subst hh
    rw [Function.update_self]
    rw [if_pos names_self] at hupdate
    omega
  · rw [Function.update_of_ne (Ne.symm hh)]
    rw [if_neg (names_of_ne hh)] at hupdate
    omega

/-- Queued messages are handed over on socket `k`, and no other socket is touched. -/
structure Hands (render : BackendMsg → List Frame) (k : SockId) (b b' : Backend) : Prop where
  sent : ∀ j, ∃ new, (b'.socks j).sent = (b.socks j).sent ++ new ∧
    ∀ x ∈ new, x.msg ∈ (b.socks j).queue ∧ x.frames = render x.msg
  entries : ∀ j, ∀ x ∈ (b'.socks j).queue, x ∈ (b.socks j).queue
  others : ∀ j, j ≠ k → b'.socks j = b.socks j

lemma Hands.of_socks (h : b'.socks = b.socks) : Hands render k b b' :=
  ⟨fun j => ⟨[], by rw [h]; simp⟩, fun j x hx => by rwa [h] at hx, fun j _ => by rw [h]⟩

lemma Hands.trans {b'' : Backend} (h₁ : Hands render k b b') (h₂ : Hands render k b' b'') :
    Hands render k b b'' where
  sent j := by
    obtain ⟨new₁, hnew₁, hall₁⟩ := h₁.sent j
    obtain ⟨new₂, hnew₂, hall₂⟩ := h₂.sent j
    refine ⟨new₁ ++ new₂, by rw [hnew₂, hnew₁, List.append_assoc], fun x hx => ?_⟩
    rcases List.mem_append.mp hx with hx | hx
    · exact hall₁ x hx
    · exact ⟨h₁.entries j _ (hall₂ x hx).1, (hall₂ x hx).2⟩
  entries j x hx := h₁.entries j x (h₂.entries j x hx)
  others j hj := (h₂.others j hj).trans (h₁.others j hj)

lemma unqueueOne_hands {rest : List BackendMsg} (hq : (b.socks k).queue = m :: rest) :
    Hands render k b (unqueueOne render k m b) := by
  refine ⟨fun j => ?_, fun j x hx => ?_, fun j hj => ?_⟩
  · by_cases hj : j = k
    · subst hj
      refine ⟨[⟨m, render m, b.paused⟩], by simp [unqueueOne], ?_⟩
      simp [hq]
    · exact ⟨[], by simp [unqueueOne, hj]⟩
  · by_cases hj : j = k
    · subst hj
      simp only [unqueueOne, Function.update_self] at hx
      exact List.mem_of_mem_tail hx
    · simpa only [unqueueOne, Function.update_of_ne hj] using hx
  · simp [unqueueOne, hj]

lemma drain_hands {ms : List BackendMsg} (hq : (b.socks k).queue = ms)
    (h : drain render k ms b = .ok b') : Hands render k b b' := by
  induction ms generalizing b with
  | nil =>
    cases h
    exact .of_socks rfl
  | cons m rest ih =>
    have hm : b.refcnt m.hybi ≠ 0 := by
      intro hm
      rw [drain, if_pos hm] at h
      cases h
    rw [drain_cons render k m rest b hm] at h
    split_ifs at h with hacc
    · exact (unqueueOne_hands hq).trans (ih (by simp [unqueueOne, hq]) h)
    · cases h
      exact .of_socks rfl

/-- `backend_unqueue` does nothing but hand over queued messages. -/
lemma unqueue_hands {pollout : Bool} (h : unqueue render k pollout b = .ok b') :
    Hands render k b b' := by
  unfold unqueue at h
  split_ifs at h
  · exact drain_hands rfl h
  · cases h
    exact .of_socks rfl

/-- What `backend_unqueue` leaves alone. -/
structure Drains (owned : HybiId → ℤ) (b b' : Backend) : Prop where
  counts : Counts owned b'
  calls : b'.calls = b.calls
  paused : b'.paused = b.paused
  memory : b'.memory = b.memory
  capacity : ∀ j, (b'.socks j).capacity = (b.socks j).capacity
  entries : ∀ j, ∀ x ∈ (b'.socks j).queue, x ∈ (b.socks j).queue

lemma Drains.refl (hb : Counts owned b) : Drains owned b b :=
  ⟨hb, rfl, rfl, rfl, fun _ => rfl, fun _ _ hx => hx⟩

lemma Drains.trans {b'' : Backend} (h₁ : Drains owned b b') (h₂ : Drains owned b' b'') :
    Drains owned b b'' where
  counts := h₂.counts
  calls := h₂.calls.trans h₁.calls
  paused := h₂.paused.trans h₁.paused
  memory := h₂.memory.trans h₁.memory
  capacity j := (h₂.capacity j).trans (h₁.capacity j)
  entries j x hx := h₁.entries j x (h₂.entries j x hx)

lemma Counts.unqueueOne_drains {rest : List BackendMsg} (hb : Counts owned b)
    (hq : (b.socks k).queue = m :: rest) (hm : b.refcnt m.hybi ≠ 0) :
    Drains owned b (Backend.unqueueOne render k m b) := by
  refine ⟨hb.unqueueOne hq hm, rfl, rfl, rfl, fun j => ?_, fun j x hx => ?_⟩
  · by_cases hj : j = k
    · subst hj
      simp [Backend.unqueueOne]
    · simp [Backend.unqueueOne, hj]
  · by_cases hj : j = k
    · subst hj
      simp only [Backend.unqueueOne, Function.update_self] at hx
      exact List.mem_of_mem_tail hx
    · simpa only [Backend.unqueueOne, Function.update_of_ne hj] using hx

/-- `backend_unqueue` fails in one way only, and not while every entry has its connection. -/
lemma Counts.drain {ms : List BackendMsg} (hb : Counts owned b) (hq : (b.socks k).queue = ms) :
    (∃ b', Backend.drain render k ms b = .ok b' ∧ Drains owned b b') ∨
    (Backend.drain render k ms b = .error .useAfterFree ∧ ∃ m ∈ ms, owned m.hybi < 0) := by
  induction ms generalizing b with
  | nil => exact Or.inl ⟨b, rfl, .refl hb⟩
  | cons m rest ih =>
    by_cases hm : b.refcnt m.hybi = 0
    · refine Or.inr ⟨by rw [Backend.drain, if_pos hm], m, List.mem_cons_self, ?_⟩
      by_contra hneg
      exact hb.refcnt_ne_zero_of_mem (k := k) (by simp [hq]) (Int.not_lt.mp hneg) hm
    · rw [drain_cons render k m rest b hm]
      split_ifs with hacc
      · have hone : Drains owned b (Backend.unqueueOne render k m b) := hb.unqueueOne_drains hq hm
        rcases ih hone.counts (by simp [Backend.unqueueOne, hq]) with
          ⟨b', hok, hD⟩ | ⟨herr, m', hm', hneg⟩
        · exact Or.inl ⟨b', hok, hone.trans hD⟩
        · exact Or.inr ⟨herr, m', List.mem_cons_of_mem _ hm', hneg⟩
      · exact Or.inl ⟨_, rfl, hb.of_eq rfl rfl, rfl, rfl, rfl, fun _ => rfl, fun _ _ hx => hx⟩

lemma Counts.unqueue (hb : Counts owned b) (render : BackendMsg → List Frame) (k : SockId)
    (pollout : Bool) :
    (∃ b', unqueue render k pollout b = .ok b' ∧ Drains owned b b') ∨
    (unqueue render k pollout b = .error .useAfterFree ∧
      ∃ m ∈ (b.socks k).queue, owned m.hybi < 0) := by
  rw [Backend.unqueue]
  split_ifs
  · exact hb.drain rfl
  · exact Or.inl ⟨b, rfl, .refl hb⟩

end Backend

end Zerogw
