import Zerogw.Http.Answers

/-!
# The references of `disk_process`

The macros that receive the parts of a message jump to the labels `msg_finish` and `msg_error` at
the end of the loop's body, where a reference is dropped. Some of the jumps come before the place
where `req` is set and the reference is taken.
-/

namespace Zerogw

open Execution

namespace Http

/-- What the first `zmq_recv` of an iteration leads to. A message has at least one part. -/
inductive DiskOutcome where
  | eagain
  | eintr
  | message (first : Bytes) (others : List Bytes)

/-- Where control goes when it leaves the straight line. -/
inductive Jump where
  | leave
  | msgFinish
  | msgError
  | abort (f : Fault)

/-- The variables of an iteration. `parts` is what is left of the message, and `taken` are the
references taken so far. -/
structure DiskLocals where
  http : Http
  parts : List Bytes
  opt : Bool
  req : Option ReqId
  taken : List ReqId

abbrev DiskM := EStateM Jump DiskLocals

variable {α β : Type}

/-! ### The body of the loop -/

/-- `Z_RECV` -/
def zRecv : DiskM Bytes := fun l =>
  match l.parts with
  | [] => .error (.abort (.assertion .zmqRecv)) l
  | data :: parts => .ok data { l with parts := parts, opt := !parts.isEmpty }

/-- `Z_RECV_NEXT` -/
def zRecvNext : DiskM Bytes := do
  let data ← zRecv
  if (← get).opt then return data else throw .msgError

/-- `Z_RECV_START` -/
def zRecvStart : DiskOutcome → DiskM Bytes
  | .eagain => throw .leave
  | .eintr => throw .msgFinish
  | .message first others => do
    modify fun l => { l with parts := first :: others }
    zRecvNext

/-- A step that may fail. -/
def call (f : Http → Except Fault Http) : DiskM Unit := fun l =>
  match f l.http with
  | .ok H => .ok () { l with http := H }
  | .error f => .error (.abort f) l

/-- The request with the id, and `REQ_INCREF`. -/
def takeRequest (id : Bytes) : DiskM ReqId := fun l =>
  match l.http.find id with
  | .error f => .error (.abort f) l
  | .ok none => .error (.abort (.assertion .diskReply)) l
  | .ok (some r) =>
    let q := l.http.request r
    .ok r { l with
      http := l.http.setRequest r { q with refcnt := q.refcnt + 1 }
      req := some r
      taken := l.taken ++ [r] }

/-- The parts behind the sentinel. -/
def recvAnswer (cfg : HttpConfig) (r : ReqId) : DiskM Unit := do
  let conf := cfg.routeOf ((← get).http.request r)
  let first ← zRecv
  if !(← get).opt then
    call fun H => H.close r (if atoi first = 404 then conf.responses.notFound
      else if atoi first = 402 then conf.responses.forbidden
      else conf.responses.internalError)
    throw .msgError
  let second ← zRecv
  if !(← get).opt then call fun H => H.reply r first [] conf.headers second
  else
    let third ← zRecv
    if (← get).opt then
      call fun H => H.close r conf.responses.internalError
      throw .msgError
    call fun H => H.reply r first (headerLines none [] second) conf.headers third

/-- The body of the loop in `disk_process` up to `msg_finish`. -/
def diskBody (cfg : HttpConfig) (outcome : DiskOutcome) : DiskM Unit := do
  let id ← zRecvStart outcome
  if id.length ≠ uidLen then throw .msgError
  let r ← takeRequest id
  let sentinel ← zRecvNext
  if sentinel ≠ [] then throw (.abort (.assertion .diskSentinel))
  recvAnswer cfg r

/-- The references that an iteration takes and drops. `none` stands for an unset pointer. -/
structure Refs where
  taken : List ReqId
  dropped : List (Option ReqId)

/-- An iteration that ends at one of the labels, where `REQ_DECREF(req)` follows. -/
def refsAt : EStateM.Result Jump DiskLocals Unit → Option Refs
  | .ok _ l | .error .msgFinish l | .error .msgError l => some ⟨l.taken, [l.req]⟩
  | _ => none

/-- The labels. Nothing is known of what happens to an unset pointer. -/
def afterLabels : EStateM.Result Jump DiskLocals Unit → Except Fault Http
  | .ok _ l | .error .msgFinish l | .error .msgError l =>
    match l.req with
    | none => .error .uninitialised
    | some r => l.http.decref r
  | .error .leave l => .ok l.http
  | .error (.abort f) _ => .error f

/-- Nothing is received yet; `req` is not set. -/
def startLocals (H : Http) : DiskLocals := ⟨H, [], true, none, []⟩

/-- One iteration, if it ends at a label. -/
def diskRefs (cfg : HttpConfig) (outcome : DiskOutcome) (H : Http) : Option Refs :=
  refsAt (diskBody cfg outcome (startLocals H))

/-- One reference is taken, and it is dropped once. -/
def Refs.Balanced (refs : Refs) : Prop := ∃ r, refs.taken = [r] ∧ refs.dropped = [some r]

/-- The outcome is not an interrupt, and a message has at least two parts, of which the first one
has the length of an id. -/
def DiskOutcome.Addressed : DiskOutcome → Prop
  | .eagain => True
  | .eintr => False
  | .message first others => others ≠ [] ∧ first.length = uidLen

variable {cfg : HttpConfig} {H : Http} {outcome : DiskOutcome} {r : ReqId} {l : DiskLocals}
  {first second : Bytes} {others : List Bytes}

/-! ### Steps that leave references alone -/

/-- The variables after a step, wherever control goes. -/
def finalLocals : EStateM.Result Jump DiskLocals α → DiskLocals
  | .ok _ l | .error _ l => l

/-- The step changes neither `req` nor the references that have been taken. -/
def KeepsRefs (m : DiskM α) : Prop :=
  ∀ l, (finalLocals (m l)).req = l.req ∧ (finalLocals (m l)).taken = l.taken

lemma KeepsRefs.pure (a : α) : KeepsRefs (pure a : DiskM α) := fun _ => ⟨rfl, rfl⟩

lemma KeepsRefs.throw (j : Jump) : KeepsRefs (throw j : DiskM α) := fun _ => ⟨rfl, rfl⟩

lemma KeepsRefs.get : KeepsRefs (get : DiskM DiskLocals) := fun _ => ⟨rfl, rfl⟩

lemma bind_of_ok {m : DiskM α} {f : α → DiskM β} {a : α} {l' : DiskLocals} (h : m l = .ok a l') :
    (m >>= f) l = f a l' := by
  show EStateM.bind m f l = _
  rw [EStateM.bind, h]

lemma bind_of_error {m : DiskM α} {f : α → DiskM β} {j : Jump} {l' : DiskLocals}
    (h : m l = .error j l') : (m >>= f) l = .error j l' := by
  show EStateM.bind m f l = _
  rw [EStateM.bind, h]

lemma KeepsRefs.bind {m : DiskM α} {f : α → DiskM β} (hm : KeepsRefs m)
    (hf : ∀ a, KeepsRefs (f a)) :
    KeepsRefs (m >>= f) := by
  intro l
  have h := hm l
  cases hml : m l with
  | error j l' =>
    rw [bind_of_error hml]
    rwa [hml] at h
  | ok a l' =>
    rw [hml] at h
    rw [bind_of_ok hml]
    exact ⟨(hf a l').1.trans h.1, (hf a l').2.trans h.2⟩

lemma KeepsRefs.ite {c : Prop} [Decidable c] {m m' : DiskM α} (hm : KeepsRefs m)
    (hm' : KeepsRefs m') :
    KeepsRefs (if c then m else m') := by
  split_ifs
  · exact hm
  · exact hm'

lemma keepsRefs_zRecv : KeepsRefs zRecv := by
  rintro ⟨http, parts, opt, req, taken⟩
  cases parts <;> exact ⟨rfl, rfl⟩

lemma keepsRefs_call (f : Http → Except Fault Http) : KeepsRefs (call f) := by
  intro l
  rw [call]
  cases f l.http <;> exact ⟨rfl, rfl⟩

lemma keepsRefs_zRecvNext : KeepsRefs zRecvNext :=
  keepsRefs_zRecv.bind fun data => KeepsRefs.get.bind fun _ => .ite (.pure data) (.throw _)

lemma keepsRefs_recvAnswer : KeepsRefs (recvAnswer cfg r) := by
  refine KeepsRefs.get.bind fun _ => keepsRefs_zRecv.bind fun _ => KeepsRefs.get.bind fun _ => ?_
  refine .ite ((keepsRefs_call _).bind fun _ => (KeepsRefs.throw _).bind fun _ => ?_) ?_
  all_goals
    refine keepsRefs_zRecv.bind fun _ => KeepsRefs.get.bind fun _ => .ite (keepsRefs_call _) ?_
    refine keepsRefs_zRecv.bind fun _ => KeepsRefs.get.bind fun _ => .ite ?_ (keepsRefs_call _)
    exact (keepsRefs_call _).bind fun _ => (KeepsRefs.throw _).bind fun _ => keepsRefs_call _

/-! ### One iteration -/

lemma call_bind {f : Http → Except Fault Http} {k : Unit → DiskM Unit} : (call f >>= k) l =
    match f l.http with
    | .ok H => k () { l with http := H }
    | .error f => .error (.abort f) l := by
  cases hf : f l.http with
  | ok H =>
    apply bind_of_ok
    rw [call]
    rw [hf]
  | error f =>
    apply bind_of_error
    rw [call]
    rw [hf]

lemma takeRequest_bind {id : Bytes} {k : ReqId → DiskM Unit} : (takeRequest id >>= k) l =
    match l.http.find id with
    | .error f => .error (.abort f) l
    | .ok none => .error (.abort (.assertion .diskReply)) l
    | .ok (some r) => k r { l with
        http := l.http.setRequest r
          { l.http.request r with refcnt := (l.http.request r).refcnt + 1 }
        req := some r
        taken := l.taken ++ [r] } := by
  cases hfind : l.http.find id with
  | error f =>
    apply bind_of_error
    rw [takeRequest]
    rw [hfind]
  | ok found =>
    cases found with
    | none =>
      apply bind_of_error
      rw [takeRequest]
      rw [hfind]
    | some r =>
      apply bind_of_ok
      rw [takeRequest]
      rw [hfind]

/-- Everything behind the place where the reference is taken. -/
lemma diskBody_of_addressed (hothers : others ≠ []) (hlen : first.length = uidLen) :
    diskBody cfg (.message first others) (startLocals H) =
      (takeRequest first >>= fun r => zRecvNext >>= fun sentinel =>
        if sentinel ≠ [] then throw (.abort (.assertion .diskSentinel)) else recvAnswer cfg r)
        { startLocals H with parts := others } := by
  obtain ⟨d, ds, rfl⟩ := List.exists_cons_of_ne_nil hothers
  have hstart : zRecvStart (.message first (d :: ds)) (startLocals H) =
    .ok first { startLocals H with parts := d :: ds } := rfl
  rw [diskBody, bind_of_ok hstart, if_neg (not_not.mpr hlen)]
  rfl

lemma diskBody_of_wrong_length {sentinel : Bytes} (hlen : first.length ≠ uidLen) :
    diskBody cfg (.message first (sentinel :: others)) (startLocals H) =
      .error .msgError { startLocals H with parts := sentinel :: others } := by
  have hstart : zRecvStart (.message first (sentinel :: others)) (startLocals H) =
    .ok first { startLocals H with parts := sentinel :: others } := rfl
  rw [diskBody, bind_of_ok hstart, if_pos hlen]
  rfl

/-- What is dropped after steps that leave references alone. -/
lemma refsAt_of_keepsRefs {m : DiskM Unit} (hm : KeepsRefs m) {refs : Refs}
    (h : refs ∈ refsAt (m l)) :
    refs = ⟨l.taken, [l.req]⟩ := by
  obtain ⟨hreq, htaken⟩ := hm l
  cases hml : m l with
  | ok a l' =>
    rw [hml] at h hreq htaken
    cases h
    exact congrArg₂ Refs.mk htaken (congrArg (fun r => [r]) hreq)
  | error j l' =>
    rw [hml] at h hreq htaken
    cases j with
    | leave => cases h
    | abort f => cases h
    | msgFinish =>
      cases h
      exact congrArg₂ Refs.mk htaken (congrArg (fun r => [r]) hreq)
    | msgError =>
      cases h
      exact congrArg₂ Refs.mk htaken (congrArg (fun r => [r]) hreq)

lemma diskRefs_of_addressed (h : outcome.Addressed) :
    ∀ refs ∈ diskRefs cfg outcome H, refs.Balanced := by
  intro refs hrefs
  cases outcome with
  | eagain => cases hrefs
  | eintr => exact h.elim
  | message first others =>
    rw [diskRefs, diskBody_of_addressed h.1 h.2] at hrefs
    rw [takeRequest_bind] at hrefs
    dsimp only [startLocals] at hrefs
    cases hfind : H.find first with
    | error f =>
      rw [hfind] at hrefs
      cases hrefs
    | ok found =>
      cases found with
      | none =>
        rw [hfind] at hrefs
        cases hrefs
      | some r =>
        rw [hfind] at hrefs
        have hkeeps : KeepsRefs (zRecvNext >>= fun sentinel =>
            if sentinel ≠ [] then throw (.abort (.assertion .diskSentinel))
            else recvAnswer cfg r) :=
          keepsRefs_zRecvNext.bind fun _ => .ite (.throw _) keepsRefs_recvAnswer
        have heq := refsAt_of_keepsRefs hkeeps hrefs
        exact ⟨r, congrArg Refs.taken heq, congrArg Refs.dropped heq⟩

lemma diskRefs_of_not_addressed (h : ¬ outcome.Addressed) :
    diskRefs cfg outcome H = some ⟨[], [none]⟩ := by
  cases outcome with
  | eagain => exact absurd trivial h
  | eintr => rfl
  | message first others =>
    cases others with
    | nil => rfl
    | cons d ds =>
      have hlen : first.length ≠ uidLen := fun hlen => h ⟨List.cons_ne_nil d ds, hlen⟩
      rw [diskRefs, diskBody_of_wrong_length hlen]
      rfl

/-- The part of an iteration in which the reference is held. -/
lemma afterLabels_answer {sentinel : Bytes} {rest : List Bytes} (hreq : l.req = some r)
    (hparts : l.parts = sentinel :: rest) :
    afterLabels ((zRecvNext >>= fun sentinel =>
      if sentinel ≠ [] then throw (.abort (.assertion .diskSentinel)) else recvAnswer cfg r) l) =
        l.http.diskAnswer cfg r sentinel rest >>= decref r := by
  obtain ⟨H, parts, opt, req, taken⟩ := l
  dsimp only at hreq hparts
  subst hreq hparts
  cases rest with
  | nil => rfl
  | cons first rest =>
    have hnext : zRecvNext ⟨H, sentinel :: first :: rest, opt, some r, taken⟩ =
      .ok sentinel ⟨H, first :: rest, true, some r, taken⟩ := rfl
    unfold diskAnswer
    dsimp only
    rw [bind_of_ok hnext, if_neg (List.cons_ne_nil _ _)]
    by_cases hsentinel : sentinel ≠ []
    · rw [if_pos hsentinel, if_pos hsentinel]
      rfl
    rw [if_neg hsentinel, if_neg hsentinel]
    match rest with
    | [] =>
      show afterLabels ((call _ >>= fun _ => throw .msgError) ⟨H, [], false, some r, taken⟩) = _
      rw [call_bind]
      dsimp only
      cases H.close r _ <;> rfl
    | [second] =>
      show afterLabels (call _ ⟨H, [], false, some r, taken⟩) = _
      rw [call]
      dsimp only
      cases H.reply r _ _ _ _ <;> rfl
    | [second, third] =>
      show afterLabels (call _ ⟨H, [], false, some r, taken⟩) = _
      rw [call]
      dsimp only
      cases H.reply r _ _ _ _ <;> rfl
    | second :: third :: fourth :: rest =>
      show afterLabels
        ((call _ >>= fun _ => throw .msgError) ⟨H, fourth :: rest, true, some r, taken⟩) = _
      rw [call_bind]
      dsimp only
      cases H.close r _ <;> rfl

/-- An iteration does what `diskProcess` says. -/
lemma afterLabels_diskBody : afterLabels (diskBody cfg (.message first others) (startLocals H)) =
    H.diskProcess cfg (first :: others) := by
  cases others with
  | nil => rfl
  | cons sentinel rest =>
    rw [diskProcess]
    dsimp only
    by_cases hlen : first.length = uidLen
    · rw [diskBody_of_addressed (List.cons_ne_nil _ _) hlen, if_neg (not_not.mpr hlen),
        takeRequest_bind]
      dsimp only [startLocals]
      cases hfind : H.find first with
      | error f => rfl
      | ok found =>
        cases found with
        | none => rfl
        | some r => exact afterLabels_answer rfl rfl
    · rw [diskBody_of_wrong_length hlen, if_pos hlen]
      rfl

/-- In every sequence of outcomes, whatever happens between the iterations, every iteration that
gets to a label drops what it took if and only if every message is addressed and no call is
interrupted. -/
theorem references_balanced_iff (cfg : HttpConfig) (states : ℕ → Http)
    (outcomes : ℕ → DiskOutcome) :
    (∀ k, ∀ refs ∈ diskRefs cfg (outcomes k) (states k), refs.Balanced) ↔
      ∀ k, (outcomes k).Addressed := by
  apply forall_congr'
  intro k
  constructor
  · intro hbalanced
    by_contra h
    obtain ⟨r, hr, -⟩ := hbalanced _ (diskRefs_of_not_addressed h)
    cases hr
  · exact diskRefs_of_addressed

/-- An interrupted call drops a reference of an unset pointer. -/
theorem interrupt_drops_unset :
    diskRefs smallGateway .eintr (init smallGateway) = some ⟨[], [none]⟩ ∧
      ¬ (⟨[], [none]⟩ : Refs).Balanced := by
  refine ⟨rfl, ?_⟩
  rintro ⟨r, hr, -⟩
  cases hr

end Http

end Zerogw
