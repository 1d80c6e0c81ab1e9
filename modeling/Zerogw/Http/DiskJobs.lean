import Zerogw.Http.Answers

/-!
# Answers of the disk threads

A request for a file is sent to the disk threads with its id by reference, which keeps the request
in memory until the answer comes. It waits in the sieve together with the requests that are
forwarded, where a backend finds it under its id as well.
-/

namespace Zerogw

open Execution

namespace Http

/-- A request that the disk threads have not answered yet, and its id when it was sent to them. -/
structure Job where
  req : ReqId
  uid : Bytes
  deriving DecidableEq, Repr

/-- The requests and the disk threads. -/
structure WithDisk where
  http : Http
  jobs : List Job

namespace WithDisk

/-- Something happens to the requests, or a disk thread answers a job with the frames `rest` behind
the sentinel. -/
inductive Event where
  | http (e : Http.Event)
  | answer (i : Nat) (rest : List Bytes)

def init (cfg : HttpConfig) : WithDisk := ⟨.init cfg, []⟩

/-- The request that arrives is sent to the disk threads. -/
def sendsJob (cfg : HttpConfig) (e : Http.Event) (H : Http) : Bool :=
  match e with
  | .request (.route route) _ _ _ _ _ _ .accepted =>
    !H.requests.sieve.full && !(cfg.route route).zmqForward.enabled &&
      (cfg.route route).staticEnabled && cfg.diskThreads
  | _ => false

/-- ZeroMQ still holds the id that it has passed to a disk thread. -/
def keeps (e : Http.Event) (S : WithDisk) : Bool :=
  match e with
  | .release r => (S.http.request r).held ≤ S.jobs.countP fun job => job.req = r
  | _ => false

/-- One event. The disk threads answer only what they have been sent, and the id in an answer is
read where it is kept; ZeroMQ does not release the id of a job. -/
def step (cfg : HttpConfig) (e : Event) (S : WithDisk) : Except Fault WithDisk :=
  match e with
  | .http (.diskReply _) => .ok S
  | .http e =>
    if keeps e S then .ok S
    else do
      let H ← Http.step cfg e S.http
      return ⟨H, if sendsJob cfg e S.http then
        S.jobs ++ [⟨S.http.next, H.requests.uid S.http.next⟩] else S.jobs⟩
  | .answer i rest =>
    match S.jobs[i]? with
    | none => .ok S
    | some job => do
      let H ← S.http.diskProcess cfg (S.http.requests.uid job.req :: [] :: rest)
      return ⟨H, S.jobs.eraseIdx i⟩

/-- A reply from a backend does not answer a request that the disk threads work on. -/
def Harmless (e : Event) (S : WithDisk) : Prop :=
  ∀ route part rest, ∀ job ∈ S.jobs, e ≠ .http (.reply route (job.uid :: [] :: part :: rest))

end WithDisk

variable {cfg : HttpConfig} {H H' : Http} {r : ReqId} {S S' : WithDisk} {job : Job}

/-! ### A request that waits for the disk -/

/-- The request is in the sieve, and is kept in memory by the id that the disk threads have. -/
structure Awaits (cfg : HttpConfig) (H : Http) (job : Job) : Prop where
  inSieve : (H.request job.req).inSieve = true
  uid : H.requests.uid job.req = job.uid
  disk : FromDisk cfg (H.request job.req)
  refcnt : (H.request job.req).refcnt =
    (H.request job.req).held + if (H.request job.req).finished then 0 else 1
  held : 0 < (H.request job.req).held

/-- What happens to other requests does not matter. -/
lemma Awaits.congr (h : Awaits cfg H job) (hreq : H'.request job.req = H.request job.req)
    (huid : H'.requests.uid job.req = H.requests.uid job.req) : Awaits cfg H' job := by
  constructor
  · rw [hreq]
    exact h.inSieve
  · rw [huid]
    exact h.uid
  · rw [hreq]
    exact h.disk
  · rw [hreq]
    exact h.refcnt
  · rw [hreq]
    exact h.held

lemma Awaits.lt_next (hs : H.Sound cfg) (h : Awaits cfg H job) : job.req < H.next :=
  hs.lt_next_of_inSieve h.inSieve

/-- A reference that is not the last one is dropped. -/
lemma decref_of_more (h : 1 < (H.request r).refcnt) : H.decref r =
    .ok (H.setRequest r { H.request r with refcnt := (H.request r).refcnt - 1 }) := by
  rw [decref, if_neg (Nat.ne_of_gt (Nat.zero_lt_of_lt h)), if_neg (Nat.ne_of_gt h)]

/-- The request changes, and is still kept. -/
lemma Awaits.set {q : HttpRequest} (h : Awaits cfg H job) (hin : q.inSieve = true)
    (hroute : q.route = (H.request job.req).route)
    (href : q.refcnt = q.held + if q.finished then 0 else 1) (hheld : 0 < q.held) :
    Awaits cfg (H.setRequest job.req q) job := by
  refine ⟨?_, h.uid, ?_, ?_, ?_⟩
  · rwa [setRequest_self]
  · rw [setRequest_self, FromDisk, hroute]
    exact h.disk
  · rwa [setRequest_self]
  · rwa [setRequest_self]

/-- libwebsite is done with the request. -/
lemma Awaits.finish (h : Awaits cfg H job) (hstep : step cfg (.finish job.req) H = .ok H') :
    Awaits cfg H' job := by
  rw [step] at hstep
  split_ifs at hstep with hfinished
  · cases hstep
    exact h
  · have href := h.refcnt
    have hheld := h.held
    rw [if_neg hfinished] at href
    rw [decref_of_more (by rw [setRequest_self]; show 1 < (H.request job.req).refcnt; omega),
      setRequest_self, setRequest_setRequest] at hstep
    cases hstep
    refine h.set h.inSieve rfl ?_ h.held
    show (H.request job.req).refcnt - 1 = (H.request job.req).held + 0
    omega

/-- ZeroMQ releases a frame, but not the one of the job. -/
lemma Awaits.release (h : Awaits cfg H job) (hmore : 1 < (H.request job.req).held)
    (hstep : step cfg (.release job.req) H = .ok H') : Awaits cfg H' job := by
  rw [step] at hstep
  split_ifs at hstep with hheld
  · cases hstep
    exact h
  · have href := h.refcnt
    rw [decref_of_more (by rw [setRequest_self]; show 1 < (H.request job.req).refcnt; omega),
      setRequest_self, setRequest_setRequest] at hstep
    cases hstep
    refine h.set h.inSieve rfl ?_ (Nat.sub_pos_of_lt hmore)
    show (H.request job.req).refcnt - 1 = (H.request job.req).held - 1 + _
    dsimp only
    omega

/-- A message without an empty frame and a part behind it answers no request. -/
lemma httpProcess_quiet {route : RouteId} {frames : List Bytes}
    (hframes : ∀ id part rest, frames ≠ id :: [] :: part :: rest)
    (hstep : H.httpProcess cfg route frames = .ok H') :
    H'.request = H.request ∧ H'.requests = H.requests := by
  unfold httpProcess at hstep
  split at hstep
  · next id sentinel rest =>
    by_cases hlen : id.length ≠ uidLen
    · rw [if_pos hlen] at hstep
      cases hstep
      exact ⟨rfl, rfl⟩
    · rw [if_neg hlen] at hstep
      obtain ⟨o, -, hstep⟩ := bind_eq_ok.mp hstep
      by_cases hshort : rest = [] ∨ sentinel ≠ []
      · simp only [if_pos hshort] at hstep
        cases o <;> cases hstep <;> exact ⟨rfl, rfl⟩
      · obtain ⟨hrest, hsentinel⟩ := not_or.mp hshort
        obtain ⟨part, rest, rfl⟩ := List.exists_cons_of_ne_nil hrest
        rw [not_not.mp hsentinel] at hframes
        exact absurd rfl (hframes id part rest)
  · cases hstep
    exact ⟨rfl, rfl⟩

/-- A request that an event is not about stays as it is. -/
lemma unchanged (hs : H.Sound cfg) {e : Event} (hstep : step cfg e H = .ok H') (hr : r < H.next)
    (hother : ¬ e.Concerns H r) :
    H'.request r = H.request r ∧ H'.requests.uid r = H.requests.uid r := by
  rcases (step_spec hs e).result hstep with ⟨hreg, hreq, -⟩ | ⟨r', hconcerns, hacts⟩
  · rw [hreg, hreq]
    exact ⟨rfl, rfl⟩
  · have hne : r ≠ r' := by
      rintro rfl
      exact hother hconcerns
    obtain ⟨hreq, huid, -⟩ := hacts.others r hne
    cases e with
    | request => exact ⟨hreq.trans (setRequest_of_ne (ne_of_lt hr)), huid⟩
    | _ => exact ⟨hreq, huid⟩

/-- An event that is not an answer of the disk, a harmful reply or the release of the id. -/
lemma Awaits.step (hs : H.Sound cfg) (h : Awaits cfg H job) {e : Event}
    (hstep : step cfg e H = .ok H') (hdisk : ∀ frames, e ≠ .diskReply frames)
    (hreply : ∀ route part rest, e ≠ .reply route (job.uid :: [] :: part :: rest))
    (hheld : e = .release job.req → 1 < (H.request job.req).held) : Awaits cfg H' job := by
  by_cases hconcerns : e.Concerns H job.req
  · cases e with
    | request => exact absurd (h.lt_next hs) (Nat.not_lt.mpr (le_of_eq hconcerns.symm))
    | reply route frames =>
      have hquiet : ∀ id part rest, frames ≠ id :: [] :: part :: rest := by
        intro id part rest hframes
        have hid := hconcerns.1
        rw [hframes, h.uid] at hid
        obtain rfl := Option.some.inj hid
        exact hreply route part rest (congrArg _ hframes)
      obtain ⟨hreq, hreg⟩ := httpProcess_quiet hquiet hstep
      exact h.congr (by rw [hreq]) (by rw [hreg])
    | diskReply frames => exact absurd rfl (hdisk frames)
    | timeout r result =>
      obtain ⟨rfl, htimer⟩ := hconcerns
      exact absurd h.disk ((hs.requests _).routed htimer)
    | finish r =>
      cases hconcerns
      exact h.finish hstep
    | release r =>
      cases hconcerns
      exact h.release (hheld rfl) hstep
  · obtain ⟨hreq, huid⟩ := unchanged hs hstep (h.lt_next hs) hconcerns
    exact h.congr hreq huid

/-- A request that is sent to the disk threads. -/
lemma awaits_of_sendsJob {e : Event} (hstep : step cfg e H = .ok H')
    (hsends : WithDisk.sendsJob cfg e H = true) :
    Awaits cfg H' ⟨H.next, H'.requests.uid H.next⟩ := by
  rw [WithDisk.sendsJob.eq_def] at hsends
  split at hsends
  · next route uri method body ip date header =>
    simp only [Bool.and_eq_true, Bool.not_eq_true'] at hsends
    obtain ⟨⟨⟨hroom, hforward⟩, hstatic⟩, hthreads⟩ := hsends
    obtain ⟨⟨code, H₁⟩, hrequest, hret⟩ := bind_eq_ok.mp hstep
    cases hret
    rw [httpRequest, if_neg (by rw [newRequest]; exact Bool.eq_false_iff.mp hroom)] at hrequest
    simp only [hforward, hstatic, diskRequest, hthreads, Bool.false_eq_true, if_false, if_true,
      Bool.not_true] at hrequest
    cases hrequest
    refine ⟨?_, rfl, ⟨route, ?_, hforward, hstatic⟩, ?_, ?_⟩
    all_goals simp [setRequest, newRequest, noRequest, makeUid]
  · cases hsends

/-! ### Runs -/

namespace WithDisk

/-- Every request that a disk thread works on waits for it. -/
structure Awaited (cfg : HttpConfig) (S : WithDisk) : Prop where
  sound : S.http.Sound cfg
  nodup : (S.jobs.map Job.req).Nodup
  waits : ∀ job ∈ S.jobs, Awaits cfg S.http job

lemma Awaited.init (cfg : HttpConfig) : Awaited cfg (init cfg) :=
  ⟨.init cfg, List.nodup_nil, fun _ h => by cases h⟩

/-- Only the id of the job is kept if it is the only job of its request. -/
lemma one_le_countP (hjob : job ∈ S.jobs) :
    1 ≤ S.jobs.countP fun job' => decide (job'.req = job.req) :=
  List.countP_pos_iff.mpr ⟨job, hjob, decide_eq_true rfl⟩

/-- An answer finds the request that it is for. -/
lemma Awaited.find (hS : Awaited cfg S) (hjob : job ∈ S.jobs) :
    S.http.find job.uid = .ok (some job.req) := by
  have hwait := hS.waits job hjob
  have hslot := hS.sound.holds_iff.mpr ⟨hwait.inSieve, rfl⟩
  obtain ⟨o, hfind, ho⟩ := find_eq_ok hS.sound (ne_of_lt (Sieve.holds_lt_max hslot))
  rw [(ho job.req).mpr ⟨hwait.inSieve, rfl⟩, hwait.uid] at hfind
  exact hfind

lemma Awaited.http (hS : Awaited cfg S) {e : Http.Event} (hdisk : ∀ frames, e ≠ .diskReply frames)
    (hharmless : Harmless (.http e) S) (hkeeps : keeps e S = false)
    (hstep : Http.step cfg e S.http = .ok H) : Awaited cfg ⟨H, if sendsJob cfg e S.http then
        S.jobs ++ [⟨S.http.next, H.requests.uid S.http.next⟩] else S.jobs⟩ := by
  have hold : ∀ job ∈ S.jobs, Awaits cfg H job := by
    intro job hjob
    refine (hS.waits job hjob).step hS.sound hstep hdisk (fun route part rest he => ?_) ?_
    · exact hharmless route part rest job hjob (congrArg _ he)
    · rintro rfl
      rw [keeps, decide_eq_false_iff_not, Nat.not_le] at hkeeps
      exact (one_le_countP hjob).trans_lt hkeeps
  split_ifs with hsends
  · refine ⟨hS.sound.step hstep, ?_, fun job hjob => ?_⟩
    · rw [List.map_append, List.nodup_append']
      refine ⟨hS.nodup, List.nodup_singleton _, fun r hr hnew => ?_⟩
      obtain ⟨job, hjob, rfl⟩ := List.mem_map.mp hr
      have hlt := (hS.waits job hjob).lt_next hS.sound
      exact absurd (List.mem_singleton.mp hnew) (ne_of_lt hlt)
    · rcases List.mem_append.mp hjob with hjob | hjob
      · exact hold job hjob
      · cases List.mem_singleton.mp hjob
        exact awaits_of_sendsJob hstep hsends
  · exact ⟨hS.sound.step hstep, hS.nodup, hold⟩

/-- The answer for a job, with which the assertion of `disk_process` holds. -/
lemma Awaited.answer (hS : Awaited cfg S) {i : Nat} (hi : S.jobs[i]? = some job)
    (rest : List Bytes) : Ends (· ≠ .assertion .diskReply)
      (fun H => Awaited cfg ⟨H, S.jobs.eraseIdx i⟩)
      (S.http.diskProcess cfg (S.http.requests.uid job.req :: [] :: rest)) := by
  have hjob : job ∈ S.jobs := List.mem_of_getElem? hi
  have hwait := hS.waits job hjob
  rw [hwait.uid, diskProcess]
  by_cases hlen : job.uid.length ≠ uidLen
  · rw [if_pos hlen]
    rintro ⟨⟩
  · rw [if_neg hlen, hS.find hjob, ok_bind]
    refine (found_spec hS.sound hwait.inSieve hwait.uid).mono ?_ fun H hacts => ?_
    · rintro _ (rfl | rfl) <;> rintro ⟨⟩
    · refine ⟨hacts.sound, ?_, fun job' hjob' => ?_⟩
      · exact hS.nodup.sublist ((List.eraseIdx_sublist _ _).map _)
      · have hne : job'.req ≠ job.req := by
          obtain ⟨j, hji, hj⟩ := List.mem_eraseIdx_iff_getElem?.mp hjob'
          intro hreq
          have hsame : (S.jobs.map Job.req)[j]? = (S.jobs.map Job.req)[i]? := by
            rw [List.getElem?_map, List.getElem?_map, hj, hi, Option.map_some, Option.map_some,
              hreq]
          have hlt : j < (S.jobs.map Job.req).length := by
            rw [List.length_map]
            exact (List.getElem?_eq_some_iff.mp hj).1
          exact hji ((List.getElem?_inj hlt hS.nodup).mp hsame)
        obtain ⟨hreq, huid, -⟩ := hacts.others job'.req hne
        exact (hS.waits job' (List.mem_of_mem_eraseIdx hjob')).congr hreq huid

lemma Awaited.step {e : Event} (hS : Awaited cfg S) (hharmless : Harmless e S)
    (hstep : step cfg e S = .ok S') : Awaited cfg S' := by
  cases e with
  | http e =>
    by_cases hdisk : ∃ frames, e = .diskReply frames
    · obtain ⟨frames, rfl⟩ := hdisk
      cases hstep
      exact hS
    · have hdisk' : ∀ frames, e ≠ .diskReply frames := fun frames he => hdisk ⟨frames, he⟩
      rw [step.eq_2 cfg S e hdisk'] at hstep
      by_cases hkeeps : keeps e S = true
      · rw [if_pos hkeeps] at hstep
        cases hstep
        exact hS
      · rw [if_neg hkeeps] at hstep
        obtain ⟨H, hH, hret⟩ := bind_eq_ok.mp hstep
        cases hret
        exact hS.http hdisk' hharmless (Bool.eq_false_iff.mpr hkeeps) hH
  | answer i rest =>
    rw [WithDisk.step] at hstep
    cases hi : S.jobs[i]? with
    | none =>
      rw [hi] at hstep
      cases hstep
      exact hS
    | some job =>
      rw [hi] at hstep
      obtain ⟨H, hH, hret⟩ := bind_eq_ok.mp hstep
      cases hret
      exact (hS.answer hi rest).result hH

/-- In a run where no backend answers a request that a disk thread works on, every answer of a disk
thread finds its request in the sieve, with the id that was sent to the disk thread. -/
theorem disk_answers_find_requests (hr : ReachableVia (step cfg) Harmless (init cfg) S) :
    (∀ job ∈ S.jobs, (S.http.request job.req).inSieve = true ∧
      S.http.requests.uid job.req = job.uid ∧ S.http.find job.uid = .ok (some job.req)) ∧
    ∀ i rest, step cfg (.answer i rest) S ≠ .error (.assertion .diskReply) := by
  have hS : Awaited cfg S :=
    hr.invariant (.init cfg) fun e S S' hharmless hS hstep => hS.step hharmless hstep
  refine ⟨fun job hjob => ⟨(hS.waits job hjob).inSieve, (hS.waits job hjob).uid, hS.find hjob⟩,
    fun i rest herr => ?_⟩
  rw [step] at herr
  cases hi : S.jobs[i]? with
  | none =>
    rw [hi] at herr
    cases herr
  | some job =>
    rw [hi] at herr
    have hends := hS.answer hi rest
    rcases bind_eq_error.mp herr with herr | ⟨H, -, herr⟩
    · rw [herr] at hends
      exact hends rfl
    · cases herr

/-! ### A gateway with files -/

/-- Route 0 serves files, the others forward requests. -/
def filesGateway : HttpConfig :=
  { smallGateway with
    route := fun r =>
      { smallGateway.route r with
        zmqForward := { (smallGateway.route r).zmqForward with enabled := Nat.blt 0 r }
        staticEnabled := true }
    diskThreads := true }

/-- The first request is for a file. -/
theorem disk_answers_find_requests_first :
    ∃ S : WithDisk, S.jobs = [⟨0, List.replicate 40 0⟩] ∧
      S.http.find (List.replicate 40 0) = .ok (some 0) := by
  have hrun : (run (step filesGateway) [.http arrives] (init filesGateway)).map jobs =
      .ok [⟨0, List.replicate 40 0⟩] := rfl
  have hharmless : ∀ e ∈ [Event.http arrives], ∀ S, Harmless e S := by
    rintro e he S route part rest job - rfl
    cases List.mem_singleton.mp he
  obtain ⟨S, hr, hjobs⟩ := exists_of_run _ hharmless hrun
  refine ⟨S, hjobs, ((disk_answers_find_requests hr).1 ⟨0, List.replicate 40 0⟩ ?_).2.2⟩
  rw [hjobs]
  exact List.mem_singleton_self _

/-- A backend answers a request that a disk thread works on, and the disk thread answers it too. -/
theorem backend_takes_disk_request : ¬ ∀ (cfg : HttpConfig) (S : WithDisk),
    Reachable (step cfg) (init cfg) S →
      ∀ i rest, step cfg (.answer i rest) S ≠ .error (.assertion .diskReply) := by
  intro hall
  have hrun : (run (step filesGateway)
      [.http arrives, .http (.reply 1 [List.replicate 40 0, [], str "Hello"])]
      (init filesGateway)).map
      (fun S => (step filesGateway (.answer 0 [str "404"]) S).map fun _ => ()) =
      .ok (.error (.assertion .diskReply)) := rfl
  obtain ⟨S, hr, herr⟩ := exists_of_run _ (fun _ _ _ => trivial) hrun
  exact hall filesGateway S hr 0 [str "404"] (eq_error_of_map herr)

end WithDisk

end Http

end Zerogw
