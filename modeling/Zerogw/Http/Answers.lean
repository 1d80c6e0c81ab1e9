import Zerogw.Http.Properties

/-!
# HTTP requests are answered at most once

Requests, replies, timeouts, retries and refusals may come in any order. A request gets one response
at most, and a body only from a message with its own id; after that, nothing leads to it any more.
-/

namespace Zerogw

open Execution

namespace Http

variable {cfg : HttpConfig} {H H' : Http} {r : ReqId} {uid : Bytes}

lemma Sound.step (hs : H.Sound cfg) {e : Event} (hstep : step cfg e H = .ok H') :
    H'.Sound cfg := by
  rcases (step_spec hs e).result hstep with ⟨hreg, hreq, hnext⟩ | ⟨r, -, hacts⟩
  · exact ((Acts.refl (A := fun _ => True) (r := 0) hs).congr hreg hreq hnext).sound
  · exact hacts.sound

/-- The invariant holds in every reachable state. -/
theorem sound_of_reachable (hr : Reachable (step cfg) (init cfg) H) : H.Sound cfg :=
  hr.invariant (Sound.init cfg) fun _ _ _ _ hs hstep => hs.step hstep

/-- An event gives a request one response at most. -/
lemma responses_of_step (hs : H.Sound cfg) {e : Event} (hstep : step cfg e H = .ok H') (r : ReqId) :
    (H'.request r).responses = (H.request r).responses ∨
      ∃ rep, (H'.request r).responses = (H.request r).responses ++ [rep] ∧
        Relayed cfg H e.message r rep := by
  have hspec := step_spec hs e
  rw [hstep] at hspec
  have hprepared : ((H.prepared e).request r).responses = (H.request r).responses := by
    cases e with
    | request target uri method body ip date header result =>
      by_cases hr : r = H.next
      · subst hr
        rw [hs.fresh _ le_rfl]
        show (Function.update H.request H.next _ H.next).responses = []
        rw [Function.update_self]
        rfl
      · exact congrArg HttpRequest.responses (setRequest_of_ne hr)
    | _ => rfl
  rcases hspec with ⟨-, hreq, -⟩ | ⟨r', -, hacts⟩
  · exact Or.inl (by rw [hreq])
  · by_cases hr : r = r'
    · subst hr
      rw [← hprepared]
      rcases hacts.responses with h | ⟨rep, hrep, heq⟩
      · exact Or.inl h
      · exact Or.inr ⟨rep, heq, hrep⟩
    · exact Or.inl (by rw [(hacts.others r hr).1, hprepared])

/-- No request is found for an id of a request that has left the sieve or has another id. -/
lemma find_of_gone (hs : H.Sound cfg) (hfew : H.requests.issued.length < 2 ^ 64)
    (hissued : (uid, r) ∈ H.requests.issued)
    (hout : (H.request r).inSieve = true → H.requests.uid r ≠ uid) : H.find uid = .ok none := by
  have hlt := hs.registry.holes uid r hissued
  obtain ⟨o, hfind, ho⟩ := find_eq_ok hs (ne_of_lt (hs.registry.max.symm ▸ hlt))
  cases o with
  | none => exact hfind
  | some b =>
    obtain ⟨hin, hname⟩ := (ho b).mp rfl
    obtain ⟨k, hk⟩ := (hs.sieve b).mp hin
    obtain rfl := hs.registry.owner hfew hissued hk hname
    exact absurd hname (hout hin)

/-- A reply to such an id is only counted, if it has at least two parts. -/
lemma reply_eq_orphan (hs : H.Sound cfg) (hfew : H.requests.issued.length < 2 ^ 64)
    (hissued : (uid, r) ∈ H.requests.issued)
    (hout : (H.request r).inSieve = true → H.requests.uid r ≠ uid) (route : RouteId) (part : Bytes)
    (rest : List Bytes) : step cfg (.reply route (uid :: part :: rest)) H
      = .ok { H with orphans := H.orphans + 1 } := by
  have hlen := hs.lengths uid r hissued
  show H.httpProcess cfg route (uid :: part :: rest) = _
  unfold httpProcess
  dsimp only
  rw [if_neg (not_not.mpr hlen), find_of_gone hs hfew hissued hout]
  rfl

/-- In every run, a request that is not served from the disk gets one response at most. Every
response is a static one or has the body of a message with the request's id at that moment, while
the request is in the sieve. Once it has been answered, a request is out of the sieve, its timer
does not fire, and a reply to one of its ids is an orphan if it has at least two parts. -/
theorem answered_at_most_once (hr : Reachable (step cfg) (init cfg) H) :
    (∀ r, ¬ FromDisk cfg (H.request r) → (H.request r).responses.length ≤ 1 ∧
      ((H.request r).responses ≠ [] →
        (∀ k, ¬ H.requests.sieve.Holds k r) ∧ (H.request r).timer = false ∧
        (∀ result, step cfg (.timeout r result) H = .ok H) ∧
        (H.requests.issued.length < 2 ^ 64 → ∀ uid, (uid, r) ∈ H.requests.issued →
          ∀ route part rest, step cfg (.reply route (uid :: part :: rest)) H
            = .ok { H with orphans := H.orphans + 1 }))) ∧
    ∀ e H', step cfg e H = .ok H' → ∀ r,
      (H'.request r).responses = (H.request r).responses ∨
      ∃ rep, (H'.request r).responses = (H.request r).responses ++ [rep] ∧
        (IsStatic cfg rep ∨ Carries H e.message r rep) := by
  have hs := sound_of_reachable hr
  refine ⟨fun r hd => ⟨?_, fun hanswered => ?_⟩, fun e H' hstep r => responses_of_step hs hstep r⟩
  · by_cases hnone : (H.request r).responses = []
    · rw [hnone]
      exact Nat.zero_le _
    · exact ((hs.requests r).answered hd hnone).1.le
  · have hout := ((hs.requests r).answered hd hanswered).2
    have htimer : (H.request r).timer = false := by
      by_contra h
      have hin := (hs.requests r).timer (by simpa using h)
      rw [hout] at hin
      cases hin
    refine ⟨fun k hk => ?_, htimer, fun result => ?_, fun hfew uid hissued route part rest =>
      reply_eq_orphan hs hfew hissued (fun hin => ?_) route part rest⟩
    · have hin := (hs.sieve r).mpr ⟨k, hk⟩
      rw [hout] at hin
      cases hin
    · rw [step, htimer]
      rfl
    · rw [hout] at hin
      cases hin

/-! ### A small gateway -/

/-- Every error is reported in the same way. -/
def smallResponse : StaticResponse where
  code := 500
  status := str "Error"
  headers := []
  body := []
  code_ge := by decide
  code_le := by decide

/-- Every route forwards requests without a time limit. -/
def smallGateway : HttpConfig where
  route _ :=
    { zmqForward := ⟨true, [.body], 0, .noRetry, 0, by decide⟩
      staticEnabled := false
      responses := ⟨smallResponse, smallResponse, smallResponse, smallResponse, smallResponse,
        smallResponse⟩
      headers := [] }
  root := 0
  instanceId := List.replicate 16 0
  maxRequests := 4
  diskThreads := false
  instanceId_length := rfl
  maxRequests_ge := le_rfl
  maxRequests_le := by norm_num

/-- A request arrives and is forwarded. -/
def arrives : Event := .request (.route 0) (str "/") (str "GET") [] [] [] (fun _ => none) .accepted

/-- The backend answers the first request. -/
def answers : Event := .reply 0 [List.replicate 40 0, [], str "Hello"]

/-- A state that the small gateway reaches on given events. -/
lemma exists_of_gateway_run {α : Type} (is : List Event) (view : Http → α) (a : α)
    (hrun : (run (step smallGateway) is (init smallGateway)).map view = .ok a) :
    ∃ H, Reachable (step smallGateway) (init smallGateway) H ∧ view H = a :=
  exists_of_run view (fun _ _ _ => trivial) hrun

theorem answered_at_most_once_late : ∃ H, Reachable (step smallGateway) (init smallGateway) H ∧
    (H.request 0).responses.map Response.body = [str "Hello"] ∧
    step smallGateway answers H = .ok { H with orphans := H.orphans + 1 } := by
  obtain ⟨H, hr, hview⟩ := exists_of_gateway_run [arrives, answers]
    (fun H => ((H.request 0).responses.map Response.body, H.requests.issued))
    ([str "Hello"], [(List.replicate 40 0, 0)]) rfl
  obtain ⟨hbody, hissued⟩ := Prod.mk.inj hview
  have hd : ¬ FromDisk smallGateway (H.request 0) := by
    rintro ⟨_, -, hdisabled, -⟩
    cases hdisabled
  obtain ⟨-, hlater⟩ := (answered_at_most_once hr).1 0 hd
  refine ⟨H, hr, hbody, (hlater ?_).2.2.2 ?_ _ ?_ _ _ _⟩
  · intro hnone
    rw [hnone] at hbody
    cases hbody
  · rw [hissued]
    decide
  · rw [hissued]
    exact List.mem_singleton.mpr rfl

/-- A message that consists of the id of an answered request alone is not counted. -/
theorem bare_id_not_counted : ∃ H, Reachable (step smallGateway) (init smallGateway) H ∧
    (List.replicate 40 0, 0) ∈ H.requests.issued ∧ (H.request 0).responses ≠ [] ∧
    step smallGateway (.reply 0 [List.replicate 40 0]) H = .ok H := by
  obtain ⟨H, hr, hview⟩ := exists_of_gateway_run [arrives, answers]
    (fun H => ((H.request 0).responses.map Response.body, H.requests.issued))
    ([str "Hello"], [(List.replicate 40 0, 0)]) rfl
  obtain ⟨hbody, hissued⟩ := Prod.mk.inj hview
  refine ⟨H, hr, ?_, ?_, rfl⟩
  · rw [hissued]
    exact List.mem_singleton.mpr rfl
  · intro hnone
    rw [hnone] at hbody
    cases hbody

end Http

end Zerogw
