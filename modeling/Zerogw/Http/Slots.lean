import Mathlib.Data.List.ReduceOption
import Zerogw.Http.Answers

/-!
# Requests and their slots

A request carries a flag that says whether it is in the sieve, and an id that says where. Both are
written at other places than the slot itself. They agree in every run, so that there is always a
slot for an id that is needed, and only occupied slots are emptied.
-/

namespace Zerogw

open Execution

namespace Sieve

variable {α : Type*} {s : Sieve α} {a : α}

/-- The objects in the sieve, by their slots. -/
def objects (s : Sieve α) : List α := s.items.reduceOption

lemma mem_objects : a ∈ s.objects ↔ ∃ k, s.Holds k a := by
  rw [objects, List.reduceOption_mem_iff, List.mem_iff_getElem?]
  rfl

lemma length_objects (s : Sieve α) : s.objects.length = s.occupied := by
  rw [objects, occupied, List.reduceOption_length_eq, List.countP_eq_length_filter]

/-- An object with one slot is listed once. -/
lemma nodup_objects (h : ∀ j k a, s.Holds j a → s.Holds k a → j = k) : s.objects.Nodup := by
  refine List.Pairwise.filterMap id ?_ (List.pairwise_iff_getElem.mpr ?_)
    (R := fun x y => ∀ a, x = some a → y ≠ some a)
  · rintro x y hne a rfl b rfl rfl
    exact hne a rfl rfl
  · intro j k hj hk hlt a hja hka
    have heq := h j k a (List.getElem?_eq_some_iff.mpr ⟨hj, hja⟩)
      (List.getElem?_eq_some_iff.mpr ⟨hk, hka⟩)
    exact absurd heq (ne_of_lt hlt)

end Sieve

namespace Http

variable {cfg : HttpConfig} {H H₀ : Http} {r : ReqId} {e : Event}

/-- The calls of `make_hole_uid` while an event is handled, each with the state before it: in
`http_request` for a request that is forwarded, in `disk_request`, and in `request_timeout`. -/
inductive MakesUid (cfg : HttpConfig) (H : Http) : Event → ReqId → Http → Prop
  | forward {route : RouteId} {uri method body ip date : Bytes} {header : Bytes → Option Bytes}
      {result : ForwardResult} {H₁ : Http} (hnew : H.newRequest uri method body ip date header = H₁)
      (hroom : H₁.requests.sieve.full = false)
      (hforward : (cfg.route route).zmqForward.enabled = true) :
      MakesUid cfg H (.request (.route route) uri method body ip date header result) H.next
        (H₁.setRequest H.next { H₁.request H.next with route := some route })
  | disk {route : RouteId} {uri method body ip date : Bytes} {header : Bytes → Option Bytes}
      {result : ForwardResult} {H₁ : Http} (hnew : H.newRequest uri method body ip date header = H₁)
      (hroom : H₁.requests.sieve.full = false)
      (hforward : (cfg.route route).zmqForward.enabled = false)
      (hstatic : (cfg.route route).staticEnabled = true) (hthreads : cfg.diskThreads = true) :
      MakesUid cfg H (.request (.route route) uri method body ip date header result) H.next
        (H₁.setRequest H.next { H₁.request H.next with route := some route })
  | retryLast {r : ReqId} {route : RouteId} {result : ForwardResult} {q : HttpRequest}
      {requests : Registry ReqId} (htimer : (H.request r).timer = true)
      (hroute : (H.request r).route = some route)
      (hq : q = { H.request r with retries := (H.request r).retries + 1 })
      (hcount : q.retries < (cfg.route route).zmqForward.retryCount)
      (hmode : (cfg.route route).zmqForward.retryMode = .retryLast) (hin : q.inSieve = true)
      (hempty : H.requests.empty (uidHole (H.requests.uid r)) = .ok requests) :
      MakesUid cfg H (.timeout r result) r { H.setRequest r q with requests := requests }

/-- There is a slot whenever an id is needed. -/
lemma makeUid_of_makesUid (hs : H.Sound cfg) (h : MakesUid cfg H e r H₀) :
    (H₀.makeUid cfg r).1 = true := by
  have hroom : ∀ {H₁ : Http}, H₁.requests = H.requests → H₁.requests.sieve.full = false →
      (H₁.makeUid cfg r).1 = true := by
    intro H₁ hsame hfull
    rw [makeUid, hsame]
    rw [hsame] at hfull
    exact hs.registry.make_fst.mpr (by simpa [Sieve.full] using hfull)
  cases h with
  | forward hnew hfull hforward =>
    subst hnew
    exact hroom rfl hfull
  | disk hnew hfull hforward hstatic hthreads =>
    subst hnew
    exact hroom rfl hfull
  | retryLast htimer hroute hq hcount hmode hin hempty =>
    exact room_of_empty hs ((hs.requests r).timer htimer) hempty

/-- In every run: a request has the flag exactly if the slot that its id names holds it; the sieve
counts the requests with the flag; every call of `make_hole_uid` for a request finds a slot; and
`sieve_empty` is not called on an empty slot. -/
theorem flags_match_slots (hr : Reachable (step cfg) (init cfg) H) :
    (∀ r, (H.request r).inSieve = true ↔
      H.requests.sieve.Holds (uidHole (H.requests.uid r)) r) ∧
    (∃ rs : List ReqId, rs.Nodup ∧ (∀ r, r ∈ rs ↔ (H.request r).inSieve = true) ∧
      H.requests.sieve.filled = rs.length) ∧
    (∀ e r H₀, MakesUid cfg H e r H₀ → (H₀.makeUid cfg r).1 = true) ∧
    ∀ e, step cfg e H ≠ .error (.assertion .sieveEmpty) := by
  have hs := sound_of_reachable hr
  refine ⟨fun r => ?_, ⟨H.requests.sieve.objects, ?_, fun r => ?_, ?_⟩,
    fun e r H₀ => makeUid_of_makesUid hs, fun e herr => ?_⟩
  · rw [hs.holds_iff, and_iff_left rfl]
  · refine Sieve.nodup_objects fun j k r hj hk => ?_
    exact (hs.holds_iff.mp hj).2.symm.trans (hs.holds_iff.mp hk).2
  · rw [Sieve.mem_objects, hs.sieve]
  · rw [hs.registry.filled, Sieve.length_objects]
  · have hspec := step_spec hs e
    rw [herr] at hspec
    exact hspec rfl

/-- A request that has arrived. -/
theorem flags_match_slots_arrived : ∃ H, Reachable (step smallGateway) (init smallGateway) H ∧
    (H.request 0).inSieve = true ∧ H.requests.sieve.Holds (uidHole (H.requests.uid 0)) 0 := by
  obtain ⟨H, hr, hin⟩ := exists_of_gateway_run [arrives] (fun H => (H.request 0).inSieve) true rfl
  exact ⟨H, hr, hin, ((flags_match_slots hr).1 0).mp hin⟩

end Http

end Zerogw
