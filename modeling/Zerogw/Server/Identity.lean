import Zerogw.Rejections
import Zerogw.Server.Changes

/-!
# The ids of connections

Every id contains the number of its connection, so no id is given out twice, and whoever keeps an id
after its connection has gone finds nothing with it.
-/

namespace Zerogw

open Execution

namespace Server

variable {cfg : Config} {i : Input} {s₀ s s' : Server} {h g : HybiId} {a b : Option ReqId × Server}

/-- What `sieve_find_hole` does to the number of the next allocation. -/
lemma findHole_index {α : Type} {item : α} {S S' : Sieve α} {index hole : Nat}
    (hfind : S.findHole item = some (index, hole, S')) :
    index = S.index ∧ S'.index = (S.index + 1) % 2 ^ 64 := by
  rw [Sieve.findHole] at hfind
  split at hfind
  · cases hfind
  · cases hfind
    exact ⟨rfl, rfl⟩

/-- Every connection has its number in its id. -/
structure Numbers (cfg : Config) (s : Server) : Prop where
  index : s.sieve.index = s.next % 2 ^ 64
  size : s.sieve.max = cfg.maxWebsockets
  holes : ∀ h < s.next, s.slot h < cfg.maxWebsockets
  ids : ∀ h < s.next, uidIndex (s.info h).uid = h % 2 ^ 64

lemma Change.numbers (h : Change cfg i s₀ a b) (ha : a.2.Numbers cfg) : b.2.Numbers cfg := by
  cases h with
  | @named q s index hole sieve random type route backend hfind hrandom =>
    obtain ⟨rfl, hindex⟩ := findHole_index hfind
    have hhole : hole < cfg.maxWebsockets := ha.size ▸ Sieve.findHole_lt_max hfind
    refine ⟨?_, (Sieve.findHole_max hfind).trans ha.size, fun h hh => ?_, fun h hh => ?_⟩
    · dsimp only
      rw [hindex, ha.index, Nat.mod_add_mod]
    · rw [slot]
      dsimp only
      by_cases hnew : h = s.next
      · have hsmall : hole < 2 ^ 64 := by
          apply hhole.trans
          apply cfg.maxWebsockets_le.trans_lt
          norm_num
        rw [hnew, Function.update_self, uidHole_mkUid _ random cfg.instanceId_length hsmall]
        exact hhole
      · rw [Function.update_of_ne hnew]
        exact ha.holes h (lt_of_le_of_ne (Nat.le_of_lt_succ hh) hnew)
    · dsimp only
      by_cases hnew : h = s.next
      · have hlt : s.sieve.index < 2 ^ 64 := by
          rw [ha.index]
          exact Nat.mod_lt _ (Nat.two_pow_pos 64)
        rw [hnew, Function.update_self, uidIndex_mkUid hole random cfg.instanceId_length hlt]
        exact ha.index
      · rw [Function.update_of_ne hnew]
        exact ha.ids h (lt_of_le_of_ne (Nat.le_of_lt_succ hh) hnew)
  | @other q s s' hsame =>
    have hborn : ∀ h, h < s'.next → h < s.next := fun h hh => hsame.next ▸ hh
    refine ⟨?_, hsame.max.trans ha.size, fun h hh => ?_, fun h hh => ?_⟩
    · dsimp only
      rw [hsame.index, hsame.next]
      exact ha.index
    · rw [slot, hsame.uid]
      exact ha.holes h (hborn h hh)
    · rw [hsame.uid]
      exact ha.ids h (hborn h hh)
  | _ => exact ⟨ha.index, ha.size, ha.holes, ha.ids⟩

lemma numbers_of_reachable (hr : Reachable (step cfg) (init cfg) s) : s.Numbers cfg := by
  refine hr.invariant_of (J := Numbers cfg) (fun _ hr => (sound_of_reachable hr).core) ?_
    fun i s s' _ hcore hs hstep => ?_
  · exact ⟨rfl, (Core.init cfg).size, fun h hh => absurd hh (Nat.not_lt_zero h),
      fun h hh => absurd hh (Nat.not_lt_zero h)⟩
  · obtain ⟨q, hchanges⟩ := changes_of_step hcore hstep
    exact hchanges.keeps (I := fun b => b.2.Numbers cfg) (fun a b hab => hab.numbers) hs

/-- A connection keeps its id. -/
lemma uid_of_step (hcore : s.Core cfg) (hstep : step cfg i s = .ok s') :
    s.next ≤ s'.next ∧ ∀ h < s.next, (s'.info h).uid = (s.info h).uid := by
  obtain ⟨q, hchanges⟩ := changes_of_step hcore hstep
  refine hchanges.keeps (I := fun b => s.next ≤ b.2.next ∧
    ∀ h < s.next, (b.2.info h).uid = (s.info h).uid) ?_ ⟨le_rfl, fun _ _ => rfl⟩
  rintro a b hab ⟨hnext, hids⟩
  cases hab with
  | named hfind hrandom =>
    refine ⟨Nat.le_succ_of_le hnext, fun h hh => ?_⟩
    dsimp only
    rw [Function.update_of_ne (hh.trans_le hnext).ne]
    exact hids h hh
  | other hsame =>
    refine ⟨hsame.next ▸ hnext, fun h hh => ?_⟩
    rw [hsame.uid]
    exact hids h hh
  | _ => exact ⟨hnext, hids⟩

/-- Different connections have different ids. -/
lemma eq_of_uid_eq (hr : Reachable (step cfg) (init cfg) s) (hfew : s.next ≤ 2 ^ 64)
    (hh : h < s.next) (hg : g < s.next) (huid : (s.info h).uid = (s.info g).uid) : h = g := by
  have hs := numbers_of_reachable hr
  have heq := congrArg uidIndex huid
  rw [hs.ids h hh, hs.ids g hg, Nat.mod_eq_of_lt (hh.trans_le hfew),
    Nat.mod_eq_of_lt (hg.trans_le hfew)] at heq
  exact heq

/-- In every run with at most `2 ^ 64` connections in which no stopped connection is stopped again,
an id is never given out again, and the id of a connection leads to that connection from its start
until it is stopped, and to nothing ever after. -/
theorem stale_ids_find_nothing
    (hr : ReachableVia (step cfg) (fun i s => ¬ Restops i s) (init cfg) s)
    (hfew : s.next ≤ 2 ^ 64) :
    (∀ h < s.next, ∀ g < s.next, (s.info h).uid = (s.info g).uid → h = g) ∧
    ∀ h < s.next, s.hybiFind (s.info h).uid = .ok (if s.Running h then some h else none) := by
  have hs := (sound_of_reachable hr).core
  have hint := intact_of_reachable (fun _ _ => id) hr
  have hall : Reachable (step cfg) (init cfg) s := hr.mono fun _ _ _ => trivial
  refine ⟨fun h hh g hg => eq_of_uid_eq hall hfew hh hg, fun h hh => ?_⟩
  by_cases hrun : s.Running h
  · rw [if_pos hrun]
    exact hybiFind_of_live hs (hint h hrun) (hs.uids h hh) rfl
  · rw [if_neg hrun]
    obtain ⟨o, hfind, ho⟩ := hybiFind_eq_ok hs (hs.uids h hh)
      ((numbers_of_reachable hall).holes h hh).ne
    cases o with
    | none => exact hfind
    | some g =>
      obtain ⟨hlg, huid⟩ := (ho g).mp rfl
      have hrg := hs.running hlg
      exact absurd (eq_of_uid_eq hall hfew (hs.lt_next hrg) hh huid ▸ hrg) hrun

/-- A websocket is opened and closed, and another one takes its slot: the old id finds nothing, the
new one its connection. -/
theorem stale_ids_find_nothing_reopened : ∃ s : Server, s.next = 5 ∧ s.slot 0 = s.slot 4 ∧
    (s.info 0).uid ≠ (s.info 4).uid ∧ s.hybiFind (s.info 0).uid = .ok none ∧
    s.hybiFind (s.info 4).uid = .ok (some 4) := by
  have hnever : ∀ i ∈ ([⟨.websockStart 0, stalledEnv⟩, ⟨.websockStart 0, stalledEnv⟩,
      ⟨.websockStart 0, stalledEnv⟩, ⟨.websockStart 0, stalledEnv⟩, ⟨.websockStop 0, stalledEnv⟩,
      ⟨.websockStart 0, stalledEnv⟩] : List Input), ∀ s, ¬ Restops i s := by
    rintro i hi s ⟨h, hevent, -⟩
    simp only [List.mem_cons, List.not_mem_nil, or_false] at hi
    obtain rfl | rfl | rfl | rfl | rfl | rfl := hi <;> cases hevent
  obtain ⟨s, hr, hview⟩ := exists_of_small_run _
    (fun s => (s.next, s.slot 0, s.slot 4, decide (s.Running 0), decide (s.Running 4)))
    (5, 0, 0, false, true) hnever (by decide +kernel)
  simp only [Prod.mk.injEq, decide_eq_false_iff_not, decide_eq_true_iff] at hview
  obtain ⟨hnext, hslot, hslot', hstopped, hrunning⟩ := hview
  obtain ⟨hdiffer, hfind⟩ := stale_ids_find_nothing hr (hnext.le.trans (by norm_num))
  rw [hnext] at hdiffer hfind
  refine ⟨s, hnext, hslot.trans hslot'.symm, fun huid => ?_, ?_, ?_⟩
  · exact absurd (hdiffer 0 (by norm_num) 4 (by norm_num) huid) (by decide)
  · rw [hfind 0 (by norm_num), if_neg hstopped]
  · rw [hfind 4 (by norm_num), if_pos hrunning]

end Server

end Zerogw
