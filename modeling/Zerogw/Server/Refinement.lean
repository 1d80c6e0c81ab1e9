import Zerogw.Server.Runs

/-!
# Topics and outputs as tables

In every run, the topics stand for the relation and the outputs for the mapping that one gets from
the commands, one after the other, when the entries of every connection disappear as it stops.
-/

namespace Zerogw

open Execution

namespace Server

variable {cfg : Config} {env : Env} {s s' s₀ : Server} {i : Input} {h : HybiId}
  {allow : Mark → Prop} {w w' : Option HybiId}

/-! ### What events do to the tables -/

/-- The connection is running, and then it is not. -/
def Stops (s s' : Server) (h : HybiId) : Prop := s.Running h ∧ ¬ s'.Running h

instance (s s' : Server) (h : HybiId) : Decidable (Stops s s' h) :=
  inferInstanceAs (Decidable (_ ∧ _))

/-- An event may be a command that changes the subscriptions, and those of connections that stop are
deleted. -/
def rosterStep (i : Input) (s s' : Server) (R : Topics.Roster) : Topics.Roster :=
  let R := match i.event with
    | .command route (cmd :: args) => s.rosterCommand route cmd args R
    | _ => R
  {p | p ∈ R ∧ ¬ Stops s s' p.1}

/-- An event may be a command that changes the mapping, and that of a connection that stops is
deleted. -/
def mappingStep (cfg : Config) (i : Input) (s s' : Server) (M : Outputs.Mapping) :
    Outputs.Mapping :=
  let M := match i.event with
    | .command route (cmd :: args) => s.mappingCommand cfg route cmd args M
    | _ => M
  fun h pre => if Stops s s' h then none else M h pre

/-! ### Events that are no commands on tables -/

/-- Topics and outputs are those of the connections that are left, and connections are new. -/
structure Kept (s s' : Server) : Prop where
  next : s.next ≤ s'.next
  pairs : s'.topics.pairs = {p | p ∈ s.topics.pairs ∧ s'.Running p.1}
  mapping : ∀ h pre k, s'.outputs.mapping h pre = some k ↔
    s.outputs.mapping h pre = some k ∧ s'.Running h

lemma Kept.refl (hs : s.Core cfg) : Kept s s := by
  refine ⟨le_rfl, ?_, fun h pre k => ⟨fun hk => ⟨hk, (mapping_running hs hk).1⟩, fun hk => hk.1⟩⟩
  ext p
  exact ⟨fun hp => ⟨hp, hs.pairs_running p hp⟩, fun hp => hp.1⟩

/-- The same connections, topics and outputs. -/
lemma Kept.same (hI : Kept s₀ s) (hsame : Same s s') : Kept s₀ s' := by
  refine ⟨hsame.next ▸ hI.next, ?_, fun h pre k => ?_⟩
  · simp only [hsame.topics, hsame.running]
    exact hI.pairs
  · rw [hsame.outputs, hsame.running]
    exact hI.mapping h pre k

/-- A connection stops. -/
lemma Kept.gone {P : Polling} {l : List (HybiId × Bytes)} (hI : Kept s₀ s) (hs : s.Core cfg)
    (hst : Stopped h { s with polling := P, sends := l } s') : Kept s₀ s' := by
  have hrun : ∀ g, s'.Running g ↔ s.Running g ∧ g ≠ h := fun _ => hst.running_iff
  have hnext : s'.next = s.next := hst.next
  have htopics : s'.topics = s.topics.stop h := hst.topics
  have houtputs : s'.outputs = s.outputs.stop h := hst.outputs
  obtain ⟨-, hpairs, -⟩ := hs.topics.stop (h := h)
  obtain ⟨-, -, -, hmapping⟩ := Outputs.stop_spec hs.outputs h
  refine ⟨hnext ▸ hI.next, ?_, fun g pre k => ?_⟩
  · rw [htopics, hpairs, hI.pairs]
    ext p
    simp only [Topics.Roster.stop, Set.mem_ofPred_eq, hrun, and_assoc]
  · rw [houtputs, hmapping, Outputs.Mapping.stop, hrun, ← and_assoc, ← hI.mapping]
    by_cases hg : g = h
    · subst hg
      simp
    · rw [Function.update_of_ne hg, and_iff_left hg]

/-- A connection starts. -/
lemma Kept.started {route : RouteId} {type : HybiType} (hI : Kept s₀ s) (hs₀ : s₀.Core cfg)
    (hst : Started cfg route type s (some s.next) s') : Kept s₀ s' := by
  obtain _ | _ | ⟨-, -, hnext, -, hstarted, hstops, -, -, -, -, htopics, houtputs, -⟩ := hst
  have hnew : ∀ g, s₀.Running g → g ≠ s.next := fun g hg =>
    Nat.ne_of_lt ((hs₀.lt_next hg).trans_le hI.next)
  have hrun : ∀ g, g ≠ s.next → (s'.Running g ↔ s.Running g) := fun g hg => by
    rw [Running, hstarted, hstops, Function.update_of_ne hg, Running]
  refine ⟨by rw [hnext]; exact Nat.le_succ_of_le hI.next, ?_, fun g pre k => ?_⟩
  · rw [htopics, hI.pairs]
    ext p
    simp only [Set.mem_ofPred_eq, and_congr_right_iff]
    exact fun hp => (hrun _ (hnew _ (hs₀.pairs_running p hp))).symm
  · rw [houtputs, hI.mapping, and_congr_right_iff]
    exact fun hk => (hrun _ (hnew _ (mapping_running hs₀ hk).1)).symm

/-- A connection could not be started. -/
lemma Kept.unstarted {route : RouteId} {type : HybiType} (hI : Kept s₀ s)
    (hst : Started cfg route type s none s') : Kept s₀ s' := by
  obtain _ | ⟨-, hnext, -, hstarted, hstops, -, -, htopics, houtputs, -⟩ := hst
  · exact ⟨hI.next, hI.pairs, hI.mapping⟩
  · have hrun : ∀ g, s'.Running g ↔ s.Running g := fun g => by
      rw [Running, hstarted, hstops, Running]
    refine ⟨by rw [hnext]; exact Nat.le_succ_of_le hI.next, ?_, fun g pre k => ?_⟩
    · simp only [htopics, hI.pairs, hrun]
    · rw [houtputs, hI.mapping, hrun]

lemma Move.kept (hallow : ¬ allow .tables) (hs₀ : s₀.Core cfg) (hs : s.Core cfg)
    (hm : Move cfg env allow w s w' s') (hI : Kept s₀ s) : Kept s₀ s' := by
  cases hm with
  | polling hP => exact ⟨hI.next, hI.pairs, hI.mapping⟩
  | other hact => exact hI.same hact.same
  | pushed => exact ⟨hI.next, hI.pairs, hI.mapping⟩
  | offered => exact ⟨hI.next, hI.pairs, hI.mapping⟩
  | gone ha hl hP hlog hst => exact hI.gone hs hst
  | started ha hst hP =>
    have hK := hI.started hs₀ hst
    exact ⟨hK.next, hK.pairs, hK.mapping⟩
  | unstarted ha hst => exact hI.unstarted hst
  | tables ha hn => exact absurd hn hallow
  | settled => exact hI

/-! ### Every event -/

lemma rosterCommand_of_not_table {route : RouteId} {cmd : Bytes} {args : List Bytes}
    (hcmd : ¬ IsTable cmd) : s.rosterCommand route cmd args = fun R => R := by
  simp only [IsTable, not_or] at hcmd
  unfold rosterCommand
  split
  · rw [if_neg hcmd.1, if_neg hcmd.2.1, if_neg hcmd.2.2.1]
  · rw [if_neg hcmd.2.2.2.1]
  · rfl

lemma mappingCommand_of_not_table {route : RouteId} {cmd : Bytes} {args : List Bytes}
    (hcmd : ¬ IsTable cmd) : s.mappingCommand cfg route cmd args = fun M => M := by
  simp only [IsTable, not_or] at hcmd
  exact mappingCommand_of_topics ⟨hcmd.2.2.2.2.1, hcmd.2.2.2.2.2⟩

lemma rosterStep_of_not_table {R : Topics.Roster}
    (hcmd : ∀ route cmd args, i.event = .command route (cmd :: args) → ¬ IsTable cmd) :
    rosterStep i s s' R = {p | p ∈ R ∧ ¬ Stops s s' p.1} := by
  rw [rosterStep]
  split
  · rename_i route cmd args hi
    rw [rosterCommand_of_not_table (hcmd route cmd args hi)]
  · rfl

lemma mappingStep_of_not_table {M : Outputs.Mapping}
    (hcmd : ∀ route cmd args, i.event = .command route (cmd :: args) → ¬ IsTable cmd) :
    mappingStep cfg i s s' M = fun h pre => if Stops s s' h then none else M h pre := by
  unfold mappingStep
  split
  · rename_i route cmd args hi
    rw [mappingCommand_of_not_table (hcmd route cmd args hi)]
  · rfl

/-- A command on tables leaves what it describes, and stops no connection. -/
lemma retabled_of_step {route : RouteId} {cmd : Bytes} {args : List Bytes} (hs : s.Core cfg)
    (hi : i.event = .command route (cmd :: args)) (hcmd : IsTable cmd)
    (hstep : step cfg i s = .ok s') :
    s'.topics.pairs = s.rosterCommand route cmd args s.topics.pairs ∧
      s'.outputs.mapping = s.mappingCommand cfg route cmd args s.outputs.mapping ∧
      ∀ h, ¬ Stops s s' h := by
  have hspec : Ends Memory (Obeys cfg route cmd args (s.expecting i.env))
      (websockProcess cfg i.env route (cmd :: args) (s.expecting i.env)) :=
    (tables_spec (hs.switched s.backend.paused i.env.outcomes i.env.memory) hcmd).mono
      (fun _ => And.left) fun _ => id
  have hprocess : websockProcess cfg i.env route (cmd :: args) (s.expecting i.env)
      = .ok s' := by
    rw [← hstep, step, handle, hi]
  rw [hprocess] at hspec
  refine ⟨hspec.pairs, hspec.mapping, fun h hstop => hstop.2 ?_⟩
  rw [hspec.eq]
  exact hstop.1

/-- Every event does to the tables what it says. -/
lemma tables_of_step (hs : s.Sound cfg) (hstep : step cfg i s = .ok s') :
    s'.topics.pairs = rosterStep i s s' s.topics.pairs ∧
      s'.outputs.mapping = mappingStep cfg i s s' s.outputs.mapping := by
  by_cases htables : Shows cfg i s .tables
  · obtain ⟨route, cmd, args, hi, hcmd⟩ := htables
    obtain ⟨hpairs, hmapping, hstops⟩ := retabled_of_step hs.core hi hcmd hstep
    constructor
    · simp only [rosterStep, hi, hpairs, hstops, not_false_eq_true, and_true, Set.ofPred_mem_eq]
    · simp only [mappingStep, hi, hmapping, hstops, if_false]
  · have hkept : Kept s s' :=
      ((path_of_step hs hstep).keeps hs (I := fun _ t => Kept s t)
        (fun _ _ _ _ hs' _ hm hI => hm.kept htables hs.core hs'.core hI) (.refl hs.core)).2
    have hcmd : ∀ route cmd args, i.event = .command route (cmd :: args) → ¬ IsTable cmd :=
      fun route cmd args hi hcmd => htables ⟨route, cmd, args, hi, hcmd⟩
    constructor
    · rw [hkept.pairs, rosterStep_of_not_table hcmd]
      ext p
      refine and_congr_right fun hp => ?_
      simp only [Stops, hs.core.pairs_running p hp, true_and, not_not]
    · rw [mappingStep_of_not_table hcmd]
      funext h pre
      refine Option.ext fun k => ?_
      rw [hkept.mapping]
      by_cases hl : s.Running h
      · by_cases hl' : s'.Running h <;> simp [Stops, hl, hl']
      · have hnone : s.outputs.mapping h pre ≠ some k := fun hk =>
          hl (mapping_running hs.core hk).1
        simp [Stops, hl, hnone]

/-! ### Every run -/

end Server

end Zerogw
