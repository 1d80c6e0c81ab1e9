import Zerogw.Server.Runs

/-!
# Messages are routed by their prefix

The message of a client goes to the first mapping of its connection that `strncmp` says it begins
with. The comparison ends at a NUL byte, so that a mapping may be taken whose prefix differs from
the message behind one.
-/

namespace Zerogw

open Execution

namespace Server

variable {cfg : Config} {env : Env} {s : Server} {h : HybiId} {o : OutputId} {pre data : Bytes}
  {k : SockId}

/-! ### The comparison -/

/-- Both buffers begin with the same bytes up to a NUL byte. -/
def StopsAtNul (pre data : Bytes) : Prop := ∃ p, p ++ [0] <+: pre ∧ p ++ [0] <+: data

lemma stopsAtNul_cons {a b : UInt8} :
    StopsAtNul (b :: pre) (a :: data) ↔ a = b ∧ (a = 0 ∨ StopsAtNul pre data) := by
  constructor
  · rintro ⟨_ | ⟨c, p⟩, hpre, hdata⟩
    · obtain ⟨rfl, -⟩ := List.cons_prefix_cons.mp hpre
      obtain ⟨rfl, -⟩ := List.cons_prefix_cons.mp hdata
      exact ⟨rfl, Or.inl rfl⟩
    · obtain ⟨rfl, hpre'⟩ := List.cons_prefix_cons.mp hpre
      obtain ⟨rfl, hdata'⟩ := List.cons_prefix_cons.mp hdata
      exact ⟨rfl, Or.inr ⟨p, hpre', hdata'⟩⟩
  · rintro ⟨rfl, rfl | ⟨p, hpre, hdata⟩⟩
    · exact ⟨[], by simp, by simp⟩
    · exact ⟨a :: p, List.cons_prefix_cons.mpr ⟨rfl, hpre⟩, List.cons_prefix_cons.mpr ⟨rfl, hdata⟩⟩

/-- What `strncmp` takes for a prefix. -/
lemma strncmpEq_iff (hlen : pre.length ≤ data.length) :
    strncmpEq pre.length data pre = true ↔ pre <+: data ∨ StopsAtNul pre data := by
  induction pre generalizing data with
  | nil => simp [strncmpEq]
  | cons b pre ih =>
    obtain _ | ⟨a, data⟩ := data
    · simp at hlen
    · rw [List.length_cons, strncmpEq, Bool.and_eq_true, Bool.or_eq_true, beq_iff_eq, beq_iff_eq,
        ih (by simpa using hlen), stopsAtNul_cons, List.cons_prefix_cons]
      constructor
      · rintro ⟨rfl, hnul | hpre | hstop⟩
        · exact Or.inr ⟨rfl, Or.inl hnul⟩
        · exact Or.inl ⟨rfl, hpre⟩
        · exact Or.inr ⟨rfl, Or.inr hstop⟩
      · rintro (⟨rfl, hpre⟩ | ⟨rfl, hnul | hstop⟩)
        · exact ⟨rfl, Or.inr (Or.inl hpre)⟩
        · exact ⟨rfl, Or.inl hnul⟩
        · exact ⟨rfl, Or.inr (Or.inr hstop)⟩

/-! ### The socket of a message -/

/-- An entry whose prefix the message begins with, at least up to a NUL byte. -/
def Matches (s : Server) (data : Bytes) (o : OutputId) : Prop :=
  ∃ e, s.outputs.out.get o = some e ∧ e.pre.length ≤ data.length ∧
    (e.pre <+: data ∨ StopsAtNul e.pre data)

lemma matches_iff : ((s.outputs.out.get o).any fun e =>
    e.pre.length ≤ data.length && strncmpEq e.pre.length data e.pre) = true ↔ s.Matches data o := by
  simp only [Option.any_eq_true, Bool.and_eq_true, decide_eq_true_iff, Matches]
  exact exists_congr fun e => and_congr_right fun _ => and_congr_right strncmpEq_iff

/-- The message goes to the named output of a mapping whose prefix it begins with, and if there is
none to the forward socket of the route. -/
def Routed (s : Server) (h : HybiId) (data : Bytes) (k : SockId) : Prop :=
  (∃ pre, s.outputs.mapping h pre = some k ∧ pre <+: data) ∨
    k = .forward (s.info h).route ∧ ∀ pre j, s.outputs.mapping h pre = some j → ¬ pre <+: data

/-- The first entry that matches the message does so only up to a NUL byte, and no mapping to its
named output has a prefix of the message. -/
def MisledBy (s : Server) (h : HybiId) (data : Bytes) (o : OutputId) : Prop :=
  ∃ e front back, s.outputs.out.get o = some e ∧ s.outputs.clients h = front ++ o :: back ∧
    e.pre.length ≤ data.length ∧ StopsAtNul e.pre data ∧ (∀ p ∈ front, ¬ s.Matches data p) ∧
    ∀ pre, s.outputs.mapping h pre = some e.socket → ¬ pre <+: data

/-- A named output for a prefix of the first connection. -/
def addsOutput (pre : Bytes) : Input :=
  ⟨.command 0 [str "add_output", firstUid, pre, str "chat"], stalledEnv⟩

end Server

end Zerogw
