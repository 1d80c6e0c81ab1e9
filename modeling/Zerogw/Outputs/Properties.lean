import Zerogw.Outputs.Basic

/-!
# Output mappings as a map from prefixes

The invariant of the two lists of every output, with the grouping that the disconnect notices rely
on, and the map from prefixes to named outputs that the entries of a connection stand for.
-/

namespace Zerogw

namespace Outputs

variable {O : Outputs} {o p : OutputId} {e : Output} {h : HybiId} {k : SockId} {pre : Bytes}

/-- Every output is in the list of its connection and in the list of its named output, once in each
and in no other list; no prefix of a connection is mapped twice; and both kinds of lists are kept in
groups. -/
structure WF (O : Outputs) : Prop where
  clients : ∀ h o, o ∈ O.clients h ↔ ∃ e, O.out.get o = some e ∧ e.connection = h
  attached : ∀ k o, o ∈ O.attached k ↔ ∃ e, O.out.get o = some e ∧ e.socket = k
  clientsNodup : ∀ h, (O.clients h).Nodup
  attachedNodup : ∀ k, (O.attached k).Nodup
  prefixUnique : ∀ o p e f, O.out.get o = some e → O.out.get p = some f →
    e.connection = f.connection → e.pre = f.pre → o = p
  clientsGrouped : ∀ h, Contiguous ((O.clients h).map O.socketOf)
  attachedGrouped : ∀ k, Contiguous ((O.attached k).map O.connectionOf)

lemma WF.init : init.WF := by
  refine ⟨?_, ?_, ?_, ?_, ?_, ?_, ?_⟩
  all_goals simp [Outputs.init]

/-! ### The mapping of a connection -/

lemma hasPrefix_iff (he : O.out.get o = some e) : O.hasPrefix pre o = true ↔ e.pre = pre := by
  simp [hasPrefix, he]

lemma hasSocket_iff (he : O.out.get o = some e) : O.hasSocket k o = true ↔ e.socket = k := by
  simp [hasSocket, he]

/-- The entry for a prefix, as the scan for it finds it. -/
lemma find_prefix_iff (hO : O.WF) : (O.clients h).find? (O.hasPrefix pre) = some o ↔
    ∃ e, O.out.get o = some e ∧ e.connection = h ∧ e.pre = pre := by
  constructor
  · intro hf
    obtain ⟨e, he, rfl⟩ := (hO.clients h o).mp (List.mem_of_find?_eq_some hf)
    exact ⟨e, he, rfl, (hasPrefix_iff he).mp (List.find?_some hf)⟩
  · rintro ⟨e, he, rfl, rfl⟩
    have hmem : o ∈ O.clients e.connection := (hO.clients _ o).mpr ⟨e, he, rfl⟩
    cases hf : (O.clients e.connection).find? (O.hasPrefix e.pre) with
    | none => exact absurd ((hasPrefix_iff he).mpr rfl) (List.find?_eq_none.mp hf o hmem)
    | some p =>
      obtain ⟨f, hf', hconn⟩ := (hO.clients _ p).mp (List.mem_of_find?_eq_some hf)
      have hpre := (hasPrefix_iff hf').mp (List.find?_some hf)
      rw [hO.prefixUnique p o f e hf' he hconn hpre]

lemma mapping_iff (hO : O.WF) : O.mapping h pre = some k ↔
    ∃ o e, O.out.get o = some e ∧ e.connection = h ∧ e.pre = pre ∧ e.socket = k := by
  simp only [mapping, Option.bind_eq_some_iff, find_prefix_iff hO, socketOf, Option.map_eq_some_iff]
  constructor
  · rintro ⟨o, ⟨e, he, hh, hp⟩, f, hf, hk⟩
    rw [he] at hf
    cases hf
    exact ⟨o, e, he, hh, hp, hk⟩
  · rintro ⟨o, e, he, hh, hp, hk⟩
    exact ⟨o, ⟨e, he, hh, hp⟩, e, he, hk⟩

/-- What holds of all outputs holds of the mapping, and vice versa. -/
lemma WF.forall_output_iff (hO : O.WF) {L : HybiId → SockId → Prop} :
    (∀ o e, O.out.get o = some e → L e.connection e.socket) ↔
      ∀ h pre k, O.mapping h pre = some k → L h k := by
  constructor
  · intro hL h pre k hk
    obtain ⟨o, e, he, rfl, -, rfl⟩ := (mapping_iff hO).mp hk
    exact hL o e he
  · exact fun hL o e he =>
      hL e.connection e.pre e.socket ((mapping_iff hO).mpr ⟨o, e, he, rfl, rfl, rfl⟩)

/-- Two states of the mapping are the same if they send the same prefixes to the same places. -/
lemma mapping_eq {M : Mapping} (hM : ∀ h pre k, O.mapping h pre = some k ↔ M h pre = some k) :
    O.mapping = M := by
  funext h pre
  exact Option.ext fun k => hM h pre k

/-! ### Removing an entry -/

lemma remove_eq (he : O.out.get o = some e) :
    O.remove o = { O.unlink o e with out := O.out.free o } := by
  simp only [remove, he]

lemma remove_out (he : O.out.get o = some e) (p : OutputId) :
    (O.remove o).out.get p = if p = o then none else O.out.get p := by
  rw [remove_eq he, Heap.get_free]

lemma remove_clients (he : O.out.get o = some e) (g : HybiId) : (O.remove o).clients g
    = if g = e.connection then (O.clients g).erase o else O.clients g := by
  rw [remove_eq he]
  simp only [unlink, Function.update_apply]
  split_ifs with hg
  · rw [hg]
  · rfl

lemma remove_attached (he : O.out.get o = some e) (j : SockId) : (O.remove o).attached j
    = if j = e.socket then (O.attached j).erase o else O.attached j := by
  rw [remove_eq he]
  simp only [unlink, Function.update_apply]
  split_ifs with hj
  · rw [hj]
  · rfl

/-- What is left of a list after the removal of `o` has the labels it had. -/
lemma map_erase_of_agree {β : Type*} {f f' : OutputId → β} {l : List OutputId} (hl : l.Nodup)
    (hf : ∀ p, p ≠ o → f' p = f p) : (l.erase o).map f' = (l.erase o).map f := by
  apply List.map_congr_left
  intro p hp
  exact hf p (hl.mem_erase_iff.mp hp).1

lemma map_of_agree {β : Type*} {f f' : OutputId → β} {l : List OutputId} (ho : o ∉ l)
    (hf : ∀ p, p ≠ o → f' p = f p) : l.map f' = l.map f := by
  apply List.map_congr_left
  rintro p hp
  exact hf p (by rintro rfl; exact ho hp)

lemma socketOf_of_get {O' : Outputs} (hget : O'.out.get p = O.out.get p) :
    O'.socketOf p = O.socketOf p := by
  simp only [socketOf, hget]

/-! ### One family of lists -/

/-- Every output is in the list that its `owner` says, once, and those with the same `label` stand
together. -/
structure Filed {ι κ : Type} (owner : Output → ι) (label : Output → κ) (H : Heap Output)
    (L : ι → List OutputId) : Prop where
  mem : ∀ i o, o ∈ L i ↔ ∃ e, H.get o = some e ∧ owner e = i
  nodup : ∀ i, (L i).Nodup
  grouped : ∀ i, Contiguous ((L i).map fun o => (H.get o).map label)

lemma WF.filedClients (hO : O.WF) : Filed Output.connection Output.socket O.out O.clients :=
  ⟨hO.clients, hO.clientsNodup, hO.clientsGrouped⟩

lemma WF.filedAttached (hO : O.WF) : Filed Output.socket Output.connection O.out O.attached :=
  ⟨hO.attached, hO.attachedNodup, hO.attachedGrouped⟩

/-- Both families make up the invariant. -/
lemma Filed.wf (hclients : Filed Output.connection Output.socket O.out O.clients)
    (hattached : Filed Output.socket Output.connection O.out O.attached)
    (hunique : ∀ o p e f, O.out.get o = some e → O.out.get p = some f →
      e.connection = f.connection → e.pre = f.pre → o = p) : O.WF :=
  ⟨hclients.mem, hattached.mem, hclients.nodup, hattached.nodup, hunique, hclients.grouped,
    hattached.grouped⟩

section filed

variable {ι κ : Type} [DecidableEq ι] {owner : Output → ι} {label : Output → κ}
  {H H' : Heap Output} {L L' : ι → List OutputId}

/-- The output `o` goes. -/
lemma Filed.remove (hF : Filed owner label H L) (he : H.get o = some e)
    (hget : ∀ p, H'.get p = if p = o then none else H.get p)
    (hL' : ∀ i, L' i = if i = owner e then (L i).erase o else L i) : Filed owner label H' L' := by
  have hold : ∀ p, p ≠ o → (H'.get p).map label = (H.get p).map label := fun p hp => by
    rw [hget, if_neg hp]
  have hothers : ∀ i, i ≠ owner e → o ∉ L i := by
    intro i hi hmem
    obtain ⟨e', he', rfl⟩ := (hF.mem i o).mp hmem
    rw [he] at he'
    cases he'
    exact hi rfl
  constructor
  · intro i p
    rw [hL', hget]
    by_cases hp : p = o
    · subst hp
      rw [if_pos (rfl : p = p)]
      split_ifs with hi
      · simp [(hF.nodup i).mem_erase_iff]
      · simp [hothers i hi]
    · rw [if_neg hp]
      split_ifs with hi
      · rw [(hF.nodup i).mem_erase_iff, hF.mem]
        simp [hp]
      · exact hF.mem i p
  · intro i
    rw [hL']
    split_ifs
    · exact (hF.nodup i).erase o
    · exact hF.nodup i
  · intro i
    rw [hL']
    split_ifs with hi
    · rw [map_erase_of_agree (hF.nodup i) hold]
      exact (hF.grouped i).sublist (List.erase_sublist.map _)
    · rw [map_of_agree (hothers i hi) hold]
      exact hF.grouped i

end filed

/-! ### What is left after a removal -/

lemma WF.remove (hO : O.WF) (he : O.out.get o = some e) : (O.remove o).WF := by
  refine Filed.wf (hO.filedClients.remove he (remove_out he) (remove_clients he))
    (hO.filedAttached.remove he (remove_out he) (remove_attached he)) ?_
  intro p q f f' hf hf'
  rw [remove_out he] at hf hf'
  split_ifs at hf hf'
  exact hO.prefixUnique p q f f' hf hf'

lemma mapping_remove (hO : O.WF) (he : O.out.get o = some e) :
    (O.remove o).mapping = Mapping.delete e.connection e.pre O.mapping := by
  apply mapping_eq
  intro h pre k
  rw [mapping_iff (hO.remove he), Mapping.delete]
  by_cases hh : h = e.connection
  · subst hh
    by_cases hp : pre = e.pre
    · subst hp
      simp only [Function.update_self, reduceCtorEq, iff_false]
      rintro ⟨p, f, hf, hconn, hpre, -⟩
      rw [remove_out he] at hf
      split_ifs at hf with hpo
      exact hpo (hO.prefixUnique p o f e hf he hconn hpre)
    · rw [Function.update_self, Function.update_of_ne hp, mapping_iff hO]
      constructor
      · rintro ⟨p, f, hf, hrest⟩
        rw [remove_out he] at hf
        split_ifs at hf
        exact ⟨p, f, hf, hrest⟩
      · rintro ⟨p, f, hf, hconn, rfl, hk⟩
        refine ⟨p, f, ?_, hconn, rfl, hk⟩
        rw [remove_out he, if_neg]
        · exact hf
        · rintro rfl
          rw [he] at hf
          cases hf
          exact hp rfl
  · rw [Function.update_of_ne hh, mapping_iff hO]
    constructor
    · rintro ⟨p, f, hf, hrest⟩
      rw [remove_out he] at hf
      split_ifs at hf
      exact ⟨p, f, hf, hrest⟩
    · rintro ⟨p, f, hf, rfl, hrest⟩
      refine ⟨p, f, ?_, rfl, hrest⟩
      rw [remove_out he, if_neg]
      · exact hf
      · rintro rfl
        rw [he] at hf
        cases hf
        exact hh rfl

/-! ### Linking an entry -/

/-- `H` is the heap of `O` with `e` put at the unused address `o`. -/
def Adds (O : Outputs) (o : OutputId) (e : Output) (H : Heap Output) : Prop :=
  O.out.get o = none ∧ ∀ p, H.get p = if p = o then some e else O.out.get p

/-- `prev` is an entry of the same connection and named output as `e`, and is missing only if there
is none. -/
def IsPrev (O : Outputs) (e : Output) : Option OutputId → Prop
  | some p => ∃ f, O.out.get p = some f ∧ f.connection = e.connection ∧ f.socket = e.socket
  | none => ∀ p f, O.out.get p = some f → f.connection = e.connection → f.socket ≠ e.socket

/-- The list update of `link`. -/
def place (prev : Option OutputId) (o : OutputId) (l : List OutputId) : List OutputId :=
  match prev with
  | some p => insertAfter p o l
  | none => o :: l

lemma place_perm {prev : Option OutputId} {l : List OutputId} (hprev : ∀ p ∈ prev, p ∈ l) :
    (place prev o l).Perm (o :: l) := by
  cases prev with
  | none => exact List.Perm.refl _
  | some p => exact insertAfter_perm (hprev p rfl)

lemma contiguous_place {β : Type*} {f f' : OutputId → β} {prev : Option OutputId}
    {l : List OutputId} (ho : o ∉ l) (hf : ∀ p, p ≠ o → f' p = f p) (hl : Contiguous (l.map f))
    (hsome : ∀ p ∈ prev, p ∈ l ∧ f' o = f p) (hnone : prev = none → f' o ∉ l.map f) :
    Contiguous ((place prev o l).map f') := by
  have hl' : Contiguous (l.map f') := by rwa [map_of_agree ho hf]
  cases prev with
  | none =>
    refine Contiguous.cons_of_notMem ?_ hl'
    rw [map_of_agree ho hf]
    exact hnone rfl
  | some p =>
    obtain ⟨hp, hfp⟩ := hsome p rfl
    refine contiguous_insertAfter hp ?_ hl'
    rw [hf p (by rintro rfl; exact ho hp), hfp]

lemma link_clients {H : Heap Output} {prev : Option OutputId} (g : HybiId) :
    (link o e prev { O with out := H }).clients g
      = if g = e.connection then place prev o (O.clients g) else O.clients g := by
  simp only [link, place, Function.update_apply]
  split_ifs with hg
  · subst hg
    cases prev <;> rfl
  · rfl

lemma link_attached {H : Heap Output} {prev : Option OutputId} (j : SockId) :
    (link o e prev { O with out := H }).attached j
      = if j = e.socket then place prev o (O.attached j) else O.attached j := by
  simp only [link, place, Function.update_apply]
  split_ifs with hj
  · subst hj
    cases prev <;> rfl
  · rfl

/-- The output `o` comes, behind one with the same label or in front of all. -/
lemma Filed.link {ι κ : Type} [DecidableEq ι] {owner : Output → ι} {label : Output → κ}
    {H : Heap Output} {L L' : ι → List OutputId} {prev : Option OutputId}
    (hF : Filed owner label O.out L) (hH : O.Adds o e H)
    (hprev : ∀ p ∈ prev, ∃ f, O.out.get p = some f ∧ owner f = owner e ∧ label f = label e)
    (hfirst : prev = none → ∀ p f, O.out.get p = some f → owner f = owner e → label f ≠ label e)
    (hL' : ∀ i, L' i = if i = owner e then place prev o (L i) else L i) :
    Filed owner label H L' := by
  obtain ⟨hnone, hget⟩ := hH
  have hold : ∀ p, p ≠ o → (H.get p).map label = (O.out.get p).map label := fun p hp => by
    rw [hget, if_neg hp]
  have hlabel : (H.get o).map label = some (label e) := by
    rw [hget, if_pos rfl, Option.map_some]
  have hout : ∀ i, o ∉ L i := fun i hmem => by
    obtain ⟨f, hf, -⟩ := (hF.mem i o).mp hmem
    rw [hnone] at hf
    cases hf
  have hmem : ∀ p ∈ prev, p ∈ L (owner e) := fun p hp => by
    obtain ⟨f, hf, howner, -⟩ := hprev p hp
    exact (hF.mem _ p).mpr ⟨f, hf, howner⟩
  constructor
  · intro i p
    rw [hL', hget]
    by_cases hp : p = o
    · subst hp
      rw [if_pos (rfl : p = p)]
      split_ifs with hi
      · subst hi
        simp [(place_perm hmem).mem_iff]
      · simp [hout i, Ne.symm hi]
    · rw [if_neg hp]
      split_ifs with hi
      · subst hi
        simp [(place_perm hmem).mem_iff, hp, hF.mem]
      · exact hF.mem i p
  · intro i
    rw [hL']
    split_ifs with hi
    · subst hi
      exact (place_perm hmem).nodup_iff.mpr (List.nodup_cons.mpr ⟨hout _, hF.nodup _⟩)
    · exact hF.nodup i
  · intro i
    rw [hL']
    split_ifs with hi
    · subst hi
      refine contiguous_place (hout _) hold (hF.grouped _) (fun p hp => ⟨hmem p hp, ?_⟩) ?_
      · obtain ⟨f, hf, -, hsame⟩ := hprev p hp
        rw [hlabel, hf, Option.map_some, hsame]
      · intro hp hmem'
        obtain ⟨p, hp', hsame⟩ := List.mem_map.mp hmem'
        obtain ⟨f, hf, howner⟩ := (hF.mem _ p).mp hp'
        rw [hlabel, hf, Option.map_some, Option.some_inj] at hsame
        exact hfirst hp p f hf howner hsame
    · rw [map_of_agree (hout i) hold]
      exact hF.grouped i

lemma WF.link {H : Heap Output} {prev : Option OutputId} (hO : O.WF) (hH : O.Adds o e H)
    (hprev : O.IsPrev e prev)
    (hnew : ∀ p f, O.out.get p = some f → f.connection = e.connection → f.pre ≠ e.pre) :
    (link o e prev { O with out := H }).WF := by
  have hsome : ∀ p ∈ prev, ∃ f, O.out.get p = some f ∧ f.connection = e.connection ∧
      f.socket = e.socket := by
    rintro p rfl
    exact hprev
  have hfirst : prev = none → ∀ p f, O.out.get p = some f → f.connection = e.connection →
      f.socket ≠ e.socket := by
    rintro rfl
    exact hprev
  refine Filed.wf (hO.filedClients.link hH hsome hfirst link_clients)
    (hO.filedAttached.link hH ?_ ?_ link_attached) ?_
  · intro p hp
    obtain ⟨f, hf, hconn, hsock⟩ := hsome p hp
    exact ⟨f, hf, hsock, hconn⟩
  · exact fun hp p f hf hsock hconn => hfirst hp p f hf hconn hsock
  · intro p q f f' hf hf' hconn hpre
    have hout : ∀ p, (Outputs.link o e prev { O with out := H }).out.get p
        = if p = o then some e else O.out.get p := hH.2
    rw [hout] at hf hf'
    split_ifs at hf hf' with hp hq hq
    · rw [hp, hq]
    · cases hf
      exact absurd hpre.symm (hnew q f' hf' hconn.symm)
    · cases hf'
      exact absurd hpre (hnew p f hf hconn)
    · exact hO.prefixUnique p q f f' hf hf' hconn hpre

lemma mapping_link {H : Heap Output} {prev : Option OutputId} (hO : O.WF) (hH : O.Adds o e H)
    (hprev : O.IsPrev e prev)
    (hnew : ∀ p f, O.out.get p = some f → f.connection = e.connection → f.pre ≠ e.pre) :
    (link o e prev { O with out := H }).mapping
      = Mapping.insert e.connection e.pre e.socket O.mapping := by
  have hget : ∀ p, (Outputs.link o e prev { O with out := H }).out.get p
      = if p = o then some e else O.out.get p := hH.2
  apply mapping_eq
  intro h pre k
  rw [mapping_iff (hO.link hH hprev hnew), Mapping.insert]
  have hother : ¬ (h = e.connection ∧ pre = e.pre) →
      ((∃ p f, (Outputs.link o e prev { O with out := H }).out.get p = some f ∧
        f.connection = h ∧ f.pre = pre ∧ f.socket = k) ↔ O.mapping h pre = some k) := by
    intro hne
    rw [mapping_iff hO]
    constructor
    · rintro ⟨p, f, hf, rfl, rfl, hk⟩
      rw [hget] at hf
      split_ifs at hf
      · cases hf
        exact absurd ⟨rfl, rfl⟩ hne
      · exact ⟨p, f, hf, rfl, rfl, hk⟩
    · rintro ⟨p, f, hf, hrest⟩
      refine ⟨p, f, ?_, hrest⟩
      rw [hget, if_neg]
      · exact hf
      · rintro rfl
        rw [hH.1] at hf
        cases hf
  by_cases hh : h = e.connection
  · by_cases hp : pre = e.pre
    · subst hh hp
      rw [Function.update_self, Function.update_self, Option.some_inj]
      constructor
      · rintro ⟨p, f, hf, hconn, hpre, rfl⟩
        rw [hget] at hf
        split_ifs at hf
        · cases hf
          rfl
        · exact absurd hpre (hnew p f hf hconn)
      · rintro rfl
        exact ⟨o, e, by rw [hget, if_pos rfl], rfl, rfl, rfl⟩
    · rw [hother (fun he => hp he.2), hh, Function.update_self, Function.update_of_ne hp]
  · rw [hother (fun he => hh he.1), Function.update_of_ne hh]

/-! ### The commands -/

lemma scan_eq (O : Outputs) (pre : Bytes) (k : SockId) (h : HybiId) : O.scan pre k h
    = ((O.clients h).reverse.find? (O.hasPrefix pre),
      (O.clients h).reverse.find? (O.hasSocket k)) := by
  rw [scan]
  generalize O.clients h = l
  induction l using List.reverseRecOn with
  | nil => rfl
  | append_singleton l o ih =>
    rw [List.foldl_append, List.foldl_cons, List.foldl_nil, ih, List.reverse_append,
      List.reverse_singleton, List.singleton_append, List.find?_cons, List.find?_cons]
    cases O.hasPrefix pre o <;> cases O.hasSocket k o <;> rfl

variable (pre) in
/-- What the scan says about the entry with the same named output. -/
lemma isPrev_scan (hO : O.WF) (e : Output) : O.IsPrev e (O.scan pre e.socket e.connection).2 := by
  rw [scan_eq]
  cases hf : (O.clients e.connection).reverse.find? (O.hasSocket e.socket) with
  | none =>
    intro p f hp hconn hsock
    have hmem : p ∈ (O.clients e.connection).reverse :=
      List.mem_reverse.mpr ((hO.clients _ p).mpr ⟨f, hp, hconn⟩)
    exact List.find?_eq_none.mp hf p hmem ((hasSocket_iff hp).mpr hsock)
  | some p =>
    obtain ⟨f, hp, hconn⟩ :=
      (hO.clients _ p).mp (List.mem_reverse.mp (List.mem_of_find?_eq_some hf))
    exact ⟨f, hp, hconn, (hasSocket_iff hp).mp (List.find?_some hf)⟩

/-- `add_output` inserts into the mapping: a new entry, one moved to another named output, or one
that is there already. -/
lemma addOutput_spec (hO : O.WF) (h : HybiId) (pre : Bytes) (k : SockId) :
    (O.addOutput h pre k).WF ∧
      (O.addOutput h pre k).mapping = Mapping.insert h pre k O.mapping := by
  have hprev := isPrev_scan pre hO ⟨k, h, pre⟩
  have hold : (O.scan pre k h).1 = (O.clients h).reverse.find? (O.hasPrefix pre) := by
    rw [scan_eq]
  rw [addOutput]
  generalize O.scan pre k h = found at hprev hold
  obtain ⟨old, prev⟩ := found
  simp only at hprev hold ⊢
  cases old with
  | none =>
    have hH : O.Adds O.out.next ⟨k, h, pre⟩ (O.out.alloc ⟨k, h, pre⟩) :=
      ⟨O.out.get_next, fun p => Heap.get_alloc _ _ p⟩
    have hnew : ∀ p f, O.out.get p = some f → f.connection = h → f.pre ≠ pre := by
      intro p f hp hconn hpre
      have hmem : p ∈ (O.clients h).reverse :=
        List.mem_reverse.mpr ((hO.clients _ p).mpr ⟨f, hp, hconn⟩)
      exact List.find?_eq_none.mp hold.symm p hmem ((hasPrefix_iff hp).mpr hpre)
    exact ⟨hO.link hH hprev hnew, mapping_link hO hH hprev hnew⟩
  | some o =>
    obtain ⟨e, he, rfl⟩ :=
      (hO.clients h o).mp (List.mem_reverse.mp (List.mem_of_find?_eq_some hold.symm))
    have hpre : e.pre = pre := (hasPrefix_iff he).mp (List.find?_some hold.symm)
    subst hpre
    simp only [he]
    split_ifs with hk
    · refine ⟨hO, ?_⟩
      have hmap : O.mapping e.connection e.pre = some k :=
        (mapping_iff hO).mpr ⟨o, e, he, rfl, rfl, hk⟩
      rw [Mapping.insert, ← hmap, Function.update_eq_self, Function.update_eq_self]
    · have hR := hO.remove he
      have hH : (O.remove o).Adds o { e with socket := k }
          (O.out.modify o fun e => { e with socket := k }) := by
        refine ⟨by rw [remove_out he, if_pos rfl], fun p => ?_⟩
        rw [remove_out he, Heap.get_modify, he]
        split_ifs <;> rfl
      have hprev' : (O.remove o).IsPrev { e with socket := k } prev := by
        cases prev with
        | none =>
          intro p f hp hconn
          rw [remove_out he] at hp
          split_ifs at hp
          exact hprev p f hp hconn
        | some p =>
          obtain ⟨f, hp, hconn, hsock⟩ := hprev
          refine ⟨f, ?_, hconn, hsock⟩
          rw [remove_out he, if_neg]
          · exact hp
          · rintro rfl
            rw [he] at hp
            cases hp
            exact hk hsock
      have hnew : ∀ p f, (O.remove o).out.get p = some f → f.connection = e.connection →
          f.pre ≠ e.pre := by
        intro p f hp hconn hpre
        rw [remove_out he] at hp
        split_ifs at hp with hpo
        exact hpo (hO.prefixUnique p o f e hp he hconn hpre)
      suffices hlink : (link o { e with socket := k } prev
            { O.remove o with out := O.out.modify o fun e => { e with socket := k } }).WF ∧
          (link o { e with socket := k } prev
            { O.remove o with out := O.out.modify o fun e => { e with socket := k } }).mapping
            = Mapping.insert e.connection e.pre k O.mapping by
        rw [remove_eq he] at hlink
        exact hlink
      refine ⟨hR.link hH hprev' hnew, ?_⟩
      rw [mapping_link hR hH hprev' hnew, mapping_remove hO he]
      simp [Mapping.insert, Mapping.delete]

/-- `del_output` deletes from the mapping. -/
lemma delOutput_spec (hO : O.WF) (h : HybiId) (pre : Bytes) :
    (O.delOutput h pre).WF ∧ (O.delOutput h pre).mapping = Mapping.delete h pre O.mapping := by
  rw [delOutput]
  cases hf : (O.clients h).find? (O.hasPrefix pre) with
  | none =>
    refine ⟨hO, ?_⟩
    have hmap : O.mapping h pre = none := by simp [mapping, hf]
    rw [Mapping.delete, ← hmap, Function.update_eq_self, Function.update_eq_self]
  | some o =>
    obtain ⟨e, he, rfl, rfl⟩ := (find_prefix_iff hO).mp hf
    exact ⟨hO.remove he, mapping_remove hO he⟩

/-- The loop of `hybi_stop` over the outputs of one connection. -/
lemma stop_loop {l : List OutputId} (hO : O.WF) (hl : O.clients h = l) :
    (l.foldl (fun O o => O.remove o) O).WF ∧
      (l.foldl (fun O o => O.remove o) O).clients h = [] ∧
      (∀ o e, (l.foldl (fun O o => O.remove o) O).out.get o = some e ↔
        O.out.get o = some e ∧ e.connection ≠ h) ∧
      (l.foldl (fun O o => O.remove o) O).mapping = Mapping.stop h O.mapping := by
  induction l generalizing O with
  | nil =>
    have hnone : ∀ o e, O.out.get o = some e → e.connection ≠ h := by
      rintro o e he rfl
      have ho : o ∈ O.clients e.connection := (hO.clients _ o).mpr ⟨e, he, rfl⟩
      rw [hl] at ho
      cases ho
    refine ⟨hO, hl, fun o e => ?_, ?_⟩
    · simp only [List.foldl_nil, iff_self_and]
      exact hnone o e
    · have hmap : O.mapping h = fun _ => none := by
        funext pre
        simp [mapping, hl]
      rw [List.foldl_nil, Mapping.stop, ← hmap, Function.update_eq_self]
  | cons o l ih =>
    obtain ⟨e, he, rfl⟩ := (hO.clients h o).mp (by simp [hl])
    have hrest : (O.remove o).clients e.connection = l := by
      rw [remove_clients he, if_pos rfl, hl, List.erase_cons_head]
    obtain ⟨hwf, hempty, hout, hmap⟩ := ih (hO.remove he) hrest
    simp only [List.foldl_cons]
    refine ⟨hwf, hempty, fun p f => ?_, ?_⟩
    · rw [hout, remove_out he]
      by_cases hp : p = o
      · subst hp
        simp only [if_true, he]
        constructor
        · rintro ⟨⟨⟩, -⟩
        · rintro ⟨⟨⟩, hne⟩
          exact absurd rfl hne
      · rw [if_neg hp]
    · rw [hmap, mapping_remove hO he]
      simp [Mapping.stop, Mapping.delete]

/-- A stopped connection has no mapping any more, and its entries are gone from every list. -/
lemma stop_spec (hO : O.WF) (h : HybiId) :
    (O.stop h).WF ∧ (O.stop h).clients h = [] ∧
      (∀ o e, (O.stop h).out.get o = some e ↔ O.out.get o = some e ∧ e.connection ≠ h) ∧
      (O.stop h).mapping = Mapping.stop h O.mapping :=
  stop_loop hO rfl

/-! ### Outputs of other routes -/

section routes

variable {O' O'' : Outputs} {r : RouteId} {C : HybiId → Prop} {prev : Option OutputId}
  {H : Heap Output}

/-- Nothing has changed but outputs of the connections `C` and lists of the named outputs of route
`r`. -/
structure SameBut (r : RouteId) (C : HybiId → Prop) (O O' : Outputs) : Prop where
  out : ∀ o e, ¬ C e.connection → (O'.out.get o = some e ↔ O.out.get o = some e)
  clients : ∀ h, ¬ C h → O'.clients h = O.clients h
  attached : ∀ k, k.route ≠ r → O'.attached k = O.attached k

lemma SameBut.refl : SameBut r C O O := ⟨fun _ _ _ => Iff.rfl, fun _ _ => rfl, fun _ _ => rfl⟩

lemma SameBut.trans (h₁ : SameBut r C O O') (h₂ : SameBut r C O' O'') : SameBut r C O O'' where
  out o e he := (h₂.out o e he).trans (h₁.out o e he)
  clients h hh := (h₂.clients h hh).trans (h₁.clients h hh)
  attached k hk := (h₂.attached k hk).trans (h₁.attached k hk)

lemma SameBut.mono {D : HybiId → Prop} (h : SameBut r C O O') (hCD : ∀ h, C h → D h) :
    SameBut r D O O' :=
  ⟨fun o e he => h.out o e fun hC => he (hCD _ hC), fun g hg => h.clients g fun hC => hg (hCD g hC),
    h.attached⟩

lemma sameBut_remove (ho : ∀ e, O.out.get o = some e → C e.connection ∧ e.socket.route = r) :
    SameBut r C O (O.remove o) := by
  cases he : O.out.get o with
  | none =>
    simp only [remove, he]
    exact .refl
  | some e =>
    obtain ⟨hC, hr⟩ := ho e he
    refine ⟨fun p f hf => ?_, fun g hg => ?_, fun j hj => ?_⟩
    · rw [remove_out he]
      split_ifs with hp
      · subst hp
        rw [he]
        refine iff_of_false (by simp) ?_
        rintro ⟨⟩
        exact hf hC
      · rfl
    · rw [remove_clients he, if_neg]
      rintro rfl
      exact hg hC
    · rw [remove_attached he, if_neg]
      rintro rfl
      exact hj hr

variable (prev) in
lemma sameBut_link (hH : O.Adds o e H) (hC : C e.connection) (hr : e.socket.route = r) :
    SameBut r C O (link o e prev { O with out := H }) := by
  obtain ⟨hnone, hget⟩ := hH
  refine ⟨fun p f hf => ?_, fun g hg => ?_, fun j hj => ?_⟩
  · show H.get p = some f ↔ _
    rw [hget]
    split_ifs with hp
    · subst hp
      rw [hnone]
      refine iff_of_false ?_ (by simp)
      rintro ⟨⟩
      exact hf hC
    · rfl
  · rw [link_clients, if_neg]
    rintro rfl
    exact hg hC
  · rw [link_attached, if_neg]
    rintro rfl
    exact hj hr

variable (hO : O.WF) (hC : C h)
  (hroute : ∀ o e, O.out.get o = some e → e.connection = h → e.socket.route = r)

include hO hC hroute

variable (pre) in
lemma sameBut_addOutput (hk : k.route = r) : SameBut r C O (O.addOutput h pre k) := by
  have hold : (O.scan pre k h).1 = (O.clients h).reverse.find? (O.hasPrefix pre) := by
    rw [scan_eq]
  rw [addOutput]
  generalize O.scan pre k h = found at hold
  obtain ⟨old, prev⟩ := found
  simp only at hold ⊢
  cases old with
  | none =>
    exact sameBut_link prev (e := ⟨k, h, pre⟩) ⟨O.out.get_next, fun p => Heap.get_alloc _ _ p⟩ hC hk
  | some o =>
    obtain ⟨e, he, rfl⟩ :=
      (hO.clients h o).mp (List.mem_reverse.mp (List.mem_of_find?_eq_some hold.symm))
    simp only [he]
    split_ifs
    · exact .refl
    · have hremove := sameBut_remove (C := C) (r := r) (o := o) fun f hf => by
        obtain rfl : e = f := Option.some.inj (he.symm.trans hf)
        exact ⟨hC, hroute o e he rfl⟩
      have hH : (O.remove o).Adds o { e with socket := k }
          (O.out.modify o fun e => { e with socket := k }) := by
        refine ⟨by rw [remove_out he, if_pos rfl], fun p => ?_⟩
        rw [remove_out he, Heap.get_modify, he]
        split_ifs <;> rfl
      have hlink := sameBut_link prev (C := C) hH hC hk
      rw [remove_eq he] at hremove hlink
      exact hremove.trans hlink

variable (pre) in
lemma sameBut_delOutput : SameBut r C O (O.delOutput h pre) := by
  rw [delOutput]
  cases hf : (O.clients h).find? (O.hasPrefix pre) with
  | none => exact .refl
  | some o =>
    obtain ⟨e, he, hconn, -⟩ := (find_prefix_iff hO).mp hf
    refine sameBut_remove fun e' he' => ?_
    obtain rfl : e = e' := Option.some.inj (he.symm.trans he')
    exact ⟨hconn ▸ hC, hroute o e he hconn⟩

omit hO hC hroute in
lemma sameBut_removeAll {l : List OutputId} (hl : ∀ o ∈ l, ∀ e, O.out.get o = some e →
    C e.connection ∧ e.socket.route = r) : SameBut r C O (l.foldl (fun O o => O.remove o) O) := by
  induction l generalizing O with
  | nil => exact .refl
  | cons o l ih =>
    rw [List.foldl_cons]
    refine (sameBut_remove (hl o (by simp))).trans (ih fun p hp f hf => hl p (by simp [hp]) f ?_)
    cases he : O.out.get o with
    | none => simpa only [remove, he] using hf
    | some e =>
      rw [remove_out he] at hf
      split_ifs at hf
      exact hf

lemma sameBut_stop : SameBut r C O (O.stop h) := by
  refine sameBut_removeAll fun o ho e he => ?_
  obtain ⟨e', he', hconn⟩ := (hO.clients h o).mp ho
  obtain rfl : e = e' := Option.some.inj (he.symm.trans he')
  exact ⟨hconn ▸ hC, hroute o e he hconn⟩

end routes

end Outputs

end Zerogw
