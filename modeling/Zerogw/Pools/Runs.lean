import Zerogw.Pools.Properties
import Mathlib.Data.List.Perm.Subperm

/-!
# Runs of the queues

In any run the queues hold what has been pushed and not removed, in order, and every block of memory
is freed at most once.
-/

namespace Zerogw

open Execution Intrusive

/-! ### Reading a list through a partial function -/

section

variable {α β : Type} {v v' : α → Option β} {l : List α} {xs : List β}

lemma mapM_eq_some_iff : l.mapM v = some xs ↔ l.map v = xs.map some := by
  induction l generalizing xs with
  | nil => cases xs <;> simp
  | cons a l ih =>
    cases ha : v a with
    | none => cases xs <;> simp [List.mapM_cons, ha]
    | some x =>
      cases hl : l.mapM v with
      | none =>
        cases xs with
        | nil => simp [List.mapM_cons, ha, hl]
        | cons y ys =>
          have hne : l.map v ≠ ys.map some := fun heq => by
            rw [ih.mpr heq] at hl
            cases hl
          simp [List.mapM_cons, ha, hl, hne]
      | some zs =>
        have hmap := ih.mp hl
        cases xs with
        | nil => simp [List.mapM_cons, ha, hl]
        | cons y ys => simp [List.mapM_cons, ha, hl, hmap, List.map_inj_right]

lemma length_eq_of_mapM (h : l.mapM v = some xs) : l.length = xs.length := by
  simpa using congrArg List.length (mapM_eq_some_iff.mp h)

lemma mapM_cons_eq_some {a : α} (h : (a :: l).mapM v = some xs) :
    ∃ x xs', xs = x :: xs' ∧ v a = some x ∧ l.mapM v = some xs' := by
  rw [mapM_eq_some_iff] at h
  cases xs with
  | nil => cases h
  | cons x xs =>
    obtain ⟨hx, hxs⟩ := List.cons.inj h
    exact ⟨x, xs, rfl, hx, mapM_eq_some_iff.mpr hxs⟩

lemma mapM_congr_value (h : ∀ a ∈ l, v' a = v a) : l.mapM v' = l.mapM v := by
  induction l with
  | nil => rfl
  | cons a l ih =>
    rw [List.mapM_cons, List.mapM_cons, h a (List.mem_cons_self ..),
      ih fun b hb => h b (List.mem_cons_of_mem _ hb)]

lemma exists_mapM (h : ∀ a ∈ l, (v a).isSome) : ∃ xs, l.mapM v = some xs := by
  induction l with
  | nil => exact ⟨[], rfl⟩
  | cons a l ih =>
    obtain ⟨x, hx⟩ := Option.isSome_iff_exists.mp (h a (List.mem_cons_self ..))
    obtain ⟨xs, hxs⟩ := ih fun b hb => h b (List.mem_cons_of_mem _ hb)
    exact ⟨x :: xs, by simp [List.mapM_cons, hx, hxs]⟩

end

namespace Pools

variable {κ α : Type} {o o' : Nat → Option (Owner κ)} {f f' l T T' : List Nat}
  {l₁ l₂ : List Nat} {L L' : κ → Option (List Nat)} {s s' s'' : Pools κ α} {a : Nat} {q : κ}
  {ok : Bool} {x : α} {i : Input κ α}

/-! ### Between two operations -/

/-- The invariant between two operations: the queues in use are set up and filled, and the records
are right. -/
structure Settled (o : Nat → Option (Owner κ)) (f : List Nat) (L : κ → Option (List Nat))
    (s : Pools κ α) : Prop where
  sound : Sound o f L s
  opened : ∀ q, s.memory.opened (some q) = (L q).isSome
  size : ∀ q l, L q = some l → (s.queue q).size = l.length
  filled : ∀ q l, L q = some l → ∀ a ∈ l, (s.memory.value a).isSome
  held : ∀ a, o a = some .caller ↔ a ∈ s.held
  lost : ∀ a, o a = some .lost ↔ a ∈ s.lost
  nodup : s.held.Nodup

lemma settled_init (n : Nat) (c : κ → Option Nat) :
    Settled (fun _ => none) [] (fun q => (c q).map fun _ => []) (init n c : Pools κ α) := by
  have hlists : ∀ k l, lists [] (fun q => (c q).map fun _ => []) k = some l →
      l = [] ∧ (init n c : Pools κ α).memory.opened k = true := by
    intro k l hk
    cases k with
    | none =>
      cases hk
      exact ⟨rfl, rfl⟩
    | some q =>
      obtain ⟨x, hx, rfl⟩ := Option.map_eq_some_iff.mp hk
      exact ⟨rfl, by simp [init, hx]⟩
  refine ⟨⟨⟨fun k l hk => ?_, fun k l hk _ => ?_, fun k k' l l' a hk hk' ha => ?_⟩,
    ⟨by simp, by simp +contextual⟩, fun _ => rfl, fun _ _ => rfl, rfl, Nat.zero_le _⟩, fun q => ?_,
    fun q l hl => ?_, fun q l hl a ha => ?_, by simp [init], by simp [init], List.nodup_nil⟩
  · obtain ⟨rfl, hopened⟩ := hlists k l hk
    exact ⟨hopened, trivial, rfl, List.nodup_nil, by simp⟩
  · obtain ⟨rfl, -⟩ := hlists k l hk
    rfl
  · obtain ⟨rfl, -⟩ := hlists k l hk
    simp at ha
  · simp [init]
  · obtain ⟨rfl, -⟩ := hlists (some q) l hl
    rfl
  · obtain ⟨rfl, -⟩ := hlists (some q) l hl
    simp at ha

/-- There are no more items than blocks. -/
lemma Sound.length_le (h : Sound o f L s) (hq : L q = some l) : l.length ≤ s.memory.next := by
  have hsub : l ⊆ List.range s.memory.next := by
    intro a ha
    rw [List.mem_range]
    refine h.lt_next ?_
    rw [(h.owned.queue a q).mpr ⟨l, hq, ha⟩]
    simp
  simpa using ((h.nodup_queue hq).subperm hsub).length_le

/-- Neither are there more free objects than blocks. -/
lemma Sound.length_free_le (h : Sound o f L s) : f.length ≤ s.memory.next := by
  have hsub : f ⊆ List.range s.memory.next := by
    intro a ha
    rw [List.mem_range]
    refine h.lt_next ?_
    rw [(h.owned.pool a).mpr ha]
    simp
  simpa using (h.nodup_free.subperm hsub).length_le

/-- The objects of the pool are found. -/
lemma Sound.freeList_eq (h : Sound o f L s) : s.freeList = some f := by
  have hlist := h.holds.list none f rfl
  rw [freeList, Memory.load_eq (p := .head none) hlist.opened, hlist.first]
  exact hlist.follows.walk h.length_free_le

/-- The items of a queue are found. -/
lemma Sound.items_eq (h : Sound o f L s) (hq : L q = some l) : s.items q = some l := by
  have hlist := h.holds.list (some q) l hq
  have hlen := h.length_le hq
  rw [items, Memory.load_eq (p := .head (some q)) hlist.opened, hlist.first]
  exact hlist.follows.walk hlen

lemma Settled.contents_eq (h : Settled o f L s) :
    s.contents = fun q => (L q).bind fun l => l.mapM s.memory.value := by
  funext q
  rw [contents]
  cases hq : L q with
  | none =>
    have hopened : s.memory.opened (some q) = false := by simp [h.opened, hq]
    simp [items, Memory.load, Memory.has, hopened]
  | some l =>
    rw [h.sound.items_eq hq]
    rfl

/-- The contents of a queue in use. -/
lemma Settled.exists_contents (h : Settled o f L s) (hq : L q = some l) :
    ∃ xs, s.contents q = some xs ∧ l.mapM s.memory.value = some xs ∧ xs.length = l.length := by
  obtain ⟨xs, hxs⟩ := exists_mapM (h.filled q l hq)
  refine ⟨xs, ?_, hxs, (length_eq_of_mapM hxs).symm⟩
  rw [h.contents_eq]
  simp [hq, hxs]

/-- The records of the queues agree with what is in them. -/
lemma Settled.size_eq (h : Settled o f L s) {xs : List α} (hq : s.contents q = some xs) :
    (s.queue q).size = xs.length := by
  rw [h.contents_eq] at hq
  obtain ⟨l, hl, hmap⟩ := Option.bind_eq_some_iff.mp hq
  rw [h.size q l hl, length_eq_of_mapM hmap]

/-- Who has what is a matter of the links and of the pool only. -/
lemma Sound.congr (h : Sound o f L s) (hpointer : s'.memory.pointer = s.memory.pointer)
    (hback : s'.memory.back = s.memory.back) (hlast : s'.memory.last = s.memory.last)
    (hopened : ∀ q l, L q = some l → s'.memory.opened (some q) = s.memory.opened (some q))
    (hpool : s'.memory.opened none = s.memory.opened none)
    (hlive : s'.memory.live = s.memory.live) (hnext : s'.memory.next = s.memory.next)
    (hfree : s'.currentFree = s.currentFree) (hmax : s'.maxFree = s.maxFree) :
    Sound o f L s' := by
  refine ⟨h.holds.keep hpointer hback hlast (fun k l hk => ?_) fun _ _ a _ _ => congrFun hlive a,
    h.owned, fun a => (congrFun hlive a).trans (h.live a), fun a ha => h.fresh a (hnext ▸ ha),
    hfree.trans h.free, hmax ▸ h.max⟩
  cases k with
  | none => exact hpool
  | some q => exact hopened q l hk

/-- What somebody has stays the same when the object of another one goes to a third. -/
lemma record_update {w : Owner κ} {v : Option (Owner κ)} {r : List Nat}
    (h : ∀ b, o b = some w ↔ b ∈ r) (ha : o a ≠ some w) (hv : v ≠ some w) (b : Nat) :
    Function.update o a v b = some w ↔ b ∈ r := by
  by_cases hb : b = a
  · rw [hb, Function.update_self]
    exact iff_of_false hv fun hmem => ha ((h a).mpr hmem)
  · rw [Function.update_of_ne hb]
    exact h b

/-- What somebody keeps who has nothing of a queue. -/
lemma record_forget {w : Owner κ} {r : List Nat} (h : ∀ b, o b = some w ↔ b ∈ r)
    (hsame : ∀ b, b ∉ l → o' b = o b) (hl : ∀ b ∈ l, o b ≠ some w) (hl' : ∀ b ∈ l, o' b ≠ some w)
    (b : Nat) : o' b = some w ↔ b ∈ r := by
  by_cases hb : b ∈ l
  · exact iff_of_false (hl' b hb) fun hmem => hl b hb ((h b).mpr hmem)
  · rw [hsame b hb]
    exact h b

/-- No queue changes. -/
lemma Settled.contents_same (h : Settled o f L s) (h' : Settled o' f' L s')
    (hvalue : ∀ q l, L q = some l → ∀ a ∈ l, s'.memory.value a = s.memory.value a) :
    s'.contents = s.contents := by
  rw [h.contents_eq, h'.contents_eq]
  funext q
  cases hl : L q with
  | none => rfl
  | some l => exact mapM_congr_value (hvalue q l hl)

variable [DecidableEq κ]

/-- One queue changes, and the items of the others are left alone. -/
lemma Settled.contents_update (h : Settled o f L s) {z : Option (List Nat)}
    {ys : Option (List α)} (h' : Settled o' f' (Function.update L q z) s')
    (hvalue : ∀ q' l, q' ≠ q → L q' = some l → ∀ a ∈ l, s'.memory.value a = s.memory.value a)
    (hz : (z.bind fun l => l.mapM s'.memory.value) = ys) :
    s'.contents = Function.update s.contents q ys := by
  rw [h.contents_eq, h'.contents_eq]
  funext q'
  by_cases hq : q' = q
  · subst hq
    rw [Function.update_self, Function.update_self, hz]
  · rw [Function.update_of_ne hq, Function.update_of_ne hq]
    cases hl : L q' with
    | none => rfl
    | some l => exact mapM_congr_value (hvalue q' l hq hl)

/-- The head of a queue that is not in use does not matter. -/
lemma Sound.setOpened (h : Sound o f L s) (hq : L q = none) (on : Bool) :
    Sound o f L (s.setOpened q on) := by
  refine h.congr rfl rfl rfl (fun q' l' hl' => ?_) ?_ rfl rfl rfl rfl
  · refine Function.update_of_ne ?_ _ _
    rintro heq
    rw [Option.some.inj heq, hq] at hl'
    cases hl'
  · exact Function.update_of_ne (Option.some_ne_none q).symm on s.memory.opened

/-! ### The operations -/

/-- What an operation does between two settled states. -/
def Does (i : Input κ α) (s : Pools κ α) : Prop :=
  ∃ o f L s', s.exec i = some s' ∧ Settled o f L s' ∧ Effect i s s'

lemma Settled.does_init {c : Nat} (h : Settled o f L s) (hq : s.memory.opened (some q) = false) :
    Does ⟨.init q c, ok⟩ s := by
  have hnone : L q = none := by simpa [h.opened] using hq
  have hthere : (s.setOpened q true).memory.opened (some q) = true := Function.update_self ..
  obtain ⟨m, hinit, hwithin, hnew⟩ := (h.sound.setOpened hnone true).holds.tailqInit hthere
  rw [update_lists_some] at hnew
  let s' : Pools κ α :=
    { s.setOpened q true with memory := m, queue := Function.update s.queue q ⟨0, c⟩ }
  have hexec : s.exec ⟨.init q c, ok⟩ = some s' := by
    simp only [exec, initQueue]
    rw [hinit]
    rfl
  have howned : Owned o f (Function.update L q (some [])) := by
    refine ⟨h.sound.owned.pool, fun a q' => ?_⟩
    rw [h.sound.owned.queue a q']
    by_cases hq' : q' = q
    · simp [hq', hnone]
    · rw [Function.update_of_ne hq']
  have hsettled : Settled o f (Function.update L q (some [])) s' := by
    refine ⟨⟨hnew, howned, fun a => ?_, fun a ha => ?_, h.sound.free, h.sound.max⟩, fun q' => ?_,
      fun q' l hl => ?_, fun q' l hl a ha => ?_, h.held, h.lost, h.nodup⟩
    · exact (congrFun hwithin.live a).trans (h.sound.live a)
    · exact h.sound.fresh a (hwithin.next ▸ ha)
    · have hopened : m.opened (some q') = Function.update s.memory.opened (some q) true (some q') :=
        congrFun hwithin.opened _
      by_cases hq' : q' = q
      · simpa [s', hq'] using hopened
      · simpa [s', hq', h.opened q'] using hopened
    · by_cases hq' : q' = q
      · rw [hq', Function.update_self] at hl
        cases hl
        simp [s', hq']
      · rw [Function.update_of_ne hq'] at hl
        simpa [s', hq'] using h.size q' l hl
    · by_cases hq' : q' = q
      · rw [hq', Function.update_self] at hl
        cases hl
        simp at ha
      · rw [Function.update_of_ne hq'] at hl
        have hvalue : s'.memory.value a = s.memory.value a := congrFun hwithin.value a
        rw [hvalue]
        exact h.filled q' l hl a ha
  refine ⟨_, _, _, s', hexec, hsettled, rfl, ?_, fun q' => ?_, rfl⟩
  · exact h.contents_update hsettled (fun _ _ _ _ a _ => congrFun hwithin.value a) rfl
  · by_cases hq' : q' = q
    · simp [s', capacities, hq']
    · simp [s', capacities, hq']

/-- The queue with its new message. -/
lemma Settled.contents_push {o' : Nat → Option (Owner κ)} {f' : List Nat} (h : Settled o f L s)
    (hq : L q = some l) (h' : Settled o' f' (Function.update L q (some (l ++ [a]))) s')
    (hnew : s'.memory.value a = some x)
    (hold : ∀ q' l', L q' = some l' → ∀ b ∈ l', s'.memory.value b = s.memory.value b) :
    s'.contents = Function.update s.contents q ((s.contents q).map (· ++ [x])) := by
  obtain ⟨xs, hxs, hl, -⟩ := h.exists_contents hq
  refine h.contents_update h' (fun q' l' _ hl' b hb => hold q' l' hl' b hb) ?_
  rw [hxs, Option.bind_some, List.mapM_append, mapM_congr_value (hold q l hq), hl]
  simp [hnew]

variable (ok) in
/-- The message is at the end of the queue, unless there is no memory for its item. -/
lemma Settled.forcePush_spec (h : Settled o f L s) (hq : s.memory.opened (some q) = true) (x : α) :
    (s.queueForcePush ok q = some (none, s) ∧ s.currentFree = 0 ∧ ok = false) ∨
    ∃ a s₁ o' f' L' s', s.queueForcePush ok q = some (some a, s₁) ∧ fill x (some a, s₁) = some s' ∧
      (s.currentFree ≠ 0 ∨ ok = true) ∧ Settled o' f' L' s' ∧ Effect ⟨.forcePush q x, ok⟩ s s' := by
  obtain ⟨l, hl⟩ := Option.isSome_iff_exists.mp ((h.opened q).symm.trans hq)
  rcases poolAlloc_spec ok h.sound with ⟨halloc, hempty, hok⟩ |
      ⟨a, f', s₁, halloc, hgranted, hsound, hkept, hqueue, hcaller, hlost⟩
  · refine Or.inl ⟨?_, hempty, hok⟩
    simp [queueForcePush, halloc]
  · obtain ⟨m, hinsert, hsound', hvalue, hopened, hnext⟩ :=
      insertTail_spec hsound (Function.update_self ..) hl
    have hlive : m.live a = true := by
      have hlive := hsound'.live a
      rw [Function.update_self] at hlive
      exact hlive
    let s₂ : Pools κ α :=
      { s₁ with
        memory := m
        queue := Function.update s₁.queue q { s₁.queue q with size := (s₁.queue q).size + 1 } }
    let s' : Pools κ α :=
      { s₂ with memory := { m with value := Function.update m.value a (some x) } }
    have hvalues : ∀ q' l', L q' = some l' → ∀ b ∈ l', s'.memory.value b = s.memory.value b := by
      intro q' l' hl' b hb
      have hmem := h.sound.owned.notMem_cons hqueue hl' hb
      refine (Function.update_of_ne (List.ne_of_not_mem_cons hmem) _ _).trans ?_
      rw [hvalue]
      exact hkept.value b hmem
    rw [Function.update_idem] at hsound'
    have hsettled : Settled (Function.update o a (some (.queue q))) f'
        (Function.update L q (some (l ++ [a]))) s' := by
      refine ⟨hsound'.congr rfl rfl rfl (fun _ _ _ => rfl) rfl rfl rfl rfl rfl, fun q' => ?_,
        fun q' l' hl' => ?_, fun q' l' hl' b hb => ?_, ?_, ?_, hkept.held.symm ▸ h.nodup⟩
      · have hsame : m.opened (some q') = (L q').isSome := by
          rw [hopened, hkept.opened]
          exact h.opened q'
        by_cases hq' : q' = q
        · rw [hq', Function.update_self]
          rw [hq', hl] at hsame
          exact hsame
        · rw [Function.update_of_ne hq']
          exact hsame
      · by_cases hq' : q' = q
        · rw [hq', Function.update_self] at hl'
          cases hl'
          simp [s', s₂, hq', hkept.queue, h.size q l hl]
        · rw [Function.update_of_ne hq'] at hl'
          simp [s', s₂, hq', hkept.queue, h.size q' l' hl']
      · by_cases hq' : q' = q
        · rw [hq', Function.update_self] at hl'
          cases hl'
          rcases List.mem_append.mp hb with hb | hb
          · rw [hvalues q l hl b hb]
            exact h.filled q l hl b hb
          · rw [List.mem_singleton.mp hb]
            simp [s']
        · rw [Function.update_of_ne hq'] at hl'
          rw [hvalues q' l' hl' b hb]
          exact h.filled q' l' hl' b hb
      · exact record_update (hkept.held.symm ▸ h.held) hcaller (by simp)
      · exact record_update (hkept.lost.symm ▸ h.lost) hlost (by simp)
    refine Or.inr ⟨a, s₂, _, f', _, s', ?_, ?_, hgranted, hsettled, hkept.maxFree, ?_, fun q' => ?_,
      congrArg List.length hkept.lost⟩
    · simp [queueForcePush, halloc, hinsert, s₂]
    · simp [fill, Memory.storeValue, hlive, s', s₂]
    · rw [expected]
      simp only
      rw [if_pos hgranted]
      exact h.contents_push hl hsettled (Function.update_self ..) hvalues
    · by_cases hq' : q' = q
      · simp [s', s₂, capacities, hq', hkept.queue]
      · simp [s', s₂, capacities, hq', hkept.queue]

/-- A forced push that finds no memory leaves everything as it is. -/
lemma effect_refused (hempty : s.currentFree = 0) :
    Effect ⟨.forcePush q x, false⟩ s s := by
  refine ⟨rfl, ?_, fun _ => rfl, rfl⟩
  rw [expected]
  simp [hempty]

lemma Settled.does_forcePush (h : Settled o f L s) (hq : s.memory.opened (some q) = true) (x : α) :
    Does ⟨.forcePush q x, ok⟩ s := by
  rcases h.forcePush_spec ok hq x with ⟨hpush, hempty, rfl⟩ |
      ⟨a, s₁, o', f', L', s', hpush, hfill, -, hsettled, heffect⟩
  · exact ⟨o, f, L, s, by simp [exec, hpush, fill], h, effect_refused hempty⟩
  · exact ⟨o', f', L', s', by simp [exec, hpush, hfill], hsettled, heffect⟩

lemma Settled.does_push (h : Settled o f L s) (hq : s.memory.opened (some q) = true) (x : α) :
    Does ⟨.push q x, ok⟩ s := by
  by_cases hroom : (s.queue q).size < (s.queue q).capacity
  · have hforce : Does ⟨.forcePush q x, ok⟩ s := h.does_forcePush hq x
    obtain ⟨o', f', L', s', hexec, hsettled, hmax, hcontents, hcapacity, hlost⟩ := hforce
    refine ⟨o', f', L', s', ?_, hsettled, hmax, ?_, hcapacity, hlost⟩
    · rw [← hexec, exec, exec]
      simp only [queuePush]
      rw [if_neg (Nat.not_le.mpr hroom)]
    · rw [hcontents, expected, expected]
      simp [hroom]
  · refine ⟨o, f, L, s, ?_, h, rfl, ?_, fun _ => rfl, rfl⟩
    · simp [exec, queuePush, Nat.not_lt.mp hroom, fill]
    · rw [expected]
      simp [hroom]

/-- An item is taken out of a queue, and the others stay as they are. -/
lemma Settled.remove_spec (h : Settled o f L s) (hl : L q = some (l₁ ++ a :: l₂)) :
    ∃ o' f' s', s.queueRemove q a = some s' ∧
      Settled o' f' (Function.update L q (some (l₁ ++ l₂))) s' ∧
      (∀ q' l', Function.update L q (some (l₁ ++ l₂)) q' = some l' →
        ∀ b ∈ l', s'.memory.value b = s.memory.value b) ∧
      s'.maxFree = s.maxFree ∧ (∀ q', (s'.queue q').capacity = (s.queue q').capacity) ∧
      s'.lost = s.lost := by
  obtain ⟨m, hremove, hsound, hvalue, hopened, -⟩ := tailqRemove_spec h.sound hl
  have ha : o a = some (.queue q) := (h.sound.owned.queue a q).mpr ⟨_, hl, by simp⟩
  obtain ⟨v, f', s₁, hfree, hvq, hvc, hvl, -, hsound', hkept⟩ :=
    poolFree_spec hsound (Function.update_self ..)
  rw [Function.update_idem] at hsound'
  let s' : Pools κ α :=
    { s₁ with
      queue := Function.update s₁.queue q { s₁.queue q with size := (s₁.queue q).size - 1 } }
  have hvalues : ∀ q' l', Function.update L q (some (l₁ ++ l₂)) q' = some l' → ∀ b ∈ l',
      s'.memory.value b = s.memory.value b := by
    intro q' l' hl' b hb
    refine (hkept.value b (hsound.owned.notMem_cons (by simp) hl' hb)).trans ?_
    exact congrFun hvalue b
  have hsettled :
      Settled (Function.update o a v) f' (Function.update L q (some (l₁ ++ l₂))) s' := by
    refine ⟨hsound'.congr rfl rfl rfl (fun _ _ _ => rfl) rfl rfl rfl rfl rfl, fun q' => ?_,
      fun q' l' hl' => ?_, fun q' l' hl' b hb => ?_, ?_, ?_, hkept.held.symm ▸ h.nodup⟩
    · have hsame : s₁.memory.opened (some q') = (L q').isSome := by
        rw [hkept.opened]
        exact (congrFun hopened _).trans (h.opened q')
      by_cases hq' : q' = q
      · rw [hq', Function.update_self]
        rw [hq', hl] at hsame
        exact hsame
      · rw [Function.update_of_ne hq']
        exact hsame
    · by_cases hq' : q' = q
      · rw [hq', Function.update_self] at hl'
        cases hl'
        simp [s', hq', hkept.queue, h.size q _ hl]
      · rw [Function.update_of_ne hq'] at hl'
        simp [s', hq', hkept.queue, h.size q' l' hl']
    · rw [hvalues q' l' hl' b hb]
      by_cases hq' : q' = q
      · rw [hq', Function.update_self] at hl'
        cases hl'
        refine h.filled q _ hl b ?_
        rcases List.mem_append.mp hb with hb | hb
        · exact List.mem_append_left _ hb
        · exact List.mem_append_right _ (List.mem_cons_of_mem _ hb)
      · rw [Function.update_of_ne hq'] at hl'
        exact h.filled q' l' hl' b hb
    · exact record_update (hkept.held.symm ▸ h.held) (by simp [ha]) hvc
    · exact record_update (hkept.lost.symm ▸ h.lost) (by simp [ha]) hvl
  refine ⟨_, _, s', by simp [queueRemove, hremove, hfree, s'], hsettled, hvalues, hkept.maxFree,
    fun q' => ?_, hkept.lost⟩
  by_cases hq' : q' = q
  · simp [s', hq', hkept.queue]
  · simp [s', hq', hkept.queue]

lemma Settled.does_remove {n : Nat} (h : Settled o f L s)
    (hn : n < ((s.contents q).getD []).length) : Does ⟨.remove q n, ok⟩ s := by
  obtain ⟨xs, hxs, hlt⟩ : ∃ xs, s.contents q = some xs ∧ n < xs.length := by
    cases hxs : s.contents q with
    | none => simp [hxs] at hn
    | some xs => exact ⟨xs, rfl, by simpa [hxs] using hn⟩
  obtain ⟨l, hl, hmap⟩ : ∃ l, L q = some l ∧ l.mapM s.memory.value = some xs := by
    rw [h.contents_eq] at hxs
    exact Option.bind_eq_some_iff.mp hxs
  have hlen : l.length = xs.length := length_eq_of_mapM hmap
  have hlt' : n < l.length := hlen ▸ hlt
  obtain ⟨l₁, l₂, a, hsplit, hlen₁⟩ : ∃ l₁ l₂ a, l = l₁ ++ a :: l₂ ∧ l₁.length = n :=
    ⟨l.take n, l.drop (n + 1), l[n], by simp, by simp [Nat.le_of_lt hlt']⟩
  subst hsplit
  have hitem : (l₁ ++ a :: l₂)[n]? = some a := by simp [← hlen₁]
  have herase : (l₁ ++ a :: l₂).eraseIdx n = l₁ ++ l₂ := by
    rw [List.eraseIdx_append_of_length_le (Nat.le_of_eq hlen₁)]
    simp [hlen₁]
  obtain ⟨o', f', s', hremove, hsettled, hvalues, hmax, hcapacity, hlost⟩ := h.remove_spec hl
  have hexec : s.exec ⟨.remove q n, ok⟩ = some s' := by
    simp [exec, h.sound.items_eq hl, hitem, hremove]
  refine ⟨_, _, _, s', hexec, hsettled, hmax, ?_, hcapacity, congrArg List.length hlost⟩
  refine h.contents_update hsettled (fun q' l' hq' hl' b hb => ?_) ?_
  · exact hvalues q' l' (by rw [Function.update_of_ne hq', hl']) b hb
  · rw [hxs, Option.bind_some, Option.map_some,
      mapM_congr_value (hvalues q _ (Function.update_self ..)), mapM_eq_some_iff, ← herase]
    rw [mapM_eq_some_iff] at hmap
    rw [← List.eraseIdx_map, hmap, List.eraseIdx_map]

/-- A caller gives back the objects of a list it walks along. -/
lemma freeItems_spec {fuel : Nat} (h : Sound o f L s) (hfollows : Follows s.memory l)
    (hl : l.Nodup) (hcaller : ∀ a ∈ l, o a = some .caller) (hfuel : l.length ≤ fuel) :
    ∃ o' f' s', s.freeItems fuel l.head? = some s' ∧ Sound o' f' L s' ∧ Kept (l ++ f) s s' ∧
      (∀ b, b ∉ l → o' b = o b) ∧ ∀ b ∈ l, o' b ≠ some .caller ∧ o' b ≠ some .lost := by
  induction l generalizing o f s fuel with
  | nil =>
    refine ⟨o, f, s, by cases fuel <;> rfl, h, ?_, fun _ _ => rfl, by simp⟩
    exact ⟨rfl, rfl, rfl, rfl, rfl, Nat.le_refl _, fun _ _ => rfl, fun _ _ => rfl, fun _ _ => rfl⟩
  | cons a l ih =>
    obtain ⟨ha, hnext, hrest⟩ := hfollows
    obtain ⟨hmem, hnodup⟩ := List.nodup_cons.mp hl
    cases fuel with
    | zero => cases hfuel
    | succ fuel =>
      have hcaller_a := hcaller a (List.mem_cons_self ..)
      obtain ⟨v, f₁, s₁, hfree, -, hvc, hvl, hsub, hsound, hkept⟩ := poolFree_spec h hcaller_a
      have hother : ∀ b ∈ l, b ≠ a ∧ b ∉ a :: f := by
        intro b hb
        have hne : b ≠ a := fun heq => hmem (heq ▸ hb)
        refine ⟨hne, fun hmem' => ?_⟩
        rcases List.mem_cons.mp hmem' with heq | hmem'
        · exact hne heq
        · have hpool := (h.owned.pool b).mpr hmem'
          simp [hcaller b (List.mem_cons_of_mem _ hb)] at hpool
      obtain ⟨o', f', s', hloop, hsound', hkept', hsame, hgone⟩ := ih hsound
        (hrest.congr (fun b hb => hkept.live b (hother b hb).2) fun b hb =>
          hkept.link b (hother b hb).2) hnodup
        (fun b hb => (Function.update_of_ne (hother b hb).1 _ _).trans
          (hcaller b (List.mem_cons_of_mem _ hb))) (Nat.le_of_succ_le_succ hfuel)
      refine ⟨o', f', s', ?_, hsound', ?_, fun b hb => ?_, fun b hb => ?_⟩
      · rw [List.head?_cons, freeItems, Memory.load_eq (p := .link a) ha, hnext]
        simp [hfree, hloop]
      · have hout : ∀ b, b ∉ a :: l ++ f → b ∉ a :: f ∧ b ∉ l ++ f₁ := by
          intro b hb
          have hb' : b ∉ a :: f := fun hmem' => hb (by
            rcases List.mem_cons.mp hmem' with rfl | hmem'
            · simp
            · simp [hmem'])
          refine ⟨hb', fun hmem' => ?_⟩
          rcases List.mem_append.mp hmem' with hmem' | hmem'
          · exact hb (by simp [hmem'])
          · exact hb' (hsub hmem')
        exact ⟨hkept'.maxFree.trans hkept.maxFree, hkept'.queue.trans hkept.queue,
          hkept'.held.trans hkept.held, hkept'.lost.trans hkept.lost,
          hkept'.opened.trans hkept.opened, hkept.next.trans hkept'.next,
          fun b hb => (hkept'.value b (hout b hb).2).trans (hkept.value b (hout b hb).1),
          fun b hb => (hkept'.link b (hout b hb).2).trans (hkept.link b (hout b hb).1),
          fun b hb => (hkept'.live b (hout b hb).2).trans (hkept.live b (hout b hb).1)⟩
      · rw [List.mem_cons, not_or] at hb
        rw [hsame b hb.2, Function.update_of_ne hb.1]
      · by_cases hbl : b ∈ l
        · exact hgone b hbl
        · have heq := (List.mem_cons.mp hb).resolve_right hbl
          rw [hsame b hbl, heq, Function.update_self]
          exact ⟨hvc, hvl⟩

/-- The items of a queue go to somebody else, and it is not a queue any more. -/
lemma Sound.forget (h : Sound o f L s) (q : κ) {w : Owner κ} (hw : w ≠ .pool)
    (hw' : ∀ q, w ≠ .queue q) :
    Sound (fun a => if o a = some (.queue q) then some w else o a) f (Function.update L q none)
      s := by
  have hholds := h.holds.forget (some q)
  rw [update_lists_some] at hholds
  refine ⟨hholds, h.owned.forget q (by simpa using hw) (by simpa using hw'), fun a => ?_,
    fun a ha => ?_, h.free, h.max⟩
  · rw [h.live a]
    split
    · next heq => simp [heq]
    · rfl
  · simp [h.fresh a ha]

/-- `free_queue` takes a queue away and leaves everything else as it is. -/
lemma Sound.freeQueue_spec (h : Sound o f L s) (hq : L q = some l) :
    ∃ o' f' s', s.freeQueue q = some s' ∧ Sound o' f' (Function.update L q none) s' ∧
      Kept (l ++ f) s s' ∧ (∀ b, b ∉ l → o' b = o b) ∧
      ∀ b ∈ l, o' b ≠ some .caller ∧ o' b ≠ some .lost := by
  have hlist := h.holds.list (some q) l hq
  have hforget := h.forget q (w := .caller) (by simp) (by simp)
  have hmem : ∀ a, a ∈ l ↔ o a = some (.queue q) := by
    intro a
    rw [h.owned.queue a q]
    simp [hq]
  obtain ⟨o', f', s', hloop, hsound, hkept, hsame, hgone⟩ := freeItems_spec hforget hlist.follows
    hlist.nodup (fun a ha => if_pos ((hmem a).mp ha)) (h.length_le hq)
  refine ⟨o', f', s', ?_, hsound, hkept, fun b hb => ?_, hgone⟩
  · rw [freeQueue, Memory.load_eq (p := .head (some q)) hlist.opened, hlist.first]
    exact hloop
  · rw [hsame b hb, if_neg fun heq => hb ((hmem b).mpr heq)]

lemma Settled.does_free (h : Settled o f L s) (hq : s.memory.opened (some q) = true) :
    Does ⟨.free q, ok⟩ s := by
  obtain ⟨l, hl⟩ := Option.isSome_iff_exists.mp ((h.opened q).symm.trans hq)
  obtain ⟨o', f', s₁, hfree, hsound, hkept, hsame, hgone⟩ := h.sound.freeQueue_spec hl
  have hmem : ∀ q' l', q' ≠ q → L q' = some l' → ∀ b ∈ l', b ∉ l ++ f := by
    intro q' l' hne hl' b hb hmem
    have hob : o b = some (.queue q') := (h.sound.owned.queue b q').mpr ⟨l', hl', hb⟩
    rcases List.mem_append.mp hmem with hmem | hmem
    · have hob' := (h.sound.owned.queue b q).mpr ⟨l, hl, hmem⟩
      simp [hob] at hob'
      exact hne hob'
    · have hob' := (h.sound.owned.pool b).mpr hmem
      simp [hob] at hob'
  have hqueued : ∀ b ∈ l, o b = some (.queue q) :=
    fun b hb => (h.sound.owned.queue b q).mpr ⟨l, hl, hb⟩
  have hsettled : Settled o' f' (Function.update L q none) (s₁.setOpened q false) := by
    refine ⟨hsound.setOpened (Function.update_self ..) false, fun q' => ?_, fun q' l' hl' => ?_,
      fun q' l' hl' b hb => ?_, ?_, ?_, hkept.held.symm ▸ h.nodup⟩
    · have hsame : s₁.memory.opened (some q') = (L q').isSome := by
        rw [hkept.opened]
        exact h.opened q'
      by_cases hq' : q' = q
      · simp [setOpened, hq']
      · simp [setOpened, hq', hsame]
    · by_cases hq' : q' = q
      · rw [hq', Function.update_self] at hl'
        cases hl'
      · rw [Function.update_of_ne hq'] at hl'
        exact (congrArg Queue.size (congrFun hkept.queue q')).trans (h.size q' l' hl')
    · by_cases hq' : q' = q
      · rw [hq', Function.update_self] at hl'
        cases hl'
      · rw [Function.update_of_ne hq'] at hl'
        have hvalue : (s₁.setOpened q false).memory.value b = s.memory.value b :=
          hkept.value b (hmem q' l' hq' hl' b hb)
        rw [hvalue]
        exact h.filled q' l' hl' b hb
    · exact record_forget (hkept.held.symm ▸ h.held) hsame (by simp +contextual [hqueued])
        fun b hb => (hgone b hb).1
    · exact record_forget (hkept.lost.symm ▸ h.lost) hsame (by simp +contextual [hqueued])
        fun b hb => (hgone b hb).2
  refine ⟨_, _, _, s₁.setOpened q false, ?_, hsettled, hkept.maxFree, ?_, fun q' => ?_,
    congrArg List.length hkept.lost⟩
  · simp [exec, hfree]
  · exact h.contents_update hsettled
      (fun q' l' hq' hl' b hb => hkept.value b (hmem q' l' hq' hl' b hb)) rfl
  · exact congrArg Queue.capacity (congrFun hkept.queue q')

/-- A queue goes with its connection, and its items are lost. -/
lemma Settled.does_drop (h : Settled o f L s) (hq : s.memory.opened (some q) = true) :
    Does ⟨.drop q, ok⟩ s := by
  obtain ⟨l, hl⟩ := Option.isSome_iff_exists.mp ((h.opened q).symm.trans hq)
  have hmem : ∀ b, o b = some (.queue q) ↔ b ∈ l := by
    intro b
    rw [h.sound.owned.queue b q]
    simp [hl]
  let s' : Pools κ α := { s.setOpened q false with lost := l ++ s.lost }
  have hsettled : Settled (fun a => if o a = some (.queue q) then some .lost else o a) f
      (Function.update L q none) s' := by
    have hforget := (h.sound.forget q (w := .lost) (by simp) (by simp)).setOpened
      (Function.update_self ..) false
    refine ⟨⟨hforget.holds, hforget.owned, hforget.live, hforget.fresh, hforget.free, hforget.max⟩,
      fun q' => ?_, fun q' l' hl' => ?_, fun q' l' hl' b hb => ?_, fun b => ?_, fun b => ?_,
      h.nodup⟩
    · by_cases hq' : q' = q
      · simp [s', setOpened, hq']
      · simp [s', setOpened, hq', h.opened q']
    · by_cases hq' : q' = q
      · rw [hq', Function.update_self] at hl'
        cases hl'
      · rw [Function.update_of_ne hq'] at hl'
        exact h.size q' l' hl'
    · by_cases hq' : q' = q
      · rw [hq', Function.update_self] at hl'
        cases hl'
      · rw [Function.update_of_ne hq'] at hl'
        exact h.filled q' l' hl' b hb
    · by_cases hb : o b = some (.queue q)
      · rw [if_pos hb]
        refine iff_of_false (by simp) fun hheld => ?_
        simp [(h.held b).mpr hheld] at hb
      · rw [if_neg hb]
        exact h.held b
    · by_cases hb : o b = some (.queue q)
      · simp [s', hb, (hmem b).mp hb]
      · rw [if_neg hb, h.lost b]
        have hbl : b ∉ l := fun hbl => hb ((hmem b).mpr hbl)
        simp [s', hbl]
  obtain ⟨xs, hxs, -, hlen⟩ := h.exists_contents hl
  refine ⟨_, _, _, s', ?_, hsettled, rfl, h.contents_update hsettled (fun _ _ _ _ _ _ => rfl) rfl,
    fun _ => rfl, ?_⟩
  · simp [exec, h.sound.items_eq hl, s']
  · simp [s', losses, hxs, hlen, Nat.add_comm]

/-- An object is given to a caller. -/
lemma Settled.does_alloc (h : Settled o f L s) : Does ⟨.alloc, ok⟩ s := by
  rcases poolAlloc_spec ok h.sound with ⟨halloc, -, -⟩ |
      ⟨a, f', s₁, halloc, -, hsound, hkept, hqueue, hcaller, hlost⟩
  · exact ⟨o, f, L, s, by simp [exec, halloc], h, rfl, rfl, fun _ => rfl, rfl⟩
  · have hothers : ∀ q l, L q = some l → ∀ b ∈ l, b ∉ a :: f := by
      intro q l hl b hb hmem
      have hob : o b = some (.queue q) := (h.sound.owned.queue b q).mpr ⟨l, hl, hb⟩
      rcases List.mem_cons.mp hmem with rfl | hmem
      · exact hqueue q hob
      · have hpool := (h.sound.owned.pool b).mpr hmem
        simp [hob] at hpool
    have hvalues : ∀ q l, L q = some l → ∀ b ∈ l, s₁.memory.value b = s.memory.value b :=
      fun q l hl b hb => hkept.value b (hothers q l hl b hb)
    have hnew : a ∉ s.held := fun hmem => hcaller ((h.held a).mpr hmem)
    let s' : Pools κ α := { s₁ with held := a :: s₁.held }
    have hsettled : Settled (Function.update o a (some .caller)) f' L s' := by
      refine ⟨⟨hsound.holds, hsound.owned, hsound.live, hsound.fresh, hsound.free, hsound.max⟩,
        fun q => (congrFun hkept.opened _).trans (h.opened q), fun q l hl => ?_,
        fun q l hl b hb => ?_, fun b => ?_, ?_, ?_⟩
      · exact (congrArg Queue.size (congrFun hkept.queue q)).trans (h.size q l hl)
      · have hvalue : s'.memory.value b = s.memory.value b := hvalues q l hl b hb
        rw [hvalue]
        exact h.filled q l hl b hb
      · by_cases hb : b = a
        · simp [s', hb]
        · simp [s', hb, hkept.held, h.held]
      · exact record_update (hkept.lost.symm ▸ h.lost) hlost (by simp)
      · simpa [s', hkept.held] using ⟨hnew, h.nodup⟩
    exact ⟨_, _, _, s', by simp [exec, halloc, s'], hsettled, hkept.maxFree,
      h.contents_same hsettled hvalues, fun q => congrArg Queue.capacity (congrFun hkept.queue q),
      congrArg List.length hkept.lost⟩

/-- An object is given back by its caller. -/
lemma Settled.does_giveBack (h : Settled o f L s) (ha : a ∈ s.held) :
    Does ⟨.giveBack a, ok⟩ s := by
  have hcaller : o a = some .caller := (h.held a).mpr ha
  obtain ⟨v, f', s₁, hfree, hvq, hvc, hvl, -, hsound, hkept⟩ := poolFree_spec h.sound hcaller
  have hvalues : ∀ q l, L q = some l → ∀ b ∈ l, s₁.memory.value b = s.memory.value b :=
    fun q l hl b hb =>
      hkept.value b (h.sound.owned.notMem_cons (by simp [hcaller]) hl hb)
  let s' : Pools κ α := { s₁ with held := s₁.held.erase a }
  have hsettled : Settled (Function.update o a v) f' L s' := by
    refine ⟨⟨hsound.holds, hsound.owned, hsound.live, hsound.fresh, hsound.free, hsound.max⟩,
      fun q => (congrFun hkept.opened _).trans (h.opened q), fun q l hl => ?_,
      fun q l hl b hb => ?_, fun b => ?_, ?_, ?_⟩
    · exact (congrArg Queue.size (congrFun hkept.queue q)).trans (h.size q l hl)
    · have hvalue : s'.memory.value b = s.memory.value b := hvalues q l hl b hb
      rw [hvalue]
      exact h.filled q l hl b hb
    · by_cases hb : b = a
      · simp [s', hb, hvc, hkept.held, h.nodup.mem_erase_iff]
      · simp [s', hb, hkept.held, h.nodup.mem_erase_iff, h.held]
    · exact record_update (hkept.lost.symm ▸ h.lost) (by simp [hcaller]) hvl
    · simpa [s', hkept.held] using h.nodup.erase a
  exact ⟨_, _, _, s', by simp [exec, hfree, s'], hsettled, hkept.maxFree,
    h.contents_same hsettled hvalues, fun q => congrArg Queue.capacity (congrFun hkept.queue q),
    congrArg List.length hkept.lost⟩

/-- Every proper operation. -/
lemma Settled.does (h : Settled o f L s) (hi : Proper i s) : Does i s := by
  obtain ⟨op, ok⟩ := i
  cases op with
  | init q c => exact h.does_init hi
  | push q x => exact h.does_push hi x
  | forcePush q x => exact h.does_forcePush hi x
  | remove q n => exact h.does_remove hi
  | free q => exact h.does_free hi
  | drop q => exact h.does_drop hi
  | alloc => exact h.does_alloc
  | giveBack a => exact h.does_giveBack hi

variable {n : Nat} {c : κ → Option Nat}

/-- The states of all runs are settled. -/
theorem settled_of_reachable (hr : ReachableVia step Proper (init n c) s) :
    ∃ o f L, Settled o f L s := by
  induction hr with
  | init => exact ⟨_, _, _, settled_init n c⟩
  | step _ hi hstep ih =>
    obtain ⟨o, f, L, h⟩ := ih
    obtain ⟨o', f', L', s', hexec, h', -⟩ := h.does hi
    rw [step, hexec] at hstep
    cases hstep
    exact ⟨o', f', L', h'⟩

/-! ### Release -/

/-- All queues that are in use are freed. -/
lemma freeQueues_spec {qs : List κ} (h : Sound o f L s) (hqs : ∀ q, q ∈ qs ↔ (L q).isSome)
    (hnodup : qs.Nodup) :
    ∃ o' f' s', qs.foldlM (fun s q => s.freeQueue q) s = some s' ∧
      Sound o' f' (fun _ => none) s' ∧
      ∀ w, w = .caller ∨ w = .lost → ∀ a, o' a = some w ↔ o a = some w := by
  induction qs generalizing o f L s with
  | nil =>
    have hL : L = fun _ => none := by
      funext q
      simpa using hqs q
    subst hL
    exact ⟨o, f, s, rfl, h, fun _ _ _ => Iff.rfl⟩
  | cons q qs ih =>
    obtain ⟨hmem, hnodup⟩ := List.nodup_cons.mp hnodup
    obtain ⟨l, hl⟩ := Option.isSome_iff_exists.mp ((hqs q).mp (List.mem_cons_self ..))
    obtain ⟨o₁, f₁, s₁, hfree, hsound, -, hsame, hgone⟩ := h.freeQueue_spec hl
    have hqs' : ∀ q', q' ∈ qs ↔ (Function.update L q none q').isSome := by
      intro q'
      by_cases hq' : q' = q
      · simp [hq', hmem]
      · simpa [hq'] using hqs q'
    obtain ⟨o', f', s', hfold, hsound', howners⟩ := ih hsound hqs' hnodup
    refine ⟨o', f', s', ?_, hsound', fun w hw a => (howners w hw a).trans ?_⟩
    · rw [List.foldlM_cons, hfree]
      exact hfold
    · by_cases ha : a ∈ l
      · have hoa : o a = some (.queue q) := (h.owned.queue a q).mpr ⟨l, hl, ha⟩
        obtain ⟨hcaller, hlost⟩ := hgone a ha
        rcases hw with rfl | rfl
        · exact iff_of_false hcaller (by simp [hoa])
        · exact iff_of_false hlost (by simp [hoa])
      · rw [hsame a ha]

/-- One more step of a run. -/
lemma proper_step (hr : ReachableVia step Proper (init n c) s) (hi : Proper i s) :
    ∃ s', step i s = .ok s' ∧ ReachableVia step Proper (init n c) s' ∧ Effect i s s' := by
  obtain ⟨o, f, L, h⟩ := settled_of_reachable hr
  obtain ⟨o', f', L', s', hexec, h', heffect⟩ := h.does hi
  have hstep : step i s = .ok s' := by rw [step, hexec]
  exact ⟨s', hstep, hr.step hi hstep, heffect⟩

/-- Pools and queues work. No proper operation touches memory that is not there, and none frees
memory that is free; a queue holds what has been pushed and not removed, in order, and `size` is its
length; the pool keeps `current_free` objects, and never more than `max_free`. -/
theorem queues_are_fifos (hr : ReachableVia step Proper (init n c) s) (hi : Proper i s) :
    ∃ s', step i s = .ok s' ∧ Effect i s s' ∧
      (∃ free, s'.freeList = some free ∧ s'.currentFree = free.length ∧
        free.length ≤ s'.maxFree) ∧
      ∀ q xs, s'.contents q = some xs → (s'.queue q).size = xs.length := by
  obtain ⟨s', hstep, hr', heffect⟩ := proper_step hr hi
  obtain ⟨o', f', L', h'⟩ := settled_of_reachable hr'
  exact ⟨s', hstep, heffect, ⟨f', h'.sound.freeList_eq, h'.sound.free, h'.sound.max⟩,
    fun q xs hq => h'.size_eq hq⟩

/-- A pool that keeps one object, and a queue for one message. -/
def samplePools : Pools Bool Nat := init 1 fun q => if q then some 1 else none

/-- A queue that is full keeps a forced message, and the second of its messages is removed. The pool
has given away its only object and keeps the item that comes back. -/
theorem queues_are_fifos_forced : ∃ s s' : Pools Bool Nat,
    s.contents true = some [7, 8] ∧ s.currentFree = 0 ∧
      step ⟨.remove true 1, false⟩ s = .ok s' ∧ s'.contents true = some [7] ∧
      s'.contents false = some [5] ∧ ∃ free, s'.freeList = some free ∧ free.length = 1 := by
  have hrun : (run (guarded step Proper .useAfterFree) [⟨.push true 7, true⟩, ⟨.push true 9, true⟩,
      ⟨.forcePush true 8, true⟩, ⟨.init false 4, true⟩, ⟨.push false 6, true⟩,
      ⟨.remove false 0, true⟩, ⟨.push false 5, false⟩] samplePools).map
        (fun s => (s.contents true, s.contents false, s.currentFree,
          decide (Proper ⟨.remove true 1, false⟩ s),
          (s.exec ⟨.remove true 1, false⟩).map Pools.currentFree))
      = .ok (some [7, 8], some [5], 0, true, some 1) := by decide +kernel
  obtain ⟨s, hr, hview⟩ := exists_of_guarded _ hrun
  simp only [Prod.mk.injEq, decide_eq_true_eq] at hview
  obtain ⟨htrue, hfalse, hempty, hproper, hkept⟩ := hview
  obtain ⟨s', hstep, heffect, ⟨free, hfree, hcount, -⟩, -⟩ :=
    queues_are_fifos hr hproper
  have hexec : s.exec ⟨.remove true 1, false⟩ = some s' := by
    rw [step] at hstep
    split at hstep
    · next heq => rw [heq, Except.ok.inj hstep]
    · cases hstep
  rw [hexec] at hkept
  refine ⟨s, s', htrue, hempty, hstep, ?_, ?_, free, hfree,
    hcount.symm.trans (Option.some.inj hkept)⟩
  · rw [heffect.contents, expected]
    simp [htrue]
  · rw [heffect.contents, expected]
    simp [hfalse]

/-- Nothing is freed twice on the way out, and what is not freed then is what callers still have and
the items of queues that had gone with their connections. -/
theorem release_leaves_lost {qs : List κ} (hr : ReachableVia step Proper (init n c) s)
    (hqs : ∀ q, q ∈ qs ↔ s.memory.opened (some q) = true) (hnodup : qs.Nodup) :
    ∃ s', s.release qs = some s' ∧
      ∀ a, s'.memory.live a = true ↔ a ∈ s.held ∨ a ∈ s.lost := by
  obtain ⟨o, f, L, h⟩ := settled_of_reachable hr
  obtain ⟨o', f', s₁, hfold, hsound, howners⟩ :=
    freeQueues_spec h.sound (fun q => by rw [hqs q, h.opened q]) hnodup
  have hlist := hsound.holds.list none f' rfl
  obtain ⟨s', hloop, hlive⟩ :=
    freeObjects_spec hlist.follows hlist.nodup hsound.length_free_le
  refine ⟨s', ?_, fun a => (hlive a).trans ?_⟩
  · rw [release, hfold]
    simp only [Option.bind_eq_bind, Option.bind_some]
    rw [freePool, Memory.load_eq (p := .head none) hlist.opened, hlist.first]
    exact hloop
  · rw [← h.held a, ← h.lost a, ← howners .caller (Or.inl rfl) a, ← howners .lost (Or.inr rfl) a,
      hsound.live a, ← hsound.owned.pool a]
    cases hoa : o' a with
    | none => simp
    | some w =>
      cases w with
      | queue q =>
        obtain ⟨l, hl, -⟩ := (hsound.owned.queue a q).mp hoa
        cases hl
      | pool => simp
      | caller => simp
      | lost => simp

/-- A connection has gone with a message in its queue, and a caller has an object. -/
theorem release_leaves_lost_one : ∃ s s' : Pools Bool Nat, s.lost = [0] ∧ s.held = [1] ∧
    s.release [true] = some s' ∧ ∀ a, s'.memory.live a = true ↔ a ∈ s.held ∨ a ∈ s.lost := by
  have hrun : (run (guarded step Proper .useAfterFree)
      [⟨.init false 4, true⟩, ⟨.push false 6, true⟩, ⟨.drop false, true⟩, ⟨.alloc, true⟩,
        ⟨.push true 7, true⟩] samplePools).map
        (fun s => (s.lost, s.held, s.memory.opened (some true), s.memory.opened (some false)))
      = .ok ([0], [1], true, false) := by decide +kernel
  obtain ⟨s, hr, hview⟩ := exists_of_guarded _ hrun
  simp only [Prod.mk.injEq] at hview
  obtain ⟨hlost, hheld, htrue, hfalse⟩ := hview
  have hqs : ∀ q, q ∈ [true] ↔ s.memory.opened (some q) = true := by
    intro q
    cases q with
    | true => simp [htrue]
    | false => simp [hfalse]
  obtain ⟨s', hrelease, hlive⟩ := release_leaves_lost hr hqs (by decide)
  exact ⟨s, s', hlost, hheld, hrelease, hlive⟩

end Pools

end Zerogw
