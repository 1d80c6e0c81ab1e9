import Zerogw.Pools.Basic

/-!
# Who has the objects of a pool

Every block that `malloc` has given and `free` has not taken back has exactly one owner: the free
list of the pool, a queue, a caller, or a queue that has gone. The functions pass objects from one
owner to another, and each needs of its object only who the owner is.
-/

namespace Zerogw

open Intrusive

/-- Who has an object. -/
inductive Owner (κ : Type) where
  | pool
  | queue (q : κ)
  | caller
  | lost
  deriving DecidableEq

namespace Pools

variable {κ α : Type} {o : Nat → Option (Owner κ)} {f f' l l₁ l₂ T : List Nat}
  {L L' : κ → Option (List Nat)} {s s' : Pools κ α} {a b : Nat} {q : κ} {ok : Bool} {x : α}
  {v : Option (Owner κ)}

/-! ### Owners -/

/-- The pool has the objects `f`, and the queues have the objects `L`. -/
structure Owned (o : Nat → Option (Owner κ)) (f : List Nat) (L : κ → Option (List Nat)) : Prop where
  pool : ∀ a, o a = some .pool ↔ a ∈ f
  queue : ∀ a q, o a = some (.queue q) ↔ ∃ l, L q = some l ∧ a ∈ l

/-- One object changes its owner. -/
lemma Owned.update (h : Owned o f L) (hpool : v = some .pool ↔ a ∈ f')
    (hqueue : ∀ q, v = some (.queue q) ↔ ∃ l, L' q = some l ∧ a ∈ l)
    (hf : ∀ b, b ≠ a → (b ∈ f' ↔ b ∈ f))
    (hL : ∀ b, b ≠ a → ∀ q, (∃ l, L' q = some l ∧ b ∈ l) ↔ ∃ l, L q = some l ∧ b ∈ l) :
    Owned (Function.update o a v) f' L' := by
  refine ⟨fun b => ?_, fun b q => ?_⟩
  · by_cases hb : b = a
    · rw [hb, Function.update_self]
      exact hpool
    · rw [Function.update_of_ne hb, hf b hb]
      exact h.pool b
  · by_cases hb : b = a
    · rw [hb, Function.update_self]
      exact hqueue q
    · rw [Function.update_of_ne hb, hL b hb]
      exact h.queue b q

lemma Owned.notMem_pool (h : Owned o f L) (ha : o a ≠ some .pool) : a ∉ f :=
  fun hmem => ha ((h.pool a).mpr hmem)

lemma Owned.notMem_queue (h : Owned o f L) (ha : o a ≠ some (.queue q)) :
    ¬ ∃ l, L q = some l ∧ a ∈ l :=
  fun hmem => ha ((h.queue a q).mpr hmem)

/-- What is in a queue is not free, and is not an object that no queue has. -/
lemma Owned.notMem_cons (h : Owned o f L) (ha : ∀ q, o a ≠ some (.queue q)) (hq : L q = some l)
    (hb : b ∈ l) : b ∉ a :: f := by
  have hob : o b = some (.queue q) := (h.queue b q).mpr ⟨l, hq, hb⟩
  intro hmem
  rcases List.mem_cons.mp hmem with rfl | hmem
  · exact ha q hob
  · have hpool := (h.pool b).mpr hmem
    simp [hob] at hpool

/-- An object that is in no list goes to somebody who has no list. -/
lemma Owned.pass (h : Owned o f L) (hpool : o a ≠ some .pool) (hqueue : ∀ q, o a ≠ some (.queue q))
    (hv : v ≠ some .pool) (hv' : ∀ q, v ≠ some (.queue q)) : Owned (Function.update o a v) f L := by
  refine h.update ?_ (fun q => ?_) (fun _ _ => Iff.rfl) fun _ _ _ => Iff.rfl
  · exact iff_of_false hv (h.notMem_pool hpool)
  · exact iff_of_false (hv' q) (h.notMem_queue (hqueue q))

/-- The pool gives away its first object. -/
lemma Owned.take (h : Owned o (a :: f) L) (hf : (a :: f).Nodup) :
    Owned (Function.update o a (some .caller)) f L := by
  have ha : o a = some .pool := (h.pool a).mpr (List.mem_cons_self ..)
  refine h.update ?_ (fun q => ?_) (fun b hb => ?_) fun _ _ _ => Iff.rfl
  · exact iff_of_false (by simp) (List.nodup_cons.mp hf).1
  · exact iff_of_false (by simp) (h.notMem_queue (by simp [ha]))
  · simp [hb]

/-- The pool gets an object. -/
lemma Owned.give (h : Owned o f L) (ha : o a = some .caller) :
    Owned (Function.update o a (some .pool)) (a :: f) L := by
  refine h.update (by simp) (fun q => ?_) (fun b hb => by simp [hb]) fun _ _ _ => Iff.rfl
  exact iff_of_false (by simp) (h.notMem_queue (by simp [ha]))

/-! ### The memory behind it -/

/-- The free list and the lists of the queues. -/
def lists (f : List Nat) (L : κ → Option (List Nat)) : Option κ → Option (List Nat)
  | none => some f
  | some q => L q

/-- The heads of queues know the end of their list. -/
def tails : Set (Option κ) := {k | k.isSome}

/-- The free list is `f`, the queues that are in use are the lists `L`, and `o` tells who has which
object. -/
structure Sound (o : Nat → Option (Owner κ)) (f : List Nat) (L : κ → Option (List Nat))
    (s : Pools κ α) : Prop where
  holds : Holds tails (lists f L) s.memory
  owned : Owned o f L
  live : ∀ a, s.memory.live a = (o a).isSome
  fresh : ∀ a, s.memory.next ≤ a → o a = none
  free : s.currentFree = f.length
  max : f.length ≤ s.maxFree

/-- Nothing but the free list has changed, and the objects `T`. -/
structure Kept (T : List Nat) (s s' : Pools κ α) : Prop where
  maxFree : s'.maxFree = s.maxFree
  queue : s'.queue = s.queue
  held : s'.held = s.held
  lost : s'.lost = s.lost
  opened : s'.memory.opened = s.memory.opened
  next : s.memory.next ≤ s'.memory.next
  value : ∀ b, b ∉ T → s'.memory.value b = s.memory.value b
  link : ∀ b, b ∉ T → s'.memory.pointer (.link b) = s.memory.pointer (.link b)
  live : ∀ b, b ∉ T → s'.memory.live b = s.memory.live b

/-- An object that neither the pool nor a queue has is in no list. -/
lemma Owned.notMem_lists (h : Owned o f L) (hpool : o a ≠ some .pool)
    (hqueue : ∀ q, o a ≠ some (.queue q)) (k : Option κ) (l : List Nat)
    (hk : lists f L k = some l) : a ∉ l := by
  cases k with
  | none =>
    cases hk
    exact h.notMem_pool hpool
  | some q => exact fun hmem => h.notMem_queue (hqueue q) ⟨l, hk, hmem⟩

/-- Somebody has only objects that `malloc` has given. -/
lemma Sound.lt_next (h : Sound o f L s) (ha : o a ≠ none) : a < s.memory.next := by
  by_contra hle
  exact ha (h.fresh a (Nat.not_lt.mp hle))

lemma Sound.nodup_free (h : Sound o f L s) : f.Nodup := (h.holds.list none f rfl).nodup

lemma Sound.nodup_queue (h : Sound o f L s) (hq : L q = some l) : l.Nodup :=
  (h.holds.list (some q) l hq).nodup

/-- Who has the objects afterwards, if one of them passes to another owner who keeps it. -/
lemma isSome_update {live : Nat → Bool} (hlive : ∀ a, live a = (o a).isSome)
    (ha : live a = true) (hv : v.isSome) (b : Nat) : live b = (Function.update o a v b).isSome := by
  by_cases hb : b = a
  · rw [hb, ha, Function.update_self, hv]
  · rw [Function.update_of_ne hb]
    exact hlive b

lemma fresh_update {n : Nat} (hfresh : ∀ a, n ≤ a → o a = none) (ha : a < n) (b : Nat)
    (hb : n ≤ b) : Function.update o a v b = none := by
  rw [Function.update_of_ne (by omega)]
  exact hfresh b hb

/-- The objects of a list are freed, and no others. -/
lemma freeObjects_spec {fuel : Nat} (hfollows : Follows s.memory l) (hl : l.Nodup)
    (hfuel : l.length ≤ fuel) :
    ∃ s', s.freeObjects fuel l.head? = some s' ∧
      ∀ a, s'.memory.live a = true ↔ s.memory.live a = true ∧ a ∉ l := by
  induction l generalizing s fuel with
  | nil => exact ⟨s, by cases fuel <;> rfl, by simp⟩
  | cons a l ih =>
    obtain ⟨ha, hnext, hrest⟩ := hfollows
    obtain ⟨hmem, hnodup⟩ := List.nodup_cons.mp hl
    cases fuel with
    | zero => cases hfuel
    | succ fuel =>
      let s₁ : Pools κ α :=
        { s with memory := { s.memory with live := Function.update s.memory.live a false } }
      have hne : ∀ b ∈ l, b ≠ a := fun b hb heq => hmem (heq ▸ hb)
      have hrest' : Follows s₁.memory l :=
        hrest.congr (fun b hb => Function.update_of_ne (hne b hb) _ _) fun _ _ => rfl
      obtain ⟨s', hloop, hlive⟩ := ih (s := s₁) hrest' hnodup (Nat.le_of_succ_le_succ hfuel)
      refine ⟨s', ?_, fun b => (hlive b).trans ?_⟩
      · rw [List.head?_cons, freeObjects, Memory.load_eq (p := .link a) ha, hnext]
        simp only [Memory.free, ha, if_true, Option.bind_eq_bind, Option.bind_some]
        exact hloop
      · by_cases hb : b = a
        · simp [s₁, hb]
        · simp [s₁, hb]

variable [DecidableEq κ]

/-- A queue gets an object. -/
lemma Owned.push (h : Owned o f L) (ha : o a = some .caller) (hq : L q = some l) :
    Owned (Function.update o a (some (.queue q))) f (Function.update L q (some (l ++ [a]))) := by
  refine h.update ?_ (fun q' => ?_) (fun _ _ => Iff.rfl) fun b hb q' => ?_
  · exact iff_of_false (by simp) (h.notMem_pool (by simp [ha]))
  · by_cases hq' : q' = q
    · simp [hq']
    · rw [Function.update_of_ne hq']
      refine iff_of_false (by simpa using Ne.symm hq') (h.notMem_queue (by simp [ha]))
  · by_cases hq' : q' = q
    · simp [hq', hq, hb]
    · rw [Function.update_of_ne hq']

/-- A queue gives away an object. -/
lemma Owned.remove (h : Owned o f L) (hq : L q = some (l₁ ++ a :: l₂))
    (hl : (l₁ ++ a :: l₂).Nodup) :
    Owned (Function.update o a (some .caller)) f (Function.update L q (some (l₁ ++ l₂))) := by
  have ha : o a = some (.queue q) := (h.queue a q).mpr ⟨_, hq, by simp⟩
  refine h.update ?_ (fun q' => ?_) (fun _ _ => Iff.rfl) fun b hb q' => ?_
  · exact iff_of_false (by simp) (h.notMem_pool (by simp [ha]))
  · refine iff_of_false (by simp) ?_
    by_cases hq' : q' = q
    · rw [hq', Function.update_self]
      rintro ⟨l, hl', hmem⟩
      cases hl'
      refine (List.nodup_cons.mp (List.nodup_middle.mp hl)).1 hmem
    · rw [Function.update_of_ne hq']
      exact h.notMem_queue (by simpa [ha] using Ne.symm hq')
  · by_cases hq' : q' = q
    · simp [hq', hq, hb]
    · rw [Function.update_of_ne hq']

/-- A queue gives all of its objects to somebody who has no list. -/
lemma Owned.forget (h : Owned o f L) (q : κ) (hv : v ≠ some .pool)
    (hv' : ∀ q, v ≠ some (.queue q)) :
    Owned (fun a => if o a = some (.queue q) then v else o a) f (Function.update L q none) := by
  refine ⟨fun a => ?_, fun a q' => ?_⟩
  · by_cases ha : o a = some (.queue q)
    · rw [if_pos ha]
      exact iff_of_false hv (h.notMem_pool (by simp [ha]))
    · rw [if_neg ha]
      exact h.pool a
  · by_cases ha : o a = some (.queue q)
    · rw [if_pos ha]
      refine iff_of_false (hv' q') ?_
      by_cases hq' : q' = q
      · simp [hq']
      · rw [Function.update_of_ne hq']
        exact h.notMem_queue (by simpa [ha] using Ne.symm hq')
    · rw [if_neg ha]
      by_cases hq' : q' = q
      · rw [hq']
        simp [ha]
      · rw [Function.update_of_ne hq']
        exact h.queue a q'

lemma update_lists_none :
    Function.update (lists f L) none (some f') = lists f' L := by
  funext k
  cases k with
  | none => exact Function.update_self ..
  | some q => exact Function.update_of_ne (Option.some_ne_none q) _ _

lemma update_lists_some {x : Option (List Nat)} :
    Function.update (lists f L) (some q) x = lists f (Function.update L q x) := by
  funext k
  cases k with
  | none => exact Function.update_of_ne (Option.some_ne_none q).symm _ _
  | some q' =>
    by_cases hq : q' = q
    · subst hq
      simp [lists]
    · simp [lists, hq]

/-! ### The functions of the pool -/

variable (ok) in
/-- The caller of `pool_alloc` gets an object nobody else has, unless the pool is empty and `malloc`
has no memory. -/
lemma poolAlloc_spec (h : Sound o f L s) :
    (s.poolAlloc ok = some (none, s) ∧ s.currentFree = 0 ∧ ok = false) ∨
    ∃ a f' s', s.poolAlloc ok = some (some a, s') ∧ (s.currentFree ≠ 0 ∨ ok = true) ∧
      Sound (Function.update o a (some .caller)) f' L s' ∧ Kept (a :: f) s s' ∧
      (∀ q, o a ≠ some (.queue q)) ∧ o a ≠ some .caller ∧ o a ≠ some .lost := by
  rw [poolAlloc]
  by_cases hfree : s.currentFree = 0
  · rw [if_neg (by simp [hfree])]
    cases ok with
    | false => exact Or.inl ⟨rfl, hfree, rfl⟩
    | true =>
      have hnew : o s.memory.next = none := h.fresh _ (Nat.le_refl _)
      refine Or.inr ⟨s.memory.next, f, _, rfl, Or.inr rfl, ?_, ?_, by simp [hnew], by simp [hnew],
        by simp [hnew]⟩
      · refine ⟨h.holds.malloc fun k l hk => ?_, h.owned.pass (by simp [hnew]) (by simp [hnew])
          (by simp) (by simp), fun b => ?_, fun b hb => ?_, h.free, h.max⟩
        · exact h.owned.notMem_lists (by simp [hnew]) (by simp [hnew]) k l hk
        · by_cases hb : b = s.memory.next
          · simp [Memory.malloc, hb]
          · simpa [Memory.malloc, hb] using h.live b
        · have hlt : s.memory.next + 1 ≤ b := hb
          rw [Function.update_of_ne (by omega)]
          exact h.fresh b (by omega)
      · refine ⟨rfl, rfl, rfl, rfl, rfl, Nat.le_succ _, fun b hb => ?_, fun b hb => rfl,
          fun b hb => ?_⟩
        · exact Function.update_of_ne (List.ne_of_not_mem_cons hb) _ _
        · exact Function.update_of_ne (List.ne_of_not_mem_cons hb) _ _
  · rw [if_pos hfree]
    cases f with
    | nil => exact absurd h.free hfree
    | cons a f' =>
      have hlist := h.holds.list none _ rfl
      have hfirst : s.memory.load (.head none) = some (some a) := by
        rw [Memory.load_eq (p := .head none) hlist.opened, hlist.first]
        rfl
      have ha : o a = some .pool := (h.owned.pool a).mpr (List.mem_cons_self ..)
      have hcons : lists (a :: f') L none = some ([] ++ a :: f') := rfl
      obtain ⟨m, hremove, hwithin, hholds⟩ := h.holds.listRemove hcons (by simp [tails])
      rw [List.nil_append, update_lists_none] at hholds
      refine Or.inr ⟨a, f', { s with memory := m, currentFree := s.currentFree - 1 }, ?_,
        Or.inl hfree, ⟨hholds, h.owned.take h.nodup_free, ?_, ?_, ?_, ?_⟩, ?_, by simp [ha],
        by simp [ha], by simp [ha]⟩
      · rw [hfirst]
        simp [hremove]
      · rw [hwithin.live]
        exact isSome_update h.live (by simp [h.live, ha]) rfl
      · rw [hwithin.next]
        exact fresh_update h.fresh (h.lt_next (by simp [ha]))
      · have hlen := h.free
        simp at hlen
        simp [hlen]
      · exact (Nat.le_succ _).trans h.max
      · refine ⟨rfl, rfl, rfl, rfl, hwithin.opened, hwithin.next.ge, fun b _ => ?_, fun b hb => ?_,
          fun b _ => congrFun hwithin.live b⟩
        · exact congrFun hwithin.value b
        · refine hwithin.pointer _ (by simp) fun c hc heq => hb ?_
          injection heq with heq
          exact heq ▸ List.mem_cons_of_mem _ hc

/-- `pool_free` takes an object of its caller. -/
lemma poolFree_spec (h : Sound o f L s) (ha : o a = some .caller) :
    ∃ v f' s', s.poolFree a = some s' ∧ (∀ q, v ≠ some (.queue q)) ∧ v ≠ some .caller ∧
      v ≠ some .lost ∧ f' ⊆ a :: f ∧ Sound (Function.update o a v) f' L s' ∧
      Kept (a :: f) s s' := by
  have hlive : s.memory.live a = true := by simp [h.live, ha]
  have hnot := h.owned.notMem_lists (a := a) (by simp [ha]) (by simp [ha])
  have hlt : a < s.memory.next := h.lt_next (by simp [ha])
  rw [poolFree]
  by_cases hroom : s.currentFree < s.maxFree
  · rw [if_pos hroom]
    obtain ⟨m, hinsert, hwithin, hholds⟩ :=
      h.holds.listInsertHead (k := none) rfl (by simp [tails]) hlive hnot
    rw [update_lists_none] at hholds
    refine ⟨some .pool, a :: f, { s with memory := m, currentFree := s.currentFree + 1 }, ?_,
      by simp, by simp, by simp, List.Subset.refl _, ⟨hholds, h.owned.give ha, ?_, ?_, ?_, ?_⟩, ?_⟩
    · rw [hinsert]
      rfl
    · rw [hwithin.live]
      exact isSome_update h.live hlive rfl
    · rw [hwithin.next]
      exact fresh_update h.fresh hlt
    · simp [h.free]
    · rw [h.free] at hroom
      exact hroom
    · refine ⟨rfl, rfl, rfl, rfl, hwithin.opened, hwithin.next.ge, fun b _ => ?_, fun b hb => ?_,
        fun b _ => congrFun hwithin.live b⟩
      · exact congrFun hwithin.value b
      · refine hwithin.pointer _ (by simp) fun c hc heq => hb ?_
        injection heq with heq
        exact heq ▸ hc
  · rw [if_neg hroom]
    obtain ⟨m, hfree, hm, hholds⟩ := h.holds.free hlive hnot
    subst hm
    refine ⟨none, f,
      { s with memory := { s.memory with live := Function.update s.memory.live a false } },
      by rw [hfree]; rfl, by simp, by simp, by simp, List.subset_cons_self _ _,
      ⟨hholds, h.owned.pass (by simp [ha]) (by simp [ha]) (by simp) (by simp), fun b => ?_,
        fresh_update h.fresh hlt, h.free, h.max⟩, ?_⟩
    · by_cases hb : b = a
      · simp [hb]
      · simpa [hb] using h.live b
    · refine ⟨rfl, rfl, rfl, rfl, rfl, Nat.le_refl _, fun _ _ => rfl, fun _ _ => rfl,
        fun b hb => ?_⟩
      exact Function.update_of_ne (List.ne_of_not_mem_cons hb) _ _

/-! ### The functions of the queues -/

/-- A queue gets an object of the caller at its end. -/
lemma insertTail_spec (h : Sound o f L s) (ha : o a = some .caller) (hq : L q = some l) :
    ∃ m, s.memory.tailqInsertTail (some q) a = some m ∧
      Sound (Function.update o a (some (.queue q))) f (Function.update L q (some (l ++ [a])))
        { s with memory := m } ∧ m.value = s.memory.value ∧ m.opened = s.memory.opened ∧
      m.next = s.memory.next := by
  have hlive : s.memory.live a = true := by simp [h.live, ha]
  have hlt : a < s.memory.next := h.lt_next (by simp [ha])
  obtain ⟨m, hinsert, hwithin, hholds⟩ := h.holds.tailqInsertTail (k := some q) hq rfl hlive
    (h.owned.notMem_lists (by simp [ha]) (by simp [ha]))
  rw [update_lists_some] at hholds
  refine ⟨m, hinsert, ⟨hholds, h.owned.push ha hq, ?_, ?_, h.free, h.max⟩, hwithin.value,
    hwithin.opened, hwithin.next⟩
  · rw [hwithin.live]
    exact isSome_update h.live hlive rfl
  · rw [hwithin.next]
    exact fresh_update h.fresh hlt

/-- A queue gives an item back to the caller. -/
lemma tailqRemove_spec (h : Sound o f L s) (hq : L q = some (l₁ ++ a :: l₂)) :
    ∃ m, s.memory.tailqRemove (some q) a = some m ∧
      Sound (Function.update o a (some .caller)) f (Function.update L q (some (l₁ ++ l₂)))
        { s with memory := m } ∧ m.value = s.memory.value ∧ m.opened = s.memory.opened ∧
      m.next = s.memory.next := by
  have ha : o a = some (.queue q) := (h.owned.queue a q).mpr ⟨_, hq, by simp⟩
  have hlive : s.memory.live a = true := by simp [h.live, ha]
  have hlt : a < s.memory.next := h.lt_next (by simp [ha])
  obtain ⟨m, hremove, hwithin, hholds⟩ := h.holds.tailqRemove (k := some q) hq rfl
  rw [update_lists_some] at hholds
  refine ⟨m, hremove, ⟨hholds, h.owned.remove hq (h.nodup_queue hq), ?_, ?_, h.free, h.max⟩,
    hwithin.value, hwithin.opened, hwithin.next⟩
  · rw [hwithin.live]
    exact isSome_update h.live hlive rfl
  · rw [hwithin.next]
    exact fresh_update h.fresh hlt

end Pools

end Zerogw
