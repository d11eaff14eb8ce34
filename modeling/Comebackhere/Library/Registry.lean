import Mathlib.Algebra.BigOperators.Finprod

/-!
# Registries of weights

A registry is a weight for every key, kept with a list of keys that names no key twice and names
every key of positive weight. The invariant is part of the type: assigning a weight, replacing a
key by another and starting from a list of distinct keys give registries again. The weights over
the list then add up to the weights over all keys.

## Main definitions

* `Registry α`: weights and the list of their keys
* `Registry.ofList`, `Registry.assign`, `Registry.replace`: the operations
* `Registry.total`: the sum of the weights over the list

## Main results

* `Registry.total_eq_finsum`: the total is the sum of the weights over all keys
* `Registry.total_assign`, `Registry.total_replace`: how the operations change the total
-/

/-- Weights, with a duplicate-free list of keys that covers the positive ones. -/
structure Registry (α : Type*) where
  weight : α → ℕ
  keys : List α
  nodup : keys.Nodup
  covers : ∀ a, weight a ≠ 0 → a ∈ keys

namespace Registry

variable {α : Type*}

/-- The registry without keys. -/
def empty : Registry α := ⟨fun _ => 0, [], List.nodup_nil, fun _ h => absurd rfl h⟩

/-- The sum of the weights over the list of keys. -/
def total (R : Registry α) : ℕ := (R.keys.map R.weight).sum

@[simp] theorem total_empty : (empty : Registry α).total = 0 := rfl

theorem finite_support (R : Registry α) : (Function.support R.weight).Finite :=
  R.keys.finite_toSet.subset fun a ha => R.covers a ha

/-- **The weights over the list add up to the weights over all keys.** -/
theorem total_eq_finsum (R : Registry α) : R.total = ∑ᶠ a, R.weight a := by
  classical
  rw [total, ← List.sum_toFinset _ R.nodup]
  refine (finsum_eq_sum_of_support_subset _ fun a ha => ?_).symm
  simpa using R.covers a ha

/-- Dropping the keys of weight zero does not change the total. -/
theorem sum_positive (R : Registry α) :
    ((R.keys.filter fun a => 0 < R.weight a).map R.weight).sum = R.total := by
  -- the induction is over the list of keys, for which the registry's invariant is not needed
  unfold total
  induction R.keys with
  | nil => rfl
  | cons a keys ih =>
    by_cases h : 0 < R.weight a
    · simp [h, ih]
    · simp [Nat.eq_zero_of_not_pos h, ih]

variable [DecidableEq α]

/-- Changing one weight changes the sum of a finitely supported function by the difference. -/
theorem finsum_update {f : α → ℕ} (hf : (Function.support f).Finite) (a : α) (n : ℕ) :
    (∑ᶠ b, Function.update f a n b) + f a = (∑ᶠ b, f b) + n := by
  -- both sums are over the finite set of the old keys and `a`
  have hsub : Function.support f ⊆ ↑(insert a hf.toFinset) := fun b hb =>
    Finset.mem_coe.mpr (Finset.mem_insert_of_mem (hf.mem_toFinset.mpr hb))
  have hsub' : Function.support (Function.update f a n) ⊆ ↑(insert a hf.toFinset) := by
    intro b hb
    by_cases h : b = a
    · simp [h]
    · apply hsub
      simpa [Function.update_of_ne h] using hb
  rw [finsum_eq_sum_of_support_subset _ hsub, finsum_eq_sum_of_support_subset _ hsub',
    Finset.sum_update_of_mem (Finset.mem_insert_self _ _), ← Finset.sum_sdiff
      (Finset.singleton_subset_iff.mpr (Finset.mem_insert_self a hf.toFinset)) (f := f)]
  simp [add_comm, add_left_comm]

/-! ## Operations -/

/-- Append `a` to a list of keys unless it is listed. -/
def insertKey (keys : List α) (a : α) : List α := if a ∈ keys then keys else keys ++ [a]

theorem nodup_insertKey {keys : List α} (h : keys.Nodup) (a : α) : (insertKey keys a).Nodup := by
  unfold insertKey
  split
  · exact h
  · next ha => exact List.nodup_append.mpr ⟨h, List.nodup_singleton a, by grind⟩

theorem mem_insertKey {keys : List α} {a b : α} : b ∈ insertKey keys a ↔ b = a ∨ b ∈ keys := by
  unfold insertKey
  split
  · next h => exact ⟨Or.inr, fun hb => hb.elim (fun he => he ▸ h) id⟩
  · simp [or_comm]

theorem filter_insertKey (keys : List α) (a : α) :
    (insertKey keys a).filter (· ≠ a) = keys.filter (· ≠ a) := by
  unfold insertKey
  split <;> simp

/-- After a key of a list is given a weight, the list's weights are this weight and those of the
other keys. -/
theorem sum_insertKey_update {keys : List α} (h : keys.Nodup) (f : α → ℕ) (a : α) (n : ℕ) :
    ((insertKey keys a).map (Function.update f a n)).sum =
      ((keys.filter (· ≠ a)).map f).sum + n := by
  have hcount : ∀ l : List α, (l.map (Function.update f a n)).sum =
      ((l.filter (· ≠ a)).map f).sum + l.count a * n := by
    intro l
    induction l with
    | nil => simp
    | cons b l ih =>
      by_cases hb : b = a
      · simp [hb, ih, Nat.succ_mul]
        omega
      · simp [hb, ih, Nat.add_assoc]
  have hone : (insertKey keys a).count a = 1 :=
    List.count_eq_one_of_mem (nodup_insertKey h a) (mem_insertKey.mpr (Or.inl rfl))
  rw [hcount, hone, Nat.one_mul, filter_insertKey]

/-- Give the key `a` the weight `n`. -/
def assign (R : Registry α) (a : α) (n : ℕ) : Registry α where
  weight := Function.update R.weight a n
  keys := insertKey R.keys a
  nodup := nodup_insertKey R.nodup a
  covers b hb := by
    by_cases h : b = a
    · exact mem_insertKey.mpr (Or.inl h)
    · rw [Function.update_of_ne h] at hb
      exact mem_insertKey.mpr (Or.inr (R.covers b hb))

/-- **Assigning a weight** changes the total by the new weight minus the old. -/
theorem total_assign (R : Registry α) (a : α) (n : ℕ) :
    (R.assign a n).total + R.weight a = R.total + n := by
  rw [total_eq_finsum, total_eq_finsum]
  exact finsum_update R.finite_support a n

/-- Remove the key `old` and give `new` the weight `n`. -/
def replace (R : Registry α) (old new : α) (n : ℕ) : Registry α where
  weight := Function.update (Function.update R.weight old 0) new n
  keys := insertKey (R.keys.filter (· ≠ old)) new
  nodup := nodup_insertKey (R.nodup.filter _) new
  covers b hb := by
    by_cases hn : b = new
    · exact mem_insertKey.mpr (Or.inl hn)
    · rw [Function.update_of_ne hn] at hb
      have ho : b ≠ old := fun ho => hb (by simp [ho])
      rw [Function.update_of_ne ho] at hb
      exact mem_insertKey.mpr (Or.inr (List.mem_filter.mpr ⟨R.covers b hb, by simpa using ho⟩))

/-- **Replacing a key** by one without weight, or by itself, changes the total by the new weight
minus the weight of the key replaced. -/
theorem total_replace (R : Registry α) {old new : α} (h : new = old ∨ R.weight new = 0) (n : ℕ) :
    (R.replace old new n).total + R.weight old = R.total + n := by
  have hfin : (Function.support (Function.update R.weight old 0)).Finite :=
    R.finite_support.subset fun b hb => by
      by_cases ho : b = old
      · simp [ho] at hb
      · simpa [Function.update_of_ne ho] using hb
  have hzero : Function.update R.weight old 0 new = 0 := by
    by_cases ho : new = old
    · simp [ho]
    · simpa [Function.update_of_ne ho] using h.resolve_left ho
  -- `old` loses its weight first; `new` then has weight zero, also when it is `old`
  have h₁ := finsum_update R.finite_support old 0
  have h₂ := finsum_update hfin new n
  rw [hzero] at h₂
  rw [total_eq_finsum, total_eq_finsum]
  simp only [replace]
  omega

/-- The weights of a list of keys, each with its weight: a later entry overrides. -/
def weightsOf (entries : List (α × ℕ)) : α → ℕ :=
  entries.foldl (fun f p => Function.update f p.1 p.2) fun _ => 0

theorem foldl_update_of_notMem {β : Type*} (entries : List (α × β)) (f : α → β) {a : α}
    (h : a ∉ entries.map Prod.fst) :
    entries.foldl (fun f p => Function.update f p.1 p.2) f a = f a := by
  induction entries generalizing f with
  | nil => rfl
  | cons p entries ih =>
    simp only [List.map_cons, List.mem_cons, not_or] at h
    rw [List.foldl_cons, ih _ h.2, Function.update_of_ne h.1]

theorem foldl_update_of_mem {β : Type*} {entries : List (α × β)}
    (h : (entries.map Prod.fst).Nodup) {p : α × β} (hp : p ∈ entries) (f : α → β) :
    entries.foldl (fun f p => Function.update f p.1 p.2) f p.1 = p.2 := by
  induction entries generalizing f with
  | nil => simp at hp
  | cons q entries ih =>
    obtain ⟨hq, hnd⟩ := List.nodup_cons.mp h
    rcases List.mem_cons.mp hp with rfl | hp
    · -- no later entry has the key
      rw [List.foldl_cons, foldl_update_of_notMem _ _ hq, Function.update_self]
    · exact ih hnd hp _

/-- The registry of a list of distinct keys with their weights. -/
def ofList (entries : List (α × ℕ)) (h : (entries.map Prod.fst).Nodup) : Registry α where
  weight := weightsOf entries
  keys := entries.map Prod.fst
  nodup := h
  covers a ha := by
    by_contra hn
    exact ha (foldl_update_of_notMem entries _ hn)

theorem total_ofList (entries : List (α × ℕ)) (h : (entries.map Prod.fst).Nodup) :
    (ofList entries h).total = (entries.map Prod.snd).sum := by
  -- the weights the loop starts from are overridden for every listed key, so they are general
  suffices ∀ f : α → ℕ,
      ((entries.map Prod.fst).map (entries.foldl (fun f p => Function.update f p.1 p.2) f)).sum =
        (entries.map Prod.snd).sum from this _
  induction entries with
  | nil => simp
  | cons p entries ih =>
    intro f
    obtain ⟨hp, hnd⟩ := List.nodup_cons.mp h
    simp only [List.map_cons, List.foldl_cons, List.sum_cons]
    rw [foldl_update_of_notMem _ _ hp, Function.update_self, ih hnd]

end Registry
