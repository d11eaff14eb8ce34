import Mathlib.Algebra.Order.Group.Multiset
import Mathlib.Tactic.Abel

/-!
# A crew of workers

Any number of workers share a state, and each has a state of its own. One step of the system is a
step of one worker, which changes what that worker has in hand.

## Main definitions

* `Unique φ as`: at most one of the workers satisfies `φ`

## Main results

* `coe_flatMap_set`: what all workers hold together, when one of them puts something down for
  something else
* `forall_mem_set`: a property of every worker, when one of them changes
* `Unique.set`, `unique_set_of_none`, `Unique.concat`: when at most one worker stays at most one
* `Unique.forall_mem_set_not`: when that worker is none any more
-/

namespace Crew

variable {α β : Type*}

/-- What the workers hold after one of them has changed, against what they held. -/
theorem coe_flatMap_set (f : α → List β) {as : List α} {i : ℕ} {a : α} (h : as[i]? = some a)
    (b : α) : (((as.set i b).flatMap f : List β) : Multiset β) + (f a : Multiset β) =
      (as.flatMap f : Multiset β) + (f b : Multiset β) := by
  induction as generalizing i with
  | nil => simp at h
  | cons c as ih =>
    cases i with
    | zero =>
      obtain rfl : c = a := by simpa using h
      simp only [List.set_cons_zero, List.flatMap_cons, ← Multiset.coe_add]
      abel
    | succ i =>
      have ih := ih (by simpa using h)
      simp only [List.set_cons_succ, List.flatMap_cons, ← Multiset.coe_add, add_assoc, ih]

theorem forall_mem_set {P : α → Prop} {as : List α} (h : ∀ a ∈ as, P a) {b : α} (hb : P b)
    (i : ℕ) : ∀ a ∈ as.set i b, P a := by
  intro a ha
  rcases List.mem_or_eq_of_mem_set ha with ha | rfl
  · exact h a ha
  · exact hb

/-- A worker is there after another has changed. -/
theorem mem_set_or {as : List α} {a : α} (h : a ∈ as) (i : ℕ) (b : α) :
    a ∈ as.set i b ∨ as[i]? = some a := by
  obtain ⟨j, hj⟩ := List.mem_iff_getElem?.mp h
  by_cases hij : i = j
  · rw [hij]
    exact Or.inr hj
  · refine Or.inl (List.mem_iff_getElem?.mpr ⟨j, ?_⟩)
    rw [List.getElem?_set_ne hij, hj]

/-- A worker is there after another has left. -/
theorem mem_eraseIdx_or {as : List α} {a : α} (h : a ∈ as) (i : ℕ) :
    a ∈ as.eraseIdx i ∨ as[i]? = some a := by
  obtain ⟨j, hj⟩ := List.mem_iff_getElem?.mp h
  by_cases hij : j = i
  · rw [← hij]
    exact Or.inr hj
  · exact Or.inl (List.mem_eraseIdx_iff_getElem?.mpr ⟨j, hij, hj⟩)

/-! ## At most one -/

/-- At most one of the workers satisfies `φ`. -/
def Unique (φ : α → Prop) (as : List α) : Prop :=
  ∀ (i j : ℕ) (a b : α), as[i]? = some a → as[j]? = some b → φ a → φ b → i = j

section Unique

variable {φ : α → Prop} {as : List α} {i : ℕ} {b : α}

theorem unique_nil : Unique φ ([] : List α) := by
  intro i j a b ha
  simp at ha

/-- A worker of the list that has changed, or one that has not. -/
theorem getElem?_set_eq_some {j : ℕ} {c : α} (h : (as.set i b)[j]? = some c) :
    (j = i ∧ c = b) ∨ (j ≠ i ∧ as[j]? = some c) := by
  rw [List.getElem?_set] at h
  split at h
  · next hij =>
    split at h
    · exact Or.inl ⟨hij.symm, (Option.some.inj h).symm⟩
    · simp at h
  · next hij => exact Or.inr ⟨fun he => hij he.symm, h⟩

/-- A worker goes on that satisfies `φ` already, or that will not. -/
theorem Unique.set (h : Unique φ as) {a : α} (ha : as[i]? = some a) (hφ : φ b → φ a) :
    Unique φ (as.set i b) := by
  intro j k c d hc hd hφc hφd
  rcases getElem?_set_eq_some hc with ⟨hj, rfl⟩ | ⟨hj, hc⟩ <;>
    rcases getElem?_set_eq_some hd with ⟨hk, hdb⟩ | ⟨hk, hd⟩
  · rw [hj, hk]
  · exact absurd (h k i d a hd ha hφd (hφ hφc)) hk
  · exact absurd (h j i c a hc ha hφc (hφ (hdb ▸ hφd))) hj
  · exact h j k c d hc hd hφc hφd

/-- A worker comes to satisfy `φ` when no other does. -/
theorem unique_set_of_none (h : ∀ a ∈ as, ¬ φ a) : Unique φ (as.set i b) := by
  intro j k c d hc hd hφc hφd
  rcases getElem?_set_eq_some hc with ⟨hj, -⟩ | ⟨-, hc⟩
  · rcases getElem?_set_eq_some hd with ⟨hk, -⟩ | ⟨-, hd⟩
    · rw [hj, hk]
    · exact absurd hφd (h d (List.mem_of_getElem? hd))
  · exact absurd hφc (h c (List.mem_of_getElem? hc))

/-- The only worker that satisfies `φ` ceases to. -/
theorem Unique.forall_mem_set_not (h : Unique φ as) {a : α} (ha : as[i]? = some a) (hφ : φ a)
    (hb : ¬ φ b) : ∀ c ∈ as.set i b, ¬ φ c := by
  intro c hc hφc
  obtain ⟨j, hj⟩ := List.mem_iff_getElem?.mp hc
  rcases getElem?_set_eq_some hj with ⟨-, rfl⟩ | ⟨hne, hj⟩
  · exact hb hφc
  · exact hne (h j i c a hj ha hφc hφ)

/-- A worker joins that does not satisfy `φ`. -/
theorem Unique.concat (h : Unique φ as) (hb : ¬ φ b) : Unique φ (as ++ [b]) := by
  have key : ∀ (j : ℕ) (c : α), (as ++ [b])[j]? = some c → φ c → as[j]? = some c := by
    intro j c hc hφ
    rcases lt_or_ge j as.length with hj | hj
    · rwa [List.getElem?_append_left hj] at hc
    · rw [List.getElem?_append_right hj, List.getElem?_singleton] at hc
      split at hc
      · obtain rfl := Option.some.inj hc
        exact absurd hφ hb
      · simp at hc
  intro j k c d hc hd hφc hφd
  exact h j k c d (key j c hc hφc) (key k d hd hφd) hφc hφd

end Unique

end Crew
