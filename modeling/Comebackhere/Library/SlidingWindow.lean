import Mathlib.Algebra.Order.Monoid.Defs
import Mathlib.Data.List.Basic
import Mathlib.Order.Basic

/-!
# Sliding windows

A limiter with a sliding window admits a request when fewer than a maximum of the requests admitted
before lie in the window that ends at it. To decide this it keeps only the recent ones: those it
drops are in no later window. The times that are admitted so have at most the maximum in any
window, wherever it begins.

## Main definitions

* `recent width now l`: the times of `l` in the window that ends at `now`
* `during t width l`: the times of `l` in the window that begins at `t`
* `Admissible width max l`: the times `l` are admitted one after the other

## Main results

* `recent_recent`: what was dropped earlier is not missed
* `length_recent_lt_iff`: the first of the times is the first to be dropped
* `Admissible.length_during_le`: no window has more than the maximum
* `Admissible.length_recent_le`: nor has the window that ends now
-/

namespace SlidingWindow

variable {T : Type*} [AddCommMonoid T] [LinearOrder T] {width now now' t : T} {max : ℕ}
  {l l' : List T}

/-! ## Windows -/

/-- The times of a log that lie less than `width` before `now`. -/
def recent (width now : T) (l : List T) : List T := l.filter fun t => now < t + width

/-- The times of a log in the half-open window of one width from `t` on. -/
def during (t width : T) (l : List T) : List T := l.filter fun u => t ≤ u ∧ u < t + width

@[simp] theorem recent_nil : recent width now [] = [] := rfl

@[simp] theorem during_nil : during t width [] = [] := rfl

theorem mem_recent : t ∈ recent width now l ↔ t ∈ l ∧ now < t + width := by
  simp [recent]

theorem recent_append : recent width now (l ++ l') = recent width now l ++ recent width now l' :=
  List.filter_append ..

theorem during_append : during t width (l ++ l') = during t width l ++ during t width l' :=
  List.filter_append ..

theorem recent_sublist : (recent width now l).Sublist l := List.filter_sublist

/-- **What was dropped earlier is not missed**: it is not recent later. -/
theorem recent_recent (h : now ≤ now') :
    recent width now' (recent width now l) = recent width now' l := by
  rw [recent, recent, recent, List.filter_filter]
  apply List.filter_congr
  intro t _
  rw [Bool.and_eq_left_iff_imp]
  simp only [decide_eq_true_eq]
  exact fun ht => h.trans_lt ht

/-- Of times in order all stay recent until the first one does not. -/
theorem length_recent_lt_iff [IsOrderedAddMonoid T] {first : T} (h : l.Pairwise (· ≤ ·))
    (hfirst : l.head? = some first) :
    (recent width now l).length < l.length ↔ first + width ≤ now := by
  obtain ⟨rest, rfl⟩ : ∃ rest, l = first :: rest := List.head?_eq_some_iff.mp hfirst
  rw [recent, List.length_filter_lt_length_iff_exists]
  constructor
  · rintro ⟨t, ht, hlate⟩
    simp only [decide_eq_true_eq, not_lt] at hlate
    rcases List.mem_cons.mp ht with rfl | ht
    · exact hlate
    · exact (add_le_add_left ((List.pairwise_cons.mp h).1 t ht) width).trans hlate
  · intro hle
    exact ⟨first, List.mem_cons_self, by simpa using hle⟩

/-! ## Admission -/

/-- Times that a limiter with a sliding window admits one after the other. -/
inductive Admissible (width : T) (max : ℕ) : List T → Prop
  | nil : Admissible width max []
  | snoc {l : List T} {now : T} (h : Admissible width max l) (hnow : ∀ t ∈ l, t ≤ now)
      (hroom : (recent width now l).length < max) : Admissible width max (l ++ [now])

/-- They are in order. -/
theorem Admissible.sorted (h : Admissible width max l) : l.Pairwise (· ≤ ·) := by
  induction h with
  | nil => exact List.Pairwise.nil
  | snoc _ hnow _ ih =>
    refine List.pairwise_append.mpr ⟨ih, List.pairwise_singleton .., ?_⟩
    intro t ht u hu
    exact (hnow t ht).trans_eq (List.mem_singleton.mp hu).symm

/-- The window that ends at a time of the log has no more than the maximum. -/
theorem Admissible.length_recent_le (h : Admissible width max l) (hnow : ∀ t ∈ l, t ≤ now) :
    (recent width now l).length ≤ max := by
  induction h with
  | nil => simp
  | @snoc l u h hu hroom ih =>
    have hle : u ≤ now := hnow u (by simp)
    have hsub : (recent width now l).length ≤ (recent width u l).length := by
      rw [← recent_recent hle]
      exact recent_sublist.length_le
    have hlast : (recent width now [u]).length ≤ 1 := recent_sublist.length_le
    rw [recent_append, List.length_append]
    omega

/-- **No window has more than the maximum**, wherever it begins. -/
theorem Admissible.length_during_le [IsOrderedAddMonoid T] (h : Admissible width max l) (t : T) :
    (during t width l).length ≤ max := by
  induction h with
  | nil => simp
  | @snoc l now h hnow hroom ih =>
    rw [during_append]
    by_cases hin : t ≤ now ∧ now < t + width
    · -- the window has begun before its last time, so that all its times are recent then
      have hsub : (during t width l).Sublist (recent width now l) := by
        rw [during, recent]
        apply List.monotone_filter_right
        intro u hu
        simp only [decide_eq_true_eq] at hu ⊢
        exact hin.2.trans_le (add_le_add_left hu.1 width)
      have hlast : (during t width [now]).length ≤ 1 := List.length_filter_le ..
      have hbefore := hsub.length_le
      rw [List.length_append]
      omega
    · have hlast : during t width [now] = [] := by
        simpa [during] using hin
      rw [hlast, List.append_nil]
      exact ih

end SlidingWindow
