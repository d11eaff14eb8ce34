import Comebackhere.Library.SlidingWindow

/-!
# Fixed windows

A counter admits up to a maximum of requests from the first one on, for the width of a window, and
then starts again with the next request. Two windows that follow each other may both be used up
around their boundary. A time of one width that begins within the first of them misses the request
that the window started with, so that it sees less than twice the maximum.

## Main definitions

* `Window`, `current width now window`: the window of a counter, and the one that a request comes in
* `Tracks width max log window`: the window counts the last of the admitted times

## Main results

* `Tracks.renew`, `Tracks.admit`: a window is renewed, and counts another time
* `Tracks.length_during_le`: no time of one width has twice the maximum
-/

namespace FixedWindow

open SlidingWindow (during)

variable {T : Type*} [AddCommMonoid T] [LinearOrder T] {width now t : T} {max : ℕ} {log : List T}

/-- A window, with the number of the times in it. -/
structure Window (T : Type*) where
  start : T
  count : ℕ

/-- The window that a request comes in: the last one, until it has passed. -/
def current (width now : T) : Option (Window T) → Window T
  | none => ⟨now, 0⟩
  | some window => if window.start + width ≤ now then ⟨now, 0⟩ else window

/-- The window counts the times of the log from its start on, which all are in it. -/
structure Tracks (width : T) (max : ℕ) (log : List T) (window : Window T) : Prop where
  inside : ∀ u ∈ log, u < window.start + width
  count : (log.filter (window.start ≤ ·)).length = window.count
  le : window.count ≤ max
  /-- A window that has been used started with the first time in it. -/
  first : 0 < window.count → window.start ∈ log
  /-- A time of one width that goes on into the window has less than the maximum before it. -/
  before : ∀ t, window.start < t + width →
    (log.filter fun u => t ≤ u ∧ u < window.start).length ≤ max - 1
  /-- A time of one width that has passed before the window has less than twice the maximum. -/
  passed : ∀ t, t + width ≤ window.start → (during t width log).length ≤ 2 * max - 1

variable {window : Window T}

/-- What meets one of two conditions is counted by one of them. -/
theorem length_filter_le_add {α : Type*} {p q r : α → Bool} (l : List α)
    (h : ∀ a ∈ l, p a = true → q a = true ∨ r a = true) :
    (l.filter p).length ≤ (l.filter q).length + (l.filter r).length := by
  induction l with
  | nil => simp
  | cons a l ih =>
    have hrest := ih fun b hb => h b (List.mem_cons_of_mem _ hb)
    have hhead := h a List.mem_cons_self
    cases hp : p a <;> cases hq : q a <;> cases hr : r a <;>
      simp [hp, hq, hr] at hhead ⊢ <;> omega

theorem tracks_nil : Tracks width max [] ⟨now, 0⟩ where
  inside := by simp
  count := rfl
  le := Nat.zero_le _
  first h := absurd h (lt_irrefl 0)
  before := by simp
  passed := by simp

/-- **No time of one width has twice the maximum**, wherever it begins. -/
theorem Tracks.length_during_le (h : Tracks width max log window) (t : T) :
    (during t width log).length ≤ 2 * max - 1 := by
  by_cases hpassed : t + width ≤ window.start
  · exact h.passed t hpassed
  · -- what is in it is before the window, or in the window
    have hsplit : (during t width log).length ≤
        (log.filter fun u => t ≤ u ∧ u < window.start).length +
          (log.filter (window.start ≤ ·)).length := by
      apply length_filter_le_add
      intro u _ hu
      simp only [decide_eq_true_eq] at hu ⊢
      rcases lt_or_ge u window.start with hlt | hge
      · exact Or.inl ⟨hu.1, hlt⟩
      · exact Or.inr hge
    have hbefore := h.before t (not_le.mp hpassed)
    have hcount := h.count
    have hle := h.le
    omega

/-- Less than the maximum of the times come after the start of the window. -/
theorem Tracks.length_after_le (h : Tracks width max log window) :
    (log.filter (window.start < ·)).length ≤ max - 1 := by
  have hsub : (log.filter (window.start < ·)).Sublist (log.filter (window.start ≤ ·)) := by
    apply List.monotone_filter_right
    intro u hu
    simpa using le_of_lt (by simpa using hu)
  have hcount := h.count
  have hle := h.le
  rcases Nat.eq_zero_or_pos window.count with hzero | hpos
  · have hlength := hsub.length_le
    omega
  · -- the first time in the window is its start
    have hne : log.filter (window.start < ·) ≠ log.filter (window.start ≤ ·) := by
      intro heq
      have hmem : window.start ∈ log.filter (window.start ≤ ·) := by simp [h.first hpos]
      simp [← heq] at hmem
    have hlt : (log.filter (window.start < ·)).length < (log.filter (window.start ≤ ·)).length :=
      lt_of_le_of_ne hsub.length_le fun heq => hne (hsub.eq_of_length heq)
    omega

/-- **A window that has passed is renewed**: none of the times is in the new one. -/
theorem Tracks.renew [IsOrderedAddMonoid T] (h : Tracks width max log window)
    (hnow : window.start + width ≤ now) (hwidth : now < now + width) :
    Tracks width max log ⟨now, 0⟩ where
  inside u hu := ((h.inside u hu).trans_le hnow).trans hwidth
  count := by
    rw [List.length_eq_zero_iff, List.filter_eq_nil_iff]
    intro u hu
    simpa using (h.inside u hu).trans_le hnow
  le := Nat.zero_le _
  first hpos := absurd hpos (lt_irrefl 0)
  before t ht := by
    -- a time of one width that goes on into the new window began in the last one, after its start
    have hstart : window.start < t := by
      by_contra hle
      have hadd := add_le_add_left (not_lt.mp hle) width
      exact absurd (hadd.trans hnow) (not_le.mpr ht)
    have hsub : (log.filter fun u => t ≤ u ∧ u < now).length ≤
        (log.filter (window.start < ·)).length := by
      apply List.Sublist.length_le
      apply List.monotone_filter_right
      intro u hu
      simp only [decide_eq_true_eq] at hu ⊢
      exact hstart.trans_le hu.1
    exact hsub.trans h.length_after_le
  passed t _ := h.length_during_le t

/-- **A window counts another time** that comes in it, the first of them at its start. -/
theorem Tracks.admit (h : Tracks width max log window) (hstart : window.start ≤ now)
    (hnow : now < window.start + width) (hroom : window.count < max)
    (hfirst : window.count = 0 → window.start = now) :
    Tracks width max (log ++ [now]) ⟨window.start, window.count + 1⟩ where
  inside u hu := by
    rcases List.mem_append.mp hu with hu | hu
    · exact h.inside u hu
    · exact List.mem_singleton.mp hu ▸ hnow
  count := by
    rw [List.filter_append, List.length_append, h.count]
    simp [hstart]
  le := hroom
  first _ := by
    rcases Nat.eq_zero_or_pos window.count with hzero | hpos
    · simp [hfirst hzero]
    · exact List.mem_append_left _ (h.first hpos)
  before t ht := by
    have hnot : ¬ now < window.start := not_lt.mpr hstart
    simpa [List.filter_append, hnot] using h.before t ht
  passed t ht := by
    have hnot : ¬ now < t + width := not_lt.mpr (ht.trans hstart)
    simpa [during, List.filter_append, hnot] using h.passed t ht

/-- The window that a request comes in counts the same times. -/
theorem tracks_current [IsOrderedAddMonoid T] (hwidth : now < now + width)
    {last : Option (Window T)} (hnone : last = none → log = [])
    (hsome : ∀ window, last = some window → Tracks width max log window) :
    Tracks width max log (current width now last) := by
  cases last with
  | none =>
    rw [hnone rfl]
    exact tracks_nil
  | some window =>
    rw [current]
    split
    · next hpassed => exact (hsome window rfl).renew hpassed hwidth
    · exact hsome window rfl

end FixedWindow
