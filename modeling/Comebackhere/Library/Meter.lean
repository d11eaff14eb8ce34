import Mathlib.Algebra.Order.BigOperators.Group.List
import Mathlib.Algebra.Order.Group.Nat
import Mathlib.Algebra.Ring.Nat

/-!
# Meters

A meter admits amounts up to a limit per window of time. A window opens with an amount that finds
none open, and lapses `width` later, so the windows lie on no grid: there may be any time between
two of them.

## Main definitions

* `Booking`: an amount that was admitted, with the start of its window
* `current width last now`: the window that an amount at `now` is booked in
* `Metered width limit l last`: the bookings `l` kept the limit and left the window `last`

## Main results

* `Metered.book`: what one more booking within the limit keeps
* `Metered.total_during_le`: an interval of one width has bookings of at most two windows
-/

namespace Meter

/-- A window: when it opened, and what was admitted in it. -/
structure Window where
  start : ℕ
  spent : ℕ

/-- An amount that was admitted at a time, in the window that started at `window`. -/
structure Booking where
  window : ℕ
  time : ℕ
  amount : ℕ

def total (l : List Booking) : ℕ := (l.map Booking.amount).sum

/-- The bookings in one window. -/
def inWindow (start : ℕ) (l : List Booking) : List Booking := l.filter fun b => b.window = start

/-- The bookings in a half-open interval of time. -/
def during (t n : ℕ) (l : List Booking) : List Booking :=
  l.filter fun b => t ≤ b.time ∧ b.time < t + n

/-- The window that an amount at `now` is booked in: the last one, until it has lapsed. -/
def current (width : ℕ) (last : Option Window) (now : ℕ) : Window :=
  match last with
  | some w => if now - w.start < width then w else ⟨now, 0⟩
  | none => ⟨now, 0⟩

variable {width limit now amount : ℕ} {l : List Booking} {last : Option Window}

theorem current_cases (width : ℕ) (last : Option Window) (now : ℕ) :
    (∃ w, last = some w ∧ current width last now = w) ∨
      (∀ w, last = some w → width ≤ now - w.start) ∧ current width last now = ⟨now, 0⟩ := by
  cases last with
  | none => exact Or.inr ⟨by simp, rfl⟩
  | some w =>
    by_cases h : now - w.start < width
    · exact Or.inl ⟨w, rfl, if_pos h⟩
    · exact Or.inr ⟨by simpa using h, if_neg h⟩

theorem total_inWindow_snoc (start : ℕ) (b : Booking) :
    total (inWindow start (l ++ [b])) =
      total (inWindow start l) + if b.window = start then b.amount else 0 := by
  by_cases h : b.window = start <;> simp [total, inWindow, h]

/-! ## Bookings within the limit -/

/-- Of two bookings the later one is in the same window, or in one that opened after the earlier
booking and at least `width` after its window. -/
def Later (width : ℕ) (a b : Booking) : Prop :=
  b.window = a.window ∨
    (a.time ≤ b.window ∧ a.window + width ≤ b.window ∧ b.window ≤ b.time)

/-- The bookings kept the limit in every window, and left the window `last`. -/
structure Metered (width limit : ℕ) (l : List Booking) (last : Option Window) : Prop where
  later : l.Pairwise (Later width)
  opened : ∀ a ∈ l, ∃ w, last = some w ∧ (a.window = w.start ∨
    (a.time ≤ w.start ∧ a.window + width ≤ w.start ∧ ∃ b ∈ l, w.start ≤ b.time))
  spent : ∀ w, last = some w → total (inWindow w.start l) ≤ w.spent
  limited : ∀ start, total (inWindow start l) ≤ limit

/-- A meter may start with any window left over from before. -/
theorem metered_nil (width limit : ℕ) (last : Option Window) : Metered width limit [] last :=
  ⟨List.Pairwise.nil, by simp, by simp [total, inWindow], by simp [total, inWindow]⟩

/-- A booking in the last window. -/
theorem Metered.book_open {w : Window} (hm : Metered width limit l (some w))
    (hnow : ∀ a ∈ l, a.time ≤ now) (hlimit : w.spent + amount ≤ limit) :
    Metered width limit (l ++ [⟨w.start, now, amount⟩]) (some ⟨w.start, w.spent + amount⟩) := by
  have hspent := hm.spent w rfl
  constructor
  · refine List.pairwise_append.mpr ⟨hm.later, List.pairwise_singleton .., ?_⟩
    intro a ha b hb
    obtain rfl := List.mem_singleton.mp hb
    obtain ⟨w', hw', ho⟩ := hm.opened a ha
    obtain rfl := Option.some.inj hw'
    -- the last window was opened by a booking, unless `a` is in it
    rcases ho with ho | ⟨htime, hwidth, b, hb, hle⟩
    · exact Or.inl ho.symm
    · exact Or.inr ⟨htime, hwidth, hle.trans (hnow b hb)⟩
  · intro a ha
    refine ⟨_, rfl, ?_⟩
    rcases List.mem_append.mp ha with ha | ha
    · obtain ⟨w', hw', ho⟩ := hm.opened a ha
      obtain rfl := Option.some.inj hw'
      rcases ho with ho | ⟨htime, hwidth, b, hb, hle⟩
      · exact Or.inl ho
      · exact Or.inr ⟨htime, hwidth, b, List.mem_append_left _ hb, hle⟩
    · obtain rfl := List.mem_singleton.mp ha
      exact Or.inl rfl
  · intro w' hw'
    obtain rfl := Option.some.inj hw'
    rw [total_inWindow_snoc, if_pos rfl]
    exact Nat.add_le_add_right hspent amount
  · intro start
    rw [total_inWindow_snoc]
    split
    · next h =>
      have hstart : start = w.start := h.symm
      rw [hstart]
      exact (Nat.add_le_add_right hspent amount).trans hlimit
    · exact hm.limited start

/-- A booking that opens a window, as the last one has lapsed. -/
theorem Metered.book_new (hm : Metered width limit l last) (hwidth : 0 < width)
    (hlapsed : ∀ w, last = some w → width ≤ now - w.start) (hnow : ∀ a ∈ l, a.time ≤ now)
    (hlimit : amount ≤ limit) :
    Metered width limit (l ++ [⟨now, now, amount⟩]) (some ⟨now, amount⟩) := by
  have hbefore : ∀ a ∈ l, a.window + width ≤ now := by
    intro a ha
    obtain ⟨w, hw, ho⟩ := hm.opened a ha
    have := hlapsed w hw
    rcases ho with ho | ⟨-, hle, -⟩ <;> omega
  have hnone : total (inWindow now l) = 0 := by
    have hnil : inWindow now l = [] := by
      apply List.filter_eq_nil_iff.mpr
      intro a ha
      have := hbefore a ha
      simp only [decide_eq_true_eq]
      omega
    rw [hnil]
    rfl
  have htotal : ∀ start, total (inWindow start (l ++ [⟨now, now, amount⟩])) =
      if now = start then amount else total (inWindow start l) := by
    intro start
    rw [total_inWindow_snoc]
    split
    · next h => rw [← h, hnone, Nat.zero_add]
    · rfl
  constructor
  · refine List.pairwise_append.mpr ⟨hm.later, List.pairwise_singleton .., ?_⟩
    intro a ha b hb
    obtain rfl := List.mem_singleton.mp hb
    exact Or.inr ⟨hnow a ha, hbefore a ha, le_rfl⟩
  · intro a ha
    refine ⟨_, rfl, ?_⟩
    rcases List.mem_append.mp ha with ha | ha
    · exact Or.inr ⟨hnow a ha, hbefore a ha, ⟨now, now, amount⟩, by simp, le_rfl⟩
    · obtain rfl := List.mem_singleton.mp ha
      exact Or.inl rfl
  · intro w hw
    obtain rfl := Option.some.inj hw
    exact (htotal now).trans_le (if_pos rfl).le
  · intro start
    rw [htotal]
    split
    · exact hlimit
    · exact hm.limited start

/-- **A booking within the limit** keeps the limit. -/
theorem Metered.book (hm : Metered width limit l last) (hwidth : 0 < width)
    (hnow : ∀ a ∈ l, a.time ≤ now) (hlimit : (current width last now).spent + amount ≤ limit) :
    Metered width limit (l ++ [⟨(current width last now).start, now, amount⟩])
      (some ⟨(current width last now).start, (current width last now).spent + amount⟩) := by
  rcases current_cases width last now with ⟨w, rfl, hw⟩ | ⟨hlapsed, hw⟩
  · rw [hw] at hlimit ⊢
    exact hm.book_open hnow hlimit
  · rw [hw, Nat.zero_add] at hlimit ⊢
    exact hm.book_new hwidth hlapsed hnow hlimit

/-! ## Intervals -/

theorem total_filter_add (p : Booking → Bool) (l : List Booking) :
    total (l.filter p) + total (l.filter fun b => !p b) = total l := by
  have hsum := ((List.filter_append_perm p l).map Booking.amount).sum_eq
  rwa [List.map_append, List.sum_append] at hsum

theorem total_le_of_sublist {l' : List Booking} (h : l'.Sublist l) : total l' ≤ total l :=
  (h.map Booking.amount).sum_le_sum fun _ _ => Nat.zero_le _

/-- In an interval of one width, the bookings behind the first one that are in another window are
all in the same one: a third window would open after the interval. -/
theorem window_eq_of_during {t : ℕ} {a b c : Booking} (hab : Later width a b)
    (hac : Later width a c) (hbc : Later width b c) (ha : t ≤ a.time) (hc : c.time < t + width)
    (hb : b.window ≠ a.window) (hca : c.window ≠ a.window) : c.window = b.window := by
  rcases hbc with hbc | ⟨-, hwidth, htime⟩
  · exact hbc
  · have hopen := (hab.resolve_left hb).1
    have := (hac.resolve_left hca).2.2
    omega

/-- **An interval of one width** has bookings of at most two windows. -/
theorem Metered.total_during_le (hm : Metered width limit l last) (t : ℕ) :
    total (during t width l) ≤ 2 * limit := by
  have hsub : (during t width l).Sublist l := List.filter_sublist
  have hlater := hm.later.sublist hsub
  have hin : ∀ b ∈ during t width l, t ≤ b.time ∧ b.time < t + width := by
    intro b hb
    simpa using (List.mem_filter.mp hb).2
  have hwindow : ∀ start, total (inWindow start (during t width l)) ≤ limit := fun start =>
    (total_le_of_sublist (hsub.filter _)).trans (hm.limited start)
  generalize during t width l = d at hlater hin hwindow
  cases d with
  | nil => exact Nat.zero_le _
  | cons a d =>
    obtain ⟨ha, hlater⟩ := List.pairwise_cons.mp hlater
    rw [← total_filter_add (fun b => b.window = a.window), Nat.two_mul]
    apply Nat.add_le_add (hwindow a.window)
    -- the bookings outside the first one's window
    cases hrest : (a :: d).filter fun b => !decide (b.window = a.window) with
    | nil => exact Nat.zero_le _
    | cons b rest =>
      have hmem : ∀ c ∈ b :: rest, c ∈ d ∧ c.window ≠ a.window := by
        intro c hc
        rw [← hrest] at hc
        obtain ⟨hc, hne⟩ := List.mem_filter.mp hc
        have hne : c.window ≠ a.window := by simpa using hne
        exact ⟨(List.mem_cons.mp hc).resolve_left fun he => hne (he ▸ rfl), hne⟩
      have hrestLater : (b :: rest).Pairwise (Later width) := by
        rw [← hrest]
        exact (List.pairwise_cons.mpr ⟨ha, hlater⟩).sublist List.filter_sublist
      have hsame : ∀ c ∈ b :: rest, c.window = b.window := by
        intro c hc
        rcases List.mem_cons.mp hc with rfl | hc'
        · rfl
        · obtain ⟨hbd, hb⟩ := hmem b List.mem_cons_self
          obtain ⟨hcd, hca⟩ := hmem c hc
          exact window_eq_of_during (ha b hbd) (ha c hcd)
            ((List.pairwise_cons.mp hrestLater).1 c hc') (hin a List.mem_cons_self).1
            (hin c (List.mem_cons_of_mem a hcd)).2 hb hca
      have hall : inWindow b.window (b :: rest) = b :: rest :=
        List.filter_eq_self.mpr fun c hc => by simpa using hsame c hc
      calc total (b :: rest) = total (inWindow b.window (b :: rest)) := by rw [hall]
        _ ≤ total (inWindow b.window (a :: d)) := by
            rw [← hrest]
            exact total_le_of_sublist (List.filter_sublist.filter _)
        _ ≤ limit := hwindow b.window

end Meter
