import Mathlib.Algebra.Order.Floor.Ring
import Mathlib.Algebra.BigOperators.Group.Finset.Basic
import Mathlib.Algebra.Order.Ring.Int
import Mathlib.Data.Int.ConditionallyCompleteOrder
import Mathlib.Data.Int.Interval
import Mathlib.Order.GaloisConnection.Basic

/-!
# Grids

A grid divides a linear order into cells that are numbered by the integers, in order. A cell begins
at its first point and goes on up to the first point of the next. Where each cell begins and which
cell each point lies in are adjoint, and the grids of one order on the cells of another compose.

A walk goes from the first point of a cell to the first point of the next, as long as it has not
passed a last point. It visits the cells of the points up to there, each of them once.

## Main definitions

* `Grid α`: a division of `α` into cells
* `Grid.ofStrictMono`, `Grid.uniform`, `Grid.comp`: grids
* `Grid.floor t`: the first point of the cell of `t`
* `Grid.between s e`: the cells from that of `s` to that of `e`
* `Grid.walk last n k`: the first `n` cells from `k` on, as far as they begin by `last`

## Main results

* `Grid.walk_eq_between`: a walk with enough steps visits the cells of an interval
* `Grid.existsUnique_between`: every point of the interval lies in exactly one of them
* `Grid.card_image_floor`: there are as many of them as first points of cells of the interval
* `sum_countP_eq_length`: what is counted by its keys is counted once
-/

/-- A division of a linear order into cells numbered in order, by the point that each begins at and
the cell that each point lies in. -/
structure Grid (α : Type*) [LinearOrder α] where
  start : ℤ → α
  cell : α → ℤ
  gc : GaloisConnection start cell
  cell_start : ∀ k, cell (start k) = k

namespace Grid

variable {α : Type*} [LinearOrder α] (g : Grid α) {k k' : ℤ} {s e t last : α} {n : ℕ}

/-! ## Cells -/

theorem start_le_iff : g.start k ≤ t ↔ k ≤ g.cell t := g.gc k t

theorem lt_start_iff : t < g.start k ↔ g.cell t < k := by
  rw [← not_le, g.start_le_iff, not_le]

theorem start_strictMono : StrictMono g.start := by
  intro k k' h
  rw [g.lt_start_iff, g.cell_start]
  exact h

theorem start_inj : g.start k = g.start k' ↔ k = k' := g.start_strictMono.injective.eq_iff

theorem cell_mono (h : s ≤ e) : g.cell s ≤ g.cell e := g.gc.monotone_u h

/-- The first point of the cell of a point. -/
def floor (t : α) : α := g.start (g.cell t)

theorem floor_le : g.floor t ≤ t := g.gc.l_u_le t

theorem floor_eq_iff : g.floor t = g.start k ↔ g.cell t = k := g.start_inj

/-! ## Making grids -/

/-- A grid by where its cells begin. -/
def ofStrictMono (start : ℤ → α) (cell : α → ℤ) (hstart : StrictMono start)
    (hcell : ∀ t, start (cell t) ≤ t ∧ t < start (cell t + 1)) : Grid α where
  start := start
  cell := cell
  gc k t := by
    constructor
    · intro hle
      have hlt := hstart.lt_iff_lt.mp (hle.trans_lt (hcell t).2)
      omega
    · intro hle
      exact (hstart.monotone hle).trans (hcell t).1
  cell_start k := by
    have hle := hstart.le_iff_le.mp (hcell (start k)).1
    have hlt := hstart.lt_iff_lt.mp (hcell (start k)).2
    omega

/-- The cells of one width, the first of which begins at an offset. -/
def uniform (width : ℤ) (hwidth : 0 < width) (offset : ℤ) : Grid ℤ :=
  ofStrictMono (fun k => width * k + offset) (fun t => (t - offset) / width)
    (by
      refine strictMono_int_of_lt_succ fun k => ?_
      rw [mul_add]
      omega)
    (by
      intro t
      have hle := Int.mul_ediv_self_le (x := t - offset) hwidth.ne'
      have hlt := Int.lt_mul_ediv_self_add (x := t - offset) hwidth
      rw [mul_add]
      omega)

/-- The cells of `h`, made of the cells of `g`. -/
def comp (h : Grid ℤ) : Grid α where
  start k := g.start (h.start k)
  cell t := h.cell (g.cell t)
  gc := h.gc.compose g.gc
  cell_start k := by rw [g.cell_start, h.cell_start]

/-! ## Intervals -/

/-- The cells from that of `s` to that of `e`, in order. -/
def between (s e : α) : List ℤ :=
  (List.range (g.cell e + 1 - g.cell s).toNat).map fun i : ℕ => g.cell s + i

theorem mem_between : k ∈ g.between s e ↔ g.cell s ≤ k ∧ k ≤ g.cell e := by
  simp only [between, List.mem_map, List.mem_range]
  constructor
  · rintro ⟨i, hi, rfl⟩
    omega
  · rintro ⟨hs, he⟩
    exact ⟨(k - g.cell s).toNat, by omega, by omega⟩

theorem length_between : (g.between s e).length = (g.cell e + 1 - g.cell s).toNat := by
  simp [between]

theorem pairwise_between : (g.between s e).Pairwise (· < ·) := by
  rw [between, List.pairwise_map]
  exact List.pairwise_lt_range.imp fun h => by omega

theorem mem_between_cell (hs : s ≤ t) (he : t ≤ e) : g.cell t ∈ g.between s e :=
  g.mem_between.mpr ⟨g.cell_mono hs, g.cell_mono he⟩

/-- **Every point of an interval lies in exactly one of its cells.** -/
theorem existsUnique_between (hs : s ≤ t) (he : t ≤ e) :
    ∃! k, k ∈ g.between s e ∧ g.floor t = g.start k := by
  refine ⟨g.cell t, ⟨g.mem_between_cell hs he, rfl⟩, ?_⟩
  rintro k ⟨-, hfloor⟩
  exact (g.floor_eq_iff.mp hfloor).symm

/-- Every cell of an interval has a point of the interval. -/
theorem exists_floor_eq (hle : s ≤ e) (h : k ∈ g.between s e) :
    ∃ t, s ≤ t ∧ t ≤ e ∧ g.floor t = g.start k := by
  obtain ⟨hs, he⟩ := g.mem_between.mp h
  -- the first point of the cell, or the first of the interval
  rcases le_total s (g.start k) with hk | hk
  · exact ⟨g.start k, hk, g.start_le_iff.mpr he, by rw [floor, g.cell_start]⟩
  · have hcell : g.cell s = k := le_antisymm hs (g.start_le_iff.mp hk)
    exact ⟨s, le_rfl, hle, by rw [floor, hcell]⟩

/-- **An interval has as many cells** as there are first points of the cells of its points. -/
theorem card_image_floor [LocallyFiniteOrder α] (hle : s ≤ e) :
    ((Finset.Icc s e).image g.floor).card = (g.between s e).length := by
  have hcells : (Finset.Icc s e).image g.floor =
      (Finset.Icc (g.cell s) (g.cell e)).image g.start := by
    ext t
    simp only [Finset.mem_image, Finset.mem_Icc]
    constructor
    · rintro ⟨u, ⟨hs, he⟩, rfl⟩
      exact ⟨g.cell u, ⟨g.cell_mono hs, g.cell_mono he⟩, rfl⟩
    · rintro ⟨k, hk, rfl⟩
      obtain ⟨u, hs, he, hu⟩ := g.exists_floor_eq hle (g.mem_between.mpr hk)
      exact ⟨u, ⟨hs, he⟩, hu⟩
  rw [hcells, Finset.card_image_of_injective _ g.start_strictMono.injective, Int.card_Icc,
    length_between]

/-! ## Walks -/

/-- The first `n` cells from `k` on, as far as they begin by `last`. -/
def walk (last : α) : ℕ → ℤ → List ℤ
  | 0, _ => []
  | n + 1, k => if g.start k ≤ last then k :: walk last n (k + 1) else []

theorem walk_eq : g.walk last n k =
    (List.range (min n (g.cell last + 1 - k).toNat)).map fun i : ℕ => k + i := by
  induction n generalizing k with
  | zero => simp [walk]
  | succ n ih =>
    rw [walk]
    split
    · next hle =>
      have hcell := g.start_le_iff.mp hle
      have hmin : min (n + 1) (g.cell last + 1 - k).toNat =
          min n (g.cell last + 1 - (k + 1)).toNat + 1 := by omega
      rw [ih, hmin, List.range_succ_eq_map, List.map_cons, List.map_map]
      refine congrArg₂ List.cons (by simp) (List.map_congr_left fun i _ => ?_)
      simp only [Function.comp_apply, Nat.cast_succ]
      omega
    · next hlt =>
      have hcell := g.lt_start_iff.mp (not_le.mp hlt)
      have hmin : min (n + 1) (g.cell last + 1 - k).toNat = 0 := by omega
      rw [hmin]
      rfl

/-- **A walk with enough steps** visits the cells of an interval. -/
theorem walk_eq_between (h : (g.between s e).length ≤ n) :
    g.walk e n (g.cell s) = g.between s e := by
  rw [length_between] at h
  rw [walk_eq, between, min_eq_right h]

theorem length_walk : (g.walk e n (g.cell s)).length = min n (g.between s e).length := by
  simp [walk_eq, length_between]

end Grid

/-! ## Counting by keys -/

/-- **What is counted by its keys is counted once**, if no key is missing or repeated. -/
theorem sum_countP_eq_length {α κ : Type*} [DecidableEq κ] (key : α → κ) {keys : List κ}
    (hnodup : keys.Nodup) {l : List α} (h : ∀ x ∈ l, key x ∈ keys) :
    (keys.map fun k => l.countP (key · = k)).sum = l.length := by
  have hcount : ∀ k, l.countP (key · = k) = (l.map key : Multiset κ).count k := by
    intro k
    rw [Multiset.coe_count, List.count_eq_countP, List.countP_map]
    rfl
  simp only [hcount]
  rw [← List.sum_toFinset _ hnodup, Multiset.sum_count_eq_card (by simpa using h),
    Multiset.coe_card, List.length_map]
