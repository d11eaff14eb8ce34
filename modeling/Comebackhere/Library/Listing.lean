import Mathlib.Data.List.Sort
import Mathlib.Data.List.Flatten

/-!
# Ascending listings and their pages

A listing of a property names everything that has it, once and in ascending order, so there is at
most one. A page is what is left of a listing after an offset, cut off at a limit.

## Main definitions

* `IsListing P l`: `l` is the ascending list of the elements that satisfy `P`
* `page skip n l`: the `n` elements of `l` after the first `skip`

## Main results

* `IsListing.unique`: there is at most one listing
* `IsListing.snoc`, `IsListing.length_insert`: one more element
* `flatten_pages`: consecutive pages tile the list
-/

namespace Listing

section Pages

variable {α : Type*}

/-- The `n` elements of `l` after the first `skip`. -/
def page (skip n : ℕ) (l : List α) : List α := (l.drop skip).take n

/-- Reading a list at consecutive positions gives a page. -/
theorem filterMap_getElem? (skip n : ℕ) (l : List α) :
    ((List.range' skip n).filterMap fun i => l[i]?) = page skip n l := by
  induction n generalizing skip with
  | zero => simp [page]
  | succ n ih =>
    rw [List.range'_succ, List.filterMap_cons, ih, page, page]
    by_cases hskip : skip < l.length
    · rw [List.getElem?_eq_getElem hskip, List.drop_eq_getElem_cons hskip, List.take_succ_cons]
    · have hlong := Nat.le_of_not_lt hskip
      rw [List.getElem?_eq_none hlong, List.drop_eq_nil_of_le hlong,
        List.drop_eq_nil_of_le (hlong.trans (Nat.le_succ _)), List.take_nil, List.take_nil]

/-- A page is cut off at the end of the list. -/
theorem page_congr {skip m n : ℕ} {l : List α}
    (h : min m (l.length - skip) = min n (l.length - skip)) : page skip m l = page skip n l := by
  apply List.take_eq_take_iff.mpr
  rwa [List.length_drop]

/-- Two consecutive pages are one page. -/
theorem page_append_page (skip m n : ℕ) (l : List α) :
    page skip m l ++ page (skip + m) n l = page skip (m + n) l := by
  unfold page
  rw [List.take_add, List.drop_drop]

/-- **Pages tile the list**: one after another they give its first elements, in order. -/
theorem flatten_pages (n k : ℕ) (l : List α) :
    ((List.range k).map fun j => page (j * n) n l).flatten = l.take (k * n) := by
  induction k with
  | zero => simp
  | succ k ih =>
    have hlast := page_append_page 0 (k * n) n l
    rw [Nat.zero_add] at hlast
    rw [List.range_succ, List.map_append, List.flatten_append, ih, Nat.succ_mul]
    simpa [page] using hlast

/-- A list that has nothing on its next page is all of a longer one with the same page. -/
theorem eq_of_page_eq {l l' : List α} (hsub : l.Sublist l') {n : ℕ} (hn : 0 < n)
    (hpage : page l.length n l = page l.length n l') : l = l' := by
  apply hsub.eq_of_length_le
  have hlength := congrArg List.length hpage
  simp only [page, List.length_take, List.length_drop] at hlength
  omega

end Pages

/-! ## Listings -/

variable {α : Type*} [LT α] {P Q : α → Prop} {l l' : List α}

/-- `l` is the ascending list of the elements that satisfy `P`. -/
structure IsListing (P : α → Prop) (l : List α) : Prop where
  sorted : l.Pairwise (· < ·)
  mem_iff : ∀ a, a ∈ l ↔ P a

theorem IsListing.congr (h : IsListing P l) (hPQ : ∀ a, P a ↔ Q a) : IsListing Q l :=
  ⟨h.sorted, fun a => (h.mem_iff a).trans (hPQ a)⟩

/-- What is left of an ascending list is a listing. -/
theorem isListing_filter (hl : l.Pairwise (· < ·)) (p : α → Bool) :
    IsListing (fun a => a ∈ l ∧ p a = true) (l.filter p) :=
  ⟨hl.filter p, fun _ => List.mem_filter⟩

/-- Where the first page is empty, nothing is listed. -/
theorem IsListing.not_of_page_eq_nil {n : ℕ} {a : α} (h : IsListing P l) (hn : 0 < n)
    (hpage : page 0 n l = []) : ¬ P a := by
  rw [page, List.drop_zero, List.take_eq_nil_iff] at hpage
  obtain rfl := hpage.resolve_left hn.ne'
  rw [← h.mem_iff]
  exact List.not_mem_nil

/-- A new largest element comes last. -/
theorem IsListing.snoc {b : α} (h : IsListing P l) (hlt : ∀ a, P a → a < b)
    (hQ : ∀ a, Q a ↔ P a ∨ a = b) : IsListing Q (l ++ [b]) := by
  refine ⟨?_, fun a => ?_⟩
  · refine List.pairwise_append.mpr ⟨h.sorted, List.pairwise_singleton _ _, ?_⟩
    intro a ha b' hb'
    obtain rfl := List.mem_singleton.mp hb'
    exact hlt a ((h.mem_iff a).mp ha)
  · rw [List.mem_append, List.mem_singleton, h.mem_iff, hQ]

variable [Std.Asymm (α := α) (· < ·)]

theorem IsListing.unique (h : IsListing P l) (h' : IsListing P l') : l = l' := by
  apply h.sorted.eq_of_mem_iff h'.sorted
  intro a
  rw [h.mem_iff, h'.mem_iff]

/-- The listing of a stronger property is part of that of a weaker one. -/
theorem IsListing.sublist (h : IsListing P l) (h' : IsListing Q l') (hPQ : ∀ a, P a → Q a) :
    l.Sublist l' := by
  apply List.sublist_of_subperm_of_pairwise _ h.sorted h'.sorted
  apply List.subperm_of_subset h.sorted.nodup
  intro a ha
  exact (h'.mem_iff a).mpr (hPQ a ((h.mem_iff a).mp ha))

/-- One more element makes the listing longer by one. -/
theorem IsListing.length_insert {b : α} (h : IsListing P l) (h' : IsListing Q l')
    (hQ : ∀ a, Q a ↔ P a ∨ a = b) (hb : ¬ P b) : l'.length = l.length + 1 := by
  have hnew : b ∉ l := fun hm => hb ((h.mem_iff b).mp hm)
  have hnodup : (b :: l).Nodup := List.nodup_cons.mpr ⟨hnew, h.sorted.nodup⟩
  have hperm : l'.Perm (b :: l) := by
    apply (List.perm_ext_iff_of_nodup h'.sorted.nodup hnodup).mpr
    intro a
    rw [h'.mem_iff, hQ, List.mem_cons, h.mem_iff, or_comm]
  simpa using hperm.length_eq

end Listing
