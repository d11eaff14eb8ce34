import Comebackhere.Library.Listing
import Comebackhere.Soroban.Host

/-!
# Paginated views

A view that returns a page of ids goes through all ids up to a counter, counts those it looks for,
skips the first of them and stops when the page is full. Its two counters are 32-bit numbers,
incremented by plain additions.

## Main definitions

* `idsUpTo n`: the ids from 1 to `n`
* `pageLoop`: the loop of such a view
* `vecLen`, `saturatingAdd`: the arithmetic of a view that returns a part of a vector

## Main results

* `pageLoop_eq_page`: the loop returns the page of the ids it looks for
* `pageLoop_eq_trap`: it traps where its counter overflows
* `listing_of_pages`: a loop that returns every page of a listing finds all of it
-/

namespace Soroban

open Checked Listing

variable {ε : Type} {e : Env} {p : UInt64 → Bool} {skip cap matched collected : UInt32}
  {ids result : List UInt64}

/-! ## The ids below a counter -/

/-- The ids from 1 to `n`, in ascending order. -/
def idsUpTo (n : ℕ) : List UInt64 := (List.range' 1 n).map UInt64.ofNat

theorem mem_idsUpTo {n : ℕ} (hn : n < 2 ^ 64) {id : UInt64} :
    id ∈ idsUpTo n ↔ id ≠ 0 ∧ id.toNat ≤ n := by
  have hzero : id ≠ 0 ↔ id.toNat ≠ 0 := by rw [ne_eq, ← UInt64.toNat_inj, UInt64.toNat_zero]
  rw [idsUpTo, List.mem_map, hzero]
  constructor
  · rintro ⟨k, hk, rfl⟩
    obtain ⟨hpos, hlt⟩ := List.mem_range'_1.mp hk
    rw [UInt64.toNat_ofNat_of_lt' (lt_of_le_of_lt (by omega) hn)]
    omega
  · rintro ⟨hpos, hle⟩
    exact ⟨id.toNat, List.mem_range'_1.mpr (by omega), UInt64.ofNat_toNat⟩

theorem idsUpTo_sorted {n : ℕ} (hn : n < 2 ^ 64) : (idsUpTo n).Pairwise (· < ·) := by
  apply List.pairwise_map.mpr
  apply (List.pairwise_lt_range' 1 Nat.one_pos).imp_of_mem
  intro a b ha hb hab
  have ha := List.mem_range'_1.mp ha
  have hb := List.mem_range'_1.mp hb
  rwa [UInt64.lt_iff_toNat_lt, UInt64.toNat_ofNat_of_lt' (lt_of_le_of_lt (by omega) hn),
    UInt64.toNat_ofNat_of_lt' (lt_of_le_of_lt (by omega) hn)]

/-! ## The loop -/

/-- A plain `n + 1` on `u32`. -/
def plainSucc (e : Env) (n : UInt32) : Except (Failure ε) UInt32 :=
  if e.overflowChecks = true ∧ n = 0xFFFF_FFFF then .error .trap else .ok (n + 1)

theorem plainSucc_of_lt (e : Env) {n : UInt32} (h : n.toNat + 1 < 2 ^ 32) :
    plainSucc (ε := ε) e n = .ok (n + 1) ∧ (n + 1).toNat = n.toNat + 1 := by
  constructor
  · apply if_neg
    rintro ⟨-, rfl⟩
    exact absurd h (by decide)
  · rw [UInt32.toNat_add, UInt32.toNat_one, Nat.mod_eq_of_lt h]

theorem plainSucc_eq_trap {n : UInt32} (he : e.overflowChecks = true)
    (h : ¬ n.toNat + 1 < 2 ^ 32) : plainSucc (ε := ε) e n = .error .trap := by
  have hlt := n.toNat_lt
  apply if_pos
  exact ⟨he, UInt32.toNat_inj.mp (Nat.le_antisymm (Nat.le_of_lt_succ hlt) (by simp; omega))⟩

/-- An increment traps, or what comes after it does. -/
theorem plainSucc_bind_eq_trap {α : Type} (he : e.overflowChecks = true) {n : UInt32}
    {f : UInt32 → Except (Failure ε) α}
    (hf : (n + 1).toNat = n.toNat + 1 → f (n + 1) = .error .trap) :
    (plainSucc e n >>= f) = .error .trap := by
  by_cases h : n.toNat + 1 < 2 ^ 32
  · obtain ⟨hn, hn'⟩ := plainSucc_of_lt (ε := ε) e h
    rw [hn]
    exact hf hn'
  · rw [plainSucc_eq_trap he h]
    rfl

/-- The loop over the ids: `matched` of them met `p` so far, and `result` holds the `collected`
ones of the page. -/
def pageLoop (e : Env) (p : UInt64 → Bool) (skip cap : UInt32) :
    List UInt64 → UInt32 → UInt32 → List UInt64 → Except (Failure ε) (List UInt64)
  | [], _, _, result => return result
  | id :: ids, matched, collected, result =>
    if p id then
      if skip ≤ matched then
        -- the page is full
        if cap ≤ collected then return result
        else do
          let collected ← plainSucc e collected
          let matched ← plainSucc e matched
          pageLoop e p skip cap ids matched collected (result ++ [id])
      else do
        let matched ← plainSucc e matched
        pageLoop e p skip cap ids matched collected result
    else pageLoop e p skip cap ids matched collected result

/-- One id that is looked for, behind the offset and in the page. -/
theorem pageLoop_collect {id : UInt64} (hid : p id = true) (hskip : skip ≤ matched)
    (hcap : ¬ cap ≤ collected) :
    pageLoop (ε := ε) e p skip cap (id :: ids) matched collected result = (do
      let collected ← plainSucc e collected
      let matched ← plainSucc e matched
      pageLoop e p skip cap ids matched collected (result ++ [id])) := by
  rw [pageLoop, if_pos hid, if_pos hskip, if_neg hcap]

/-- One id that is looked for, and skipped. -/
theorem pageLoop_skip {id : UInt64} (hid : p id = true) (hskip : ¬ skip ≤ matched) :
    pageLoop (ε := ε) e p skip cap (id :: ids) matched collected result = (do
      let matched ← plainSucc e matched
      pageLoop e p skip cap ids matched collected result) := by
  rw [pageLoop, if_pos hid, if_neg hskip]

/-- **The loop from any point**: the page is filled up with the next ids behind the offset, when
the counter of those found stays below 2³². -/
theorem pageLoop_eq_ok (hcollected : collected.toNat = matched.toNat - skip.toNat)
    (hcap : collected ≤ cap)
    (hfits : matched.toNat + (ids.filter p).length < 2 ^ 32 ∨ skip.toNat + cap.toNat < 2 ^ 32) :
    pageLoop (ε := ε) e p skip cap ids matched collected result =
      .ok (result ++ page (skip.toNat - matched.toNat) (cap.toNat - collected.toNat)
        (ids.filter p)) := by
  induction ids generalizing matched collected result with
  | nil => simp [pageLoop, page, pure, Except.pure]
  | cons id ids ih =>
    by_cases hid : p id = true
    case neg =>
      rw [pageLoop, if_neg hid, List.filter_cons_of_neg hid]
      exact ih hcollected hcap (by simpa [hid] using hfits)
    rw [List.filter_cons_of_pos hid] at hfits ⊢
    rw [List.length_cons] at hfits
    rw [UInt32.le_iff_toNat_le] at hcap
    by_cases hskip : skip ≤ matched
    · have hle := UInt32.le_iff_toNat_le.mp hskip
      rw [page, Nat.sub_eq_zero_of_le hle, List.drop_zero]
      by_cases hfull : cap ≤ collected
      · rw [pageLoop, if_pos hid, if_pos hskip, if_pos hfull,
          Nat.sub_eq_zero_of_le (UInt32.le_iff_toNat_le.mp hfull), List.take_zero, List.append_nil]
        rfl
      · -- the id is the next one of the page
        have hlt : collected.toNat < cap.toNat := by
          rwa [UInt32.le_iff_toNat_le, not_le] at hfull
        have hbound := cap.toNat_lt
        obtain ⟨hc, hc'⟩ := plainSucc_of_lt (ε := ε) e (n := collected) (by omega)
        obtain ⟨hm, hm'⟩ := plainSucc_of_lt (ε := ε) e (n := matched) (by omega)
        have hrest : cap.toNat - collected.toNat = (cap.toNat - (collected + 1).toNat) + 1 := by
          omega
        rw [pageLoop_collect hid hskip hfull, hc, hm]
        refine (ih (by omega) (by rw [UInt32.le_iff_toNat_le]; omega) (by omega)).trans ?_
        have hnext : skip.toNat - (matched + 1).toNat = 0 := by omega
        rw [page, hnext, List.drop_zero, hrest, List.take_succ_cons, List.append_assoc,
          List.singleton_append]
    · -- the id is skipped
      have hlt : matched.toNat < skip.toNat := by rwa [UInt32.le_iff_toNat_le, not_le] at hskip
      have hbound := skip.toNat_lt
      obtain ⟨hm, hm'⟩ := plainSucc_of_lt (ε := ε) e (n := matched) (by omega)
      have hrest : skip.toNat - matched.toNat = (skip.toNat - (matched + 1).toNat) + 1 := by omega
      rw [pageLoop_skip hid hskip, hm]
      refine (ih (by omega) (by rwa [UInt32.le_iff_toNat_le]) (by omega)).trans ?_
      rw [page, page, hrest, List.drop_succ_cons]

/-- **The page**: the loop over all ids returns the page of those it looks for. -/
theorem pageLoop_eq_page
    (hfits : (ids.filter p).length < 2 ^ 32 ∨ skip.toNat + cap.toNat < 2 ^ 32) :
    pageLoop (ε := ε) e p skip cap ids 0 0 [] =
      .ok (page skip.toNat cap.toNat (ids.filter p)) := by
  refine (pageLoop_eq_ok (by simp) (by simp) (by simpa using hfits)).trans ?_
  simp

/-- **The trap**: where additions are checked, the counter of the ids found must not reach 2³². -/
theorem pageLoop_eq_trap (he : e.overflowChecks = true)
    (hcollected : collected.toNat = matched.toNat - skip.toNat)
    (hfound : 2 ^ 32 ≤ matched.toNat + (ids.filter p).length)
    (hpage : 2 ^ 32 ≤ skip.toNat + cap.toNat) :
    pageLoop (ε := ε) e p skip cap ids matched collected result = .error .trap := by
  have hmatched := matched.toNat_lt
  induction ids generalizing matched collected result with
  | nil =>
    rw [List.filter_nil, List.length_nil] at hfound
    omega
  | cons id ids ih =>
    by_cases hid : p id = true
    case neg =>
      rw [pageLoop, if_neg hid]
      exact ih hcollected (by simpa [hid] using hfound) hmatched
    rw [List.filter_cons_of_pos hid, List.length_cons] at hfound
    by_cases hskip : skip ≤ matched
    · have hle := UInt32.le_iff_toNat_le.mp hskip
      have hcapLt := cap.toNat_lt
      have hfull : ¬ cap ≤ collected := by
        rw [UInt32.le_iff_toNat_le]
        omega
      have hlt : collected.toNat < cap.toNat := by rwa [UInt32.le_iff_toNat_le, not_le] at hfull
      obtain ⟨hc, hc'⟩ := plainSucc_of_lt (ε := ε) e (n := collected) (by omega)
      rw [pageLoop_collect hid hskip hfull, hc]
      apply plainSucc_bind_eq_trap he
      intro hm
      exact ih (by omega) (by omega) (matched + 1).toNat_lt
    · have hlt : matched.toNat < skip.toNat := by rwa [UInt32.le_iff_toNat_le, not_le] at hskip
      rw [pageLoop_skip hid hskip]
      apply plainSucc_bind_eq_trap he
      intro hm
      exact ih (by omega) (by omega) (matched + 1).toNat_lt

/-! ## Vectors of the host -/

/-- `vec.len()`: the host gives the length as a `u32`. -/
def vecLen (vec : List UInt64) : Except (Failure ε) UInt32 :=
  if vec.length < 2 ^ 32 then .ok (UInt32.ofNat vec.length) else .error .trap

/-- `a.saturating_add(b)` on `u32`. -/
def saturatingAdd (a b : UInt32) : UInt32 :=
  if a.toNat + b.toNat < 2 ^ 32 then a + b else 0xFFFF_FFFF

theorem saturatingAdd_toNat (a b : UInt32) :
    (saturatingAdd a b).toNat = min (a.toNat + b.toNat) (2 ^ 32 - 1) := by
  unfold saturatingAdd
  split
  · next h =>
    rw [UInt32.toNat_add, Nat.mod_eq_of_lt h]
    omega
  · next h =>
    have htop : (0xFFFF_FFFF : UInt32).toNat = 2 ^ 32 - 1 := by decide
    rw [htop]
    omega

/-! ## Pages of a listing -/

/-- A loop that returns every page of a listing finds all of it, and its counter does not
overflow. -/
theorem listing_of_pages {P : UInt64 → Prop} {l : List UInt64} (he : e.overflowChecks = true)
    (hids : ids.Pairwise (· < ·)) (hp : ∀ id ∈ ids, p id = true → P id) (hl : IsListing P l)
    (hpages : ∀ skip : UInt32, pageLoop (ε := ε) e p skip 1 ids 0 0 [] =
      .ok (page skip.toNat 1 l)) :
    ids.filter p = l ∧ l.length < 2 ^ 32 := by
  have hfits : (ids.filter p).length < 2 ^ 32 := by
    by_contra hlong
    have htrap : pageLoop (ε := ε) e p 0xFFFF_FFFF 1 ids 0 0 [] = .error .trap :=
      pageLoop_eq_trap he (by decide) (by simpa using hlong) (by decide)
    exact absurd ((hpages _).symm.trans htrap) (by simp)
  -- the page behind what the loop finds is empty
  have hsub : (ids.filter p).Sublist l :=
    (isListing_filter hids p).sublist hl fun id hid => hp id hid.1 hid.2
  have hlast := hpages (UInt32.ofNat (ids.filter p).length)
  rw [pageLoop_eq_page (Or.inl hfits), UInt32.toNat_ofNat_of_lt' hfits] at hlast
  have heq := eq_of_page_eq hsub Nat.one_pos (Except.ok.inj hlast)
  exact ⟨heq, heq ▸ hfits⟩

end Soroban
