import Mathlib.Data.List.DropRight
import Mathlib.Logic.Function.Iterate

/-!
# Reading a list by pages

A reader takes the first `n` elements of a list, looks for those of a kind `p`, and goes on after
the last one it has found. Where a page has none, it does not get on: it reads the same page again.

## Main definitions

* `resume p n l`: what is left of a list after a page
* `Gapless p n l`: an element of the kind comes with another in the `n` places before it

## Main results

* `gapless_iff_exhausted`: the reader finds every element of the kind exactly in a list without
  such gaps
-/

namespace Pages

variable {α : Type*} (p : α → Bool) (n : ℕ)

/-- What is left after a page: the list from behind the last `p` of the page. -/
def resume (l : List α) : List α := (l.take n).rtakeWhile (fun a => !p a) ++ l.drop n

/-- Every `p` that comes after `n` elements has another `p` among the `n` elements before it. -/
def Gapless (l : List α) : Prop :=
  ∀ i a, l[i]? = some a → p a = true → n ≤ i → ∃ j b, i ≤ j + n ∧ j < i ∧ l[j]? = some b ∧ p b = true

variable {p n} {l : List α}

/-- A page without a `p` is read again. -/
theorem resume_eq_self (h : ∀ a ∈ l.take n, p a = false) : resume p n l = l := by
  have hself : (l.take n).rtakeWhile (fun a => !p a) = l.take n :=
    List.rtakeWhile_eq_self_iff.mpr fun a ha => by simp [h a ha]
  rw [resume, hself, List.take_append_drop]

/-- A page with a `p` is read up to the last one. -/
theorem resume_split (h : ∃ a ∈ l.take n, p a = true) :
    ∃ pre a gap, l.take n = pre ++ a :: gap ∧ p a = true ∧ (∀ b ∈ gap, p b = false) ∧
      l = pre ++ a :: resume p n l := by
  have hsplit := List.rdropWhile_append_rtakeWhile (p := fun a => !p a) (l := l.take n)
  have hne : (l.take n).rdropWhile (fun a => !p a) ≠ [] := by
    intro he
    obtain ⟨a, ha, hp⟩ := h
    simpa [hp] using List.rdropWhile_eq_nil_iff.mp he a ha
  have hlast := List.rdropWhile_last_not (fun a => !p a) (l.take n) hne
  rw [← List.dropLast_append_getLast hne, List.append_assoc, List.singleton_append] at hsplit
  refine ⟨_, _, _, hsplit.symm, by simpa using hlast,
    fun b hb => by simpa using List.mem_rtakeWhile_imp hb, ?_⟩
  conv_lhs => rw [← List.take_append_drop n l, ← hsplit]
  rw [List.append_assoc, List.cons_append, resume]

theorem length_resume_lt (h : ∃ a ∈ l.take n, p a = true) : (resume p n l).length < l.length := by
  obtain ⟨pre, a, gap, -, -, -, he⟩ := resume_split h
  have hlength := congrArg List.length he
  rw [List.length_append, List.length_cons] at hlength
  omega

/-- A list that begins with a page without a `p` has a gap before its first `p`. -/
theorem Gapless.page (h : Gapless p n l) (hp : ∃ a ∈ l, p a = true) :
    ∃ a ∈ l.take n, p a = true := by
  obtain ⟨a, ha, hpa⟩ := hp
  obtain ⟨i, hi⟩ := List.getElem?_of_mem ha
  -- induction on the place: an element that is not on the page has another before it
  induction i using Nat.strong_induction_on generalizing a with
  | _ i ih =>
    rcases lt_or_ge i n with hlt | hge
    · refine ⟨a, List.mem_of_getElem? (i := i) ?_, hpa⟩
      rwa [List.getElem?_take_of_lt hlt]
    · obtain ⟨j, b, -, hj, hb, hpb⟩ := h i a hi hpa hge
      exact ih j hj b (List.mem_of_getElem? hb) hpb hb

/-- What comes after a `p` of the first page has no other gaps than the list. -/
theorem gapless_append {pre : List α} {a : α} {rest : List α} (hpre : pre.length < n)
    (ha : p a = true) : Gapless p n (pre ++ a :: rest) ↔ Gapless p n rest := by
  have hrest : ∀ i, (pre ++ a :: rest)[pre.length + 1 + i]? = rest[i]? := by
    intro i
    rw [List.getElem?_append_right (by omega),
      show pre.length + 1 + i - pre.length = i + 1 by omega, List.getElem?_cons_succ]
  have hmid : (pre ++ a :: rest)[pre.length]? = some a := by simp
  constructor
  · intro h i b hb hpb hi
    obtain ⟨j, c, hij, hj, hc, hpc⟩ := h (pre.length + 1 + i) b (by rwa [hrest]) hpb (by omega)
    -- the one before is in the rest, as the list's beginning is too far away
    obtain ⟨j, rfl⟩ : ∃ k, j = pre.length + 1 + k := ⟨j - (pre.length + 1), by omega⟩
    rw [hrest] at hc
    exact ⟨j, c, by omega, by omega, hc, hpc⟩
  · intro h i b hb hpb hi
    obtain ⟨i, rfl⟩ : ∃ k, i = pre.length + 1 + k := ⟨i - (pre.length + 1), by omega⟩
    rw [hrest] at hb
    rcases lt_or_ge i n with hlt | hge
    · exact ⟨pre.length, a, by omega, by omega, hmid, ha⟩
    · obtain ⟨j, c, hij, hj, hc, hpc⟩ := h i b hb hpb hge
      exact ⟨pre.length + 1 + j, c, by omega, by omega, by rwa [hrest], hpc⟩

theorem gapless_resume (h : ∃ a ∈ l.take n, p a = true) :
    Gapless p n (resume p n l) ↔ Gapless p n l := by
  obtain ⟨pre, a, gap, htake, ha, -, he⟩ := resume_split h
  conv_rhs => rw [he]
  refine (gapless_append ?_ ha).symm
  have hlength := congrArg List.length htake
  simp only [List.length_take, List.length_append, List.length_cons] at hlength
  omega

theorem gapless_of_none (h : ∀ a ∈ l, p a = false) : Gapless p n l := by
  intro i a hi hp
  simp [h a (List.mem_of_getElem? hi)] at hp

/-- **The reader finds every `p`** exactly in a list without gaps. -/
theorem gapless_iff_exhausted :
    Gapless p n l ↔ ∃ k, ∀ a ∈ (resume p n)^[k] l, p a = false := by
  constructor
  · -- every page has another `p`, so that less and less is left
    intro h
    induction hm : l.length using Nat.strong_induction_on generalizing l with
    | _ m ih =>
      subst hm
      by_cases hp : ∃ a ∈ l, p a = true
      · have hpage := h.page hp
        obtain ⟨k, hk⟩ := ih _ (length_resume_lt hpage) ((gapless_resume hpage).mpr h) rfl
        exact ⟨k + 1, hk⟩
      · exact ⟨0, fun a ha => by simpa using fun hpa => hp ⟨a, ha, hpa⟩⟩
  · rintro ⟨k, hk⟩
    induction k generalizing l with
    | zero => exact gapless_of_none hk
    | succ k ih =>
      have hresume := ih hk
      by_cases hpage : ∃ a ∈ l.take n, p a = true
      · exact (gapless_resume hpage).mp hresume
      · rwa [resume_eq_self fun a ha => by simpa using fun hpa => hpage ⟨a, ha, hpa⟩] at hresume

/-- A first page without a `p` is read for ever. -/
theorem gapless_iff_none (h : ∀ a ∈ l.take n, p a = false) :
    Gapless p n l ↔ ∀ a ∈ l, p a = false := by
  refine ⟨fun hgap a ha => ?_, gapless_of_none⟩
  by_contra hp
  obtain ⟨b, hb, hpb⟩ := hgap.page ⟨a, ha, by simpa using hp⟩
  simp [h b hb] at hpb

end Pages
