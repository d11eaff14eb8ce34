import Mathlib.Data.List.Sort

/-!
# Listings by key

Documents are listed by descending keys. A reader who has seen the first of them asks for those
with smaller keys than the last it has seen. What is inserted in front of that place stays unseen.

## Main definitions

* `descending key docs`: the documents, that with the largest key first

## Main results

* `pairwise_descending`: the keys of a listing fall
* `eq_descending`: a list with falling keys is the listing of its members
* `descending_behind`: behind a document, a later reader finds the rest of an earlier listing
-/

namespace Keyset

variable {δ κ : Type*} [LinearOrder κ] {key : δ → κ} {docs docs' l : List δ}

/-- The documents, that with the largest key first. -/
def descending (key : δ → κ) (docs : List δ) : List δ := docs.insertionSort fun a b => key b ≤ key a

@[simp] theorem mem_descending {d : δ} : d ∈ descending key docs ↔ d ∈ docs :=
  List.mem_insertionSort _

/-- The keys of a listing fall. -/
theorem pairwise_descending (h : (docs.map key).Nodup) :
    (descending key docs).Pairwise fun a b => key b < key a := by
  have : Std.Total fun a b => key b ≤ key a := ⟨fun a b => le_total (key b) (key a)⟩
  have : IsTrans δ fun a b => key b ≤ key a := ⟨fun _ _ _ hab hbc => hbc.trans hab⟩
  have hle : (descending key docs).Pairwise fun a b => key b ≤ key a :=
    List.pairwise_insertionSort _ docs
  have hne : (descending key docs).Pairwise fun a b => key a ≠ key b :=
    List.pairwise_map.mp (((List.perm_insertionSort _ docs).map key).nodup_iff.mpr h)
  exact (hle.and hne).imp fun hab => lt_of_le_of_ne hab.1 hab.2.symm

/-- A list with falling keys is the listing of its members. -/
theorem eq_descending (h : (docs.map key).Nodup) (hl : l.Pairwise fun a b => key b < key a)
    (hmem : ∀ d, d ∈ l ↔ d ∈ docs) : descending key docs = l := by
  have : Std.Asymm fun a b : δ => key b < key a := ⟨fun _ _ => lt_asymm⟩
  exact (pairwise_descending h).eq_of_mem_iff hl fun d => mem_descending.trans (hmem d).symm

/-- The last of the first documents has the smallest key of them. -/
theorem le_of_mem_take {i : ℕ} (h : (docs.map key).Nodup) (hi : i < (descending key docs).length)
    {e : δ} (he : e ∈ (descending key docs).take (i + 1)) :
    key (descending key docs)[i] ≤ key e := by
  obtain ⟨k, hk, rfl⟩ := List.mem_take_iff_getElem.mp he
  rcases Nat.lt_or_eq_of_le (show k ≤ i by omega) with hki | rfl
  · exact (List.pairwise_iff_getElem.mp (pairwise_descending h) _ _ _ _ hki).le
  · exact le_rfl

/-- **Behind a document, a later reader finds the rest of an earlier listing**, if the documents are
kept and others come before one that has been seen. -/
theorem descending_behind {i : ℕ} (h : (docs.map key).Nodup) (h' : (docs'.map key).Nodup)
    (hi : i < (descending key docs).length) (hkept : docs ⊆ docs')
    (hnew : ∀ d ∈ docs', d ∉ docs → ∃ e ∈ (descending key docs).take (i + 1), key e < key d) :
    descending key (docs'.filter fun d => key d < key (descending key docs)[i]) =
      (descending key docs).drop (i + 1) := by
  have hsorted := pairwise_descending h
  have hfilter : ((docs'.filter fun d => key d < key (descending key docs)[i]).map key).Nodup :=
    h'.sublist (List.filter_sublist.map key)
  refine eq_descending hfilter (hsorted.sublist (List.drop_sublist _ _)) fun d => ?_
  rw [List.mem_filter, decide_eq_true_iff]
  constructor
  · intro hd
    obtain ⟨k, hk, rfl⟩ := List.getElem_of_mem hd
    rw [List.getElem_drop]
    exact ⟨hkept (mem_descending.mp (List.getElem_mem _)),
      List.pairwise_iff_getElem.mp hsorted _ _ _ _ (by omega)⟩
  · rintro ⟨hd, hlt⟩
    -- it is no new one, and comes at no earlier place
    have hdocs : d ∈ descending key docs := by
      refine mem_descending.mpr (by_contra fun hno => ?_)
      obtain ⟨e, he, hed⟩ := hnew d hd hno
      exact lt_asymm hlt ((le_of_mem_take h hi he).trans_lt hed)
    obtain ⟨k, hk, rfl⟩ := List.getElem_of_mem hdocs
    have hik : i < k := by
      by_contra hno
      refine (le_of_mem_take h hi (List.mem_take_iff_getElem.mpr ⟨k, ?_, rfl⟩)).not_gt hlt
      omega
    exact List.mem_drop_iff_getElem.mpr ⟨k - (i + 1), by omega, by congr 1; omega⟩

end Keyset
