import Mathlib.Data.List.Infix
import Mathlib.Data.List.Induction

/-!
# Runs of a deterministic state machine

A machine takes one input after another from a start state. Its history is the list of the
inputs taken, each with the state it was taken in: a ghost value of a run is a function of the
history, and a property of a run is a property of the histories and states it reaches.

## Main definitions

* `run step s is`, `transitions step s is`: the state and the history after the inputs `is`
* `Always step P s is`: `P` holds at the start and after every input
* `Each step C s is`: every input meets the condition `C` when it is taken
* `Since Q R h`: an entry of the history met `Q`, and none after it has met `R`

## Main results

* `inv_of_each`: an invariant kept by the inputs that meet a condition
* `distance_le_run`: how many inputs it takes at least
* `always_iff_each`: where a step that breaks the condition breaks the property, the property
  holds throughout exactly the runs whose inputs meet the condition
-/

namespace Machine

variable {σ ι : Type*} (step : σ → ι → σ)

/-- The state after the inputs `is`, taken in order from `s`. -/
def run (s : σ) (is : List ι) : σ := is.foldl step s

/-- The history of a run: its inputs, each with the state it is taken in. -/
def transitions : σ → List ι → List (σ × ι)
  | _, [] => []
  | s, i :: is => (s, i) :: transitions (step s i) is

@[simp] theorem run_nil (s : σ) : run step s [] = s := rfl

@[simp] theorem run_cons (s : σ) (i : ι) (is : List ι) :
    run step s (i :: is) = run step (step s i) is := rfl

theorem run_append (s : σ) (is js : List ι) :
    run step s (is ++ js) = run step (run step s is) js := List.foldl_append

@[simp] theorem run_snoc (s : σ) (is : List ι) (i : ι) :
    run step s (is ++ [i]) = step (run step s is) i := by
  simp [run_append]

@[simp] theorem transitions_nil (s : σ) : transitions step s [] = [] := rfl

theorem transitions_append (s : σ) (is js : List ι) :
    transitions step s (is ++ js) =
      transitions step s is ++ transitions step (run step s is) js := by
  induction is generalizing s with
  | nil => rfl
  | cons i is ih => simp [transitions, ih]

@[simp] theorem transitions_snoc (s : σ) (is : List ι) (i : ι) :
    transitions step s (is ++ [i]) = transitions step s is ++ [(run step s is, i)] := by
  rw [transitions_append]
  rfl

/-- A transition of a run is an input after a prefix of it. -/
theorem mem_transitions_iff {s : σ} {is : List ι} {t : σ × ι} :
    t ∈ transitions step s is ↔ ∃ pre, pre ++ [t.2] <+: is ∧ t.1 = run step s pre := by
  induction is using List.reverseRecOn with
  | nil => simp
  | append_singleton is i ih =>
    -- the last input gives the last transition, the prefixes of the rest give the others
    rw [transitions_snoc, List.mem_append, ih, List.mem_singleton]
    constructor
    · rintro (⟨pre, hp, ht⟩ | rfl)
      · exact ⟨pre, hp.trans (List.prefix_append _ _), ht⟩
      · exact ⟨is, List.prefix_rfl, rfl⟩
    · rintro ⟨pre, hp, ht⟩
      rcases List.prefix_concat_iff.mp (by simpa using hp) with he | hp
      · obtain ⟨rfl, hi⟩ := List.append_inj' he rfl
        refine Or.inr (Prod.ext ht ?_)
        simpa using hi
      · exact Or.inl ⟨pre, hp, ht⟩

/-- A split of a history and one more entry is at that entry, or splits the history. -/
theorem snoc_eq_split {α : Type*} {l l₁ l₂ : List α} {x y : α} (he : l ++ [x] = l₁ ++ y :: l₂) :
    (l₂ = [] ∧ y = x ∧ l = l₁) ∨ ∃ l₃, l₂ = l₃ ++ [x] ∧ l = l₁ ++ y :: l₃ := by
  rcases List.eq_nil_or_concat l₂ with rfl | ⟨l₃, z, rfl⟩
  · obtain ⟨rfl, hxy⟩ := List.append_inj' he rfl
    exact Or.inl ⟨rfl, by simpa using hxy.symm, rfl⟩
  · rw [List.concat_eq_append, ← List.cons_append, ← List.append_assoc] at he
    obtain ⟨rfl, hxz⟩ := List.append_inj' he rfl
    exact Or.inr ⟨l₃, by simpa using hxz.symm, rfl⟩

/-- An entry of a list meets `Q` with what comes before it, and no later entry meets `R`. -/
def Since {α : Type*} (Q : List α → α → Prop) (R : α → Prop) (l : List α) : Prop :=
  ∃ l₁ x l₂, l = l₁ ++ x :: l₂ ∧ Q l₁ x ∧ ∀ y ∈ l₂, ¬ R y

@[simp] theorem not_since_nil {α : Type*} {Q : List α → α → Prop} {R : α → Prop} :
    ¬ Since Q R [] := by
  rintro ⟨l₁, x, l₂, he, -⟩
  simp at he

/-- The last entry meets `Q`, or does not meet `R` after an earlier one has met `Q`. -/
theorem since_snoc {α : Type*} {Q : List α → α → Prop} {R : α → Prop} {l : List α} {x : α} :
    Since Q R (l ++ [x]) ↔ Q l x ∨ (Since Q R l ∧ ¬ R x) := by
  constructor
  · rintro ⟨l₁, y, l₂, he, hQ, hR⟩
    rcases snoc_eq_split he with ⟨-, rfl, rfl⟩ | ⟨l₃, rfl, rfl⟩
    · exact Or.inl hQ
    · exact Or.inr ⟨⟨l₁, y, l₃, rfl, hQ, fun z hz => hR z (List.mem_append_left _ hz)⟩,
        hR x (by simp)⟩
  · rintro (hQ | ⟨⟨l₁, y, l₂, rfl, hQ, hR⟩, hx⟩)
    · exact ⟨l, x, [], rfl, hQ, by simp⟩
    · refine ⟨l₁, y, l₂ ++ [x], by simp, hQ, fun z hz => ?_⟩
      rcases List.mem_append.mp hz with hz | hz
      · exact hR z hz
      · exact List.mem_singleton.mp hz ▸ hx

theorem since_iff_getElem {α : Type*} {Q : List α → α → Prop} {R : α → Prop} {l : List α} :
    (∃ n : Fin l.length, Q (l.take n) l[n] ∧ ∀ y ∈ l.drop (n + 1), ¬ R y) ↔ Since Q R l := by
  constructor
  · rintro ⟨n, hQ, hR⟩
    exact ⟨l.take n, l[n], l.drop (n + 1), by simp, hQ, hR⟩
  · rintro ⟨l₁, x, l₂, rfl, hQ, hR⟩
    exact ⟨⟨l₁.length, by simp⟩, by simpa using hQ, by simpa using hR⟩

/-- Whether an entry met `Q` and none after it has met `R` can be checked. -/
instance {α : Type*} {Q : List α → α → Prop} {R : α → Prop} [∀ h x, Decidable (Q h x)]
    [DecidablePred R] (l : List α) : Decidable (Since Q R l) :=
  @decidable_of_iff _ _ since_iff_getElem inferInstance

/-! ## Properties of a whole run -/

/-- `P` holds of the history and the state at the start of a run and after each of its inputs. -/
def Always (P : List (σ × ι) → σ → Prop) (s : σ) (is : List ι) : Prop :=
  ∀ pre, pre <+: is → P (transitions step s pre) (run step s pre)

/-- Every input of a run meets the condition `C` at the history and the state it is taken in. -/
def Each (C : List (σ × ι) → σ → ι → Prop) (s : σ) (is : List ι) : Prop :=
  ∀ pre i, pre ++ [i] <+: is → C (transitions step s pre) (run step s pre) i

variable {step} {P : List (σ × ι) → σ → Prop} {A C : List (σ × ι) → σ → ι → Prop} {s : σ}

theorem Always.at_end {is : List ι} (h : Always step P s is) :
    P (transitions step s is) (run step s is) := h is List.prefix_rfl

theorem Always.restrict {is js : List ι} (h : Always step P s js) (hp : is <+: js) :
    Always step P s is := fun pre hpre => h pre (hpre.trans hp)

theorem Each.restrict {is js : List ι} (h : Each step C s js) (hp : is <+: js) :
    Each step C s is := fun pre i hpre => h pre i (hpre.trans hp)

@[simp] theorem each_nil : Each step C s [] := fun pre i h => by simp at h

theorem each_snoc {is : List ι} {i : ι} :
    Each step C s (is ++ [i]) ↔ Each step C s is ∧ C (transitions step s is) (run step s is) i := by
  constructor
  · exact fun h => ⟨h.restrict (List.prefix_append _ _), h is i List.prefix_rfl⟩
  · rintro ⟨h, hi⟩ pre j hp
    rcases List.prefix_concat_iff.mp (by simpa using hp) with he | hp
    · obtain ⟨rfl, hj⟩ := List.append_inj' he rfl
      obtain rfl : j = i := by simpa using hj
      exact hi
    · exact h pre j hp

theorem always_snoc {is : List ι} {i : ι} :
    Always step P s (is ++ [i]) ↔
      Always step P s is ∧ P (transitions step s (is ++ [i])) (run step s (is ++ [i])) := by
  constructor
  · exact fun h => ⟨h.restrict (List.prefix_append _ _), h.at_end⟩
  · rintro ⟨h, hi⟩ pre hp
    rcases List.prefix_concat_iff.mp (by simpa using hp) with rfl | hp
    · simpa using hi
    · exact h pre hp

/-- A condition on the state and the input alone is a condition on the transitions. -/
theorem each_iff_transitions {C : σ → ι → Prop} {is : List ι} :
    Each step (fun _ => C) s is ↔ ∀ t ∈ transitions step s is, C t.1 t.2 := by
  constructor
  · intro h t ht
    obtain ⟨pre, hp, ht⟩ := (mem_transitions_iff step).mp ht
    rw [ht]
    exact h pre t.2 hp
  · exact fun h pre i hp => h (run step s pre, i) ((mem_transitions_iff step).mpr ⟨pre, hp, rfl⟩)

/-- The rest of a run meets a condition on the state and the input alone. -/
theorem Each.rest {C : σ → ι → Prop} {is js : List ι} (h : Each step (fun _ => C) s (is ++ js)) :
    Each step (fun _ => C) (run step s is) js := by
  rw [each_iff_transitions] at h ⊢
  intro t ht
  apply h t
  rw [transitions_append]
  exact List.mem_append_right _ ht

/-- A decidable condition on the state and the input can be checked along a run. -/
instance {C : σ → ι → Prop} [∀ t i, Decidable (C t i)] {is : List ι} :
    Decidable (Each step (fun _ => C) s is) :=
  decidable_of_iff _ each_iff_transitions.symm

/-- A decidable condition on the history can be checked along a run. -/
def Each.decidable (hC : ∀ h t i, Decidable (C h t i)) (is : List ι) :
    Decidable (Each step C s is) :=
  decidable_of_iff (∀ n : Fin is.length,
      C (transitions step s (is.take n)) (run step s (is.take n)) is[n]) <| by
    constructor
    · rintro h pre i ⟨rest, rfl⟩
      simpa using h ⟨pre.length, by simp⟩
    · intro h n
      refine h (is.take n) is[n] ?_
      rw [Fin.getElem_fin, List.take_append_getElem]
      exact List.take_prefix _ _

/-- A decidable property of the state can be checked along a run. -/
instance {Q : σ → Prop} [∀ t, Decidable (Q t)] {is : List ι} :
    Decidable (Always step (fun _ => Q) s is) :=
  decidable_of_iff (∀ pre ∈ is.inits, Q (run step s pre)) (by simp [Always])

/-- **The invariant rule**: what holds at the start and is kept by every input that meets `C`
holds at the end of a run whose inputs all meet `C`. -/
theorem inv_of_each {I : List (σ × ι) → σ → Prop} (h0 : I [] s)
    (hs : ∀ h t i, I h t → C h t i → I (h ++ [(t, i)]) (step t i)) {is : List ι}
    (hc : Each step C s is) : I (transitions step s is) (run step s is) := by
  induction is using List.reverseRecOn with
  | nil => exact h0
  | append_singleton is i ih =>
    obtain ⟨hc, hi⟩ := each_snoc.mp hc
    rw [transitions_snoc, run_snoc]
    exact hs _ _ _ (ih hc) hi

/-- **The distance rule**: a distance that no input shortens by more than one is at most as far as
the run is long. -/
theorem distance_le_run {d : σ → ℕ} (hd : ∀ t i, d t ≤ d (step t i) + 1) (s : σ) (is : List ι) :
    d s ≤ d (run step s is) + is.length := by
  induction is generalizing s with
  | nil => simp
  | cons i is ih =>
    have hfirst := hd s i
    have hrest := ih (step s i)
    rw [run_cons, List.length_cons]
    omega

/-- **The exactness rule under an assumption**: let `I` be kept by the inputs that meet `C`, let
`I` give `P`, and let an input that fails `C` leave a point where `P` fails. Then, among the runs
whose inputs meet the assumption `A`, those in which `P` always holds are those whose inputs all
meet `C`. -/
theorem always_iff_each_assuming {I : List (σ × ι) → σ → Prop} (h0 : I [] s)
    (hP : ∀ h t, I h t → P h t)
    (hs : ∀ h t i, I h t → A h t i → C h t i → I (h ++ [(t, i)]) (step t i))
    (hn : ∀ h t i, I h t → A h t i → P (h ++ [(t, i)]) (step t i) → C h t i) {is : List ι}
    (hA : Each step A s is) : Always step P s is ↔ Each step C s is := by
  -- from left to right the conditions are collected input by input, with the invariant they keep:
  -- an input is judged by `hn` in a state where the invariant holds
  have key : Always step P s is → Each step C s is ∧ I (transitions step s is) (run step s is) := by
    induction is using List.reverseRecOn with
    | nil => exact fun _ => ⟨each_nil, h0⟩
    | append_singleton is i ih =>
      intro h
      obtain ⟨hA, hi⟩ := each_snoc.mp hA
      obtain ⟨h, hlast⟩ := always_snoc.mp h
      obtain ⟨hc, hI⟩ := ih hA h
      rw [transitions_snoc, run_snoc] at hlast ⊢
      have hci := hn _ _ _ hI hi hlast
      exact ⟨each_snoc.mpr ⟨hc, hci⟩, hs _ _ _ hI hi hci⟩
  -- from right to left it is the invariant rule, for the inputs that meet `A` and `C`
  refine ⟨fun h => (key h).1, fun hc pre hp => hP _ _ ?_⟩
  refine inv_of_each (C := fun h t i => A h t i ∧ C h t i) h0
    (fun h t i hI hAC => hs h t i hI hAC.1 hAC.2) fun q i hq => ?_
  exact ⟨hA q i (hq.trans hp), hc q i (hq.trans hp)⟩

/-- **The exactness rule**, among all runs. -/
theorem always_iff_each {I : List (σ × ι) → σ → Prop} (h0 : I [] s) (hP : ∀ h t, I h t → P h t)
    (hs : ∀ h t i, I h t → C h t i → I (h ++ [(t, i)]) (step t i))
    (hn : ∀ h t i, I h t → P (h ++ [(t, i)]) (step t i) → C h t i) (is : List ι) :
    Always step P s is ↔ Each step C s is :=
  always_iff_each_assuming (A := fun _ _ _ => True) h0 hP (fun h t i hI _ => hs h t i hI)
    (fun h t i hI _ => hn h t i hI) fun _ _ _ => trivial

/-- **Equivalent conditions**: if `C` keeps an invariant under which `A` and `C` agree, the runs
whose inputs all meet `A` are those whose inputs all meet `C`. -/
theorem each_iff_each {I : List (σ × ι) → σ → Prop} (h0 : I [] s)
    (hs : ∀ h t i, I h t → C h t i → I (h ++ [(t, i)]) (step t i))
    (hAC : ∀ h t i, I h t → (A h t i ↔ C h t i)) (is : List ι) :
    Each step A s is ↔ Each step C s is := by
  induction is using List.reverseRecOn with
  | nil => simp
  | append_singleton is i ih =>
    rw [each_snoc, each_snoc, ih]
    exact and_congr_right fun hC => hAC _ _ _ (inv_of_each h0 hs hC)

end Machine
