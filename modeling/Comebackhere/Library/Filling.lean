import Mathlib.Data.List.Basic
import Mathlib.Logic.Function.Basic

/-!
# Filling places

Places are filled with values, in loops that go over them one after another. A loop keeps what is
there, or at least leaves nothing empty that was filled, if each of its steps does.

## Main definitions

* `Keeps m m'`: what is filled in `m` has the same value in `m'`
* `Fills m m'`: what is filled in `m` is filled in `m'`

## Main results

* `Keeps.foldl`, `Fills.foldl`: loops of steps that keep or fill
* `isSome_foldl`: a place that one step of a loop fills is filled after it
-/

namespace Filling

variable {ι α β : Type*} {m m' m'' : ι → Option β} {i : ι}

/-- What is filled keeps its value. -/
def Keeps (m m' : ι → Option β) : Prop := ∀ i, (m i).isSome → m' i = m i

/-- What is filled stays filled. -/
def Fills (m m' : ι → Option β) : Prop := ∀ i, (m i).isSome → (m' i).isSome

theorem Keeps.refl (m : ι → Option β) : Keeps m m := fun _ _ => rfl

theorem Keeps.fills (h : Keeps m m') : Fills m m' := by
  intro i hi
  rw [h i hi]
  exact hi

theorem Keeps.trans (h : Keeps m m') (h' : Keeps m' m'') : Keeps m m'' :=
  fun i hi => (h' i (h.fills i hi)).trans (h i hi)

theorem Fills.refl (m : ι → Option β) : Fills m m := fun _ => id

theorem Fills.trans (h : Fills m m') (h' : Fills m' m'') : Fills m m'' :=
  fun i hi => h' i (h i hi)

section Update

variable [DecidableEq ι]

theorem keeps_update (hi : m i = none) (b : β) : Keeps m (Function.update m i (some b)) := by
  intro j hj
  apply Function.update_of_ne
  rintro rfl
  rw [hi] at hj
  cases hj

theorem fills_update (m : ι → Option β) (i : ι) (b : β) :
    Fills m (Function.update m i (some b)) := by
  intro j hj
  rcases eq_or_ne j i with rfl | hne
  · rw [Function.update_self, Option.isSome_some]
  · rwa [Function.update_of_ne hne]

theorem isSome_update (m : ι → Option β) (i : ι) (b : β) :
    (Function.update m i (some b) i).isSome := by
  rw [Function.update_self, Option.isSome_some]

end Update

/-! ## Loops -/

section Loops

variable {σ : Type*} (cells : σ → ι → Option β) {op : σ → α → σ}

/-- A loop keeps what is there if each of its steps does. -/
theorem Keeps.foldl (hop : ∀ s a, Keeps (cells s) (cells (op s a))) (l : List α) (s : σ) :
    Keeps (cells s) (cells (l.foldl op s)) :=
  List.foldlRecOn (motive := fun t => Keeps (cells s) (cells t)) l op (Keeps.refl _)
    fun t ht a _ => ht.trans (hop t a)

theorem Fills.foldl (hop : ∀ s a, Fills (cells s) (cells (op s a))) (l : List α) (s : σ) :
    Fills (cells s) (cells (l.foldl op s)) :=
  List.foldlRecOn (motive := fun t => Fills (cells s) (cells t)) l op (Fills.refl _)
    fun t ht a _ => ht.trans (hop t a)

/-- **A place is filled after a loop** if one of its steps fills it. -/
theorem isSome_foldl (hop : ∀ s a, Fills (cells s) (cells (op s a))) {l : List α} {a : α}
    (ha : a ∈ l) (hfills : ∀ s, (cells (op s a) i).isSome) (s : σ) :
    (cells (l.foldl op s) i).isSome := by
  obtain ⟨l₁, l₂, rfl⟩ := List.append_of_mem ha
  rw [List.foldl_append, List.foldl_cons]
  exact Fills.foldl cells hop l₂ _ i (hfills _)

end Loops

end Filling
