import Comebackhere.Library.Process

/-!
# Programs under interference

Assertions for processes that share a state. Each process relies on what the others do to the
state, and guarantees that its own actions are of a kind the others rely on; ghost values next to
the state record what the processes have agreed on. A program keeps its assertions if, whatever
the others do in between, every action finds its precondition and leaves the rest of the program
with its own. A process that crashes has to leave what its restart begins with.

## Main definitions

* `Rules`: what the processes rely on and guarantee, and the assertions of their actions
* `Prog.Keeps`: a program finds the precondition of each action, up to its postcondition
* `Rules.Sound`: the program between two runs, and a crash, keep the idle assertion

## Main results

* `keeps_bind`, `keeps_mono`, `keeps_stable`: the rules of the programs
* `keeps_run`: the processes of a run keep their assertions throughout
-/

namespace Process

open Machine

variable {P : Type} {Op : Type → Type} {ι W γ α β : Type}

/-- What a process relies on and what it guarantees, from before an action to after it; the
precondition of its actions; and what holds of it when it runs no program. -/
structure Rules (P : Type) (Op : Type → Type) (W γ : Type) where
  rely : P → W × γ → W × γ → Prop
  guar : P → W × γ → W × γ → Prop
  pre : P → {β : Type} → Op β → W × γ → Prop
  idle : P → W × γ → Prop
  rely_refl : ∀ p x, rely p x x
  rely_trans : ∀ p x y z, rely p x y → rely p y z → rely p x z
  rely_of_guar : ∀ p q x y, guar p x y → q ≠ p → rely q x y

variable (S : System Op ι W) (R : Rules P Op W γ)

/-- After any interference the program finds the precondition of its next action; its legal
answers are guaranteed, for some ghost value, and leave the rest of the program with its own. -/
def Prog.Keeps (p : P) (Q : α → W × γ → Prop) : Prog Op α → W × γ → Prop
  | .done a, x => ∀ y, R.rely p x y → Q a y
  | .act o k, x => ∀ y, R.rely p x y → R.pre p o y ∧ ∀ i, S.legal o i y.1 →
      ∃ g, R.guar p y ((S.exec o i y.1).2, g) ∧
        (k (S.exec o i y.1).1).Keeps p Q ((S.exec o i y.1).2, g)

/-- The program `main` keeps the idle assertion, and so does a crash of it. -/
structure Rules.Sound (main : Prog Op Unit) : Prop where
  main : ∀ p x, R.idle p x → main.Keeps S R p (fun _ => R.idle p) x
  crash : ∀ p {β : Type} (o : Op β) x, S.crashes o → R.pre p o x →
    ∃ g, R.guar p x (x.1, g) ∧ ∀ y, R.rely p (x.1, g) y → R.idle p y

variable {S R} {p : P} {x y : W × γ}

namespace Prog

theorem keeps_stable {Q : α → W × γ → Prop} {m : Prog Op α} (h : m.Keeps S R p Q x)
    (hxy : R.rely p x y) : m.Keeps S R p Q y := by
  cases m with
  | done a => exact fun z hz => h z (R.rely_trans p _ _ _ hxy hz)
  | act o k => exact fun z hz => h z (R.rely_trans p _ _ _ hxy hz)

theorem keeps_mono {Q Q' : α → W × γ → Prop} {m : Prog Op α} (h : m.Keeps S R p Q x)
    (hQ : ∀ a y, Q a y → Q' a y) : m.Keeps S R p Q' x := by
  induction m generalizing x with
  | done a => exact fun y hy => hQ a y (h y hy)
  | act o k ih =>
    intro y hy
    obtain ⟨hpre, hnext⟩ := h y hy
    refine ⟨hpre, fun i hi => ?_⟩
    obtain ⟨g, hg, hk⟩ := hnext i hi
    exact ⟨g, hg, ih _ hk⟩

/-- **The rule of sequence**. -/
theorem keeps_bind {Q : β → W × γ → Prop} {m : Prog Op α} {f : α → Prog Op β}
    (h : m.Keeps S R p (fun a y => (f a).Keeps S R p Q y) x) : (m >>= f).Keeps S R p Q x := by
  induction m generalizing x with
  | done a => exact h x (R.rely_refl p x)
  | act o k ih =>
    intro y hy
    obtain ⟨hpre, hnext⟩ := h y hy
    refine ⟨hpre, fun i hi => ?_⟩
    obtain ⟨g, hg, hk⟩ := hnext i hi
    exact ⟨g, hg, ih _ hk⟩

/-- The rule of a program that does nothing, for a stable postcondition. -/
theorem keeps_done {Q : α → W × γ → Prop} {a : α} (hQ : Q a x)
    (hstable : ∀ y, R.rely p x y → Q a x → Q a y) : (Prog.done a).Keeps S R p Q x :=
  fun y hy => hstable y hy hQ

/-- The precondition of the next action holds. -/
theorem Keeps.pre {Q : α → W × γ → Prop} {o : Op β} {k : β → Prog Op α}
    (h : (Prog.act o k).Keeps S R p Q x) : R.pre p o x :=
  (h x (R.rely_refl p x)).1

end Prog

/-! ## Runs -/

variable [DecidableEq P] {main : Prog Op Unit} {s : State P Op W} {g : γ}

/-- Every process keeps its assertions, with the ghost value `g`. -/
def Rules.Holds (S : System Op ι W) (R : Rules P Op W γ) (s : State P Op W) (g : γ) : Prop :=
  ∀ p, (s.prog p).Keeps S R p (fun _ => R.idle p) (s.shared, g)

/-- One process goes on with its own program and the others are interfered with. -/
theorem Rules.Holds.update {m : Prog Op Unit} {w : W} {g' : γ} (h : R.Holds S s g)
    (hg : R.guar p (s.shared, g) (w, g')) (hm : m.Keeps S R p (fun _ => R.idle p) (w, g')) :
    R.Holds S ⟨Function.update s.prog p m, w⟩ g' := by
  intro q
  by_cases hq : q = p
  · subst hq
    simpa using hm
  · have hkeeps := Prog.keeps_stable (h q) (R.rely_of_guar p q _ _ hg hq)
    simpa [Function.update_of_ne hq] using hkeeps

/-- **One input** of the processes is their rely and guarantee. -/
theorem Rules.Holds.step (hR : R.Sound S main) (h : R.Holds S s g) {i : Input P ι}
    (hi : S.Permits s i) :
    ∃ g', R.Holds S (S.step main s i) g' ∧
      ((S.step main s i).shared = s.shared ∧ g' = g ∨
        ∃ p, R.guar p (s.shared, g) ((S.step main s i).shared, g')) := by
  cases i with
  | tick p i =>
    cases hp : s.prog p with
    | done a =>
      -- the process starts its program: nothing is done to the state
      have hidle : R.idle p (s.shared, g) := by
        have hkeeps := h p
        rw [hp] at hkeeps
        exact hkeeps _ (R.rely_refl p _)
      refine ⟨g, ?_, Or.inl ⟨by rw [System.step_tick_of_done hp], rfl⟩⟩
      rw [System.step_tick_of_done hp]
      intro q
      by_cases hq : q = p
      · subst hq
        simpa using hR.main q _ hidle
      · simpa [Function.update_of_ne hq] using h q
    | act o k =>
      have hkeeps := h p
      rw [hp] at hkeeps
      obtain ⟨g', hg, hk⟩ := (hkeeps _ (R.rely_refl p _)).2 i
        ((System.permits_tick_of_act hp).mp hi)
      rw [System.step_tick_of_act hp]
      exact ⟨g', h.update hg hk, Or.inr ⟨p, hg⟩⟩
  | crash p =>
    cases hp : s.prog p with
    | done a =>
      -- a process that runs no program loses none
      refine ⟨g, fun q => ?_, Or.inl ⟨rfl, rfl⟩⟩
      have hkeeps := h q
      by_cases hq : q = p
      · subst hq
        rw [hp] at hkeeps
        simpa [System.step] using hkeeps
      · simpa [System.step, Function.update_of_ne hq] using hkeeps
    | act o k =>
      have hkeeps := h p
      rw [hp] at hkeeps
      obtain ⟨g', hg, hidle⟩ := hR.crash p o _ ((System.permits_crash_of_act hp).mp hi) hkeeps.pre
      exact ⟨g', h.update hg hidle, Or.inr ⟨p, hg⟩⟩

/-- **The run rule**: the processes keep their assertions throughout a permitted run, and the
state and the ghost value go on as the guarantees say, in the sense of any preorder `T`. -/
theorem Rules.Holds.run (hR : R.Sound S main) (h : R.Holds S s g) {is : List (Input P ι)}
    (his : Each (S.step main) (fun _ => S.Permits) s is) {T : W × γ → W × γ → Prop}
    (hrefl : ∀ x, T x x) (htrans : ∀ x y z, T x y → T y z → T x z)
    (hT : ∀ p x y, R.guar p x y → T x y) :
    ∃ g', R.Holds S (run (S.step main) s is) g' ∧
      T (s.shared, g) ((run (S.step main) s is).shared, g') := by
  -- on the last input, as the ghost value is chosen anew after each
  induction is using List.reverseRecOn with
  | nil => exact ⟨g, h, hrefl _⟩
  | append_singleton is i ih =>
    obtain ⟨his, hi⟩ := each_snoc.mp his
    obtain ⟨g₁, h₁, hT₁⟩ := ih his
    obtain ⟨g₂, h₂, hsame | ⟨p, hg⟩⟩ := h₁.step hR hi
    · rw [run_snoc]
      exact ⟨g₂, h₂, by rw [hsame.1, hsame.2]; exact hT₁⟩
    · rw [run_snoc]
      exact ⟨g₂, h₂, htrans _ _ _ hT₁ (hT p _ _ hg)⟩

end Process
