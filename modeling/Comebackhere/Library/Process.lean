import Comebackhere.Library.Run
import Mathlib.Logic.Function.Basic

/-!
# Processes over a shared state

A process runs a program of atomic actions on a state it shares with other processes, and starts
the program again when it is done. Processes take their actions in any order, and a process may
crash between two actions: it loses the rest of its program, and the shared state stays.

## Main definitions

* `Prog Op α`: programs of the actions `Op`, returning an `α`
* `System`: what an action does to the shared state, given the answer of the environment
* `Prog.Acts`, `Prog.Within`: the kind of the actions that a program may come to, and how many
* `System.Comes`: the kind of the actions that a program may come to with legal answers
* `System.complete`: a program run to its end by itself
* `System.feed`, `System.Ensures`: a program given answers, and what holds whichever they are
* `State.Next`, `State.Takes`: what a process is about to do, and the action that an input takes
* `System.step`: one input of a run, an action of a process or a crash
* `System.Permits`: the environment's answers are legal, and crashes are where they may be
-/

namespace Process

open Machine

/-- A program of atomic actions: it is done, or performs an action and goes on with the result. -/
inductive Prog (Op : Type → Type) (α : Type) : Type 1
  | done (a : α)
  | act {β : Type} (o : Op β) (k : β → Prog Op α)

variable {Op : Type → Type} {α β : Type}

namespace Prog

/-- One program after the other. -/
def bind : Prog Op α → (α → Prog Op β) → Prog Op β
  | done a, f => f a
  | act o k, f => act o fun b => (k b).bind f

instance : Monad (Prog Op) where
  pure := done
  bind := bind

/-- The program of one action. -/
def perform (o : Op α) : Prog Op α := act o done

@[simp] theorem pure_eq (a : α) : (pure a : Prog Op α) = done a := rfl

@[simp] theorem done_bind (a : α) (f : α → Prog Op β) : (done a >>= f) = f a := rfl

@[simp] theorem act_bind {δ : Type} (o : Op δ) (k : δ → Prog Op α) (f : α → Prog Op β) :
    (act o k >>= f) = act o fun b => k b >>= f := rfl

@[simp] theorem perform_bind (o : Op α) (f : α → Prog Op β) : (perform o >>= f) = act o f := rfl

/-- Every action that a program may come to is of the kind `φ`. -/
def Acts (φ : {β : Type} → Op β → Prop) : Prog Op α → Prop
  | done _ => True
  | act o k => φ o ∧ ∀ b, (k b).Acts φ

theorem Acts.bind {φ : {β : Type} → Op β → Prop} {prog : Prog Op α} {f : α → Prog Op β}
    (h : prog.Acts φ) (hf : ∀ a, (f a).Acts φ) : (prog >>= f).Acts φ := by
  induction prog with
  | done a => exact hf a
  | act o k ih => exact ⟨h.1, fun b => ih b (h.2 b)⟩

/-- A program performs at most `n` actions. -/
def Within : ℕ → Prog Op α → Prop
  | _, done _ => True
  | 0, act _ _ => False
  | n + 1, act _ k => ∀ b, (k b).Within n

end Prog

/-- The actions `Op` on a shared state `W`, with the answers `ι` of the environment. -/
structure System (Op : Type → Type) (ι W : Type) where
  exec : {β : Type} → Op β → ι → W → β × W
  /-- The answers that the environment may give. -/
  legal : {β : Type} → Op β → ι → W → Prop
  /-- The actions before which a process may crash. -/
  crashes : {β : Type} → Op β → Prop

/-- Every action that a program may come to, with legal answers, is of the kind `φ`. -/
def System.Comes {ι W : Type} (S : System Op ι W) (φ : {β : Type} → Op β → Prop) :
    Prog Op α → Prop
  | .done _ => True
  | .act o k => φ o ∧ ∀ i w, S.legal o i w → S.Comes φ (k (S.exec o i w).1)

theorem System.Comes.bind {ι W : Type} {S : System Op ι W} {φ : {β : Type} → Op β → Prop}
    {prog : Prog Op α} {f : α → Prog Op β} (h : S.Comes φ prog) (hf : ∀ a, S.Comes φ (f a)) :
    S.Comes φ (prog >>= f) := by
  induction prog with
  | done a => exact hf a
  | act o k ih => exact ⟨h.1, fun i w hi => ih _ (h.2 i w hi)⟩

/-- A program run to its end by itself, every action with the same answer: its result and the
state it leaves. -/
def System.complete {ι W : Type} (S : System Op ι W) (i : ι) : Prog Op α → W → α × W
  | .done a, w => (a, w)
  | .act o k, w => S.complete i (k (S.exec o i w).1) (S.exec o i w).2

theorem System.complete_bind {ι W : Type} (S : System Op ι W) (i : ι) (m : Prog Op α)
    (f : α → Prog Op β) (w : W) :
    S.complete i (m >>= f) w = S.complete i (f (S.complete i m w).1) (S.complete i m w).2 := by
  induction m generalizing w with
  | done a => rfl
  | act o k ih => exact ih _ _

/-- A program given one answer after another: its result, once it is done, and the state it leaves.
Without another answer the program has crashed. -/
def System.feed {ι W : Type} (S : System Op ι W) : List ι → Prog Op α → W → Option α × W
  | _, .done a, w => (some a, w)
  | [], .act _ _, w => (none, w)
  | i :: is, .act o k, w => S.feed is (k (S.exec o i w).1) (S.exec o i w).2

@[simp] theorem System.feed_done {ι W : Type} (S : System Op ι W) (is : List ι) (a : α) (w : W) :
    S.feed is (.done a) w = (some a, w) := by
  cases is <;> rfl

/-- A program with as many answers as it has actions is done. -/
theorem System.isSome_feed {ι W : Type} (S : System Op ι W) {is : List ι} {n : ℕ}
    {prog : Prog Op α} {w : W} (h : prog.Within n) (hn : n ≤ is.length) :
    (S.feed is prog w).1.isSome := by
  induction is generalizing n prog w with
  | nil =>
    obtain rfl := Nat.le_zero.mp hn
    cases prog with
    | done a => rfl
    | act o k => exact h.elim
  | cons i is ih =>
    cases prog with
    | done a => rfl
    | act o k =>
      cases n with
      | zero => exact h.elim
      | succ n => exact ih (h _) (Nat.le_of_succ_le_succ hn)

/-- Whatever the answers to a program are, `I` holds all along, and `Q` of its result at the end. -/
def System.Ensures {ι W : Type} (S : System Op ι W) (I : W → Prop) (Q : α → W → Prop) :
    Prog Op α → W → Prop
  | .done a, w => I w ∧ Q a w
  | .act o k, w => I w ∧ ∀ i, S.Ensures I Q (k (S.exec o i w).1) (S.exec o i w).2

section Ensures

variable {ι W : Type} {S : System Op ι W} {I : W → Prop} {Q : α → W → Prop} {w : W}

/-- The rule of consequence. -/
theorem System.Ensures.mono {prog : Prog Op α} {I' : W → Prop} {Q' : α → W → Prop}
    (h : S.Ensures I Q prog w) (hI : ∀ w, I w → I' w) (hQ : ∀ a w, I w → Q a w → Q' a w) :
    S.Ensures I' Q' prog w := by
  induction prog generalizing w with
  | done a => exact ⟨hI w h.1, hQ a w h.1 h.2⟩
  | act o k ih => exact ⟨hI w h.1, fun i => ih _ (h.2 i)⟩

/-- **The rule of sequence.** -/
theorem System.Ensures.bind {prog : Prog Op β} {f : β → Prog Op α}
    (h : S.Ensures I (fun b => S.Ensures I Q (f b)) prog w) : S.Ensures I Q (prog >>= f) w := by
  induction prog generalizing w with
  | done b => exact h.2
  | act o k ih => exact ⟨h.1, fun i => ih _ (h.2 i)⟩

/-- The rule of one action. -/
theorem System.ensures_act {o : Op β} {k : β → Prog Op α} (hI : I w)
    (h : ∀ i, S.Ensures I Q (k (S.exec o i w).1) (S.exec o i w).2) :
    S.Ensures I Q (.act o k) w := ⟨hI, h⟩

/-- Actions that keep an invariant ensure it. -/
theorem System.ensures_of_acts {φ : {β : Type} → Op β → Prop} {prog : Prog Op α}
    (hφ : ∀ (β : Type) (o : Op β) i w, φ o → I w → I (S.exec o i w).2) (hprog : prog.Acts φ)
    (hI : I w) : S.Ensures I (fun _ _ => True) prog w := by
  induction prog generalizing w with
  | done a => exact ⟨hI, trivial⟩
  | act o k ih => exact ⟨hI, fun i => ih _ (hprog.2 _) (hφ _ o i w hprog.1 hI)⟩

/-- **Soundness**: what is ensured holds of every program given answers, also if it crashes. -/
theorem System.Ensures.feed {prog : Prog Op α} (h : S.Ensures I Q prog w) (is : List ι) :
    I (S.feed is prog w).2 ∧ ∀ a, (S.feed is prog w).1 = some a → Q a (S.feed is prog w).2 := by
  induction is generalizing prog w with
  | nil =>
    cases prog with
    | done a =>
      refine ⟨h.1, fun b hb => ?_⟩
      obtain rfl : a = b := by simpa [System.feed] using hb
      exact h.2
    | act o k => exact ⟨h.1, fun b hb => by simp [System.feed] at hb⟩
  | cons i is ih =>
    cases prog with
    | done a =>
      refine ⟨h.1, fun b hb => ?_⟩
      obtain rfl : a = b := by simpa [System.feed] using hb
      exact h.2
    | act o k => exact ih (h.2 i)

end Ensures

/-- What every process is about to do, and the shared state. -/
structure State (P : Type) (Op : Type → Type) (W : Type) : Type 1 where
  prog : P → Prog Op Unit
  shared : W

/-- What a process is about to do, if anything, is of the kind `φ`. -/
def State.Next {P W : Type} (s : State P Op W) (p : P) (φ : {β : Type} → Op β → Prop) : Prop :=
  match s.prog p with
  | .done _ => True
  | .act o _ => φ o

namespace State

variable {P W : Type} {s : State P Op W} {p : P} {φ ψ : {β : Type} → Op β → Prop}

theorem next_iff_of_act {β : Type} {o : Op β} {k : β → Prog Op Unit} (hp : s.prog p = .act o k) :
    s.Next p φ ↔ φ o := by
  simp [Next, hp]

theorem Next.and (hφ : s.Next p φ) (hψ : s.Next p ψ) : s.Next p fun o => φ o ∧ ψ o := by
  unfold Next at hφ hψ ⊢
  cases hp : s.prog p with
  | done a => trivial
  | act o k =>
    rw [hp] at hφ hψ
    exact ⟨hφ, hψ⟩

theorem Next.mono (h : s.Next p φ) (hφ : ∀ (β : Type) (o : Op β), φ o → ψ o) : s.Next p ψ := by
  unfold Next at h ⊢
  cases hp : s.prog p with
  | done a => trivial
  | act o k =>
    rw [hp] at h
    exact hφ _ o h

/-- What a process is about to do can be checked. -/
instance [∀ (β : Type) (o : Op β), Decidable (φ o)] : Decidable (s.Next p φ) :=
  match hp : s.prog p with
  | .done _ => isTrue (by simp [Next, hp])
  | .act (β := β) o _ => decidable_of_iff (φ (β := β) o) (by simp [Next, hp])

end State

/-- An input of a run: a process takes its next action, with an answer of the environment, or
crashes. -/
inductive Input (P ι : Type)
  | tick (p : P) (i : ι)
  | crash (p : P)

/-- The process that an input is about. -/
def Input.process {P ι : Type} : Input P ι → P
  | .tick p _ | .crash p => p

/-- The input is an action of the kind `φ`. -/
def State.Takes {P ι W : Type} (s : State P Op W) (φ : {β : Type} → Op β → Prop) :
    Input P ι → Prop
  | .tick p _ =>
    match s.prog p with
    | .done _ => False
    | .act o _ => φ o
  | .crash _ => False

section Takes

variable {P ι W : Type} {s : State P Op W} {p : P} {i : ι} {φ : {β : Type} → Op β → Prop}

theorem State.takes_iff_of_act {o : Op β} {k : β → Prog Op Unit} (hp : s.prog p = .act o k) :
    s.Takes φ (.tick p i) ↔ φ o := by
  simp [Takes, hp]

theorem State.not_takes_of_done {a : Unit} (hp : s.prog p = .done a) :
    ¬ s.Takes φ (.tick p i) := by
  simp [Takes, hp]

instance [∀ (β : Type) (o : Op β), Decidable (φ o)] : ∀ i : Input P ι, Decidable (s.Takes φ i)
  | .tick p _ =>
    match hp : s.prog p with
    | .done _ => isFalse (State.not_takes_of_done hp)
    | .act (β := β) o _ => decidable_of_iff (φ (β := β) o) (State.takes_iff_of_act hp).symm
  | .crash _ => isFalse nofun

end Takes

namespace System

variable {P ι W : Type} (S : System Op ι W) (main : Prog Op Unit)

/-- One input. A process that is done starts its program again. -/
def step [DecidableEq P] (s : State P Op W) : Input P ι → State P Op W
  | .tick p i =>
    match s.prog p with
    | .done _ => { s with prog := Function.update s.prog p main }
    | .act o k =>
      { prog := Function.update s.prog p (k (S.exec o i s.shared).1)
        shared := (S.exec o i s.shared).2 }
  | .crash p => { s with prog := Function.update s.prog p (.done ()) }

/-- The answer to an action is legal, and a process crashes where it may. -/
def Permits (s : State P Op W) : Input P ι → Prop
  | .tick p i => s.Next p fun o => S.legal o i s.shared
  | .crash p => s.Next p S.crashes

variable {S main} {s : State P Op W} {p : P} {i : ι}

theorem step_tick_of_done [DecidableEq P] {a : Unit} (hp : s.prog p = .done a) :
    S.step main s (.tick p i) = { s with prog := Function.update s.prog p main } := by
  simp [step, hp]

theorem step_tick_of_act [DecidableEq P] {o : Op β} {k : β → Prog Op Unit}
    (hp : s.prog p = .act o k) :
    S.step main s (.tick p i) =
      { prog := Function.update s.prog p (k (S.exec o i s.shared).1)
        shared := (S.exec o i s.shared).2 } := by
  simp [step, hp]

theorem permits_tick_of_act {o : Op β} {k : β → Prog Op Unit} (hp : s.prog p = .act o k) :
    S.Permits s (.tick p i) ↔ S.legal o i s.shared := by
  simp [Permits, State.Next, hp]

theorem permits_crash_of_act {o : Op β} {k : β → Prog Op Unit} (hp : s.prog p = .act o k) :
    S.Permits s (.crash (ι := ι) p) ↔ S.crashes o := by
  simp [Permits, State.Next, hp]

instance [∀ (β : Type) (o : Op β) i w, Decidable (S.legal o i w)]
    [∀ (β : Type) (o : Op β), Decidable (S.crashes o)] : ∀ i, Decidable (S.Permits s i)
  | .tick p i => inferInstanceAs (Decidable (s.Next p fun o => S.legal o i s.shared))
  | .crash p => inferInstanceAs (Decidable (s.Next p S.crashes))

end System

end Process
