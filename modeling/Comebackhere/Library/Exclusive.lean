import Comebackhere.Library.Process
import Mathlib.Data.Fintype.Defs

/-!
# Programs that run one at a time

Processes that take turns: a process enters its program only when no other is in the middle of its
own. The shared state then changes as by one program after the other, and it is enough to reason
about a program run by itself.

## Main definitions

* `Prog.Along`: a program run by itself keeps an invariant, up to its postcondition
* `System.Alone`: a process enters its program only when all others are outside of theirs
* `System.Sequential`: the program keeps an invariant from one idle state to the next

## Main results

* `along_bind`, `along_mono`: the rules of the programs
* `invariant_of_alone`: processes that enter alone keep the invariant throughout
-/

namespace Process

open Machine

variable {P : Type} {Op : Type → Type} {ι W α β : Type}

/-- Every action of the program is no entry, and its legal answers keep the invariant. -/
def Prog.Along (S : System Op ι W) (entry : {β : Type} → Op β → Prop) (Inv : W → Prop)
    (Q : α → W → Prop) : Prog Op α → W → Prop
  | .done a, w => Q a w
  | .act o k, w => ¬ entry o ∧ ∀ i, S.legal o i w →
      Inv (S.exec o i w).2 ∧ (k (S.exec o i w).1).Along S entry Inv Q (S.exec o i w).2

section Along

variable {S : System Op ι W} {entry : {β : Type} → Op β → Prop} {Inv : W → Prop} {w : W}

namespace Prog

theorem along_mono {Q Q' : α → W → Prop} {m : Prog Op α} (h : m.Along S entry Inv Q w)
    (hQ : ∀ a w, Q a w → Q' a w) : m.Along S entry Inv Q' w := by
  induction m generalizing w with
  | done a => exact hQ a w h
  | act o k ih =>
    refine ⟨h.1, fun i hi => ?_⟩
    obtain ⟨hinv, hk⟩ := h.2 i hi
    exact ⟨hinv, ih _ hk⟩

/-- **The rule of sequence**. -/
theorem along_bind {Q : β → W → Prop} {m : Prog Op α} {f : α → Prog Op β}
    (h : m.Along S entry Inv (fun a w => (f a).Along S entry Inv Q w) w) :
    (m >>= f).Along S entry Inv Q w := by
  induction m generalizing w with
  | done a => exact h
  | act o k ih =>
    refine ⟨h.1, fun i hi => ?_⟩
    obtain ⟨hinv, hk⟩ := h.2 i hi
    exact ⟨hinv, ih _ hk⟩

end Prog

end Along

namespace System

variable [DecidableEq P] (S : System Op ι W) (entry : {β : Type} → Op β → Prop)

/-- A process that enters its program finds all others outside of theirs. -/
def Alone (s : State P Op W) : Input P ι → Prop
  | .tick p _ =>
    match s.prog p with
    | .done _ => True
    | .act o _ => entry o → ∀ q, q ≠ p → s.Next q entry
  | .crash _ => True

instance [Fintype P] [∀ (β : Type) (o : Op β), Decidable (entry o)] (s : State P Op W) :
    ∀ i : Input P ι, Decidable (Alone entry s i)
  | .tick p i =>
    match hp : s.prog p with
    | .done _ => isTrue (by simp [Alone, hp])
    | .act (β := β) o _ => decidable_of_iff (entry (β := β) o → ∀ q, q ≠ p → s.Next q entry)
        (by simp [Alone, hp])
  | .crash _ => isTrue trivial

/-- The program begins with its entry. From an idle state, run by itself, it keeps the invariant,
and ends in an idle state. -/
def Sequential (Idle Inv : W → Prop) : Prog Op Unit → Prop
  | .done _ => False
  | .act o k => entry o ∧ ∀ w i, Idle w → S.legal o i w →
      Inv (S.exec o i w).2 ∧
        (k (S.exec o i w).1).Along S entry Inv (fun _ => Idle) (S.exec o i w).2

variable {S entry} {main : Prog Op Unit} {Idle Inv : W → Prop} {s : State P Op W}

/-- A process is outside of its program. -/
def Outside (main : Prog Op Unit) (m : Prog Op Unit) : Prop := m = .done () ∨ m = main

/-- All processes are outside and the state is idle, or one of them is in the middle of its
program. -/
def OneInside (S : System Op ι W) (entry : {β : Type} → Op β → Prop) (main : Prog Op Unit)
    (Idle Inv : W → Prop) (s : State P Op W) : Prop :=
  Inv s.shared ∧
    ((Idle s.shared ∧ ∀ q, Outside main (s.prog q)) ∨
      ∃ p, (s.prog p).Along S entry Inv (fun _ => Idle) s.shared ∧
        ∀ q, q ≠ p → Outside main (s.prog q))

theorem outside_update {p : P} {m : Prog Op Unit} (hm : Outside main m)
    (h : ∀ q, q ≠ p → Outside main (s.prog q)) (q : P) :
    Outside main (Function.update s.prog p m q) := by
  by_cases hq : q = p
  · subst hq
    rwa [Function.update_self]
  · rw [Function.update_of_ne hq]
    exact h q hq

/-- One process goes on in the middle of its program. -/
theorem oneInside_update {p : P} {m : Prog Op Unit} {w : W} (hinv : Inv w)
    (hm : m.Along S entry Inv (fun _ => Idle) w) (h : ∀ q, q ≠ p → Outside main (s.prog q)) :
    OneInside S entry main Idle Inv ⟨Function.update s.prog p m, w⟩ := by
  refine ⟨hinv, Or.inr ⟨p, ?_, fun q hq => ?_⟩⟩
  · dsimp only
    rwa [Function.update_self]
  · dsimp only
    rw [Function.update_of_ne hq]
    exact h q hq

/-- Where a process enters alone, no other is in the middle of its program. -/
theorem idle_of_alone (h : OneInside S entry main Idle Inv s) {p : P} {o : Op β}
    {k : β → Prog Op Unit} (hp : s.prog p = .act o k) (ho : entry o)
    (halone : ∀ q, q ≠ p → s.Next q entry) :
    Idle s.shared ∧ ∀ q, q ≠ p → Outside main (s.prog q) := by
  rcases h.2 with ⟨hidle, hout⟩ | ⟨q, hq, hout⟩
  · exact ⟨hidle, fun q _ => hout q⟩
  · -- what is left of a program has no entry: that process is done
    by_cases hqp : q = p
    · subst hqp
      rw [hp] at hq
      exact absurd ho hq.1
    · have hnext := halone q hqp
      cases hprog : s.prog q with
      | done a =>
        rw [hprog] at hq
        refine ⟨hq, fun r _ => ?_⟩
        by_cases hr : r = q
        · rw [hr, hprog]
          exact Or.inl rfl
        · exact hout r hr
      | act o' k' =>
        rw [hprog] at hq
        exact absurd ((State.next_iff_of_act hprog).mp hnext) hq.1

/-- **One input** of processes that enter alone. -/
theorem oneInside_step (hmain : S.Sequential entry Idle Inv main)
    (hcrash : ∀ {β : Type} (o : Op β), ¬ S.crashes o) (h : OneInside S entry main Idle Inv s)
    {i : Input P ι} (hi : S.Permits s i) (halone : Alone entry s i) :
    OneInside S entry main Idle Inv (S.step main s i) := by
  cases i with
  | crash p =>
    cases hp : s.prog p with
    | done a =>
      have hsame : S.step main s (.crash p : Input P ι) = s := by
        have hupdate : Function.update s.prog p (.done ()) = s.prog := by
          rw [Function.update_eq_self_iff, hp]
        rw [System.step, hupdate]
      rwa [hsame]
    | act o k => exact absurd ((permits_crash_of_act hp).mp hi) (hcrash o)
  | tick p i =>
    cases hp : s.prog p with
    | done a =>
      rw [step_tick_of_done hp]
      refine ⟨h.1, ?_⟩
      rcases h.2 with ⟨hidle, hout⟩ | ⟨q, hq, hout⟩
      · exact Or.inl ⟨hidle, outside_update (Or.inr rfl) fun r _ => hout r⟩
      · by_cases hqp : q = p
        · -- the process that was inside is done
          subst hqp
          rw [hp] at hq
          exact Or.inl ⟨hq, outside_update (Or.inr rfl) hout⟩
        · refine Or.inr ⟨q, ?_, fun r hr => ?_⟩
          · dsimp only
            rwa [Function.update_of_ne hqp]
          · dsimp only
            by_cases hrp : r = p
            · subst hrp
              rw [Function.update_self]
              exact Or.inr rfl
            · rw [Function.update_of_ne hrp]
              exact hout r hr
    | act o k =>
      rw [step_tick_of_act hp]
      have hlegal := (permits_tick_of_act hp).mp hi
      have hnotDone : s.prog p ≠ .done () := by
        intro he
        rw [hp] at he
        cases he
      -- a process that is outside enters, and finds the state idle
      have henter : s.prog p = main → OneInside S entry main Idle Inv
          ⟨Function.update s.prog p (k (S.exec o i s.shared).1), (S.exec o i s.shared).2⟩ := by
        intro he
        rw [← he, hp] at hmain
        obtain ⟨ho, hentered⟩ := hmain
        have hothers : ∀ q, q ≠ p → s.Next q entry := by
          simp only [Alone, hp] at halone
          exact halone ho
        obtain ⟨hidle, hout⟩ := idle_of_alone h hp ho hothers
        obtain ⟨hinv, hk⟩ := hentered _ i hidle hlegal
        exact oneInside_update hinv hk hout
      rcases h.2 with ⟨hidle, hout⟩ | ⟨q, hq, hout⟩
      · exact henter ((hout p).resolve_left hnotDone)
      · by_cases hqp : q = p
        · subst hqp
          rw [hp] at hq
          obtain ⟨hinv, hk⟩ := hq.2 i hlegal
          exact oneInside_update hinv hk hout
        · exact henter ((hout p fun hpq => hqp hpq.symm).resolve_left hnotDone)

/-- **Processes that enter alone** keep the invariant throughout. -/
theorem invariant_of_alone (hmain : S.Sequential entry Idle Inv main)
    (hcrash : ∀ {β : Type} (o : Op β), ¬ S.crashes o) {w : W} (hidle : Idle w) (hinv : Inv w)
    {is : List (Input P ι)}
    (his : Each (S.step main) (fun _ s i => S.Permits s i ∧ Alone entry s i)
      ⟨fun _ => .done (), w⟩ is) :
    Always (S.step main) (fun _ s => Inv s.shared) ⟨fun _ => .done (), w⟩ is := by
  intro pre hpre
  refine (inv_of_each (I := fun _ s => OneInside S entry main Idle Inv s)
    ⟨hinv, Or.inl ⟨hidle, fun _ => Or.inl rfl⟩⟩ ?_ (his.restrict hpre)).1
  exact fun _ s i h hi => oneInside_step hmain hcrash h hi.1 hi.2

end System

end Process
