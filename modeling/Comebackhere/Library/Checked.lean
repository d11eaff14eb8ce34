import Mathlib.Algebra.Group.Nat.Defs
import Mathlib.Data.List.Forall2
import Mathlib.Data.Option.Basic
import Mathlib.Order.Basic

/-!
# Checked computations

A guarded function is a sequence of checks in `Except`, each naming its own failure. The simp
lemmas here read the success of such a function off its text: it succeeds when every check
passes, with the value its last line returns.

## Main definitions

* `ensure p err`: fail with `err` unless `p`
* `orFail o err`: the value of `o`, or fail with `err`
* `checkedAdd a b`: the sum of two 64-bit numbers, if it fits

## Main results

* `bind_eq_ok`, `ensure_eq_ok`, `orFail_eq_ok`: success of a sequence of checks
* `foldlM_inv`: an invariant of a loop whose every iteration may fail
* `foldlM_eq_ok_iff`, `foldlM_once_eq_ok_iff`: when such a loop over a list of keys completes
-/

namespace Checked

universe u v

variable {ε : Type u} {α β : Type v}

/-- Fail with `err` unless `p` holds. -/
def ensure (p : Prop) [Decidable p] (err : ε) : Except ε Unit :=
  if p then .ok () else .error err

/-- The value of `o`, failing with `err` when there is none. -/
def orFail (o : Option α) (err : ε) : Except ε α :=
  match o with
  | some a => .ok a
  | none => .error err

@[simp] theorem bind_eq_ok {x : Except ε α} {f : α → Except ε β} {b : β} :
    (x >>= f) = .ok b ↔ ∃ a, x = .ok a ∧ f a = .ok b := by
  cases x with
  | error e => simp [bind, Except.bind]
  | ok a => simp [bind, Except.bind]

@[simp] theorem map_eq_ok {x : Except ε α} {f : α → β} {b : β} :
    (f <$> x) = .ok b ↔ ∃ a, x = .ok a ∧ b = f a := by
  cases x with
  | error e => simp [Functor.map, Except.map]
  | ok a => simp [Functor.map, Except.map, eq_comm]

@[simp] theorem pure_eq_ok {a b : α} : (pure a : Except ε α) = .ok b ↔ b = a := by
  simp [pure, Except.pure, eq_comm]

@[simp] theorem ensure_eq_ok {p : Prop} [Decidable p] {err : ε} {u : Unit} :
    ensure p err = .ok u ↔ p := by
  by_cases h : p <;> simp [ensure, h]

@[simp] theorem orFail_eq_ok {o : Option α} {err : ε} {a : α} :
    orFail o err = .ok a ↔ o = some a := by
  cases o <;> simp [orFail]

/-- An invariant kept by every iteration of a loop holds when the loop completes. -/
theorem foldlM_inv {f : β → α → Except ε β} {I : List α → β → Prop} {b b' : β} {l : List α}
    (h0 : I [] b) (hs : ∀ done x c c', I done c → f c x = .ok c' → I (done ++ [x]) c')
    (h : l.foldlM f b = .ok b') : I l b' := by
  -- the invariant speaks of the items already done, so the induction is over the items left
  suffices ∀ done c, I done c → l.foldlM f c = .ok b' → I (done ++ l) b' by
    simpa using this [] b h0 h
  clear h h0
  induction l with
  | nil =>
    intro done c hc h
    obtain rfl : b' = c := by simpa using h
    simpa using hc
  | cons x l ih =>
    intro done c hc h
    obtain ⟨c', hx, h⟩ := bind_eq_ok.mp (List.foldlM_cons (m := Except ε) ▸ h)
    simpa using ih (done ++ [x]) c' (hs done x c c' hc hx) h

/-- A loop whose iterations may fail, on a condition that no other iteration changes, completes
when every key meets the condition at the start. -/
theorem foldlM_eq_ok_iff {f : β → α → Except ε β} {g : β → α → β} {Ready : β → α → Prop}
    (hok : ∀ b a b', f b a = .ok b' ↔ Ready b a ∧ b' = g b a)
    (hstable : ∀ b a a', Ready b a → (Ready (g b a) a' ↔ Ready b a')) {l : List α} {b b' : β} :
    l.foldlM f b = .ok b' ↔ (∀ a ∈ l, Ready b a) ∧ b' = l.foldl g b := by
  induction l generalizing b with
  | nil => simp
  | cons a l ih =>
    -- `ih` is about the state after the first iteration: `hstable` takes its conditions back
    rw [List.foldlM_cons, bind_eq_ok, List.foldl_cons]
    constructor
    · rintro ⟨b₁, h₁, h⟩
      obtain ⟨ha, rfl⟩ := (hok _ _ _).mp h₁
      obtain ⟨hl, rfl⟩ := ih.mp h
      refine ⟨fun a' ha' => ?_, rfl⟩
      rcases List.mem_cons.mp ha' with rfl | ha'
      · exact ha
      · exact (hstable _ _ _ ha).mp (hl a' ha')
    · rintro ⟨hl, rfl⟩
      have ha := hl a List.mem_cons_self
      exact ⟨g b a, (hok _ _ _).mpr ⟨ha, rfl⟩,
        ih.mpr ⟨fun a' ha' => (hstable _ _ _ ha).mpr (hl a' (List.mem_cons_of_mem _ ha')), rfl⟩⟩

/-- A loop whose iterations use up the condition of their own key, and of no other, completes when
the keys are distinct and every key meets the condition at the start. -/
theorem foldlM_once_eq_ok_iff {f : β → α → Except ε β} {g : β → α → β} {Ready : β → α → Prop}
    (hok : ∀ b a b', f b a = .ok b' ↔ Ready b a ∧ b' = g b a)
    (hself : ∀ b a, Ready b a → ¬ Ready (g b a) a)
    (hothers : ∀ b a a', Ready b a → a' ≠ a → (Ready (g b a) a' ↔ Ready b a'))
    {l : List α} {b b' : β} :
    l.foldlM f b = .ok b' ↔ l.Nodup ∧ (∀ a ∈ l, Ready b a) ∧ b' = l.foldl g b := by
  induction l generalizing b with
  | nil => simp
  | cons a l ih =>
    rw [List.foldlM_cons, bind_eq_ok, List.foldl_cons, List.nodup_cons]
    constructor
    · rintro ⟨b₁, h₁, h⟩
      obtain ⟨ha, rfl⟩ := (hok _ _ _).mp h₁
      obtain ⟨hnd, hl, rfl⟩ := ih.mp h
      -- a second `a` would find its condition used up by the first
      have hnew : a ∉ l := fun hm => hself b a ha (hl a hm)
      refine ⟨⟨hnew, hnd⟩, fun a' ha' => ?_, rfl⟩
      rcases List.mem_cons.mp ha' with rfl | ha'
      · exact ha
      · exact (hothers _ _ _ ha fun he => hnew (he ▸ ha')).mp (hl a' ha')
    · rintro ⟨⟨hnew, hnd⟩, hl, rfl⟩
      have ha := hl a List.mem_cons_self
      refine ⟨g b a, (hok _ _ _).mpr ⟨ha, rfl⟩, ih.mpr ⟨hnd, fun a' ha' => ?_, rfl⟩⟩
      exact (hothers _ _ _ ha fun he => hnew (he ▸ ha')).mpr (hl a' (List.mem_cons_of_mem _ ha'))

/-- A loop that maps a list completes when every element does. -/
theorem mapM_eq_ok {f : α → Except ε β} {g : α → β} {l : List α} (h : ∀ a ∈ l, f a = .ok (g a)) :
    l.mapM f = .ok (l.map g) := by
  induction l with
  | nil => rfl
  | cons a l ih =>
    rw [List.mapM_cons, h a List.mem_cons_self, ih fun a' ha' => h a' (List.mem_cons_of_mem _ ha')]
    rfl

/-- What a loop that maps a list returns, when every element has a value. -/
theorem mapM_eq_ok_iff {f : α → Except ε β} {l : List α} {l' : List β} :
    l.mapM f = .ok l' ↔ List.Forall₂ (fun a b => f a = .ok b) l l' := by
  induction l generalizing l' with
  | nil => rw [List.mapM_nil, List.forall₂_nil_left_iff, pure_eq_ok]
  | cons a l ih =>
    rw [List.mapM_cons, List.forall₂_cons_left_iff, bind_eq_ok]
    constructor
    · rintro ⟨b, hb, h⟩
      obtain ⟨bs, hbs, h⟩ := bind_eq_ok.mp h
      exact ⟨b, bs, hb, ih.mp hbs, pure_eq_ok.mp h⟩
    · rintro ⟨b, bs, hb, hbs, rfl⟩
      exact ⟨b, hb, bind_eq_ok.mpr ⟨bs, ih.mpr hbs, rfl⟩⟩

/-- Such a loop completes exactly when every element has a value. -/
theorem exists_mapM_eq_ok_iff {f : α → Except ε β} {l : List α} :
    (∃ l', l.mapM f = .ok l') ↔ ∀ a ∈ l, ∃ b, f a = .ok b := by
  simp only [mapM_eq_ok_iff]
  induction l with
  | nil => simp
  | cons a l ih =>
    rw [List.forall_mem_cons, ← ih]
    constructor
    · rintro ⟨l', h⟩
      obtain ⟨b, bs, hb, hbs, -⟩ := List.forall₂_cons_left_iff.mp h
      exact ⟨⟨b, hb⟩, bs, hbs⟩
    · rintro ⟨⟨b, hb⟩, l', h⟩
      exact ⟨b :: l', .cons hb h⟩

/-! ## 64-bit sums -/

/-- The sum of two 64-bit numbers, if it fits. -/
def checkedAdd (a b : UInt64) : Option UInt64 :=
  if a.toNat + b.toNat < 2 ^ 64 then some (a + b) else none

theorem checkedAdd_eq_some {a b c : UInt64} :
    checkedAdd a b = some c ↔ a.toNat + b.toNat < 2 ^ 64 ∧ c.toNat = a.toNat + b.toNat := by
  unfold checkedAdd
  split
  · next h =>
    have hab : (a + b).toNat = a.toNat + b.toNat := by
      rw [UInt64.toNat_add, Nat.mod_eq_of_lt h]
    rw [Option.some.injEq, ← UInt64.toNat_inj, hab, eq_comm]
    exact ⟨fun hc => ⟨h, hc⟩, fun hc => hc.2⟩
  · next h => exact iff_of_false (by simp) fun hc => h hc.1

theorem add_eq_of_checkedAdd {a b c : UInt64} (h : checkedAdd a b = some c) : a + b = c := by
  simp only [checkedAdd, Option.ite_none_right_eq_some, Option.some.injEq] at h
  exact h.2

end Checked
