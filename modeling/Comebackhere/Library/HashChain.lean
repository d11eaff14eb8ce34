import Mathlib.Data.List.Basic
import Mathlib.Data.List.Induction
import Mathlib.Logic.Function.Basic

/-!
# Chains of hashes

Each record of a chain has a number, the hash of the record before it, and a hash of what it says. A
chain is linked if these agree along it. When one record is replaced by another that has the same
hashes stored, the chain is still linked exactly if the hash of the other is the right one. As long
as hashes do not collide, the chain binds what its records say to the hashes if what is hashed
determines the record.

## Main definitions

* `Scheme`: where a record has its number and its hashes, and what is hashed
* `Scheme.Linked`: numbers and hashes agree along a chain
* `Scheme.verifyFrom`: the check of a chain, with errors
* `build next inputs`: the chain that inputs build
* `Scheme.Binds`: no record can be replaced under its hashes without a chain that is not linked
* `Scheme.Determined`: what is hashed belongs to no other record with these hashes

## Main results

* `Scheme.linked_append`: the last records are linked to those before
* `Scheme.verifyFrom_eq_ok_iff`: what the check of a chain accepts
* `Scheme.linked_build`: chains are linked as they are built
* `Scheme.linked_set_iff`: when a record can be replaced under its hashes
* `Scheme.binds_iff`: a linked chain binds its records if they are determined
-/

namespace HashChain

/-- How the records of a chain are numbered and hashed. -/
structure Scheme (α σ μ δ η : Type*) where
  number : ℕ → σ
  seq : α → σ
  prev : α → η
  hash : α → η
  message : α → μ
  sum : μ → δ
  text : δ → η
  text_injective : Function.Injective text

/-- The chain that inputs build, each with a record behind those before. -/
def build {α ι : Type*} (next : List α → ι → α) (inputs : List ι) : List α :=
  inputs.foldl (fun rs input => rs ++ [next rs input]) []

theorem build_snoc {α ι : Type*} {next : List α → ι → α} {inputs : List ι} {input : ι} :
    build next (inputs ++ [input]) = build next inputs ++ [next (build next inputs) input] := by
  rw [build, List.foldl_append]
  rfl

/-- What the records of a chain are like, the inputs are like. -/
theorem forall_mem_build {α ι : Type*} {next : List α → ι → α} {P : α → Prop} {Q : ι → Prop}
    (h : ∀ rs input, P (next rs input) ↔ Q input) {inputs : List ι} :
    (∀ r ∈ build next inputs, P r) ↔ ∀ input ∈ inputs, Q input := by
  induction inputs using List.reverseRecOn with
  | nil => exact iff_of_true (List.forall_mem_nil _) (List.forall_mem_nil _)
  | append_singleton inputs input ih =>
    rw [build_snoc, List.forall_mem_append, List.forall_mem_append, List.forall_mem_singleton,
      List.forall_mem_singleton, ih, h]

namespace Scheme

variable {α σ μ δ η : Type*} (S : Scheme α σ μ δ η)

/-- A record that fits at a position. -/
structure Sound (idx : ℕ) (prev : η) (r : α) : Prop where
  seq : S.seq r = S.number idx
  prev : S.prev r = prev
  hash : S.hash r = S.text (S.sum (S.message r))

/-- Numbers and hashes agree along a chain. -/
def Linked : ℕ → η → List α → Prop
  | _, _, [] => True
  | idx, prev, r :: rs => S.Sound idx prev r ∧ Linked (idx + 1) (S.hash r) rs

/-- Check the records one after another, with an error for each way in which one does not fit. -/
def verifyFrom {ε : Type*} [DecidableEq σ] [DecidableEq η] (badSeq badLink badHash : ℕ → α → ε) :
    ℕ → η → List α → Except ε Unit
  | _, _, [] => .ok ()
  | idx, prev, r :: rs =>
    if S.seq r ≠ S.number idx then .error (badSeq idx r)
    else if S.prev r ≠ prev then .error (badLink idx r)
    else if S.hash r ≠ S.text (S.sum (S.message r)) then .error (badHash idx r)
    else verifyFrom badSeq badLink badHash (idx + 1) (S.hash r) rs

/-- The hash that the next record has to name. -/
def lastHash (prev : η) (rs : List α) : η := (rs.getLast?.map S.hash).getD prev

variable {S} {idx i : ℕ} {prev : η} {r r' : α} {rs rs' : List α}

theorem lastHash_cons : S.lastHash prev (r :: rs) = S.lastHash (S.hash r) rs := by
  rw [lastHash, lastHash, List.getLast?_cons]
  cases rs.getLast? <;> rfl

/-- The first records are linked by themselves, and the others to the last of them. -/
theorem linked_append : S.Linked idx prev (rs ++ rs') ↔
    S.Linked idx prev rs ∧ S.Linked (idx + rs.length) (S.lastHash prev rs) rs' := by
  induction rs generalizing idx prev with
  | nil => exact (and_iff_right trivial).symm
  | cons r rs ih =>
    rw [List.cons_append, Linked, Linked, ih, lastHash_cons, List.length_cons, and_assoc,
      Nat.add_assoc, Nat.add_comm 1]

/-- **The check accepts the chains that are linked.** -/
theorem verifyFrom_eq_ok_iff {ε : Type*} [DecidableEq σ] [DecidableEq η]
    {badSeq badLink badHash : ℕ → α → ε} :
    S.verifyFrom badSeq badLink badHash idx prev rs = .ok () ↔ S.Linked idx prev rs := by
  induction rs generalizing idx prev with
  | nil => exact iff_of_true rfl trivial
  | cons r rs ih =>
    rw [verifyFrom, Linked]
    constructor
    · intro h
      -- each error is one of the conditions of a sound record
      split at h
      · cases h
      · next hseq =>
        split at h
        · cases h
        · next hprev =>
          split at h
          · cases h
          · next hhash =>
            exact ⟨⟨not_not.mp hseq, not_not.mp hprev, not_not.mp hhash⟩, ih.mp h⟩
    · rintro ⟨hr, h⟩
      rw [if_neg (not_not.mpr hr.seq), if_neg (not_not.mpr hr.prev), if_neg (not_not.mpr hr.hash)]
      exact ih.mpr h

/-- **A chain is linked as it is built** if each record is sound where it is appended. -/
theorem linked_build {ι : Type*} {next : List α → ι → α}
    (h : ∀ rs input, S.Linked 0 prev rs → S.Sound rs.length (S.lastHash prev rs) (next rs input))
    (inputs : List ι) : S.Linked 0 prev (build next inputs) := by
  induction inputs using List.reverseRecOn with
  | nil => trivial
  | append_singleton inputs input ih =>
    rw [build_snoc, linked_append, Nat.zero_add]
    exact ⟨ih, h _ _ ih, trivial⟩

/-- Only the position of a record decides about one that has the same hashes. -/
theorem linked_set_iff (h : S.Linked idx prev rs) (hr : rs[i]? = some r)
    (hprev : S.prev r' = S.prev r) (hhash : S.hash r' = S.hash r) :
    S.Linked idx prev (rs.set i r') ↔ S.seq r' = S.number (idx + i) ∧
      S.hash r' = S.text (S.sum (S.message r')) := by
  induction rs generalizing idx prev i with
  | nil => cases hr
  | cons x rs ih =>
    obtain ⟨hx, h⟩ := h
    cases i with
    | zero =>
      obtain rfl : x = r := Option.some.inj hr
      rw [List.set_cons_zero, Linked, hhash, and_iff_left h, Nat.add_zero]
      exact ⟨fun hr' => ⟨hr'.seq, hhash ▸ hr'.hash⟩,
        fun hr' => ⟨hr'.1, hprev.trans hx.prev, hhash.trans hr'.2⟩⟩
    | succ i =>
      rw [List.set_cons_succ, Linked, and_iff_right hx, ih h hr, Nat.add_right_comm, Nat.add_assoc]

theorem sound_of_linked (h : S.Linked idx prev rs) (hr : rs[i]? = some r) :
    S.Sound (idx + i) (S.prev r) r := by
  induction rs generalizing idx prev i with
  | nil => cases hr
  | cons x rs ih =>
    cases i with
    | zero =>
      obtain rfl : x = r := Option.some.inj hr
      exact ⟨h.1.seq, rfl, h.1.hash⟩
    | succ i =>
      rw [← Nat.succ_add_eq_add_succ]
      exact ih h.2 hr

/-! ## Bound contents -/

variable (S)

/-- No record can be replaced by another one with the same hashes stored, unless the hash of the
other collides. -/
def Binds (accepts : List α → Prop) (rs : List α) : Prop :=
  ∀ (i : ℕ) (r r' : α), rs[i]? = some r → r' ≠ r → S.prev r' = S.prev r → S.hash r' = S.hash r →
    (S.sum (S.message r') = S.sum (S.message r) → S.message r' = S.message r) →
      ¬accepts (rs.set i r')

/-- What is hashed belongs to no other record with this number and these hashes. -/
def Determined (r : α) : Prop :=
  ∀ r' : α, S.seq r' = S.seq r → S.prev r' = S.prev r → S.hash r' = S.hash r →
    S.message r' = S.message r → r' = r

variable {S}

/-- **A linked chain binds its records** exactly if what is hashed determines each. -/
theorem binds_iff (h : S.Linked idx prev rs) :
    S.Binds (S.Linked idx prev) rs ↔ ∀ r ∈ rs, S.Determined r := by
  constructor
  · intro hbinds r hr r' hseq hprev hhash hmessage
    by_contra hne
    obtain ⟨i, hi⟩ := List.mem_iff_getElem?.mp hr
    have hsound := sound_of_linked h hi
    refine hbinds i r r' hi hne hprev hhash (fun _ => hmessage)
      ((linked_set_iff h hi hprev hhash).mpr ⟨hseq.trans hsound.seq, ?_⟩)
    rw [hhash, hmessage, hsound.hash]
  · intro hdetermined i r r' hi hne hprev hhash hcollision hlinked
    have hsound := sound_of_linked h hi
    obtain ⟨hseq, hhash'⟩ := (linked_set_iff h hi hprev hhash).mp hlinked
    -- Both hashes are the one that is stored.
    have hsum : S.sum (S.message r') = S.sum (S.message r) := by
      apply S.text_injective
      rw [← hhash', hhash, hsound.hash]
    exact hne (hdetermined r (List.mem_of_getElem? hi) r' (hseq.trans hsound.seq.symm) hprev hhash
      (hcollision hsum))

end Scheme

end HashChain
