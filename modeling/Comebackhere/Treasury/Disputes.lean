import Comebackhere.Treasury.Effect

/-!
# Settlements on hold

A dispute puts a settlement on hold, and the signers are to take it off. The entry point that does
compares its caller with nobody, and a proposal can take the id of a settlement on hold after the
contract was initialized again.

## Main definitions

* `LeavesHold w w'`: a settlement on hold in `w` is not on hold in `w'`
* `ByAuthority e s`: a signer of positive weight, or the admin, authorised the invocation
* `EndsHold s c`: the invocations that take a settlement off hold

## Main results

* `heldByAuthority_iff`: holds are ended by the authority in the runs whose invocations that end one
  are authorised by it
-/

namespace Treasury

open Soroban Checked Machine

variable {D : Deployment} {e : Env} {w w' : State D} {i : Input D Call} {c : Call} {v : Val}

/-- A settlement that was on hold is so no longer. -/
def LeavesHold (w w' : State D) : Prop :=
  ∃ id x, w.storage.settlement id = some x ∧ x.status = .onHold ∧
    ∀ y, w'.storage.settlement id = some y → y.status ≠ .onHold

/-- A signer with a positive stored weight, or the stored admin, authorised the invocation. -/
def ByAuthority (e : Env) (s : Storage) : Prop :=
  ∃ a ∈ e.auths, 0 < s.weight a ∨ s.admin = some a

instance {s : Storage} : Decidable (ByAuthority e s) :=
  inferInstanceAs (Decidable (∃ a ∈ e.auths, 0 < s.weight a ∨ s.admin = some a))

/-- The invocation resolves a dispute, or proposes a settlement in the place of one on hold. -/
def EndsHold (s : Storage) : Call → Prop
  | .resolveDispute _ _ _ => True
  | .proposeSettlement _ _ _ _ =>
    ∃ x, s.settlement (s.nextSettlementId.getD 1) = some x ∧ x.status = .onHold
  | _ => False

theorem not_leavesHold_of_eq (h : w'.storage.settlement = w.storage.settlement) :
    ¬ LeavesHold w w' := by
  rintro ⟨id, x, hx, hhold, hy⟩
  exact hy x (h ▸ hx) hhold

/-- Writing one settlement ends a hold when that settlement was on hold and is so no longer. -/
theorem leavesHold_update {id : UInt64} {x' : Settlement}
    (hw : w'.storage.settlement = Function.update w.storage.settlement id (some x')) :
    LeavesHold w w' ↔
      x'.status ≠ .onHold ∧ ∃ x, w.storage.settlement id = some x ∧ x.status = .onHold := by
  constructor
  · rintro ⟨id', x, hx, hhold, hy⟩
    by_cases hid : id' = id
    · subst hid
      exact ⟨hy x' (by simp [hw]), x, hx, hhold⟩
    · exact absurd hhold (hy x (by simp [hw, Function.update_of_ne hid, hx]))
  · rintro ⟨hne, x, hx, hhold⟩
    refine ⟨id, x, hx, hhold, ?_⟩
    intro y hy
    obtain rfl : x' = y := by simpa [hw] using hy
    exact hne

/-- Of the edits of a settlement on hold, only the resolution takes it off hold. -/
theorem Edit.endsHold_iff {s : Storage} {id : UInt64} {x x' : Settlement}
    (hedit : Edit e s c id x x') :
    (x'.status ≠ .onHold ∧ x.status = .onHold) ↔ EndsHold s c := by
  cases hedit with
  | resolve hhold => simp [hhold, EndsHold, ite_eq_iff]
  | raise _ => simp [EndsHold]
  | cancel _ hp _ _ | approve hp _ | execute hp _ | updateMerchant hp => simp [hp, EndsHold]

/-- **What ends a hold**: the accepted invocations that resolve a dispute, or write over a
settlement on hold. -/
theorem Effect.leavesHold_iff (heff : Effect e w c w' v) :
    LeavesHold w w' ↔ EndsHold w.storage c := by
  cases heff.book with
  | unchanged hc hb =>
    apply iff_of_false (not_leavesHold_of_eq hb)
    cases c <;> first | exact id | exact absurd hc.symm Bool.false_ne_true
  | proposed hid hpending _ hb =>
    rw [leavesHold_update hb, hid]
    simp [hpending, EndsHold]
  | edited hx hedit hb =>
    rw [leavesHold_update hb, ← hedit.endsHold_iff]
    simp [hx]

/-- A step ends holds by authority exactly when an accepted invocation that ends one has it. -/
theorem leavesHold_step_iff :
    (LeavesHold w (step w i) → ∃ e c, i = .call e c ∧ ByAuthority e w.storage) ↔
      IfAccepted invoke (fun e c _ => EndsHold w.storage c → ByAuthority e w.storage) (w, i) := by
  rcases step_cases w i with ⟨hn, hs⟩ | ⟨e, c, v, rfl, ha, heff⟩
  · exact iff_of_true (fun h => absurd h (not_leavesHold_of_eq (by rw [hs])))
      (ifAccepted_of_none hn)
  · rw [ifAccepted_iff ha, ← heff.leavesHold_iff]
    apply imp_congr_right
    intro _
    constructor
    · rintro ⟨e', c', he, hauth⟩
      obtain ⟨rfl, rfl⟩ := Input.call.inj he
      exact hauth
    · exact fun hauth => ⟨e, c, rfl, hauth⟩

/-- **Holds**: in a run, settlements leave their hold only by a call that a signer of positive
weight or the admin authorised, exactly when the accepted invocations that end a hold all are. -/
theorem heldByAuthority_iff (l : D.Ledger) (wasm : WasmHash) (is : List (Input D Call)) :
    (∀ t ∈ transitions step (fresh l wasm) is, LeavesHold t.1 (step t.1 t.2) →
        ∃ e c, t.2 = .call e c ∧ ByAuthority e t.1.storage) ↔
      Each step (fun _ w i => IfAccepted invoke
          (fun e c _ => EndsHold w.storage c → ByAuthority e w.storage) (w, i))
        (fresh l wasm) is := by
  rw [each_iff_transitions]
  apply forall₂_congr
  intro t _
  exact leavesHold_step_iff

/-- A merchant raises a dispute, and account 9, who is neither signer nor admin, resolves it. -/
def resolvedByAnyone : List (Input (isolated (.contract 0)) Call) :=
  [.call ⟨{.account 0}, 0, true⟩ (.initializeContract [(.account 1, 1)] 1 (.account 0)),
    .call ⟨{.account 1}, 1, true⟩
      (.proposeSettlement (.account 1) (.contract 1) 500 (.account 3)),
    .call ⟨{.account 3}, 2, true⟩ (.raiseDispute (.account 3) 1 0),
    .call ⟨{.account 9}, 3, true⟩ (.resolveDispute (.account 9) 1 true)]

theorem resolvedByAnyone_not_byAuthority :
    ¬ ∀ t ∈ transitions step (fresh () 0) resolvedByAnyone, LeavesHold t.1 (step t.1 t.2) →
      ∃ e c, t.2 = .call e c ∧ ByAuthority e t.1.storage := by
  intro h
  -- the state before the last input, in which settlement 1 is on hold
  let w := run step (fresh () 0) (resolvedByAnyone.take 3)
  have hmem : (w, resolvedByAnyone[3]) ∈ transitions step (fresh () 0) resolvedByAnyone :=
    (mem_transitions_iff step).mpr ⟨resolvedByAnyone.take 3, by simp [resolvedByAnyone], rfl⟩
  have hhold : w.storage.settlement 1 =
      some ⟨.contract 1, 500, .account 3, .onHold, 0, .account 1, 2592001⟩ := by decide
  have hfree : (step w resolvedByAnyone[3]).storage.settlement 1 =
      some ⟨.contract 1, 500, .account 3, .pending, 0, .account 1, 2592001⟩ := by decide
  obtain ⟨e, c, he, hauth⟩ := h _ hmem ⟨1, _, hhold, rfl, by simp [hfree]⟩
  obtain ⟨rfl, -⟩ := Input.call.inj he
  exact absurd hauth (by decide)

end Treasury
