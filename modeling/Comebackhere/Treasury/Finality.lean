import Comebackhere.Treasury.Effect

/-!
# Finality of settlements

A settlement that was executed or cancelled should stay so. Five entry points write the status,
and a proposal writes a whole settlement; the condition under which none of them overwrites a
final status is stated here on the state each is called in.

## Main definitions

* `KeepsStatus w w'`: the final statuses of `w` stand in `w'`
* `executions id h`: how often a settlement was executed
* `Final`: every final status of the history stands, and no settlement was executed twice
* `SparesFinal`: the invocation writes no settlement that is final

## Main results

* `final_iff`: settlements are final throughout the runs that spare them
-/

namespace Treasury

open Soroban Checked Machine

variable {D : Deployment} {e : Env} {w w' : State D} {i : Input D Call} {h : History D}

/-- Executed and cancelled are the final statuses. -/
def SettlementStatus.isFinal : SettlementStatus → Bool
  | .executed | .cancelled => true
  | _ => false

/-- Every settlement with a final status in `w` has the same status in `w'`. -/
def KeepsStatus (w w' : State D) : Prop :=
  ∀ id x, w.storage.settlement id = some x → x.status.isFinal = true →
    ∃ y, w'.storage.settlement id = some y ∧ y.status = x.status

theorem KeepsStatus.of_eq (h : w'.storage.settlement = w.storage.settlement) : KeepsStatus w w' :=
  fun _ x hx _ => ⟨x, h ▸ hx, rfl⟩

theorem KeepsStatus.trans {w'' : State D} (h : KeepsStatus w w') (h' : KeepsStatus w' w'') :
    KeepsStatus w w'' := by
  intro id x hx hfinal
  obtain ⟨y, hy, hyx⟩ := h id x hx hfinal
  obtain ⟨z, hz, hzy⟩ := h' id y hy (hyx ▸ hfinal)
  exact ⟨z, hz, hzy.trans hyx⟩

/-- Writing one settlement keeps the final statuses when it keeps that settlement's. -/
theorem keepsStatus_update {id : UInt64} {x' : Settlement}
    (hw : w'.storage.settlement = Function.update w.storage.settlement id (some x')) :
    KeepsStatus w w' ↔ ∀ x, w.storage.settlement id = some x → x.status.isFinal = true →
      x'.status = x.status := by
  constructor
  · intro hk x hx hfinal
    obtain ⟨y, hy, hyx⟩ := hk id x hx hfinal
    obtain rfl : x' = y := by simpa [hw] using hy
    exact hyx
  · intro hk id' x hx hfinal
    by_cases hid : id' = id
    · subst hid
      exact ⟨x', by simp [hw], hk x hx hfinal⟩
    · exact ⟨x, by simpa [hw, Function.update_of_ne hid] using hx, rfl⟩

/-! ## What keeps a final status -/

/-- A dispute is raised on no settlement that is final, and a proposal takes the id of none. -/
def SparesFinal (w : State D) : Call → Prop
  | .raiseDispute _ id _ =>
    ∀ x, w.storage.settlement id = some x → x.status.isFinal = false
  | .proposeSettlement _ _ _ _ =>
    ∀ x, w.storage.settlement (w.storage.nextSettlementId.getD 1) = some x →
      x.status.isFinal = false
  | _ => True

/-- An edit of a settlement that is final is a dispute. -/
theorem Edit.raise_of_isFinal {s : Storage} {c : Call} {id : UInt64} {x x' : Settlement}
    (hedit : Edit e s c id x x') (hfinal : x.status.isFinal = true) :
    ∃ signer reason, c = .raiseDispute signer id reason ∧ x'.status = .onHold := by
  cases hedit with
  | raise _ => exact ⟨_, _, rfl, rfl⟩
  | cancel _ hp _ _ => simp [hp, SettlementStatus.isFinal] at hfinal
  | approve hp _ => simp [hp, SettlementStatus.isFinal] at hfinal
  | execute hp _ => simp [hp, SettlementStatus.isFinal] at hfinal
  | resolve hp => simp [hp, SettlementStatus.isFinal] at hfinal
  | updateMerchant hp => simp [hp, SettlementStatus.isFinal] at hfinal

/-- An accepted invocation keeps the final statuses exactly when it spares them. -/
theorem Effect.keepsStatus_iff {c : Call} {v : Val} (heff : Effect e w c w' v) :
    KeepsStatus w w' ↔ SparesFinal w c := by
  cases heff.book with
  | unchanged hc hb =>
    apply iff_of_true (.of_eq hb)
    cases c <;> trivial
  | @proposed _ _ _ _ id y hid hpending _ hb =>
    -- a proposal is pending, so it keeps the status of no final settlement
    rw [keepsStatus_update hb, hid]
    apply forall₂_congr
    intro x hx
    cases hs : x.status <;> simp [hpending, SettlementStatus.isFinal]
  | @edited _ _ id x x' hx hedit hb =>
    rw [keepsStatus_update hb]
    by_cases hfinal : x.status.isFinal = true
    · obtain ⟨signer, reason, rfl, hx'⟩ := hedit.raise_of_isFinal hfinal
      refine iff_of_false (fun hk => ?_) fun hC => ?_
      · have hne : x.status = .onHold := hx' ▸ (hk x hx hfinal).symm
        simp [hne, SettlementStatus.isFinal] at hfinal
      · simp [hC x hx] at hfinal
    · -- nothing final is written
      refine iff_of_true (fun y hy hyf => ?_) ?_
      · obtain rfl : x = y := by simpa [hx] using hy
        exact absurd hyf hfinal
      · cases hedit with
        | raise _ =>
          intro y hy
          obtain rfl : x = y := by simpa [hx] using hy
          simpa using hfinal
        | _ => trivial

/-! ## Executions -/

/-- The transition is an accepted execution of the settlement. -/
def executes (settlementId : UInt64) (t : State D × Input D Call) : Bool :=
  match accepted invoke t with
  | some (_, .executeSettlement _ id _, _) => id = settlementId
  | _ => false

/-- How often a settlement was executed. -/
def executions (settlementId : UInt64) (h : History D) : ℕ := h.countP (executes settlementId)

/-- Every final status of the history stands, and no settlement was executed twice. -/
structure Final (h : History D) (w : State D) : Prop where
  absorbing : ∀ t ∈ h, KeepsStatus t.1 w
  once : ∀ id, executions id h ≤ 1

/-- Finality, with what carries it: a settlement that was executed is stored as executed. -/
structure FinalInv (h : History D) (w : State D) : Prop extends Final h w where
  executed : ∀ id, 0 < executions id h →
    ∃ x, w.storage.settlement id = some x ∧ x.status = .executed

/-- An accepted execution finds the settlement pending and leaves it executed. -/
theorem executes_spec {id : UInt64} (he : executes id (w, i) = true) :
    (∃ x, w.storage.settlement id = some x ∧ x.status = .pending) ∧
    ∃ x, (step w i).storage.settlement id = some x ∧ x.status = .executed := by
  unfold executes at he
  split at he
  · next e signer id' token v ha =>
    obtain rfl : id' = id := by simpa using he
    obtain ⟨⟨-, -, x, hx, hp, -, -, hw⟩, -⟩ := by
      simpa only [invoke, unitResult_eq_ok, executeSettlement_eq_ok] using
        (invoke_of_accepted ha).2
    exact ⟨⟨x, hx, hp⟩, { x with status := .executed }, by simp [hw], rfl⟩
  · simp at he

/-- A step that keeps the final statuses keeps finality. -/
theorem FinalInv.snoc (hI : FinalInv h w) (hk : KeepsStatus w (step w i)) :
    FinalInv (h ++ [(w, i)]) (step w i) := by
  have hcount : ∀ id, executions id (h ++ [(w, i)]) =
      executions id h + if executes id (w, i) then 1 else 0 := by
    intro id
    by_cases he : executes id (w, i) = true <;> simp [executions, he]
  refine ⟨⟨fun t ht => ?_, fun id => ?_⟩, fun id hpos => ?_⟩
  · rcases List.mem_append.mp ht with ht | ht
    · exact (hI.absorbing t ht).trans hk
    · obtain rfl := List.mem_singleton.mp ht
      exact hk
  · rw [hcount]
    by_cases he : executes id (w, i) = true
    · -- the settlement is pending, so it was not executed before
      obtain ⟨x, hx, hp⟩ := (executes_spec he).1
      have hzero : executions id h = 0 := by
        apply Nat.eq_zero_of_not_pos
        intro hpos
        obtain ⟨y, hy, hex⟩ := hI.executed id hpos
        obtain rfl : x = y := by simpa [hx] using hy
        simp [hp] at hex
      simp [hzero, he]
    · simpa [he] using hI.once id
  · by_cases he : executes id (w, i) = true
    · exact (executes_spec he).2
    · -- executed earlier: executed is a final status, and the step keeps those
      rw [hcount] at hpos
      obtain ⟨x, hx, hex⟩ := hI.executed id (by simpa [he] using hpos)
      obtain ⟨y, hy, hyx⟩ := hk id x hx (by rw [hex]; rfl)
      exact ⟨y, hy, hyx.trans hex⟩

/-- **Finality**: from a fresh deployment, final statuses stand and settlements are executed at
most once throughout exactly the runs whose accepted invocations spare the final settlements. -/
theorem final_iff (l : D.Ledger) (wasm : WasmHash) (is : List (Input D Call)) :
    Always step Final (fresh l wasm) is ↔
      Each step (fun _ w i => IfAccepted invoke (fun _ c _ => SparesFinal w c) (w, i))
        (fresh l wasm) is := by
  refine always_iff_each (I := FinalInv) ?_ (fun h w hI => hI.toFinal) ?_ ?_ is
  · exact ⟨⟨by simp, by simp [executions]⟩, by simp [executions]⟩
  · intro h w i hI hC
    apply hI.snoc
    rcases step_cases w i with ⟨-, hs⟩ | ⟨e, c, v, -, ha, heff⟩
    · exact .of_eq (by rw [hs])
    · exact heff.keepsStatus_iff.mpr ((ifAccepted_iff ha).mp hC)
  · intro h w i hI hP
    rcases step_cases w i with ⟨hn, -⟩ | ⟨e, c, v, -, ha, heff⟩
    · exact ifAccepted_of_none hn
    · exact (ifAccepted_iff ha).mpr
        (heff.keepsStatus_iff.mp (hP.absorbing (w, i) (by simp)))

/-- An executed settlement is put on hold by its merchant, taken off hold and executed again. -/
def secondExecution : List (Input (isolated (.contract 0)) Call) :=
  [.call ⟨{.account 0}, 0, true⟩ (.initializeContract [(.account 1, 1)] 1 (.account 0)),
    .call ⟨{.account 1}, 1, true⟩
      (.proposeSettlement (.account 1) (.contract 1) 500 (.account 3)),
    .call ⟨{.account 1}, 2, true⟩ (.approveSettlement (.account 1) 1),
    .call ⟨{.account 1}, 3, true⟩ (.executeSettlement (.account 1) 1 (.contract 1)),
    .call ⟨{.account 3}, 4, true⟩ (.raiseDispute (.account 3) 1 0),
    .call ⟨{.account 4}, 5, true⟩ (.resolveDispute (.account 4) 1 true),
    .call ⟨{.account 1}, 6, true⟩ (.executeSettlement (.account 1) 1 (.contract 1))]

theorem secondExecution_not_final : ¬ Always step Final (fresh () 0) secondExecution := by
  intro h
  exact absurd (h.at_end.once 1) (by decide)

end Treasury
