import Comebackhere.Soroban.Token
import Comebackhere.Treasury.Effect
import Mathlib.Algebra.BigOperators.Group.List.Basic
import Mathlib.Algebra.Ring.Int.Defs

/-!
# Funds of the treasury

A deposit and a withdrawal have the token contract transfer the amount; the execution of a
settlement writes the settlement's status and has nothing transferred. The balance the treasury
holds in a token is compared with what its history records.

## Main definitions

* `deposited`, `withdrawn`, `paidOut`: the amounts a transition records in a token
* `Conserved T l`: the balance is the one in `l` plus the deposits minus the withdrawals and the
  amounts of the executed settlements
* `MovesAsRecorded`: the invocation records no amount that it does not move

## Main results

* `conserved_iff`: funds are conserved throughout the runs that move what they record
-/

namespace Treasury

open Soroban Checked Machine

variable {D : Deployment} {e : Env} {w : State D} {i : Input D Call} {h : History D}
  {token : Address}

/-! ## Recorded amounts -/

/-- The amount an accepted deposit records in a token. -/
def deposited (token : Address) (t : State D × Input D Call) : ℤ :=
  match accepted invoke t with
  | some (_, .deposit _ contract amount, _) => if contract = token then amount.toNat else 0
  | _ => 0

/-- The amount an accepted withdrawal records in a token. -/
def withdrawn (token : Address) (t : State D × Input D Call) : ℤ :=
  match accepted invoke t with
  | some (_, .withdraw _ contract _ amount, _) => if contract = token then amount.toNat else 0
  | _ => 0

/-- The amount of a settlement, when it is in the token. -/
def amountIn (token : Address) (settlement : Option Settlement) : ℤ :=
  match settlement with
  | some x => if x.token = token then x.amount.toNat else 0
  | none => 0

/-- The amount of the settlement an accepted execution is about. -/
def paidOut (token : Address) (t : State D × Input D Call) : ℤ :=
  match accepted invoke t with
  | some (_, .executeSettlement _ id _, _) => amountIn token (t.1.storage.settlement id)
  | _ => 0

/-- The sum of the amounts a history records. -/
def recorded (amount : State D × Input D Call → ℤ) (h : History D) : ℤ := (h.map amount).sum

/-- The balance the treasury holds is the one in `l` plus the successful deposits minus the
successful withdrawals minus the amounts of the settlements that were executed. -/
def Conserved (T : StandardToken D token) (l : D.Ledger) (h : History D) (w : State D) : Prop :=
  T.held w = T.balance l D.self + recorded (deposited token) h - recorded (withdrawn token) h -
    recorded (paidOut token) h

/-- No settlement in the token is executed but for the amount zero, and the treasury neither
deposits to itself nor withdraws to itself more than that. -/
def MovesAsRecorded (D : Deployment) (token : Address) (s : Storage) : Call → Prop
  | .deposit source contract amount => contract = token → source = D.self → amount = 0
  | .withdraw _ contract recipient amount => contract = token → recipient = D.self → amount = 0
  | .executeSettlement _ id _ =>
    ∀ x, s.settlement id = some x → x.token = token → x.amount = 0
  | _ => True

/-- What a transition records. -/
def flow (token : Address) (t : State D × Input D Call) : ℤ :=
  deposited token t - withdrawn token t - paidOut token t

theorem flow_of_not_accepted (hn : accepted invoke (w, i) = none) : flow token (w, i) = 0 := by
  simp [flow, deposited, withdrawn, paidOut, hn]

variable (T : StandardToken D token)

theorem conserved_iff_held {l : D.Ledger} (hI : Conserved T l h w) :
    Conserved T l (h ++ [(w, i)]) (step w i) ↔
      T.held (step w i) = T.held w + flow token (w, i) := by
  unfold Conserved at hI ⊢
  simp only [recorded, List.map_append, List.sum_append, List.map_singleton, List.sum_singleton,
    flow] at hI ⊢
  constructor <;> intro h <;> omega

/-- The entry points that record an amount. -/
def Call.recordsAmount : Call → Bool
  | .deposit _ _ _ | .withdraw _ _ _ _ | .executeSettlement _ _ _ => true
  | _ => false

theorem flow_of_not_recordsAmount {c : Call} {v : Val}
    (ha : accepted invoke (w, i) = some (e, c, v)) (hc : c.recordsAmount = false) :
    flow token (w, i) = 0 := by
  simp only [flow, deposited, withdrawn, paidOut, ha]
  cases c <;> first | rfl | exact absurd hc.symm Bool.false_ne_true

theorem amountIn_eq_zero_iff {s : Storage} {id : UInt64} : amountIn token (s.settlement id) = 0 ↔
    ∀ x, s.settlement id = some x → x.token = token → x.amount = 0 := by
  cases hx : s.settlement id with
  | none => simp [amountIn]
  | some x => simp [amountIn, ← UInt64.toNat_inj]

/-- An invocation that records no amount, and has nothing transferred, moves as recorded. -/
theorem held_step_of_eq {c : Call} {v : Val} (ha : accepted invoke (w, i) = some (e, c, v))
    (hc : c.recordsAmount = false) (hledger : (step w i).ledger = w.ledger) :
    T.held (step w i) = T.held w + flow token (w, i) ↔
      MovesAsRecorded D token w.storage c := by
  refine iff_of_true ?_ ?_
  · rw [flow_of_not_recordsAmount ha hc, add_zero, StandardToken.held, hledger,
      StandardToken.held]
  · cases c <;> trivial

/-- An accepted invocation changes the balance by what it records exactly when it moves as
recorded. -/
theorem held_step_iff {c : Call} {v : Val} (ha : accepted invoke (w, i) = some (e, c, v))
    (heff : Effect e w c (step w i) v) :
    T.held (step w i) = T.held w + flow token (w, i) ↔
      MovesAsRecorded D token w.storage c := by
  cases heff with
  | config hc _ _ hledger =>
    refine held_step_of_eq T ha ?_ hledger
    cases c <;> first | rfl | exact absurd hc Bool.false_ne_true
  | transferAdmin _ _ _ hledger => exact held_step_of_eq T ha rfl hledger
  | acceptAdmin _ _ _ hledger => exact held_step_of_eq T ha rfl hledger
  | initialized _ _ _ hledger => exact held_step_of_eq T ha rfl hledger
  | setSigner _ _ _ hledger => exact held_step_of_eq T ha rfl hledger
  | rotateSigner _ _ _ _ _ hledger => exact held_step_of_eq T ha rfl hledger
  | updateThreshold _ _ _ _ _ _ hledger => exact held_step_of_eq T ha rfl hledger
  | proposed _ _ _ hledger => exact held_step_of_eq T ha rfl hledger
  | edited _ hedit _ hledger =>
    cases hedit with
    | execute _ _ =>
      -- the ledger stays as it is, so the amount recorded as paid out has to be zero
      rw [MovesAsRecorded, ← amountIn_eq_zero_iff]
      simp only [flow, deposited, withdrawn, paidOut, ha, StandardToken.held, hledger]
      omega
    | _ => exact held_step_of_eq T ha rfl hledger
  | @deposited source contract amount _ _ _ hcall =>
    -- the treasury's own deposit is recorded and leaves the balance
    have hheld := T.held_of_transfer_in hcall
    simp only [flow, deposited, withdrawn, paidOut, ha, StandardToken.held, MovesAsRecorded,
      hheld, ← UInt64.toNat_inj, UInt64.toNat_zero]
    by_cases hc : contract = token <;> by_cases hs : source = D.self <;> simp [hc, hs]
  | @withdrawn admin contract recipient amount _ _ _ _ hcall =>
    have hheld := T.held_of_transfer_out hcall
    simp only [flow, deposited, withdrawn, paidOut, ha, StandardToken.held, MovesAsRecorded,
      hheld, ← UInt64.toNat_inj, UInt64.toNat_zero]
    by_cases hc : contract = token <;> by_cases hr : recipient = D.self <;>
      simp [hc, hr, sub_eq_add_neg]

/-- **Conservation of funds**: among the runs from a fresh deployment in which nobody else changes
the balance of the treasury, funds are conserved throughout exactly those whose accepted
invocations move what they record. -/
theorem conserved_iff (l : D.Ledger) (wasm : WasmHash) (is : List (Input D Call))
    (hquiet : Each step (fun _ w i => T.Quiet w i) (fresh l wasm) is) :
    Always step (Conserved T l) (fresh l wasm) is ↔
      Each step (fun _ w i =>
        IfAccepted invoke (fun _ c _ => MovesAsRecorded D token w.storage c) (w, i))
        (fresh l wasm) is := by
  refine always_iff_each_assuming (I := Conserved T l) (by simp [Conserved, recorded, fresh,
    StandardToken.held]) (fun _ _ hI => hI) ?_ ?_ hquiet
  · intro h w i hI hA hC
    rw [conserved_iff_held T hI]
    cases hacc : accepted invoke (w, i) with
    | none =>
      rw [flow_of_not_accepted hacc, add_zero]
      exact T.held_step_of_not_accepted hA hacc
    | some r =>
      obtain ⟨e, c, v⟩ := r
      exact (held_step_iff T hacc (effect_of_ok (invoke_of_accepted hacc).2)).mpr
        ((ifAccepted_iff hacc).mp hC)
  · intro h w i hI _ hP
    rw [conserved_iff_held T hI] at hP
    rcases step_cases w i with ⟨hn, -⟩ | ⟨e, c, v, -, ha, heff⟩
    · exact ifAccepted_of_none hn
    · exact (ifAccepted_iff ha).mpr ((held_step_iff T ha heff).mp hP)

/-- A settlement is executed, and the treasury still holds its amount. -/
def unpaidExecution : List (Input (tokenDeployment (.contract 0) (.contract 1)) Call) :=
  [.call ⟨{.account 0}, 0, true⟩ (.initializeContract [(.account 1, 1)] 1 (.account 0)),
    .call ⟨{.account 1}, 1, true⟩
      (.proposeSettlement (.account 1) (.contract 1) 500 (.account 3)),
    .call ⟨{.account 1}, 2, true⟩ (.approveSettlement (.account 1) 1),
    .call ⟨{.account 1}, 3, true⟩ (.executeSettlement (.account 1) 1 (.contract 1))]

theorem unpaidExecution_not_conserved :
    Each step (fun _ w i => (standardToken (.contract 0) (.contract 1)).Quiet w i)
      (fresh (fun _ => 1000) 0) unpaidExecution ∧
    ¬ Always step (Conserved (standardToken (.contract 0) (.contract 1)) fun _ => 1000)
      (fresh (fun _ => 1000) 0) unpaidExecution := by
  refine ⟨by decide, fun h => ?_⟩
  have hend : (1000 : ℤ) = 1000 + 0 - 0 - 500 := h.at_end
  omega

/-- A token is allowed, deposited and withdrawn. -/
def depositAndWithdraw : List (Input (tokenDeployment (.contract 0) (.contract 1)) Call) :=
  [.call ⟨{.account 0}, 0, true⟩ (.initializeContract [(.account 1, 1)] 1 (.account 0)),
    .call ⟨{.account 0}, 1, true⟩ (.addTokenToAllowlist (.account 0) (.contract 1)),
    .call ⟨{.account 4}, 2, true⟩ (.deposit (.account 4) (.contract 1) 300),
    .call ⟨{.account 0}, 3, true⟩ (.withdraw (.account 0) (.contract 1) (.account 5) 100)]

theorem depositAndWithdraw_conserved_iff :
    Always step (Conserved (standardToken (.contract 0) (.contract 1)) fun _ => 1000)
      (fresh (fun _ => 1000) 0) depositAndWithdraw ↔
      Each step (fun _ w i => IfAccepted invoke (fun _ c _ => MovesAsRecorded
        (tokenDeployment (.contract 0) (.contract 1)) (.contract 1) w.storage c) (w, i))
        (fresh (fun _ => 1000) 0) depositAndWithdraw :=
  conserved_iff _ _ 0 depositAndWithdraw (by decide)

end Treasury
