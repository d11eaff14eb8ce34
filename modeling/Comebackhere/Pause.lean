import Comebackhere.Compliance.Authority
import Comebackhere.Invoice.Accepted
import Comebackhere.Invoice.Views
import Comebackhere.Treasury.Accepted
import Comebackhere.Treasury.Views

/-!
# The pause of the three contracts

Every contract has a pause flag that its admin sets. Each entry point that may change the world
looks at the flag itself, and the host rolls back those that find it set. Four are exempt: the
initialization, the upgrade, and the two that set and clear the flag.

## Main definitions

* `Treasury.Call.isExempt`, `Invoicing.Call.isExempt`, `Compliance.Call.isExempt`: the entry points
  that do not look at the flag

## Main results

* `Treasury.notPaused_of_ok`, `Invoicing.notPaused_of_ok`, `Compliance.notPaused_of_ok`: an accepted
  call is exempt, or found the flag clear
* `Contracts.paused_frozen`: a paused contract changes nothing
-/

namespace Treasury

open Soroban Checked

variable {D : Deployment} {e : Env} {w w' : State D} {c : Call} {v : Val}

/-- The entry point does not look at the pause flag. -/
def Call.isExempt : Call → Bool
  | .initializeContract .. | .upgrade .. | .pause .. | .unpause .. => true
  | _ => false

theorem notPaused_of_ok (h : invoke e w c = .ok (w', v)) :
    c.isExempt = true ∨ isPaused w.storage = false := by
  cases c with
  | upgrade | initializeContract | pause | unpause => exact Or.inl rfl
  | transferAdmin => exact Or.inr (transferAdmin_eq_ok.mp (unitResult_eq_ok.mp h).1).1
  | acceptAdmin => exact Or.inr (acceptAdmin_eq_ok.mp (unitResult_eq_ok.mp h).1).1
  | setSigner => exact Or.inr (setSigner_eq_ok.mp (unitResult_eq_ok.mp h).1).1
  | rotateSigner => exact Or.inr (rotateSigner_eq_ok.mp (unitResult_eq_ok.mp h).1).1
  | proposeSettlement =>
    obtain ⟨⟨w₁, id⟩, h, -⟩ := bind_eq_ok.mp h
    -- the allowlist is read before the flag
    exact Or.inr (proposeSettlement_eq_ok.mp h).2.1
  | cancelSettlement => exact Or.inr (cancelSettlement_eq_ok.mp (unitResult_eq_ok.mp h).1).1
  | approveSettlement => exact Or.inr (approveSettlement_eq_ok.mp (unitResult_eq_ok.mp h).1).1
  | executeSettlement => exact Or.inr (executeSettlement_eq_ok.mp (unitResult_eq_ok.mp h).1).1
  | setSettlementTtl => exact Or.inr (setSettlementTtl_eq_ok.mp (unitResult_eq_ok.mp h).1).1
  | updateThreshold => exact Or.inr (updateThreshold_eq_ok.mp (unitResult_eq_ok.mp h).1).1
  | raiseDispute => exact Or.inr (raiseDispute_eq_ok.mp (unitResult_eq_ok.mp h).1).1
  | resolveDispute => exact Or.inr (resolveDispute_eq_ok.mp (unitResult_eq_ok.mp h).1).1
  | updateSettlementMerchant =>
    exact Or.inr (updateSettlementMerchant_eq_ok.mp (unitResult_eq_ok.mp h).1).1
  | deposit =>
    -- and here too
    exact Or.inr (deposit_eq_ok.mp (unitResult_eq_ok.mp h).1).2.1
  | setDailyWithdrawLimit =>
    exact Or.inr (setDailyWithdrawLimit_eq_ok.mp (unitResult_eq_ok.mp h).1).1
  | withdraw => exact Or.inr (withdraw_eq_ok.mp (unitResult_eq_ok.mp h).1).1
  | addTokenToAllowlist => exact Or.inr (addTokenToAllowlist_eq_ok.mp (unitResult_eq_ok.mp h).1).1
  | removeTokenFromAllowlist =>
    exact Or.inr (removeTokenFromAllowlist_eq_ok.mp (unitResult_eq_ok.mp h).1).1

end Treasury

namespace Invoicing

open Soroban Checked

variable {D : Deployment} {e : Env} {w w' : State D} {c : Call} {v : Val}

/-- The entry point does not look at the pause flag. -/
def Call.isExempt : Call → Bool
  | .initializeContract .. | .upgrade .. | .pause .. | .unpause .. => true
  | _ => false

theorem notPaused_of_ok (h : invoke e w c = .ok (w', v)) :
    c.isExempt = true ∨ isPaused w.storage = false := by
  cases c with
  | upgrade | initializeContract | pause | unpause => exact Or.inl rfl
  | transferAdmin => exact Or.inr (transferAdmin_eq_ok.mp (unitResult_eq_ok.mp h).1).1
  | acceptAdmin => exact Or.inr (acceptAdmin_eq_ok.mp (unitResult_eq_ok.mp h).1).1
  | createInvoice =>
    obtain ⟨⟨w₁, count⟩, h, -⟩ := bind_eq_ok.mp h
    exact Or.inr (createInvoice_eq_ok.mp h).1
  | markPaids => exact Or.inr (markPaids_eq_ok.mp (unitResult_eq_ok.mp h).1).1
  | payInvoice => exact Or.inr (payInvoice_eq_ok.mp (unitResult_eq_ok.mp h).1).1
  | cancelInvoiced => exact Or.inr (cancelInvoiced_eq_ok.mp (unitResult_eq_ok.mp h).1).1
  | requestRefund => exact Or.inr (requestRefund_eq_ok.mp (unitResult_eq_ok.mp h).1).1
  | releaseEscrow => exact Or.inr (releaseEscrow_eq_ok.mp (unitResult_eq_ok.mp h).1).1
  | batchExpire => exact Or.inr (batchExpire_eq_ok.mp (unitResult_eq_ok.mp h).1).1
  | setTreasury => exact Or.inr (setTreasury_eq_ok.mp (unitResult_eq_ok.mp h).1).1
  | setCompliance => exact Or.inr (setCompliance_eq_ok.mp (unitResult_eq_ok.mp h).1).1
  | raiseDispute => exact Or.inr (raiseDispute_eq_ok.mp (unitResult_eq_ok.mp h).1).1
  | setGraceWindow => exact Or.inr (setGraceWindow_eq_ok.mp (unitResult_eq_ok.mp h).1).1

end Invoicing

namespace Compliance

open Soroban Checked

variable {D : Deployment} {e : Env} {w w' : State D} {c : Call} {v : Val}

/-- The entry point does not look at the pause flag. -/
def Call.isExempt : Call → Bool
  | .initializeContract .. | .upgrade .. | .pause .. | .unpause .. => true
  | _ => false

/-- What begins with the check fails when the flag is set. -/
theorem notPaused_of_bind {α : Type} {s : Storage} {r : Result α} {a : α}
    (h : (do checkNotPaused s; r) = .ok a) : isPaused s = false := by
  obtain ⟨u, hu, -⟩ := bind_eq_ok.mp h
  exact checkNotPaused_eq_ok.mp hu

theorem notPaused_of_ok (h : invoke e w c = .ok (w', v)) :
    c.isExempt = true ∨ isPaused w.storage = false := by
  cases c with
  | upgrade | initializeContract | pause | unpause => exact Or.inl rfl
  | allowAddress | blockAddress | allowAddressUntil | batchAllowAddresses | batchBlockAddresses
  | transferAdmin | acceptAdmin | clearAddress =>
    exact Or.inr (notPaused_of_bind (unitResult_eq_ok.mp h).1)

end Compliance

namespace Contracts

open Soroban

/-! ## Frozen contracts -/

/-- A paused contract changes nothing of its storage, makes no token transfer and publishes no
event, whichever of its entry points other than the four is invoked. -/
theorem paused_frozen :
    (∀ (D : Deployment) (e : Env) (w : Invoicing.State D)
      (p : EntryPoint Invoicing.Call Invoicing.View),
      Invoicing.isPaused w.storage = true → (∀ c, p = .call c → c.isExempt = false) →
      (serve Invoicing.invoke Invoicing.view e w p).1 = w) ∧
    (∀ (D : Deployment) (e : Env) (w : Treasury.State D)
      (p : EntryPoint Treasury.Call Treasury.View),
      Treasury.isPaused w.storage = true → (∀ c, p = .call c → c.isExempt = false) →
      (serve Treasury.invoke Treasury.view e w p).1 = w) ∧
    (∀ (D : Deployment) (e : Env) (w : Compliance.State D)
      (p : EntryPoint Compliance.Call Compliance.View),
      Compliance.isPaused w.storage = true → (∀ c, p = .call c → c.isExempt = false) →
      (serve Compliance.invoke Compliance.view e w p).1 = w) := by
  refine ⟨fun D e w p hpaused hp => ?_, fun D e w p hpaused hp => ?_,
    fun D e w p hpaused hp => ?_⟩
  · exact serve_of_not (fun s => Invoicing.isPaused s = false)
      (fun c => c.isExempt = true) Invoicing.notPaused_of_ok (by simp [hpaused])
      (fun c hc => by simp [hp c hc])
  · exact serve_of_not (fun s => Treasury.isPaused s = false)
      (fun c => c.isExempt = true) Treasury.notPaused_of_ok (by simp [hpaused])
      (fun c hc => by simp [hp c hc])
  · exact serve_of_not (fun s => Compliance.isPaused s = false)
      (fun c => c.isExempt = true) Compliance.notPaused_of_ok (by simp [hpaused])
      (fun c hc => by simp [hp c hc])

/-- Three paused contracts, and calls that their admins authorise. -/
theorem paused_frozen_at_calls :
    let admin : Address := .account 7
    let e : Env := ⟨{admin}, 1000, true⟩
    let invoice : Invoicing.State (isolated (.contract 1)) :=
      ⟨{ Invoicing.Storage.empty with admin := some admin, paused := some true }, (), [], 0⟩
    let treasury : Treasury.State (isolated (.contract 2)) :=
      ⟨{ Treasury.Storage.empty with admin := some admin, paused := some true }, (), [], 0⟩
    let compliance : Compliance.State (isolated (.contract 3)) :=
      ⟨{ Compliance.Storage.empty with admin := some admin, paused := some true }, (), [], 0⟩
    (serve Invoicing.invoke Invoicing.view e invoice
      (.call (.setGraceWindow admin 60))).1 = invoice ∧
    (serve Treasury.invoke Treasury.view e treasury
      (.call (.setSettlementTtl admin 60))).1 = treasury ∧
    (serve Compliance.invoke Compliance.view e compliance
      (.call (.blockAddress admin (.account 8)))).1 = compliance := by
  refine ⟨paused_frozen.1 _ _ _ _ rfl ?_, paused_frozen.2.1 _ _ _ _ rfl ?_,
    paused_frozen.2.2 _ _ _ _ rfl ?_⟩
  · rintro c ⟨⟩
    rfl
  · rintro c ⟨⟩
    rfl
  · rintro c ⟨⟩
    rfl

end Contracts
