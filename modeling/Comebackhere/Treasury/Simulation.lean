import Comebackhere.Soroban.Token
import Comebackhere.Treasury.Effect
import Comebackhere.Treasury.Views

/-!
# Simulation and execution of a settlement

`simulate_settlement` tells whether `execute_settlement` would succeed. The two check the pause, the
status, the expiry and the threshold alike; the balance of the treasury is checked by the
simulation only.

## Main definitions

* `Executable e s id`: what both check
* `Funded e w id`: what the simulation checks in addition
* `WouldSucceed`, `Executes`: the verdict of the simulation, and the success of the execution

## Main results

* `simulation_agrees_iff`: they agree exactly when what is executable is funded
-/

namespace Treasury

open Soroban Checked Machine

variable {D : Deployment} {e : Env} {w : State D} {id : UInt64}

/-- A settlement that is not kept from being executed by the pause, its status, its expiry or the
threshold. -/
def Executable (e : Env) (s : Storage) (id : UInt64) : Prop :=
  isPaused s = false ∧ ∃ x, s.settlement id = some x ∧ x.status = .pending ∧
    e.timestamp < x.expiresAt ∧ getThreshold s ≤ x.approvalWeight

/-- The token of the settlement answers that the treasury's balance covers the amount. -/
def Funded (e : Env) (w : State D) (id : UInt64) : Prop :=
  ∀ x, w.storage.settlement id = some x → ∃ balance : ℤ,
    D.query e w.ledger x.token "balance" [.address D.self] = some (.i128 balance) ∧
      x.amount.toNat ≤ balance

/-- The simulation reports that the execution would succeed. -/
def WouldSucceed (e : Env) (w : State D) (id : UInt64) : Prop :=
  ∃ x, simulateSettlement e w id = .ok x ∧ x.wouldSucceed = true

/-- The execution succeeds. -/
def Executes (e : Env) (w : State D) (signer : Address) (id : UInt64) (token : Address) : Prop :=
  ∃ w', executeSettlement e w signer id token = .ok w'

@[simp] theorem queryI128_eq_ok {contract : Address} {f : Symbol} {args : List Val} {n : ℤ} :
    queryI128 e w contract f args = .ok n ↔
      D.query e w.ledger contract f args = some (.i128 n) := by
  unfold queryI128
  split
  · next h => simp [h]
  · next h => simpa using h n

/-- A difference that is not negative fits. -/
theorem plainSub_of_le {a b : ℤ} (h : b ≤ a) : plainSub e a b = .ok (a - b) :=
  if_pos (by omega)

theorem simulateSettlement_eq_ok {y : SettlementSimulation} :
    simulateSettlement e w id = .ok y ↔
      ∃ x, w.storage.settlement id = some x ∧ ∃ balance : ℤ,
        D.query e w.ledger x.token "balance" [.address D.self] = some (.i128 balance) ∧
        ∃ projectedBalance, plainSub e balance x.amount.toNat = .ok projectedBalance ∧
          y = {
            settlementId := id
            status := x.status
            wouldSucceed := isPaused w.storage = false ∧ x.status = .pending ∧
              e.timestamp < x.expiresAt ∧ getThreshold w.storage ≤ x.approvalWeight ∧
              x.amount.toNat ≤ balance
            approvalWeight := x.approvalWeight
            threshold := getThreshold w.storage
            settlementAmount := x.amount
            treasuryBalance := balance
            projectedBalance } := by
  simp [simulateSettlement]

theorem executes_iff {signer token : Address} (hauth : signer ∈ e.auths) :
    Executes e w signer id token ↔ Executable e w.storage id := by
  constructor
  · rintro ⟨w', h⟩
    obtain ⟨hp, -, x, hx, hpending, hdue, hquorum, -⟩ := executeSettlement_eq_ok.mp h
    exact ⟨hp, x, hx, hpending, hdue, hquorum⟩
  · rintro ⟨hp, x, hx, hpending, hdue, hquorum⟩
    exact ⟨_, executeSettlement_eq_ok.mpr ⟨hp, hauth, x, hx, hpending, hdue, hquorum, rfl⟩⟩

theorem wouldSucceed_iff : WouldSucceed e w id ↔ Executable e w.storage id ∧ Funded e w id := by
  constructor
  · rintro ⟨y, h, hy⟩
    obtain ⟨x, hx, balance, hb, _, -, rfl⟩ := simulateSettlement_eq_ok.mp h
    obtain ⟨hp, hpending, hdue, hquorum, hfunded⟩ := of_decide_eq_true hy
    refine ⟨⟨hp, x, hx, hpending, hdue, hquorum⟩, ?_⟩
    intro x' hx'
    obtain rfl := Option.some.inj (hx.symm.trans hx')
    exact ⟨balance, hb, hfunded⟩
  · rintro ⟨⟨hp, x, hx, hpending, hdue, hquorum⟩, hfunded⟩
    obtain ⟨balance, hb, hle⟩ := hfunded x hx
    -- the projected balance is not negative, so that computing it does not trap
    have hprojected := plainSub_of_le (e := e) hle
    exact ⟨_, simulateSettlement_eq_ok.mpr ⟨x, hx, balance, hb, _, hprojected, rfl⟩,
      decide_eq_true ⟨hp, hpending, hdue, hquorum, hle⟩⟩

/-- **Agreement**: in every state, at every time and for every caller that authenticates, the
simulation agrees with the execution exactly when a settlement that is executable is funded. -/
theorem simulation_agrees_iff (e : Env) (w : State D) (signer token : Address) (id : UInt64)
    (hauth : signer ∈ e.auths) :
    (WouldSucceed e w id ↔ Executes e w signer id token) ↔
      (Executable e w.storage id → Funded e w id) := by
  rw [wouldSucceed_iff, executes_iff hauth]
  exact and_iff_left_iff_imp

/-- A treasury without any balance has a settlement of 500 approved. -/
def unfunded : List (Input (balanceDeployment (.contract 0) (.contract 1)) Call) :=
  [.call ⟨{.account 0}, 0, true⟩ (.initializeContract [(.account 1, 1)] 1 (.account 0)),
    .call ⟨{.account 1}, 1, true⟩
      (.proposeSettlement (.account 1) (.contract 1) 500 (.account 3)),
    .call ⟨{.account 1}, 2, true⟩ (.approveSettlement (.account 1) 1)]

/-- The execution succeeds, and the simulation says that it would not. -/
theorem unfunded_disagrees :
    ¬ (WouldSucceed ⟨{.account 1}, 3, true⟩ (run step (fresh (fun _ => 0) 0) unfunded) 1 ↔
      Executes ⟨{.account 1}, 3, true⟩ (run step (fresh (fun _ => 0) 0) unfunded) (.account 1) 1
        (.contract 1)) := by
  have hx : (run step (fresh (fun _ => 0) 0) unfunded).storage.settlement 1 =
      some ⟨.contract 1, 500, .account 3, .pending, 1, .account 1, 2592001⟩ := by decide
  rw [wouldSucceed_iff, executes_iff (by decide)]
  intro h
  obtain ⟨-, hfunded⟩ := h.mpr ⟨by decide, _, hx, rfl, by decide, by decide⟩
  obtain ⟨balance, hb, hle⟩ := hfunded _ hx
  -- the token answers that the treasury has nothing
  have hzero : balance = 0 := by
    injection hb with hb
    injection hb with hb
    exact hb.symm
  rw [hzero] at hle
  exact absurd hle (by decide)

/-- The same settlement, in a treasury that holds 1000 of the token. -/
theorem funded_agrees_iff :
    (WouldSucceed ⟨{.account 1}, 3, true⟩ (run step (fresh (fun _ => 1000) 0) unfunded) 1 ↔
      Executes ⟨{.account 1}, 3, true⟩ (run step (fresh (fun _ => 1000) 0) unfunded) (.account 1)
        1 (.contract 1)) ↔
      (Executable ⟨{.account 1}, 3, true⟩ (run step (fresh (fun _ => 1000) 0) unfunded).storage 1 →
        Funded ⟨{.account 1}, 3, true⟩ (run step (fresh (fun _ => 1000) 0) unfunded) 1) :=
  simulation_agrees_iff _ _ _ _ _ (by decide)

end Treasury
