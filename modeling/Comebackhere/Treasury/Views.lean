import Comebackhere.Soroban.Paging
import Comebackhere.Treasury.Contract
import Mathlib.Algebra.Group.Int.Defs

/-!
# The views of the treasury contract

Anybody may ask the contract for what it stores. The views only read: they return a value, and no
world.

## Main definitions

* `View`, `view`: the view functions
-/

namespace Treasury

open Soroban Checked

variable {D : Deployment}

/-- What `execute_settlement` would find, and whether it would succeed. -/
structure SettlementSimulation where
  settlementId : UInt64
  status : SettlementStatus
  wouldSucceed : Bool
  approvalWeight : UInt64
  threshold : UInt64
  settlementAmount : UInt64
  treasuryBalance : ℤ
  projectedBalance : ℤ

/-- `env.invoke_contract::<i128>(contract, f, args)` of a function that only reads. -/
def queryI128 (e : Env) (w : State D) (contract : Address) (f : Symbol) (args : List Val) :
    Result ℤ :=
  match D.query e w.ledger contract f args with
  | some (.i128 n) => .ok n
  | _ => .error .trap

/-- A plain `a - b` on `i128`. -/
def plainSub (e : Env) (a b : ℤ) : Result ℤ :=
  if -2 ^ 127 ≤ a - b then .ok (a - b)
  else if e.overflowChecks then .error .trap
  else .ok (a - b + 2 ^ 128)

def simulateSettlement (e : Env) (w : State D) (settlementId : UInt64) :
    Result SettlementSimulation := do
  let settlement ← orFail (w.storage.settlement settlementId) (.error .settlementNotFound)
  let threshold := getThreshold w.storage
  let treasuryBalance ← queryI128 e w settlement.token "balance" [.address D.self]
  let settlementAmount : ℤ := settlement.amount.toNat
  let projectedBalance ← plainSub e treasuryBalance settlementAmount
  return {
    settlementId
    status := settlement.status
    wouldSucceed := isPaused w.storage = false ∧ settlement.status = .pending ∧
      e.timestamp < settlement.expiresAt ∧ threshold ≤ settlement.approvalWeight ∧
      settlementAmount ≤ treasuryBalance
    approvalWeight := settlement.approvalWeight
    threshold
    settlementAmount := settlement.amount
    treasuryBalance
    projectedBalance }

/-- The most ids that `get_pending_settlements` returns. -/
def maxPageSize : UInt32 := 100

/-- A settlement is stored under the id, is pending and has not expired. -/
def isOpen (e : Env) (s : Storage) (settlementId : UInt64) : Bool :=
  (s.settlement settlementId).any fun settlement =>
    settlement.status = .pending ∧ e.timestamp < settlement.expiresAt

/-- The loop skips the first matching ids and stops when the page is full. -/
def getPendingSettlements (e : Env) (s : Storage) (offset limit : Option UInt32) :
    Result (List UInt64) := do
  let nextId := s.nextSettlementId.getD 1
  let cap ← match limit with
    | some limit => do
      ensure (limit ≤ maxPageSize) (.error .invalidPagination)
      pure limit
    | none => pure maxPageSize
  let skip := offset.getD 0
  pageLoop e (isOpen e s) skip cap (idsUpTo (nextId.toNat - 1)) 0 0 []

/-- The view functions, with their arguments. -/
inductive View
  | simulateSettlement (settlementId : UInt64)
  | getPendingSettlements (offset limit : Option UInt32)
  | getThreshold
  | getSettlementTtl
  | getTotalSignerWeight
  | getSigners
  | getSettlement (settlementId : UInt64)
  | getDailyWithdrawLimit (token : Address)
  | getAllowlistedTokens

/-- The values that the view functions return. -/
inductive Answer
  | simulation (x : SettlementSimulation)
  | ids (ids : List UInt64)
  | amount (n : UInt64)
  | signers (signers : List (Address × UInt64))
  | settlement (x : Option Settlement)
  | limit (n : Option UInt64)
  | tokens (tokens : List Address)

def view (e : Env) (w : State D) : View → Result Answer
  | .simulateSettlement id => .simulation <$> simulateSettlement e w id
  | .getPendingSettlements offset limit =>
    .ids <$> getPendingSettlements e w.storage offset limit
  | .getThreshold => return .amount (getThreshold w.storage)
  | .getSettlementTtl => return .amount (getSettlementTtl w.storage)
  | .getTotalSignerWeight => .amount <$> totalSignerWeight e w.storage
  | .getSigners => return .signers (getSigners w.storage)
  | .getSettlement id => return .settlement (w.storage.settlement id)
  | .getDailyWithdrawLimit token => return .limit (w.storage.dailyWithdrawLimit token)
  | .getAllowlistedTokens => return .tokens (w.storage.tokenAllowlist.getD [])

end Treasury
