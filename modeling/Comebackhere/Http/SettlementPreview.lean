import Comebackhere.Http.SettlementExecution
import Comebackhere.Library.Decimal
import Comebackhere.Library.Halves
import Comebackhere.Treasury.Simulation

/-!
# The preview of an execution

The backend previews an execution by asking the contract to simulate it. What the contract computes
is encoded as a map, read field by field, with the balances put together from two words of 64 bits,
and printed in decimal. A balance may be negative, once the amount is taken from it.

## Main definitions

* `getSettlementSimulation`: the simulation, as the client reads it
* `simulateSettlement`: the program of the backend
* `Preview.of`: what the backend answers for a simulation

## Main results

* `simulateSettlement_eq_ok`: the answer is that of the contract's simulation
* `previews_faithful`: nothing is lost on the way, and an execution that the preview promises
  succeeds
-/

namespace Http.Settlements

open Soroban Checked Offchain
open Treasury (Settlement SettlementStatus State TreasuryError)

variable {D : Deployment}

/-! ## Balances -/

/-- `xdr.Int128Parts`: the words of an `i128`. -/
structure Int128Parts where
  hi : ℤ
  lo : ℕ

def Int128Parts.of (n : ℤ) : Int128Parts := ⟨Halves.high 64 n, Halves.low 64 n⟩

/-- `(hi << 64n) | lo` -/
def i128ToBigInt (parts : Int128Parts) : ℤ := Halves.join 64 parts.hi parts.lo

@[simp] theorem i128ToBigInt_of (n : ℤ) : i128ToBigInt (.of n) = n := Halves.join_halves 64 n

/-! ## The simulation -/

/-- A simulation as the client reads it. -/
structure SettlementSimulation where
  settlementId : ℕ
  status : String
  wouldSucceed : Bool
  approvalWeight : ℕ
  threshold : ℕ
  settlementAmount : ℕ
  treasuryBalance : ℤ
  projectedBalance : ℤ

/-- The fields of what `simulate_settlement` returns. -/
def simulationFields (x : Treasury.SettlementSimulation) : List (ScVal × ScVal) :=
  [(.symbol "approval_weight", .u64 x.approvalWeight),
    (.symbol "projected_balance", .i128 x.projectedBalance),
    (.symbol "settlement_amount", .u64 x.settlementAmount),
    (.symbol "settlement_id", .u64 x.settlementId),
    (.symbol "status", .vec [.symbol (statusSymbol x.status)]),
    (.symbol "threshold", .u64 x.threshold),
    (.symbol "treasury_balance", .i128 x.treasuryBalance),
    (.symbol "would_succeed", .bool x.wouldSucceed)]

/-- What `simulate_settlement` returns. -/
def simulationScVal (x : Treasury.SettlementSimulation) : ScVal := .map (simulationFields x)

/-- The accessor `b()`. -/
def getBool : ScVal → Js (Option Bool) :=
  ScVal.access "b" fun | .bool b => some b | _ => none

/-- `BigInt(value?.u64()?.toString() ?? "0")` -/
def u64OrZero (value : Option ScVal) : Js ℕ := do
  return (← optional value ScVal.getU64).elim 0 UInt64.toNat

/-- `i128ToBigInt(value?.i128() ?? zero)` -/
def i128OrZero (value : Option ScVal) : Js ℤ := do
  return i128ToBigInt ((← optional value ScVal.getI128).elim ⟨0, 0⟩ .of)

/-- The simulation in a map of its fields. -/
def readSimulation (map : List (ScVal × ScVal)) : Js SettlementSimulation := do
  let entries ← Frontend.entriesOf map
  return {
    settlementId := ← u64OrZero (entries "settlement_id")
    status := ← scValToSettlementStatus ((entries "status").getD .void)
    wouldSucceed := (← optional (entries "would_succeed") getBool).getD false
    approvalWeight := ← u64OrZero (entries "approval_weight")
    threshold := ← u64OrZero (entries "threshold")
    settlementAmount := ← u64OrZero (entries "settlement_amount")
    treasuryBalance := ← i128OrZero (entries "treasury_balance")
    projectedBalance := ← i128OrZero (entries "projected_balance") }

/-- The server describes an error of the contract by a text. -/
def getSettlementSimulation (describe : Failure TreasuryError → String) (answer : Answer D)
    (settlementId : UInt64) : Except Thrown SettlementSimulation :=
  match answer.failure with
  | some err => .error err
  | none =>
    match Treasury.simulateSettlement (answer.env ∅) answer.chain settlementId with
    | .error err => .error (.error ("Soroban simulation failed: " ++ describe err) 422 none)
    | .ok x =>
      match (simulationScVal x).getMap with
      | .error err => .error (.js err)
      | .ok none => .error (.error "Invalid simulate_settlement response" 422 none)
      | .ok (some map) => (readSimulation map).mapError .js

/-- The simulation as the contract computes it. -/
def SettlementSimulation.of (x : Treasury.SettlementSimulation) : SettlementSimulation where
  settlementId := x.settlementId.toNat
  status := statusSymbol x.status
  wouldSucceed := x.wouldSucceed
  approvalWeight := x.approvalWeight.toNat
  threshold := x.threshold.toNat
  settlementAmount := x.settlementAmount.toNat
  treasuryBalance := x.treasuryBalance
  projectedBalance := x.projectedBalance

/-- **A simulation is read as the contract computed it.** -/
theorem readSimulation_fields (x : Treasury.SettlementSimulation) :
    readSimulation (simulationFields x) = .ok (.of x) := by
  have hread : readSimulation (simulationFields x) = .ok
      { SettlementSimulation.of x with
        treasuryBalance := i128ToBigInt (.of x.treasuryBalance)
        projectedBalance := i128ToBigInt (.of x.projectedBalance) } := rfl
  rw [hread, i128ToBigInt_of, i128ToBigInt_of]
  rfl

theorem getSettlementSimulation_eq_ok {describe : Failure TreasuryError → String}
    {answer : Answer D} {id : UInt64} {read : SettlementSimulation} :
    getSettlementSimulation describe answer id = .ok read ↔ answer.failure = none ∧
      ∃ x, Treasury.simulateSettlement (answer.env ∅) answer.chain id = .ok x ∧ read = .of x := by
  unfold getSettlementSimulation
  cases answer.failure with
  | some err => simp
  | none =>
    cases Treasury.simulateSettlement (answer.env ∅) answer.chain id with
    | error err => simp
    | ok x =>
      have hmap : (simulationScVal x).getMap = .ok (some (simulationFields x)) := rfl
      simp [hmap, readSimulation_fields, Except.mapError, eq_comm]

/-! ## The preview -/

/-- The answer to a request: amounts are printed in decimal. -/
structure Preview where
  settlementId : UInt64
  status : String
  wouldSucceed : Bool
  approvalWeight : String
  threshold : String
  settlementAmount : String
  treasuryBalance : String
  projectedBalance : String

def simulateSettlement (describe : Failure TreasuryError → String) (answer : Answer D)
    (settlementId : UInt64) : Except Thrown Preview := do
  let simulation ← getSettlementSimulation describe answer settlementId
  return {
    settlementId
    status := simulation.status
    wouldSucceed := simulation.wouldSucceed
    approvalWeight := toString simulation.approvalWeight
    threshold := toString simulation.threshold
    settlementAmount := toString simulation.settlementAmount
    treasuryBalance := toString simulation.treasuryBalance
    projectedBalance := toString simulation.projectedBalance }

/-- What the backend answers for a simulation. -/
def Preview.of (x : Treasury.SettlementSimulation) : Preview where
  settlementId := x.settlementId
  status := statusSymbol x.status
  wouldSucceed := x.wouldSucceed
  approvalWeight := toString x.approvalWeight.toNat
  threshold := toString x.threshold.toNat
  settlementAmount := toString x.settlementAmount.toNat
  treasuryBalance := toString x.treasuryBalance
  projectedBalance := toString x.projectedBalance

/-- Two words that are printed alike are the same. -/
theorem u64_text_inj {a b : UInt64} (h : toString a.toNat = toString b.toNat) : a = b :=
  UInt64.toNat.inj (Decimal.repr_inj h)

/-- **Nothing is lost**: the preview has all that the contract computed. -/
theorem Preview.of_injective : Function.Injective Preview.of := by
  rintro ⟨⟩ ⟨⟩ h
  obtain ⟨rfl, hstatus, rfl, hweight, hthreshold, hamount, hbalance, hprojected⟩ :=
    Preview.mk.inj h
  rw [Treasury.SettlementSimulation.mk.injEq]
  exact ⟨rfl, statusSymbol_injective hstatus, rfl, u64_text_inj hweight, u64_text_inj hthreshold,
    u64_text_inj hamount, Decimal.toString_int_inj hbalance, Decimal.toString_int_inj hprojected⟩

section Preview

variable {describe : Failure TreasuryError → String} {cfg : Config} {answer : Answer D}
  {id : UInt64} {preview : Preview}

/-- **The answer is that of the contract's simulation.** -/
theorem simulateSettlement_eq_ok : simulateSettlement describe answer id = .ok preview ↔
    answer.failure = none ∧
      ∃ x, Treasury.simulateSettlement (answer.env ∅) answer.chain id = .ok x ∧
        preview = .of x := by
  simp only [simulateSettlement, bind_eq_ok, getSettlementSimulation_eq_ok, pure_eq_ok]
  constructor
  · rintro ⟨read, ⟨hanswer, x, hx, rfl⟩, rfl⟩
    refine ⟨hanswer, x, hx, ?_⟩
    obtain ⟨-, -, -, -, -, -, rfl⟩ := Treasury.simulateSettlement_eq_ok.mp hx
    rfl
  · rintro ⟨hanswer, x, hx, rfl⟩
    refine ⟨_, ⟨hanswer, x, hx, rfl⟩, ?_⟩
    obtain ⟨-, -, -, -, -, -, rfl⟩ := Treasury.simulateSettlement_eq_ok.mp hx
    rfl

/-- A submission that reaches the contract succeeds when the settlement is executable. -/
theorem submitContractCall_of_executable {tokenContract : String} {token : Address}
    (hanswer : answer.failure = none) (htoken : cfg.fromString tokenContract = some token)
    (hexec : Treasury.Executable (answer.env {cfg.signer}) answer.chain.storage id) :
    submitContractCall cfg answer id tokenContract = .ok answer.hash := by
  have hexecutes : Treasury.Executes (answer.env {cfg.signer}) answer.chain cfg.signer id token :=
    (Treasury.executes_iff (Finset.mem_singleton_self _)).mpr hexec
  obtain ⟨w, hw⟩ := hexecutes
  simp only [submitContractCall, htoken, hanswer, hw]

/-- **The preview is faithful**: it is answered exactly when the contract's simulation succeeds, it
determines everything the contract computed, negative balances among it, and an execution that it
promises succeeds when it is submitted at the same moment, whatever token the request names. -/
theorem previews_faithful (describe : Failure TreasuryError → String) (cfg : Config)
    (answer : Answer D) (id : UInt64) (hanswer : answer.failure = none) :
    (∀ x, Treasury.simulateSettlement (answer.env ∅) answer.chain id = .ok x ↔
      simulateSettlement describe answer id = .ok (.of x)) ∧
    ∀ preview, simulateSettlement describe answer id = .ok preview →
      (preview.wouldSucceed = true ↔ Treasury.WouldSucceed (answer.env ∅) answer.chain id) ∧
      (preview.wouldSucceed = true → ∀ tokenContract, (cfg.fromString tokenContract).isSome →
        submitContractCall cfg answer id tokenContract = .ok answer.hash) := by
  refine ⟨fun x => ?_, fun preview h => ?_⟩
  · rw [simulateSettlement_eq_ok]
    constructor
    · exact fun hx => ⟨hanswer, x, hx, rfl⟩
    · rintro ⟨-, y, hy, heq⟩
      rwa [Preview.of_injective heq]
  · obtain ⟨-, x, hx, rfl⟩ := simulateSettlement_eq_ok.mp h
    have hverdict : (Preview.of x).wouldSucceed = true ↔
        Treasury.WouldSucceed (answer.env ∅) answer.chain id := by
      constructor
      · exact fun hsucc => ⟨x, hx, hsucc⟩
      · rintro ⟨y, hy, hsucc⟩
        obtain rfl := Except.ok.inj (hx.symm.trans hy)
        exact hsucc
    refine ⟨hverdict, fun hsucc tokenContract htoken => ?_⟩
    obtain ⟨token, htoken⟩ := Option.isSome_iff_exists.mp htoken
    -- who authorises is not among what makes a settlement executable
    exact submitContractCall_of_executable hanswer htoken
      (Treasury.wouldSucceed_iff.mp (hverdict.mp hsucc)).1

end Preview

/-- The treasury holds 1000 of the token of a settlement of 500, which is approved. -/
def fundedAnswer : Answer (balanceDeployment (.contract 0) (.contract 1)) where
  chain := Machine.run Treasury.step (Treasury.fresh (fun _ => 1000) 0) Treasury.unfunded
  timestamp := 3
  overflowChecks := true
  failure := none
  hash := ⟨"ab", by decide⟩

/-- The preview promises the execution, and the execution succeeds. -/
theorem fundedAnswer_faithful :
    simulateSettlement (fun _ => "") fundedAnswer 1 =
      .ok (.of ⟨1, .pending, true, 1, 1, 500, 1000, 500⟩) ∧
    submitContractCall ⟨"usdc", .account 1, fun _ => some (.contract 1)⟩ fundedAnswer 1 "usdc" =
      .ok "ab" := by
  obtain ⟨hanswered, hpromised⟩ := previews_faithful (fun _ => "")
    ⟨"usdc", .account 1, fun _ => some (.contract 1)⟩ fundedAnswer 1 rfl
  have hsimulated : Treasury.simulateSettlement (fundedAnswer.env ∅) fundedAnswer.chain 1 =
      .ok ⟨1, .pending, true, 1, 1, 500, 1000, 500⟩ := by rfl
  have hpreview := (hanswered _).mp hsimulated
  exact ⟨hpreview, (hpromised _ hpreview).2 rfl "usdc" rfl⟩

end Http.Settlements
