import Comebackhere.Library.Process
import Comebackhere.Offchain.InvoiceDecoders
import Comebackhere.Treasury.Accepted

/-!
# The execution of settlements

The backend executes a settlement of the treasury when the treasury has the amount. It reads the
settlement and a balance, submits the transaction, and reads both again if the submission throws.
The balance is that of the token in the request, or of USDC, whatever the token of the settlement
is. The chain goes on between two calls: an answer comes with the chain at its moment.

## Main definitions

* `getOnChainSettlement`, `getTokenBalance`, `submitContractCall`: the calls to the RPC server
* `executeSettlementWithBalanceCheck`: the program of the backend
* `Guarded`: what is submitted was checked, and what is returned was executed
* `Covers`: a balance that is enough is one of the settlement's own token, too

## Main results

* `getOnChainSettlement_eq_ok`: a settlement is read as it is stored
* `execution_guarded_iff`: an execution is guarded exactly if the checked balance covers it
-/

namespace Http.Settlements

open Soroban Checked Offchain Process
open Treasury (Settlement SettlementStatus State)
open Prog (perform)

variable {D : Deployment}

/-! ## Data -/

/-- What the backend throws: an error with its status and code, or what JavaScript throws. -/
inductive Thrown
  | error (message : String) (status : ℕ) (code : Option String)
  | js (err : JsError)

/-- A settlement as the client reads it. -/
structure OnChainSettlement where
  token : String
  amount : ℕ
  merchant : String
  status : String
  approvalWeight : ℕ

structure ExecuteSettlementBody where
  settlementId : UInt64
  tokenContract : Option String

structure ExecutionResult where
  txHash : String
  settlementId : UInt64
  balanceChecked : String
  amountRequired : String

/-- The configuration: the USDC contract, the address of the signer's key, and how the addresses of
contracts are read from texts. -/
structure Config where
  usdcContractId : String
  signer : Address
  fromString : String → Option Address

/-- The token whose balance is checked. -/
def Config.tokenContract (cfg : Config) (body : ExecuteSettlementBody) : String :=
  body.tokenContract.getD cfg.usdcContractId

/-! ## The calls -/

/-- What the server answers a call with: the chain at its moment, the ledger a contract runs in, the
error if there is one, and the hash of a transaction. -/
structure Answer (D : Deployment) where
  chain : State D
  timestamp : UInt64
  overflowChecks : Bool
  failure : Option Thrown
  hash : { hash : String // hash ≠ "" }

/-- The environment of a call that the addresses authorise. -/
def Answer.env (answer : Answer D) (auths : Finset Address) : Env :=
  ⟨auths, answer.timestamp, answer.overflowChecks⟩

/-- The treasury's balance of a token. -/
def Answer.balance (answer : Answer D) (token : Address) : Option ℤ :=
  match D.query (answer.env ∅) answer.chain.ledger token "balance" [.address D.self] with
  | some (.i128 n) => some n
  | _ => none

/-- The name of the variant, which the contract's encoding of a status holds. -/
def statusSymbol : SettlementStatus → Symbol
  | .pending => "Pending"
  | .executed => "Executed"
  | .partiallyExecuted => "PartiallyExecuted"
  | .onHold => "OnHold"
  | .cancelled => "Cancelled"

/-- What `get_settlement` returns. -/
def settlementScVal : Option Settlement → ScVal
  | none => .void
  | some settlement => .map
    [(.symbol "amount", .u64 settlement.amount),
      (.symbol "approval_weight", .u64 settlement.approvalWeight),
      (.symbol "expires_at", .u64 settlement.expiresAt),
      (.symbol "merchant", .address settlement.merchant),
      (.symbol "proposer", .address settlement.proposer),
      (.symbol "status", .vec [.symbol (statusSymbol settlement.status)]),
      (.symbol "token", .address settlement.token)]

def scValToSettlementStatus (scVal : ScVal) : Js String := do
  return (← optional (← component (some scVal) 0) ScVal.getSym).getD "Pending"

/-- The settlement in a map of its fields. -/
def readSettlement (map : List (ScVal × ScVal)) : Js OnChainSettlement := do
  let entries ← Frontend.entriesOf map
  let token ← readAddress (entries "token")
  let amount ← optional (entries "amount") ScVal.getU64
  let merchant ← readAddress (entries "merchant")
  let status ← scValToSettlementStatus ((entries "status").getD .void)
  let approvalWeight ← optional (entries "approval_weight") ScVal.getU64
  return {
    token
    amount := amount.elim 0 UInt64.toNat
    merchant
    status
    approvalWeight := approvalWeight.elim 0 UInt64.toNat }

def getOnChainSettlement (answer : Answer D) (settlementId : UInt64) :
    Except Thrown OnChainSettlement :=
  match answer.failure with
  | some err => .error err
  | none =>
    match (settlementScVal (answer.chain.storage.settlement settlementId)).getMap with
    | .error err => .error (.js err)
    | .ok none => .error (.error "Invalid settlement response" 422 none)
    | .ok (some map) => (readSettlement map).mapError .js

/-- The balance in what the token contract returns. -/
def readBalance (retval : ScVal) : Except Thrown ℤ :=
  match retval.getI128 with
  | .error err => .error (.js err)
  | .ok none => .error (.error "Invalid balance response from token contract" 422 none)
  | .ok (some balance) => .ok balance

def getTokenBalance (cfg : Config) (answer : Answer D) (tokenContract : String) : Except Thrown ℤ :=
  match cfg.fromString tokenContract, answer.failure with
  | none, _ => .error (.js (.error "Invalid contract ID"))
  | some _, some err => .error err
  | some token, none =>
    match D.query (answer.env ∅) answer.chain.ledger token "balance" [.address D.self] with
    | none => .error (.error "Soroban simulation failed" 422 none)
    | some retval => readBalance (toScVal retval)

/-- It returns when the transaction has succeeded. If it throws, the transaction may still do so
later on. -/
def submitContractCall (cfg : Config) (answer : Answer D) (settlementId : UInt64)
    (tokenContract : String) : Except Thrown String :=
  match cfg.fromString tokenContract, answer.failure with
  | none, _ => .error (.js (.error "Unsupported address type"))
  | some _, some err => .error err
  | some token, none =>
    match Treasury.executeSettlement (answer.env {cfg.signer}) answer.chain cfg.signer settlementId
      token with
    | .ok _ => .ok answer.hash
    | .error _ => .error (.error "Soroban transaction failed" 422 none)

/-- The calls to the server. -/
inductive Rpc : Type → Type
  | getOnChainSettlement (settlementId : UInt64) : Rpc (Except Thrown OnChainSettlement)
  | getTokenBalance (tokenContract : String) : Rpc (Except Thrown ℤ)
  | submitContractCall (settlementId : UInt64) (tokenContract : String) : Rpc (Except Thrown String)

/-! ## The program -/

def notPending (settlementId : UInt64) (status : String) : Thrown :=
  .error ("Settlement #" ++ toString settlementId ++ " is not pending (status: " ++ status ++ ")")
    409 none

def insufficientBalance (settlementId : UInt64) (balance : ℤ) (amount : ℕ) : Thrown :=
  .error ("Insufficient treasury USDC balance: available " ++ toString balance ++ " stroops, " ++
    "required " ++ toString amount ++ " stroops for settlement #" ++ toString settlementId) 422 none

def escrowBalanceMismatch (settlementId : UInt64) (postStatus : String) (balance postBalance : ℤ) :
    Thrown :=
  .error ("EscrowBalanceMismatch: settlement #" ++ toString settlementId ++ " is still " ++
    postStatus ++ " but treasury balance dropped from " ++ toString balance ++ " to " ++
    toString postBalance ++ " stroops. Manual reconciliation required.")
    409 (some "ESCROW_BALANCE_MISMATCH")

/-- After a submission that threw, the settlement and the balance are read again. -/
def syncEscrow (cfg : Config) (body : ExecuteSettlementBody) (settlement : OnChainSettlement)
    (balance : ℤ) (submitErr : Thrown) : Prog Rpc (Except Thrown ExecutionResult) := do
  match ← perform (.getOnChainSettlement body.settlementId) with
  | .error _ => return .error submitErr
  | .ok postSettlement =>
    match ← perform (.getTokenBalance (cfg.tokenContract body)) with
    | .error _ => return .error submitErr
    | .ok postBalance =>
      if postSettlement.status = "Executed" then
        return .ok {
          txHash := ""
          settlementId := body.settlementId
          balanceChecked := toString balance
          amountRequired := toString settlement.amount }
      else if postBalance < balance then
        return .error
          (escrowBalanceMismatch body.settlementId postSettlement.status balance postBalance)
      else
        return .error submitErr

/-- The transaction is submitted. -/
def submitExecution (cfg : Config) (body : ExecuteSettlementBody) (settlement : OnChainSettlement)
    (balance : ℤ) : Prog Rpc (Except Thrown ExecutionResult) := do
  match ← perform (.submitContractCall body.settlementId (cfg.tokenContract body)) with
  | .error submitErr => syncEscrow cfg body settlement balance submitErr
  | .ok txHash =>
    return .ok {
      txHash
      settlementId := body.settlementId
      balanceChecked := toString balance
      amountRequired := toString settlement.amount }

def executeSettlementWithBalanceCheck (cfg : Config) (body : ExecuteSettlementBody) :
    Prog Rpc (Except Thrown ExecutionResult) := do
  match ← perform (.getOnChainSettlement body.settlementId) with
  | .error err => return .error err
  | .ok settlement =>
    if settlement.status = "Executed" then
      return .ok {
        txHash := ""
        settlementId := body.settlementId
        balanceChecked := "0"
        amountRequired := toString settlement.amount }
    else if settlement.status ≠ "Pending" then
      return .error (notPending body.settlementId settlement.status)
    else
      -- the token of the settlement is not looked at
      match ← perform (.getTokenBalance (cfg.tokenContract body)) with
      | .error err => return .error err
      | .ok balance =>
        if balance < settlement.amount then
          return .error (insufficientBalance body.settlementId balance settlement.amount)
        else
          submitExecution cfg body settlement balance

/-! ## The calls made -/

inductive Call
  | settlement (settlementId : UInt64)
  | balance (tokenContract : String)
  | submit (settlementId : UInt64) (tokenContract : String)
  deriving DecidableEq

/-- The calls made so far with their answers, the latest first. -/
abbrev Calls (D : Deployment) := List (Call × Answer D)

/-- What the server answers to a call. -/
def execute (cfg : Config) {β : Type} (o : Rpc β) (answer : Answer D) (calls : Calls D) :
    β × Calls D :=
  match o with
  | .getOnChainSettlement settlementId =>
    (getOnChainSettlement answer settlementId, (.settlement settlementId, answer) :: calls)
  | .getTokenBalance tokenContract =>
    (getTokenBalance cfg answer tokenContract, (.balance tokenContract, answer) :: calls)
  | .submitContractCall settlementId tokenContract =>
    (submitContractCall cfg answer settlementId tokenContract,
      (.submit settlementId tokenContract, answer) :: calls)

/-- The server, which may answer as it likes. -/
def server (D : Deployment) (cfg : Config) : System Rpc (Answer D) (Calls D) where
  exec := execute cfg
  legal _ _ _ := True
  crashes _ := True

/-! ## The promise -/

/-- The settlement is stored, at the moment of an answer, with a property. -/
def Answer.Stored (answer : Answer D) (settlementId : UInt64) (p : Settlement → Prop) : Prop :=
  ∃ settlement, answer.chain.storage.settlement settlementId = some settlement ∧ p settlement

/-- The treasury has an amount of a token. -/
def Answer.Has (answer : Answer D) (token : Address) (amount : UInt64) : Prop :=
  ∃ balance, answer.balance token = some balance ∧ amount.toNat ≤ balance

/-- The settlement was pending when it was read, and the treasury had its amount, in its token, when
a balance was read. -/
def Funded (settlementId : UInt64) (calls : Calls D) : Prop :=
  ∃ read ∈ calls, read.1 = .settlement settlementId ∧
    read.2.Stored settlementId fun settlement => settlement.status = .pending ∧
      ∃ check ∈ calls, (∃ token, check.1 = .balance token) ∧
        check.2.Has settlement.token settlement.amount

/-- Every submission was funded before it was made. -/
def AllFunded (settlementId : UInt64) : Calls D → Prop
  | [] => True
  | (.submit _ _, _) :: calls => Funded settlementId calls ∧ AllFunded settlementId calls
  | (.settlement _, _) :: calls | (.balance _, _) :: calls => AllFunded settlementId calls

/-- A transaction that was submitted has succeeded, and after it the settlement is executed. -/
def Confirmed (cfg : Config) (settlementId : UInt64) (call : Call × Answer D) : Prop :=
  ∃ tokenContract token, call.1 = .submit settlementId tokenContract ∧ call.2.failure = none ∧
    ∃ w : State D, Treasury.executeSettlement (call.2.env {cfg.signer}) call.2.chain cfg.signer
      settlementId token = .ok w ∧
      ∃ settlement, w.storage.settlement settlementId = some settlement ∧
        settlement.status = .executed

/-- The settlement was executed when a call was answered, or was then executed by the call. -/
def Executed (cfg : Config) (settlementId : UInt64) (calls : Calls D) : Prop :=
  ∃ call ∈ calls, call.2.Stored settlementId (·.status = .executed) ∨
    Confirmed cfg settlementId call

/-- What is promised of a program that has made some calls, and has returned or thrown, unless it
waits for an answer. -/
structure Guarded (cfg : Config) (settlementId : UInt64) (calls : Calls D)
    (result : Option (Except Thrown ExecutionResult)) : Prop where
  submitted : AllFunded settlementId calls
  returned : ∀ r, result = some (.ok r) → Executed cfg settlementId calls

/-! ## The reads -/

section Reads

variable {cfg : Config} {answer : Answer D} {id : UInt64} {settlement : Settlement}

/-- What is read of a settlement: all but its addresses. -/
def OnChainSettlement.of (settlement : Settlement) : OnChainSettlement where
  token := scAddressToString settlement.token
  amount := settlement.amount.toNat
  merchant := scAddressToString settlement.merchant
  status := statusSymbol settlement.status
  approvalWeight := settlement.approvalWeight.toNat

/-- **A settlement is read as it is stored**, but for its addresses. -/
theorem getOnChainSettlement_eq_ok {read : OnChainSettlement} :
    getOnChainSettlement answer id = .ok read ↔ answer.failure = none ∧
      ∃ settlement, answer.chain.storage.settlement id = some settlement ∧
        read = .of settlement := by
  unfold getOnChainSettlement
  cases answer.failure with
  | some err => simp
  | none =>
    cases answer.chain.storage.settlement id with
    | none => simp [settlementScVal, ScVal.getMap, ScVal.access]
    | some settlement =>
      obtain ⟨map, hmap, hread⟩ : ∃ map, (settlementScVal (some settlement)).getMap =
        .ok (some map) ∧ readSettlement map = .ok (.of settlement) := ⟨_, rfl, rfl⟩
      simp [hmap, hread, Except.mapError, eq_comm]

theorem statusSymbol_injective : Function.Injective statusSymbol := by
  intro status status' h
  cases status <;> cases status' <;> first | rfl | simp [statusSymbol] at h

/-- The status of a settlement that is read as executed. -/
theorem stored_of_read {read : OnChainSettlement} (h : getOnChainSettlement answer id = .ok read)
    {status : SettlementStatus} (hstatus : read.status = statusSymbol status) :
    answer.Stored id (·.status = status) := by
  obtain ⟨-, settlement, hstored, rfl⟩ := getOnChainSettlement_eq_ok.mp h
  exact ⟨settlement, hstored, statusSymbol_injective hstatus⟩

/-- A transaction that is confirmed has a hash. -/
theorem hash_ne_empty {tokenContract hash : String}
    (h : submitContractCall cfg answer id tokenContract = .ok hash) : hash ≠ "" := by
  unfold submitContractCall at h
  split at h
  · cases h
  · cases h
  · split at h
    · exact Except.ok.inj h ▸ answer.hash.2
    · cases h

/-- **A transaction that is confirmed executes the settlement.** -/
theorem confirmed_of_submit {tokenContract hash : String}
    (h : submitContractCall cfg answer id tokenContract = .ok hash) :
    Confirmed cfg id (.submit id tokenContract, answer) := by
  unfold submitContractCall at h
  split at h
  · cases h
  · cases h
  · next token _ hfailure =>
    split at h
    · next w hw =>
      obtain ⟨-, -, settlement, -, -, -, -, rfl⟩ := Treasury.executeSettlement_eq_ok.mp hw
      exact ⟨tokenContract, token, rfl, hfailure, _, hw, { settlement with status := .executed },
        by simp [Treasury.setSettlement], rfl⟩
    · cases h

end Reads

/-! ## The program keeps its promise -/

section Guarded

variable {cfg : Config} {body : ExecuteSettlementBody} {calls : Calls D}

/-- Reading keeps a property of the calls made. -/
def ReadsKeep (I : Calls D → Prop) : Prop :=
  ∀ calls answer, I calls → (∀ settlementId, I ((.settlement settlementId, answer) :: calls)) ∧
    ∀ tokenContract, I ((.balance tokenContract, answer) :: calls)

section Rules

variable {I : Calls D → Prop} {P : ExecutionResult → Calls D → Prop}
  {settlement : OnChainSettlement} {balance : ℤ}

/-- **The escrow check** returns without a hash, if it reads the settlement as executed; otherwise
it throws. -/
theorem syncEscrow_ensures {submitErr : Thrown} (hreads : ReadsKeep I) (h : I calls)
    (hexecuted : ∀ answer answer' r, r.txHash = "" →
      (∃ post, getOnChainSettlement answer body.settlementId = .ok post ∧
        post.status = "Executed") →
      P r ((.balance (cfg.tokenContract body), answer') ::
        (.settlement body.settlementId, answer) :: calls)) :
    (server D cfg).Ensures I (fun result calls => ∀ r, result = .ok r → P r calls)
      (syncEscrow cfg body settlement balance submitErr) calls := by
  rw [syncEscrow, Prog.perform_bind]
  refine System.ensures_act h fun answer => ?_
  have hread := (hreads calls answer h).1 body.settlementId
  cases hpost : getOnChainSettlement answer body.settlementId with
  | error err =>
    simp only [server, execute, hpost]
    exact ⟨hread, fun r hr => by cases hr⟩
  | ok post =>
    simp only [server, execute, hpost, Prog.perform_bind]
    refine System.ensures_act hread fun answer' => ?_
    have hboth := (hreads _ answer' hread).2 (cfg.tokenContract body)
    split
    · exact ⟨hboth, fun r hr => by cases hr⟩
    · split_ifs with hstatus
      · refine ⟨hboth, fun r hr => ?_⟩
        obtain rfl := Except.ok.inj hr
        exact hexecuted answer answer' _ rfl ⟨post, hpost, hstatus⟩
      · exact ⟨hboth, fun r hr => by cases hr⟩
      · exact ⟨hboth, fun r hr => by cases hr⟩

/-- **The submission** returns the hash of a transaction that was confirmed, or what the escrow
check returns. -/
theorem submitExecution_ensures (hreads : ReadsKeep I) (h : I calls)
    (hsubmitted : ∀ answer,
      I ((.submit body.settlementId (cfg.tokenContract body), answer) :: calls))
    (hconfirmed : ∀ answer r,
      submitContractCall cfg answer body.settlementId (cfg.tokenContract body) = .ok r.txHash →
      P r ((.submit body.settlementId (cfg.tokenContract body), answer) :: calls))
    (hexecuted : ∀ answer answer' answer'' r, r.txHash = "" →
      (∃ post, getOnChainSettlement answer' body.settlementId = .ok post ∧
        post.status = "Executed") →
      P r ((.balance (cfg.tokenContract body), answer'') ::
        (.settlement body.settlementId, answer') ::
        (.submit body.settlementId (cfg.tokenContract body), answer) :: calls)) :
    (server D cfg).Ensures I (fun result calls => ∀ r, result = .ok r → P r calls)
      (submitExecution cfg body settlement balance) calls := by
  rw [submitExecution, Prog.perform_bind]
  refine System.ensures_act h fun answer => ?_
  cases hsubmit : submitContractCall cfg answer body.settlementId (cfg.tokenContract body) with
  | error submitErr =>
    simp only [server, execute, hsubmit]
    exact syncEscrow_ensures hreads (hsubmitted answer) (hexecuted answer)
  | ok hash =>
    simp only [server, execute, hsubmit]
    refine ⟨hsubmitted answer, fun r hr => ?_⟩
    obtain rfl := Except.ok.inj hr
    exact hconfirmed answer _ hsubmit

end Rules

/-- A funded submission keeps the promise. -/
theorem submitExecution_guarded (settlement : OnChainSettlement) (balance : ℤ)
    (hfunded : Funded body.settlementId calls) (h : AllFunded body.settlementId calls) :
    (server D cfg).Ensures (AllFunded body.settlementId)
      (fun result calls => ∀ r, result = .ok r → Executed cfg body.settlementId calls)
      (submitExecution cfg body settlement balance) calls := by
  refine submitExecution_ensures (fun _ _ h => ⟨fun _ => h, fun _ => h⟩) h (fun _ => ⟨hfunded, h⟩)
    (fun answer r hok => ?_) fun answer answer' answer'' r _ hread => ?_
  · exact ⟨_, List.mem_cons_self .., Or.inr (confirmed_of_submit hok)⟩
  · obtain ⟨post, hpost, hstatus⟩ := hread
    have hstored : answer'.Stored body.settlementId (·.status = .executed) :=
      stored_of_read hpost hstatus
    exact ⟨_, List.mem_cons_of_mem _ (List.mem_cons_self ..), Or.inl hstored⟩

theorem within_submitExecution {settlement : OnChainSettlement} {balance : ℤ} :
    (submitExecution cfg body settlement balance).Within 3 := by
  rw [submitExecution, Prog.perform_bind]
  rintro (submitErr | hash)
  · dsimp only
    rw [syncEscrow, Prog.perform_bind]
    rintro (err | postSettlement)
    · trivial
    · rintro (err | postBalance)
      · trivial
      · dsimp only
        split_ifs
        · trivial
        · change Prog.Within 0 (if postBalance < balance then _ else _)
          split_ifs <;> trivial
  · trivial

/-- The program makes at most five calls. -/
theorem within_executeSettlement :
    (executeSettlementWithBalanceCheck cfg body).Within 5 := by
  rw [executeSettlementWithBalanceCheck, Prog.perform_bind]
  rintro (err | settlement)
  · trivial
  · dsimp only
    split_ifs
    · trivial
    · trivial
    · rintro (err | balance)
      · trivial
      · change Prog.Within 3 (if balance < settlement.amount then _ else _)
        split_ifs
        · trivial
        · exact within_submitExecution

/-- The checks pass: the settlement is read as pending, and the checked balance is enough. -/
structure Passes (cfg : Config) (body : ExecuteSettlementBody) (read check : Answer D)
    (settlement : Settlement) (balance : ℤ) : Prop where
  failure : read.failure = none
  stored : read.chain.storage.settlement body.settlementId = some settlement
  pending : settlement.status = .pending
  checked : getTokenBalance cfg check (cfg.tokenContract body) = .ok balance
  enough : settlement.amount.toNat ≤ balance

/-- When the checks pass, the treasury has the amount in the settlement's own token, too. -/
def Covers (cfg : Config) (body : ExecuteSettlementBody) (read check : Answer D) : Prop :=
  ∀ settlement balance, Passes cfg body read check settlement balance →
    check.Has settlement.token settlement.amount

variable {read check : Answer D}

theorem feed_of_passes {settlement : Settlement} {balance : ℤ}
    (h : Passes cfg body read check settlement balance) (rest : List (Answer D)) :
    (server D cfg).feed (read :: check :: rest) (executeSettlementWithBalanceCheck cfg body) [] =
      (server D cfg).feed rest (submitExecution cfg body (.of settlement) balance)
        [(.balance (cfg.tokenContract body), check), (.settlement body.settlementId, read)] := by
  have hread := getOnChainSettlement_eq_ok.mpr ⟨h.failure, settlement, h.stored, rfl⟩
  have hexecuted : (OnChainSettlement.of settlement).status ≠ "Executed" := by
    simp [OnChainSettlement.of, h.pending, statusSymbol]
  have hpending : (OnChainSettlement.of settlement).status = "Pending" := by
    simp [OnChainSettlement.of, h.pending, statusSymbol]
  have henough : ¬ balance < (OnChainSettlement.of settlement).amount := not_lt.mpr h.enough
  rw [executeSettlementWithBalanceCheck, Prog.perform_bind, System.feed]
  simp only [server, execute, hread]
  rw [if_neg hexecuted, if_neg (not_not.mpr hpending), Prog.perform_bind, System.feed]
  simp only [execute, h.checked]
  rw [if_neg henough]

/-- Unless the checks pass, nothing is submitted. -/
theorem guarded_of_not_passes (h : ∀ settlement balance,
    ¬ Passes cfg body read check settlement balance) (rest : List (Answer D)) :
    let done :=
      (server D cfg).feed (read :: check :: rest) (executeSettlementWithBalanceCheck cfg body) []
    Guarded cfg body.settlementId done.2 done.1 := by
  rw [executeSettlementWithBalanceCheck, Prog.perform_bind, System.feed]
  cases hread : getOnChainSettlement read body.settlementId with
  | error err =>
    simp only [server, execute, hread]
    exact ⟨trivial, fun r hr => by cases hr⟩
  | ok settlement =>
    simp only [server, execute, hread]
    split_ifs with hexecuted hpending
    · refine ⟨trivial, fun r hr => ⟨_, List.mem_cons_self .., Or.inl ?_⟩⟩
      exact stored_of_read hread hexecuted
    · exact ⟨trivial, fun r hr => by cases hr⟩
    · rw [Prog.perform_bind, System.feed]
      cases hcheck : getTokenBalance cfg check (cfg.tokenContract body) with
      | error err =>
        simp only [execute, hcheck, Prog.pure_eq, System.feed_done]
        exact ⟨trivial, fun r hr => by cases hr⟩
      | ok balance =>
        simp only [execute, hcheck]
        split_ifs with henough
        · rw [Prog.pure_eq, System.feed_done]
          exact ⟨trivial, fun r hr => by cases hr⟩
        · obtain ⟨hfailure, stored, hstored, rfl⟩ := getOnChainSettlement_eq_ok.mp hread
          exact absurd ⟨hfailure, hstored, statusSymbol_injective (not_not.mp hpending), hcheck,
            not_lt.mp henough⟩ (h stored balance)

/-- The first call of a submission is the submission. -/
theorem feed_submitExecution (settlement : OnChainSettlement) (balance : ℤ) (answer : Answer D)
    (calls : Calls D) :
    ((server D cfg).feed [answer] (submitExecution cfg body settlement balance) calls).2 =
      (.submit body.settlementId (cfg.tokenContract body), answer) :: calls := by
  rw [submitExecution, Prog.perform_bind, System.feed]
  simp only [server, execute]
  cases submitContractCall cfg answer body.settlementId (cfg.tokenContract body) with
  | error submitErr => rfl
  | ok hash => rfl

/-- The calls before a submission are funded when the balance is one of the settlement's token. -/
theorem funded_iff {settlement : Settlement} (tokenContract : String)
    (hstored : read.chain.storage.settlement body.settlementId = some settlement)
    (hpending : settlement.status = .pending) :
    Funded body.settlementId
        [(.balance tokenContract, check), (.settlement body.settlementId, read)] ↔
      check.Has settlement.token settlement.amount := by
  simp [Funded, Answer.Stored, hstored, hpending]

/-- **Executions are guarded exactly if the checked balance covers the settlement.** -/
theorem execution_guarded_iff (cfg : Config) (body : ExecuteSettlementBody) (read check : Answer D) :
    (∀ rest,
      let done :=
        (server D cfg).feed (read :: check :: rest) (executeSettlementWithBalanceCheck cfg body) []
      Guarded cfg body.settlementId done.2 done.1 ∧ (3 ≤ rest.length → done.1.isSome)) ↔
      Covers cfg body read check := by
  constructor
  · intro h settlement balance hpasses
    -- the transaction is submitted, so it was funded
    have hsubmitted := (h [read]).1.submitted
    rw [feed_of_passes hpasses, feed_submitExecution] at hsubmitted
    exact (funded_iff _ hpasses.stored hpasses.pending).mp hsubmitted.1
  · intro h rest
    refine ⟨?_, fun hlen => System.isSome_feed _ within_executeSettlement (by simpa using hlen)⟩
    by_cases hpasses : ∃ settlement balance, Passes cfg body read check settlement balance
    · obtain ⟨settlement, balance, hpasses⟩ := hpasses
      rw [feed_of_passes hpasses]
      have hfunded := (funded_iff (cfg.tokenContract body) hpasses.stored hpasses.pending).mpr
        (h settlement balance hpasses)
      obtain ⟨hsubmitted, hreturned⟩ :=
        (submitExecution_guarded (.of settlement) balance hfunded trivial).feed rest
      exact ⟨hsubmitted, fun r hr => hreturned _ hr r rfl⟩
    · exact guarded_of_not_passes (not_exists.mp <| not_exists.mp hpasses ·) rest

end Guarded

/-! ## The other token -/

/-- A ledger of the treasury's balances by token. -/
def balances : Deployment where
  self := .contract 0
  Ledger := Address → ℤ
  call _ _ _ _ _ := none
  query _ l contract f _ := if f = "balance" then some (.i128 (l contract)) else none

/-- The treasury has 1000 units of USDC, which is token 2, and none of token 1. -/
def usdcOnly : Answer balances where
  chain :=
    Treasury.setSettlement (Treasury.fresh (fun token => if token = .contract 2 then 1000 else 0) 0)
      7 ⟨.contract 1, 500, .account 3, .pending, 1, .account 1, 100⟩
  timestamp := 50
  overflowChecks := true
  failure := none
  hash := ⟨"ab12", by decide⟩

def usdcConfig : Config where
  usdcContractId := "CUSDC"
  signer := .account 1
  fromString text := if text = "CUSDC" then some (.contract 2) else none

/-- A settlement of token 1 is submitted with nothing but USDC to cover it. -/
theorem not_guarded_usdcOnly : ¬ ∀ rest,
    let done := (server balances usdcConfig).feed (usdcOnly :: usdcOnly :: rest)
      (executeSettlementWithBalanceCheck usdcConfig ⟨7, none⟩) []
    Guarded usdcConfig 7 done.2 done.1 ∧ (3 ≤ rest.length → done.1.isSome) := by
  intro h
  have hpasses : Passes usdcConfig ⟨7, none⟩ usdcOnly usdcOnly
      ⟨.contract 1, 500, .account 3, .pending, 1, .account 1, 100⟩ 1000 :=
    ⟨rfl, by simp [usdcOnly, Treasury.setSettlement], rfl, by rfl, by decide⟩
  have hsubmitted := (h [usdcOnly]).1.submitted
  rw [feed_of_passes hpasses, feed_submitExecution] at hsubmitted
  obtain ⟨balance, hbalance, hle⟩ := (funded_iff _ hpasses.stored hpasses.pending).mp hsubmitted.1
  have hzero : usdcOnly.balance (.contract 1) = some 0 := by rfl
  obtain rfl := Option.some.inj (hzero.symm.trans hbalance)
  exact absurd hle (by decide)

end Http.Settlements
