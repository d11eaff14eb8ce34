import Comebackhere.Soroban.Host

/-!
# The treasury contract

The treasury holds settlements that weighted signers approve and execute, the registry of those
signers, an allowlist of tokens, and per-token withdrawal limits. Every entry point is a function
of the host environment and the world; its checks stand in the order of the source, so that the
first failure is the one the contract reports. Time-to-live extensions of the storage are left
out. The view functions read the storage only and are no inputs of a run.

## Main definitions

* `Storage`: the contract's instance storage, one field for each storage key
* `Call`, `invoke`: the entry points that may change the world
* `fresh`: the world in which the contract has just been deployed
-/

namespace Treasury

open Soroban Checked

/-! ## Data -/

/-- The lifetime of a settlement proposal unless one is configured: 30 days. -/
def defaultSettlementTtlSeconds : UInt64 := 30 * 24 * 60 * 60

inductive SettlementStatus
  | pending
  | executed
  | partiallyExecuted
  | onHold
  | cancelled
  deriving DecidableEq, Repr

structure Settlement where
  token : Address
  amount : UInt64
  merchant : Address
  status : SettlementStatus
  approvalWeight : UInt64
  proposer : Address
  expiresAt : UInt64
  deriving DecidableEq

/-- The withdrawals of one token since `windowStart`. -/
structure WithdrawWindow where
  windowStart : UInt64
  spent : UInt64
  deriving DecidableEq

inductive TreasuryError
  | contractPaused
  | notPending
  | insufficientApprovals
  | tokenNotAllowed
  | unauthorized
  | invalidThreshold
  | duplicateSigner
  | invalidWeightSum
  | notSettlementParty
  | thresholdExceedsWeight
  | invalidPagination
  | signerNotFound
  | dailyLimitExceeded
  | upgradeInProgress
  | settlementNotFound
  | settlementExpired
  | notDisputed
  | invalidSettlementTtl
  deriving DecidableEq, Repr

/-- The instance storage. A key that was never set, or was removed, holds `none`. -/
structure Storage where
  admin : Option Address
  pendingAdmin : Option Address
  paused : Option Bool
  signer : Address → Option UInt64
  signerList : Option (List Address)
  settlement : UInt64 → Option Settlement
  nextSettlementId : Option UInt64
  threshold : Option UInt64
  tokenAllowlist : Option (List Address)
  dailyWithdrawLimit : Address → Option UInt64
  withdrawWindow : Address → Option WithdrawWindow
  settlementTtl : Option UInt64

abbrev State (D : Deployment) := World D Storage

abbrev Result (α : Type) := Except (Failure TreasuryError) α

/-- The storage of a contract that was deployed and never called. -/
def Storage.empty : Storage where
  admin := none
  pendingAdmin := none
  paused := none
  signer := fun _ => none
  signerList := none
  settlement := fun _ => none
  nextSettlementId := none
  threshold := none
  tokenAllowlist := none
  dailyWithdrawLimit := fun _ => none
  withdrawWindow := fun _ => none
  settlementTtl := none

variable {D : Deployment}

/-- The world in which the contract has just been deployed. -/
def fresh (l : D.Ledger) (wasm : WasmHash) : State D := ⟨Storage.empty, l, [], wasm⟩

/-- The stored weight of an address; zero when it is no signer. -/
def Storage.weight (s : Storage) (a : Address) : UInt64 := (s.signer a).getD 0

/-! ## Helpers of the contract -/

def isPaused (s : Storage) : Bool := s.paused.getD false

def checkNotPaused (s : Storage) : Result Unit :=
  ensure (isPaused s = false) (.error .contractPaused)

def checkAdmin (e : Env) (s : Storage) (admin : Address) : Result Unit := do
  requireAuth e admin
  let storedAdmin ← orFail s.admin .trap
  ensure (storedAdmin = admin) (.error .unauthorized)

def getSettlementInternal (s : Storage) (settlementId : UInt64) : Result Settlement :=
  orFail (s.settlement settlementId) .trap

/-- `e.storage().instance().set(&DataKey::Settlement(settlement_id), &settlement)` -/
def setSettlement (w : State D) (settlementId : UInt64) (settlement : Settlement) : State D :=
  { w with storage.settlement :=
      Function.update w.storage.settlement settlementId (some settlement) }

def getThreshold (s : Storage) : UInt64 := s.threshold.getD 0

def getSettlementTtl (s : Storage) : UInt64 := s.settlementTtl.getD defaultSettlementTtlSeconds

/-- The sum of the weights of the listed signers, by plain additions. -/
def totalSignerWeight (e : Env) (s : Storage) : Result UInt64 :=
  (s.signerList.getD []).foldlM (fun total signer => plainAdd e total (s.weight signer)) 0

/-- The listed signers of positive weight, with their weights. -/
def getSigners (s : Storage) : List (Address × UInt64) :=
  (s.signerList.getD []).filterMap fun signer =>
    if 0 < s.weight signer then some (signer, s.weight signer) else none

/-- Whether a settlement with an id from 1 up to the next one is partially executed. -/
def upgradeBlocked (s : Storage) : Bool :=
  (List.range' 1 ((s.nextSettlementId.getD 1).toNat - 1)).any fun settlementId =>
    (s.settlement (UInt64.ofNat settlementId)).any fun settlement =>
      settlement.status = .partiallyExecuted

/-! ## Administration -/

def upgrade (e : Env) (w : State D) (newWasmHash : WasmHash) : Result (State D) := do
  let admin ← orFail w.storage.admin .trap
  checkAdmin e w.storage admin
  ensure (upgradeBlocked w.storage = false) (.error .upgradeInProgress)
  return { w with wasm := newWasmHash }.publish [.symbol "upgraded"] (.bytesN newWasmHash)

def transferAdmin (e : Env) (w : State D) (admin newAdmin : Address) : Result (State D) := do
  checkNotPaused w.storage
  checkAdmin e w.storage admin
  return { w with storage.pendingAdmin := some newAdmin }.publish
    [.symbol "admin_transfer_initiated"] (.vec [.address admin, .address newAdmin])

def acceptAdmin (e : Env) (w : State D) (newAdmin : Address) : Result (State D) := do
  checkNotPaused w.storage
  requireAuth e newAdmin
  let pending ← orFail w.storage.pendingAdmin (.error .unauthorized)
  ensure (newAdmin = pending) (.error .unauthorized)
  return { w with storage.admin := some newAdmin, storage.pendingAdmin := none }.publish
    [.symbol "admin_transfer_accepted"] (.address newAdmin)

/-- The first loop of `initialize`: the signers are distinct and their weights add up. -/
def sumWeights : List (Address × UInt64) → List Address → UInt64 → Result UInt64
  | [], _, totalWeight => return totalWeight
  | (signer, weight) :: signers, seen, totalWeight => do
    ensure (signer ∉ seen) (.error .duplicateSigner)
    let totalWeight ← orFail (checkedAdd totalWeight weight) (.error .invalidWeightSum)
    sumWeights signers (seen ++ [signer]) totalWeight

/-- The second loop of `initialize`: the weights are stored. -/
def storeWeights (signer : Address → Option UInt64) (signers : List (Address × UInt64)) :
    Address → Option UInt64 :=
  signers.foldl (fun signer p => Function.update signer p.1 (some p.2)) signer

def initializeContract (e : Env) (w : State D) (signers : List (Address × UInt64))
    (threshold : UInt64) (admin : Address) : Result (State D) := do
  requireAuth e admin
  let totalWeight ← sumWeights signers [] 0
  ensure (threshold ≤ totalWeight) (.error .invalidWeightSum)
  -- whatever is stored is overwritten; weights and settlements stored before stay
  return { w with
    storage.admin := some admin
    storage.threshold := some threshold
    storage.paused := some false
    storage.nextSettlementId := some 1
    storage.signer := storeWeights w.storage.signer signers
    storage.signerList := some (signers.map Prod.fst) }

def pause (e : Env) (w : State D) (admin : Address) : Result (State D) := do
  checkAdmin e w.storage admin
  return { w with storage.paused := some true }.publish [.symbol "contract_paused"] .void

def unpause (e : Env) (w : State D) (admin : Address) : Result (State D) := do
  checkAdmin e w.storage admin
  return { w with storage.paused := some false }.publish [.symbol "contract_unpaused"] .void

def setSettlementTtl (e : Env) (w : State D) (admin : Address) (ttlSeconds : UInt64) :
    Result (State D) := do
  checkNotPaused w.storage
  checkAdmin e w.storage admin
  ensure (ttlSeconds ≠ 0) (.error .invalidSettlementTtl)
  return { w with storage.settlementTtl := some ttlSeconds }

/-! ## Signers and the threshold -/

def setSigner (e : Env) (w : State D) (admin signer : Address) (weight : UInt64) :
    Result (State D) := do
  checkNotPaused w.storage
  checkAdmin e w.storage admin
  let signerList := w.storage.signerList.getD []
  -- an address of weight zero stays listed
  return { w with
    storage.signer := Function.update w.storage.signer signer (some weight)
    storage.signerList :=
      if signer ∈ signerList then w.storage.signerList else some (signerList ++ [signer]) }

/-- The list of signers after `oldSigner` is replaced by `newSigner`. -/
def rotatedList (signerList : List Address) (oldSigner newSigner : Address) : List Address :=
  let updatedList := signerList.filter (· ≠ oldSigner)
  if newSigner ∈ updatedList then updatedList else updatedList ++ [newSigner]

def rotateSigner (e : Env) (w : State D) (admin oldSigner newSigner : Address)
    (newWeight : UInt64) : Result (State D) := do
  checkNotPaused w.storage
  checkAdmin e w.storage admin
  let oldWeight := w.storage.weight oldSigner
  ensure (oldWeight ≠ 0) (.error .signerNotFound)
  -- an address that is listed with weight zero may take over
  ensure (newSigner = oldSigner ∨ ¬ 0 < w.storage.weight newSigner) (.error .duplicateSigner)
  return { w with
    storage.signer := Function.update (Function.update w.storage.signer oldSigner none)
      newSigner (some newWeight)
    storage.signerList :=
      some (rotatedList (w.storage.signerList.getD []) oldSigner newSigner) }.publish
    [.symbol "signer_rotated"]
    (.vec [.address oldSigner, .address newSigner, .u64 oldWeight, .u64 newWeight])

def updateThreshold (e : Env) (w : State D) (admin : Address) (newThreshold : UInt32) :
    Result (State D) := do
  checkNotPaused w.storage
  checkAdmin e w.storage admin
  ensure (newThreshold ≠ 0) (.error .invalidThreshold)
  let threshold := newThreshold.toUInt64
  let totalWeight ← totalSignerWeight e w.storage
  ensure (threshold ≤ totalWeight) (.error .thresholdExceedsWeight)
  return { w with storage.threshold := some threshold }.publish [.symbol "threshold_updated"]
    (.vec [.u64 (getThreshold w.storage), .u64 threshold])

/-! ## Settlements -/

def proposeSettlement (e : Env) (w : State D) (signer token : Address) (amount : UInt64)
    (merchant : Address) : Result (State D × UInt64) := do
  -- for proposals the empty allowlist allows every token
  let allowlist := w.storage.tokenAllowlist.getD []
  ensure (allowlist = [] ∨ token ∈ allowlist) (.error .tokenNotAllowed)
  checkNotPaused w.storage
  requireAuth e signer
  let settlementId := w.storage.nextSettlementId.getD 1
  let expiresAt ← orFail (checkedAdd e.timestamp (getSettlementTtl w.storage))
    (.error .invalidSettlementTtl)
  let settlement : Settlement :=
    { token, amount, merchant, status := .pending, approvalWeight := 0, proposer := signer,
      expiresAt }
  -- the plain `settlement_id + 1` of the source
  let nextId ← plainAdd e settlementId 1
  return ({ setSettlement w settlementId settlement with
    storage.nextSettlementId := some nextId }, settlementId)

def cancelSettlement (e : Env) (w : State D) (caller : Address) (settlementId : UInt64) :
    Result (State D) := do
  checkNotPaused w.storage
  requireAuth e caller
  let settlement ← orFail (w.storage.settlement settlementId) (.error .settlementNotFound)
  ensure (settlement.status = .pending) (.error .notPending)
  let admin ← orFail w.storage.admin .trap
  ensure (caller = settlement.proposer ∨ caller = admin) (.error .unauthorized)
  return (setSettlement w settlementId { settlement with status := .cancelled }).publish
    [.symbol "settlement_cancelled"]
    (.vec [.u64 settlementId, .address caller, .vec [.symbol "Cancelled"]])

def approveSettlement (e : Env) (w : State D) (signer : Address) (settlementId : UInt64) :
    Result (State D) := do
  checkNotPaused w.storage
  requireAuth e signer
  let settlement ← getSettlementInternal w.storage settlementId
  ensure (settlement.status = .pending) (.error .notPending)
  ensure (e.timestamp < settlement.expiresAt) (.error .settlementExpired)
  let weight := w.storage.weight signer
  let approvalWeight ← orFail (checkedAdd settlement.approvalWeight weight)
    (.error .invalidWeightSum)
  -- the settlement keeps the sum, and not who approved
  return setSettlement w settlementId { settlement with approvalWeight }

def executeSettlement (e : Env) (w : State D) (signer : Address) (settlementId : UInt64)
    (_tokenContract : Address) : Result (State D) := do
  checkNotPaused w.storage
  requireAuth e signer
  let settlement ← getSettlementInternal w.storage settlementId
  ensure (settlement.status = .pending) (.error .notPending)
  ensure (e.timestamp < settlement.expiresAt) (.error .settlementExpired)
  ensure (getThreshold w.storage ≤ settlement.approvalWeight) (.error .insufficientApprovals)
  -- no token is transferred
  return setSettlement w settlementId { settlement with status := .executed }

def raiseDispute (e : Env) (w : State D) (signer : Address) (settlementId : UInt64)
    (_reason : UInt32) : Result (State D) := do
  checkNotPaused w.storage
  requireAuth e signer
  let settlement ← getSettlementInternal w.storage settlementId
  ensure (signer = settlement.merchant) (.error .notSettlementParty)
  -- whatever its status is
  return setSettlement w settlementId { settlement with status := .onHold }

def resolveDispute (e : Env) (w : State D) (signer : Address) (settlementId : UInt64)
    (resolveInFavor : Bool) : Result (State D) := do
  checkNotPaused w.storage
  requireAuth e signer
  let settlement ← getSettlementInternal w.storage settlementId
  ensure (settlement.status = .onHold) (.error .notDisputed)
  -- any signer of the invocation may resolve
  let status : SettlementStatus := if resolveInFavor then .pending else .cancelled
  return (setSettlement w settlementId { settlement with status }).publish
    [.symbol "dispute_resolved"]
    (.vec [.u64 settlementId, .bool resolveInFavor, .u64 settlement.approvalWeight])

def updateSettlementMerchant (e : Env) (w : State D) (merchantCaller : Address)
    (settlementId : UInt64) (newMerchant : Address) : Result (State D) := do
  checkNotPaused w.storage
  requireAuth e merchantCaller
  let settlement ← getSettlementInternal w.storage settlementId
  ensure (settlement.status = .pending) (.error .notPending)
  ensure (settlement.merchant = merchantCaller) (.error .unauthorized)
  return (setSettlement w settlementId { settlement with merchant := newMerchant }).publish
    [.symbol "merchant_updated", .u64 settlementId]
    (.vec [.address settlement.merchant, .address newMerchant])

/-! ## Funds -/

/-- `token::Client::new(&e, &token).transfer(&from, &to, &(amount as i128))` -/
def transferToken (e : Env) (w : State D) (token source recipient : Address) (amount : UInt64) :
    Result (State D) :=
  invokeUnit e w token "transfer" [.address source, .address recipient, .i128 amount.toNat]

/-- Deposits need an allowlist that names the token: the empty one allows none. The source calls
an event helper its event module lacks; the event is the one its comment gives. -/
def deposit (e : Env) (w : State D) (source token : Address) (amount : UInt64) :
    Result (State D) := do
  let allowlist := w.storage.tokenAllowlist.getD []
  ensure (¬ (allowlist = [] ∨ token ∉ allowlist)) (.error .tokenNotAllowed)
  checkNotPaused w.storage
  requireAuth e source
  let w ← transferToken e w token source D.self amount
  return w.publish [.symbol "deposit"] (.vec [.address token, .address source, .u64 amount])

def setDailyWithdrawLimit (e : Env) (w : State D) (admin token : Address) (limit : UInt64) :
    Result (State D) := do
  checkNotPaused w.storage
  checkAdmin e w.storage admin
  -- a limit of zero removes the limit, with its window
  let w := if limit = 0 then
      { w with
        storage.dailyWithdrawLimit := Function.update w.storage.dailyWithdrawLimit token none
        storage.withdrawWindow := Function.update w.storage.withdrawWindow token none }
    else
      { w with
        storage.dailyWithdrawLimit :=
          Function.update w.storage.dailyWithdrawLimit token (some limit) }
  return w.publish [.symbol "daily_withdraw_limit_set"] (.vec [.address token, .u64 limit])

def windowSeconds : ℕ := 86400

/-- The window a withdrawal at `now` falls in: the stored one until it has lapsed. -/
def currentWindow (window : Option WithdrawWindow) (now : UInt64) : WithdrawWindow :=
  match window with
  | some w => if now.toNat - w.windowStart.toNat < windowSeconds then w else ⟨now, 0⟩
  | none => ⟨now, 0⟩

/-- The check of a withdrawal against the daily limit, and the window it leaves stored. -/
def spendWindow (e : Env) (w : State D) (token : Address) (amount : UInt64) :
    Result (State D) :=
  match w.storage.dailyWithdrawLimit token with
  | none => return w
  | some limit => do
    let window := currentWindow (w.storage.withdrawWindow token) e.timestamp
    let newSpent ← orFail (checkedAdd window.spent amount) (.error .dailyLimitExceeded)
    ensure (newSpent ≤ limit) (.error .dailyLimitExceeded)
    return { w with
      storage.withdrawWindow :=
        Function.update w.storage.withdrawWindow token (some ⟨window.windowStart, newSpent⟩) }

def withdraw (e : Env) (w : State D) (admin token recipient : Address) (amount : UInt64) :
    Result (State D) := do
  checkNotPaused w.storage
  checkAdmin e w.storage admin
  let w ← spendWindow e w token amount
  transferToken e w token D.self recipient amount

def addTokenToAllowlist (e : Env) (w : State D) (admin token : Address) : Result (State D) := do
  checkNotPaused w.storage
  checkAdmin e w.storage admin
  let allowlist := w.storage.tokenAllowlist.getD []
  return { w with
    storage.tokenAllowlist :=
      some (if token ∈ allowlist then allowlist else allowlist ++ [token]) }

def removeTokenFromAllowlist (e : Env) (w : State D) (admin token : Address) :
    Result (State D) := do
  checkNotPaused w.storage
  checkAdmin e w.storage admin
  return { w with
    storage.tokenAllowlist := some ((w.storage.tokenAllowlist.getD []).filter (· ≠ token)) }

/-! ## Entry points -/

/-- The entry points that may change the world, with their arguments. -/
inductive Call
  | upgrade (newWasmHash : WasmHash)
  | transferAdmin (admin newAdmin : Address)
  | acceptAdmin (newAdmin : Address)
  | initializeContract (signers : List (Address × UInt64)) (threshold : UInt64) (admin : Address)
  | setSigner (admin signer : Address) (weight : UInt64)
  | rotateSigner (admin oldSigner newSigner : Address) (newWeight : UInt64)
  | proposeSettlement (signer token : Address) (amount : UInt64) (merchant : Address)
  | cancelSettlement (caller : Address) (settlementId : UInt64)
  | approveSettlement (signer : Address) (settlementId : UInt64)
  | executeSettlement (signer : Address) (settlementId : UInt64) (tokenContract : Address)
  | pause (admin : Address)
  | unpause (admin : Address)
  | setSettlementTtl (admin : Address) (ttlSeconds : UInt64)
  | updateThreshold (admin : Address) (newThreshold : UInt32)
  | raiseDispute (signer : Address) (settlementId : UInt64) (reason : UInt32)
  | resolveDispute (signer : Address) (settlementId : UInt64) (resolveInFavor : Bool)
  | updateSettlementMerchant (merchantCaller : Address) (settlementId : UInt64)
      (newMerchant : Address)
  | deposit (source token : Address) (amount : UInt64)
  | setDailyWithdrawLimit (admin token : Address) (limit : UInt64)
  | withdraw (admin token recipient : Address) (amount : UInt64)
  | addTokenToAllowlist (admin token : Address)
  | removeTokenFromAllowlist (admin token : Address)

/-- An entry point that returns `()`. -/
def unitResult (r : Result (State D)) : Result (State D × Val) := do
  let w ← r
  return (w, .void)

def invoke (e : Env) (w : State D) : Call → Result (State D × Val)
  | .upgrade h => unitResult (upgrade e w h)
  | .transferAdmin admin newAdmin => unitResult (transferAdmin e w admin newAdmin)
  | .acceptAdmin newAdmin => unitResult (acceptAdmin e w newAdmin)
  | .initializeContract signers threshold admin =>
    unitResult (initializeContract e w signers threshold admin)
  | .setSigner admin signer weight => unitResult (setSigner e w admin signer weight)
  | .rotateSigner admin oldSigner newSigner newWeight =>
    unitResult (rotateSigner e w admin oldSigner newSigner newWeight)
  | .proposeSettlement signer token amount merchant => do
    let (w, settlementId) ← proposeSettlement e w signer token amount merchant
    return (w, .u64 settlementId)
  | .cancelSettlement caller id => unitResult (cancelSettlement e w caller id)
  | .approveSettlement signer id => unitResult (approveSettlement e w signer id)
  | .executeSettlement signer id token => unitResult (executeSettlement e w signer id token)
  | .pause admin => unitResult (pause e w admin)
  | .unpause admin => unitResult (unpause e w admin)
  | .setSettlementTtl admin ttlSeconds => unitResult (setSettlementTtl e w admin ttlSeconds)
  | .updateThreshold admin newThreshold => unitResult (updateThreshold e w admin newThreshold)
  | .raiseDispute signer id reason => unitResult (raiseDispute e w signer id reason)
  | .resolveDispute signer id resolveInFavor =>
    unitResult (resolveDispute e w signer id resolveInFavor)
  | .updateSettlementMerchant merchantCaller id newMerchant =>
    unitResult (updateSettlementMerchant e w merchantCaller id newMerchant)
  | .deposit source token amount => unitResult (deposit e w source token amount)
  | .setDailyWithdrawLimit admin token limit =>
    unitResult (setDailyWithdrawLimit e w admin token limit)
  | .withdraw admin token recipient amount =>
    unitResult (withdraw e w admin token recipient amount)
  | .addTokenToAllowlist admin token => unitResult (addTokenToAllowlist e w admin token)
  | .removeTokenFromAllowlist admin token => unitResult (removeTokenFromAllowlist e w admin token)

/-- One input of a run of the treasury. -/
abbrev step : State D → Input D Call → State D := Soroban.step invoke

end Treasury
