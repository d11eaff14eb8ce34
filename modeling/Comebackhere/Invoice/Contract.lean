import Comebackhere.Soroban.Host

/-!
# The invoice contract

Merchants create invoices, which are paid through the contract (`pay_invoice`) or confirmed as
paid elsewhere (`mark_paids`), cancelled, refunded, released, or expired. Time-to-live extensions
of the storage are left out. The view functions read the storage only and are no inputs of a run.

## Main definitions

* `Storage`: the contract's persistent storage, one field for each storage key
* `Call`, `invoke`: the entry points that may change the world
* `fresh`: the world in which the contract has just been deployed
-/

namespace Invoicing

open Soroban Checked

/-! ## Data -/

/-- The longest reference, in bytes. -/
def maxReferenceLen : ℕ := 64

/-- The longest batch of invoice ids. -/
def maxBatchSize : ℕ := 50

/-- The smallest amount, in stroops. -/
def minAmountUsdc : ℤ := 10000000

/-- The longest grace window: 90 days. -/
def maxGraceWindow : UInt64 := 90 * 24 * 60 * 60

inductive ContractError
  | unauthorized
  | contractPaused
  | alreadyInitialized
  | invoiceNotFound
  | invoiceAlreadyPaid
  | invoiceExpired
  | invoiceCancelled
  | notMerchant
  | notCustomer
  | refundNotRequested
  | alreadyRefundRequested
  | graceWindowNotExpired
  | duplicateNonce
  | treasuryNotConfigured
  | notAParty
  | overflow
  | addressBlocked
  | invalidStateTransition
  | batchTooLarge
  | amountPrecision
  | referenceTooLong
  | graceWindowTooLarge
  deriving DecidableEq, Repr

inductive InvoiceStatus
  | pending
  | paid
  | expired
  | cancelled
  | refundRequested
  | released
  deriving DecidableEq, Repr

/-- An invoice. The amount is an `i128`, the reference a string of bytes. -/
structure Invoice where
  id : UInt64
  merchant : Address
  customer : Address
  amount : ℤ
  token : Address
  status : InvoiceStatus
  createdAt : UInt64
  expiresAt : UInt64
  reference : Option (List UInt8)
  deriving DecidableEq

/-- The persistent storage. A key that was never set, or was removed, holds `none`. -/
structure Storage where
  admin : Option Address
  pendingAdmin : Option Address
  paused : Option Bool
  invoice : UInt64 → Option Invoice
  invoiceCount : Option UInt64
  graceWindow : Option UInt64
  nonce : Address × UInt64 → Option Bool
  treasuryContract : Option Address
  complianceContract : Option Address
  customerInvoices : Address → Option (List UInt64)

abbrev State (D : Deployment) := World D Storage

abbrev Result (α : Type) := Except (Failure ContractError) α

/-- The storage of a contract that was deployed and never called. -/
def Storage.empty : Storage where
  admin := none
  pendingAdmin := none
  paused := none
  invoice := fun _ => none
  invoiceCount := none
  graceWindow := none
  nonce := fun _ => none
  treasuryContract := none
  complianceContract := none
  customerInvoices := fun _ => none

variable {D : Deployment}

/-- The world in which the contract has just been deployed. -/
def fresh (l : D.Ledger) (wasm : WasmHash) : State D := ⟨Storage.empty, l, [], wasm⟩

/-! ## Events -/

/-- The events about one invoice carry its id: `invoice_paid`, `invoice_expired`,
`invoice_cancelled`, `invoice_refund_req` and `escrow_released`. -/
def publishId (w : State D) (name : Symbol) (invoiceId : UInt64) : State D :=
  w.publish [.symbol name] (.u64 invoiceId)

def invoicePaid (w : State D) (invoiceId : UInt64) : State D := publishId w "invoice_paid" invoiceId

def invoiceExpired (w : State D) (invoiceId : UInt64) : State D :=
  publishId w "invoice_expired" invoiceId

def invoiceCancelled (w : State D) (invoiceId : UInt64) : State D :=
  publishId w "invoice_cancelled" invoiceId

def invoiceRefundReq (w : State D) (invoiceId : UInt64) : State D :=
  publishId w "invoice_refund_req" invoiceId

def escrowReleased (w : State D) (invoiceId : UInt64) : State D :=
  publishId w "escrow_released" invoiceId

/-! ## Helpers of the contract -/

/-- `admin(&env)`: the stored admin, or a trap. -/
def storedAdmin (s : Storage) : Result Address := orFail s.admin .trap

def isPaused (s : Storage) : Bool := s.paused.getD false

def checkNotPaused (s : Storage) : Result Unit :=
  ensure (isPaused s = false) (.error .contractPaused)

def storeInvoice (w : State D) (invoiceId : UInt64) (invoice : Invoice) : State D :=
  { w with storage.invoice := Function.update w.storage.invoice invoiceId (some invoice) }

/-- The address is the stored admin. Whether it authorised the call is not asked. -/
def checkAdmin (s : Storage) (addr : Address) : Result Unit := do
  let admin ← storedAdmin s
  ensure (addr = admin) (.error .unauthorized)

def findInvoice (s : Storage) (invoiceId : UInt64) : Result Invoice :=
  orFail (s.invoice invoiceId) (.error .invoiceNotFound)

/-- The compliance contract allows an address. -/
def checkAllowed (e : Env) (w : State D) (compliance addr : Address) : Result Unit := do
  let allowed ← queryBool e w compliance "is_allowed" [.address addr]
  ensure (allowed = true) (.error .addressBlocked)

/-- The state guards that `mark_paids` and `pay_invoice` share. -/
def checkPayable (e : Env) (invoice : Invoice) : Result Unit := do
  ensure (invoice.status ∉ [.refundRequested, .released, .cancelled, .expired])
    (.error .invalidStateTransition)
  ensure (invoice.status = .pending) (.error .invoiceAlreadyPaid)
  ensure (e.timestamp < invoice.expiresAt) (.error .invoiceExpired)

/-! ## Administration -/

def upgrade (e : Env) (w : State D) (newWasmHash : WasmHash) : Result (State D) := do
  let contractAdmin ← storedAdmin w.storage
  requireAuth e contractAdmin
  return { w with wasm := newWasmHash }.publish [.symbol "upgraded"] (.bytesN newWasmHash)

def transferAdmin (e : Env) (w : State D) (caller newAdmin : Address) : Result (State D) := do
  checkNotPaused w.storage
  requireAuth e caller
  checkAdmin w.storage caller
  return { w with storage.pendingAdmin := some newAdmin }.publish
    [.symbol "admin_transfer_initiated"] (.vec [.address caller, .address newAdmin])

def acceptAdmin (e : Env) (w : State D) (newAdmin : Address) : Result (State D) := do
  checkNotPaused w.storage
  requireAuth e newAdmin
  let pending ← orFail w.storage.pendingAdmin (.error .unauthorized)
  ensure (newAdmin = pending) (.error .unauthorized)
  return { w with storage.admin := some newAdmin, storage.pendingAdmin := none }.publish
    [.symbol "admin_transfer_accepted"] (.address newAdmin)

def initializeContract (w : State D) (admin : Address) : Result (State D) := do
  ensure (w.storage.admin = none) (.error .alreadyInitialized)
  return { w with
    storage.admin := some admin
    storage.graceWindow := some 86400
    storage.invoiceCount := some 0
    storage.paused := some false }

def setTreasury (w : State D) (caller treasury : Address) : Result (State D) := do
  checkNotPaused w.storage
  checkAdmin w.storage caller
  return { w with storage.treasuryContract := some treasury }

def setCompliance (w : State D) (caller compliance : Address) : Result (State D) := do
  checkNotPaused w.storage
  checkAdmin w.storage caller
  return { w with storage.complianceContract := some compliance }

def pause (w : State D) (caller : Address) : Result (State D) := do
  checkAdmin w.storage caller
  return { w with storage.paused := some true }.publish [.symbol "contract_paused"] .void

def unpause (w : State D) (caller : Address) : Result (State D) := do
  checkAdmin w.storage caller
  return { w with storage.paused := some false }.publish [.symbol "contract_unpaused"] .void

/-- The source names an error and an event that its other files lack; they are the ones its
comment gives. -/
def setGraceWindow (w : State D) (caller : Address) (window : UInt64) : Result (State D) := do
  checkNotPaused w.storage
  checkAdmin w.storage caller
  ensure (window ≤ maxGraceWindow) (.error .graceWindowTooLarge)
  return { w with storage.graceWindow := some window }.publish [.symbol "grace_window_updated"]
    (.vec [.u64 (w.storage.graceWindow.getD 86400), .u64 window])

/-! ## Invoices -/

/-- The compliance check of `create_invoice` and `mark_paids`: merchant and customer are allowed.
Without a compliance contract it is skipped. -/
def checkParties (e : Env) (w : State D) (merchant customer : Address) : Result Unit :=
  match w.storage.complianceContract with
  | none => return ()
  | some compliance => do
    checkAllowed e w compliance merchant
    checkAllowed e w compliance customer

def createInvoice (e : Env) (w : State D) (merchant customer : Address) (amount : ℤ)
    (token : Address) (expiresAt nonce : UInt64) (reference : Option (List UInt8)) :
    Result (State D × UInt64) := do
  checkNotPaused w.storage
  requireAuth e merchant
  ensure (minAmountUsdc ≤ amount) (.error .amountPrecision)
  ensure (∀ r ∈ reference, r.length ≤ maxReferenceLen) (.error .referenceTooLong)
  ensure (w.storage.nonce (merchant, nonce) = none) (.error .duplicateNonce)
  checkParties e w merchant customer
  -- the counter is absent before `initialize`, which sets it to 0
  let count ← orFail (checkedAdd (w.storage.invoiceCount.getD 0) 1) (.error .overflow)
  let invoice : Invoice :=
    { id := count, merchant, customer, amount, token, status := .pending,
      createdAt := e.timestamp, expiresAt, reference }
  let customerInvoices := (w.storage.customerInvoices customer).getD [] ++ [count]
  return ({ storeInvoice w count invoice with
    storage.nonce := Function.update w.storage.nonce (merchant, nonce) (some true)
    storage.invoiceCount := some count
    storage.customerInvoices :=
      Function.update w.storage.customerInvoices customer (some customerInvoices) }.publish
    [.symbol "invoice_created"] (.vec [.address merchant, .u64 count]), count)

/-- One round of the loop of `mark_paids`. -/
def markPaid (e : Env) (w : State D) (invoiceId : UInt64) : Result (State D) := do
  let invoice ← findInvoice w.storage invoiceId
  checkPayable e invoice
  checkParties e w invoice.merchant invoice.customer
  return invoicePaid (storeInvoice w invoiceId { invoice with status := .paid }) invoiceId

def markPaids (e : Env) (w : State D) (invoiceIds : List UInt64) : Result (State D) := do
  checkNotPaused w.storage
  ensure (invoiceIds.length ≤ maxBatchSize) (.error .batchTooLarge)
  invoiceIds.foldlM (markPaid e) w

/-- The compliance check of `pay_invoice`: the payer is allowed. -/
def checkPayer (e : Env) (w : State D) (payer : Address) : Result Unit :=
  match w.storage.complianceContract with
  | none => return ()
  | some compliance => checkAllowed e w compliance payer

def payInvoice (e : Env) (w : State D) (payer : Address) (invoiceId : UInt64) :
    Result (State D) := do
  checkNotPaused w.storage
  requireAuth e payer
  let invoice ← findInvoice w.storage invoiceId
  checkPayable e invoice
  checkPayer e w payer
  -- the payer need not be the customer
  let w ← invokeUnit e w invoice.token "transfer"
    [.address payer, .address D.self, .i128 invoice.amount]
  return invoicePaid (storeInvoice w invoiceId { invoice with status := .paid }) invoiceId

def cancelInvoiced (e : Env) (w : State D) (invoiceId : UInt64) (caller : Address) :
    Result (State D) := do
  checkNotPaused w.storage
  requireAuth e caller
  let invoice ← findInvoice w.storage invoiceId
  ensure (caller = invoice.merchant ∨ caller = invoice.customer) (.error .unauthorized)
  -- a paid invoice is not cancelled: its refund is requested
  match invoice.status with
  | .pending =>
    return invoiceCancelled (storeInvoice w invoiceId { invoice with status := .cancelled })
      invoiceId
  | .paid =>
    return invoiceRefundReq (storeInvoice w invoiceId { invoice with status := .refundRequested })
      invoiceId
  | .refundRequested => throw (.error .alreadyRefundRequested)
  | .expired | .released | .cancelled => throw (.error .invoiceCancelled)

/-- The caller is compared with the customer, and does not authorise the call. -/
def requestRefund (w : State D) (invoiceId : UInt64) (caller : Address) : Result (State D) := do
  checkNotPaused w.storage
  let invoice ← findInvoice w.storage invoiceId
  ensure (caller = invoice.customer) (.error .notCustomer)
  ensure (invoice.status = .paid) (.error .invoiceNotFound)
  -- never the failure: the status is `paid` by the check before
  ensure (invoice.status ≠ .refundRequested) (.error .alreadyRefundRequested)
  return invoiceRefundReq (storeInvoice w invoiceId { invoice with status := .refundRequested })
    invoiceId

/-- The caller is compared with the merchant, and does not authorise the call; no token moves. -/
def releaseEscrow (e : Env) (w : State D) (invoiceId : UInt64) (caller : Address) :
    Result (State D) := do
  checkNotPaused w.storage
  let invoice ← findInvoice w.storage invoiceId
  ensure (caller = invoice.merchant) (.error .notMerchant)
  ensure (invoice.status = .refundRequested) (.error .refundNotRequested)
  let graceWindow ← orFail w.storage.graceWindow .trap
  let releaseAt ← orFail (checkedAdd invoice.createdAt graceWindow) (.error .overflow)
  ensure (releaseAt ≤ e.timestamp) (.error .graceWindowNotExpired)
  return escrowReleased (storeInvoice w invoiceId { invoice with status := .released }) invoiceId

/-- One round of the loop of `batch_expire`. -/
def expire (e : Env) (w : State D) (invoiceId : UInt64) : Result (State D) := do
  let invoice ← findInvoice w.storage invoiceId
  if invoice.status = .pending ∧ invoice.expiresAt ≤ e.timestamp then
    return invoiceExpired (storeInvoice w invoiceId { invoice with status := .expired }) invoiceId
  else
    -- an invoice that is not due is skipped, and does not fail the batch
    return w

def batchExpire (e : Env) (w : State D) (invoiceIds : List UInt64) : Result (State D) := do
  checkNotPaused w.storage
  ensure (invoiceIds.length ≤ maxBatchSize) (.error .batchTooLarge)
  invoiceIds.foldlM (expire e) w

def raiseDispute (e : Env) (w : State D) (invoiceId settlementId : UInt64) (claimant : Address)
    (reason : UInt32) : Result (State D) := do
  checkNotPaused w.storage
  requireAuth e claimant
  let invoice ← findInvoice w.storage invoiceId
  ensure (claimant = invoice.merchant ∨ claimant = invoice.customer) (.error .notAParty)
  let treasury ← orFail w.storage.treasuryContract (.error .treasuryNotConfigured)
  let w ← invokeUnit e w treasury "raise_dispute"
    [.address claimant, .u64 settlementId, .u32 reason]
  return w.publish [.symbol "dispute_raised"]
    (.vec [.u64 invoiceId, .u64 settlementId, .address claimant])

/-! ## Entry points -/

/-- The entry points that may change the world, with their arguments. -/
inductive Call
  | upgrade (newWasmHash : WasmHash)
  | transferAdmin (caller newAdmin : Address)
  | acceptAdmin (newAdmin : Address)
  | initializeContract (admin : Address)
  | createInvoice (merchant customer : Address) (amount : ℤ) (token : Address)
      (expiresAt nonce : UInt64) (reference : Option (List UInt8))
  | markPaids (invoiceIds : List UInt64)
  | payInvoice (payer : Address) (invoiceId : UInt64)
  | cancelInvoiced (invoiceId : UInt64) (caller : Address)
  | requestRefund (invoiceId : UInt64) (caller : Address)
  | releaseEscrow (invoiceId : UInt64) (caller : Address)
  | batchExpire (invoiceIds : List UInt64)
  | setTreasury (caller treasury : Address)
  | setCompliance (caller compliance : Address)
  | raiseDispute (invoiceId settlementId : UInt64) (claimant : Address) (reason : UInt32)
  | pause (caller : Address)
  | unpause (caller : Address)
  | setGraceWindow (caller : Address) (window : UInt64)

/-- An entry point that returns `()`. -/
def unitResult (r : Result (State D)) : Result (State D × Val) := do
  let w ← r
  return (w, .void)

def invoke (e : Env) (w : State D) : Call → Result (State D × Val)
  | .upgrade h => unitResult (upgrade e w h)
  | .transferAdmin caller newAdmin => unitResult (transferAdmin e w caller newAdmin)
  | .acceptAdmin newAdmin => unitResult (acceptAdmin e w newAdmin)
  | .initializeContract admin => unitResult (initializeContract w admin)
  | .createInvoice merchant customer amount token expiresAt nonce reference => do
    let (w, count) ← createInvoice e w merchant customer amount token expiresAt nonce reference
    return (w, .u64 count)
  | .markPaids ids => unitResult (markPaids e w ids)
  | .payInvoice payer id => unitResult (payInvoice e w payer id)
  | .cancelInvoiced id caller => unitResult (cancelInvoiced e w id caller)
  | .requestRefund id caller => unitResult (requestRefund w id caller)
  | .releaseEscrow id caller => unitResult (releaseEscrow e w id caller)
  | .batchExpire ids => unitResult (batchExpire e w ids)
  | .setTreasury caller treasury => unitResult (setTreasury w caller treasury)
  | .setCompliance caller compliance => unitResult (setCompliance w caller compliance)
  | .raiseDispute id settlementId claimant reason =>
    unitResult (raiseDispute e w id settlementId claimant reason)
  | .pause caller => unitResult (pause w caller)
  | .unpause caller => unitResult (unpause w caller)
  | .setGraceWindow caller window => unitResult (setGraceWindow w caller window)

/-- One input of a run of the invoice contract. -/
abbrev step : State D → Input D Call → State D := Soroban.step invoke

end Invoicing
