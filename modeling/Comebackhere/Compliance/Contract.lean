import Comebackhere.Soroban.Host

/-!
# The compliance contract

The compliance contract keeps a status for every address, which the other contracts ask for. The
entry points take the admin as an argument; most of them have that argument authorise the call
without comparing it with the stored admin.

## Main definitions

* `Storage`: the contract's instance storage, one field for each storage key
* `Call`, `invoke`: the entry points that may change the world
* `fresh`: the world in which the contract has just been deployed
-/

namespace Compliance

open Soroban Checked

/-! ## Data -/

inductive AddressStatus
  | allowed
  | allowedUntil (untilTime : UInt64)
  | blocked
  | cleared
  deriving DecidableEq, Repr

inductive ContractError
  | unauthorized
  | contractPaused
  | alreadyInitialized
  | addressNotFound
  | pastExpiry
  | batchTooLarge
  deriving DecidableEq, Repr

/-- The instance storage. A key that was never set, or was removed, holds `none`. -/
structure Storage where
  admin : Option Address
  paused : Option Bool
  status : Address → Option AddressStatus
  pendingAdmin : Option Address

abbrev State (D : Deployment) := World D Storage

abbrev Result (α : Type) := Except (Failure ContractError) α

/-- The storage of a contract that was deployed and never called. -/
def Storage.empty : Storage where
  admin := none
  paused := none
  status := fun _ => none
  pendingAdmin := none

variable {D : Deployment}

/-- The world in which the contract has just been deployed. -/
def fresh (l : D.Ledger) (wasm : WasmHash) : State D := ⟨Storage.empty, l, [], wasm⟩

/-! ## Helpers of the contract -/

def isPaused (s : Storage) : Bool := s.paused.getD false

def checkNotPaused (s : Storage) : Result Unit :=
  ensure (isPaused s = false) (.error .contractPaused)

def checkNotPastExpiry (e : Env) (untilTime : UInt64) : Result Unit :=
  ensure (e.timestamp < untilTime) (.error .pastExpiry)

def publishStatusEvent (w : State D) (eventType : Symbol) (addr : Address) (status : Symbol)
    (untilTime : Option UInt64) : State D :=
  w.publish [.symbol eventType] (.vec [.address addr, .symbol status, untilTime.elim .void .u64])

def maxBatchSize : ℕ := 50

def getAddressStatus (s : Storage) (addr : Address) : AddressStatus :=
  (s.status addr).getD .cleared

/-- The answer of the contract's view `is_allowed`. -/
def isAllowed (e : Env) (s : Storage) (addr : Address) : Bool :=
  match getAddressStatus s addr with
  | .allowed => true
  | .allowedUntil untilTime => e.timestamp < untilTime
  | .blocked | .cleared => false

/-- `e.storage().instance().set(&DataKey::Status(addr), &status)` -/
def setStatus (w : State D) (addr : Address) (status : AddressStatus) : State D :=
  { w with storage.status := Function.update w.storage.status addr (some status) }

/-! ## Administration -/

def upgrade (e : Env) (w : State D) (newWasmHash : WasmHash) : Result (State D) := do
  let admin ← orFail w.storage.admin .trap
  requireAuth e admin
  return { w with wasm := newWasmHash }.publish [.symbol "upgraded"] (.bytesN newWasmHash)

/-- Nobody authorises an initialization. -/
def initializeContract (w : State D) (admin : Address) : Result (State D) :=
  return { w with storage.admin := some admin, storage.paused := some false }

/-- The new admin is stored at once, and no nominee is. -/
def transferAdmin (e : Env) (w : State D) (admin newAdmin : Address) : Result (State D) := do
  checkNotPaused w.storage
  requireAuth e admin
  return { w with storage.admin := some newAdmin }

def acceptAdmin (e : Env) (w : State D) (newAdmin : Address) : Result (State D) := do
  checkNotPaused w.storage
  requireAuth e newAdmin
  let pending ← orFail w.storage.pendingAdmin (.error .unauthorized)
  ensure (newAdmin = pending) (.error .unauthorized)
  return { w with storage.admin := some newAdmin, storage.pendingAdmin := none }.publish
    [.symbol "accept_admin"] (.address newAdmin)

/-- The check of `pause` and `unpause`. -/
def checkAdmin (e : Env) (s : Storage) (admin : Address) : Result Unit := do
  requireAuth e admin
  let storedAdmin ← orFail s.admin .trap
  ensure (admin = storedAdmin) (.error .unauthorized)

def pause (e : Env) (w : State D) (admin : Address) : Result (State D) := do
  checkAdmin e w.storage admin
  return { w with storage.paused := some true }.publish [.symbol "contract_paused"] .void

def unpause (e : Env) (w : State D) (admin : Address) : Result (State D) := do
  checkAdmin e w.storage admin
  return { w with storage.paused := some false }.publish [.symbol "contract_unpaused"] .void

/-! ## Statuses -/

def allowAddress (e : Env) (w : State D) (admin addr : Address) : Result (State D) := do
  checkNotPaused w.storage
  requireAuth e admin
  return publishStatusEvent (setStatus w addr .allowed) "address_allowed" addr "Allowed" none

/-- The write and the event of an allowance until a time, for one address. -/
def allowUntil (untilTime : UInt64) (w : State D) (addr : Address) : State D :=
  publishStatusEvent (setStatus w addr (.allowedUntil untilTime)) "address_allowed_until" addr
    "AllowedUntil" (some untilTime)

/-- The write and the event of a block, for one address. -/
def block (w : State D) (addr : Address) : State D :=
  publishStatusEvent (setStatus w addr .blocked) "address_blocked" addr "Blocked" none

def blockAddress (e : Env) (w : State D) (admin addr : Address) : Result (State D) := do
  checkNotPaused w.storage
  requireAuth e admin
  return block w addr

def allowAddressUntil (e : Env) (w : State D) (admin addr : Address) (untilTime : UInt64) :
    Result (State D) := do
  checkNotPaused w.storage
  requireAuth e admin
  checkNotPastExpiry e untilTime
  return allowUntil untilTime w addr

def batchAllowAddresses (e : Env) (w : State D) (admin : Address) (addresses : List Address)
    (untilTime : UInt64) : Result (State D) := do
  checkNotPaused w.storage
  requireAuth e admin
  checkNotPastExpiry e untilTime
  ensure (addresses.length ≤ maxBatchSize) (.error .batchTooLarge)
  return (addresses.foldl (allowUntil untilTime) w).publish [.symbol "compliance_batch_processed"]
    (.vec [.address admin, .u32 (.ofNat addresses.length)])

def batchBlockAddresses (e : Env) (w : State D) (admin : Address) (addresses : List Address) :
    Result (State D) := do
  checkNotPaused w.storage
  requireAuth e admin
  ensure (addresses.length ≤ maxBatchSize) (.error .batchTooLarge)
  return addresses.foldl block w

def clearAddress (e : Env) (w : State D) (admin addr : Address) : Result (State D) := do
  checkNotPaused w.storage
  requireAuth e admin
  ensure (getAddressStatus w.storage addr ≠ .cleared) (.error .addressNotFound)
  return publishStatusEvent
    { w with storage.status := Function.update w.storage.status addr none }
    "address_cleared" addr "Cleared" none

/-! ## Entry points -/

/-- The entry points that may change the world, with their arguments. -/
inductive Call
  | upgrade (newWasmHash : WasmHash)
  | initializeContract (admin : Address)
  | allowAddress (admin addr : Address)
  | blockAddress (admin addr : Address)
  | allowAddressUntil (admin addr : Address) (untilTime : UInt64)
  | batchAllowAddresses (admin : Address) (addresses : List Address) (untilTime : UInt64)
  | batchBlockAddresses (admin : Address) (addresses : List Address)
  | transferAdmin (admin newAdmin : Address)
  | acceptAdmin (newAdmin : Address)
  | clearAddress (admin addr : Address)
  | pause (admin : Address)
  | unpause (admin : Address)

/-- An entry point that returns `()`. -/
def unitResult (r : Result (State D)) : Result (State D × Val) := do
  let w ← r
  return (w, .void)

def invoke (e : Env) (w : State D) : Call → Result (State D × Val)
  | .upgrade h => unitResult (upgrade e w h)
  | .initializeContract admin => unitResult (initializeContract w admin)
  | .allowAddress admin addr => unitResult (allowAddress e w admin addr)
  | .blockAddress admin addr => unitResult (blockAddress e w admin addr)
  | .allowAddressUntil admin addr t => unitResult (allowAddressUntil e w admin addr t)
  | .batchAllowAddresses admin addrs t => unitResult (batchAllowAddresses e w admin addrs t)
  | .batchBlockAddresses admin addrs => unitResult (batchBlockAddresses e w admin addrs)
  | .transferAdmin admin newAdmin => unitResult (transferAdmin e w admin newAdmin)
  | .acceptAdmin newAdmin => unitResult (acceptAdmin e w newAdmin)
  | .clearAddress admin addr => unitResult (clearAddress e w admin addr)
  | .pause admin => unitResult (pause e w admin)
  | .unpause admin => unitResult (unpause e w admin)

/-- One input of a run of the compliance contract. -/
abbrev step : State D → Input D Call → State D := Soroban.step invoke

/-- The view functions, with their arguments. -/
inductive View
  | isAllowed (addr : Address)
  | getAddressStatus (addr : Address)

/-- The values that the view functions return. -/
inductive Answer
  | allowed (b : Bool)
  | status (status : AddressStatus)

def view (e : Env) (w : State D) : View → Result Answer
  | .isAllowed addr => return .allowed (isAllowed e w.storage addr)
  | .getAddressStatus addr => return .status (getAddressStatus w.storage addr)

end Compliance
