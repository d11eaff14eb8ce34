import Comebackhere.Compliance.Contract
import Comebackhere.Invoice.Effect
import Comebackhere.Offchain.ScVal

/-!
# The calls that the clients make

A client names a function of a contract and encodes its arguments. The host calls the function if it
has that many parameters and if each argument can be converted to the type of its parameter, and
traps otherwise. The Express backend and the React frontend each have their own list of calls, which
the contracts' interfaces do not check. Those of the compliance contract leave out the admin, and
that which creates an invoice has another list of arguments.

## Main definitions

* `Operation`: a call as a client makes it
* `complianceCall`, `invoiceCall`: the entry points that the host calls
* `ComplianceClient`, `InvoiceClient`: the calls of the backend and of the frontend
* `clientStep`: a call of a client, or something else

## Main results

* `run_clientStep`: clients do what their converted calls do
* `compliance_untouched`: the clients change nothing of the compliance contract
* `invoices_onlySettled`: what becomes of the invoices where only the clients call
-/

namespace Offchain

open Soroban Checked Machine

/-! ## Arguments -/

/-- A call as a client makes it. -/
structure Operation where
  function : Symbol
  args : List ScVal

def asAddress : ScVal → Option Address
  | .address a => some a
  | _ => none

def asU32 : ScVal → Option UInt32
  | .u32 n => some n
  | _ => none

def asU64 : ScVal → Option UInt64
  | .u64 n => some n
  | _ => none

def asI128 : ScVal → Option ℤ
  | .i128 n => some n
  | _ => none

def asBytesN : ScVal → Option WasmHash
  | .bytes b => some b
  | _ => none

def asString : ScVal → Option (List UInt8)
  | .string bytes => some bytes
  | _ => none

def asOption {α : Type} (convert : ScVal → Option α) : ScVal → Option (Option α)
  | .void => some none
  | v => (convert v).map some

def asVec {α : Type} (convert : ScVal → Option α) : ScVal → Option (List α)
  | .vec vs => vs.mapM convert
  | _ => none

/-! ## Entry points -/

/-- The entry point of the compliance contract that the host calls, with its arguments. -/
def complianceCall (op : Operation) : Option Compliance.Call :=
  match op.function, op.args with
  | "upgrade", [hash] => return .upgrade (← asBytesN hash)
  | "initialize", [admin] => return .initializeContract (← asAddress admin)
  | "allow_address", [admin, addr] => return .allowAddress (← asAddress admin) (← asAddress addr)
  | "block_address", [admin, addr] => return .blockAddress (← asAddress admin) (← asAddress addr)
  | "allow_address_until", [admin, addr, untilTime] =>
    return .allowAddressUntil (← asAddress admin) (← asAddress addr) (← asU64 untilTime)
  | "batch_allow_addresses", [admin, addresses, untilTime] =>
    return .batchAllowAddresses (← asAddress admin) (← asVec asAddress addresses)
      (← asU64 untilTime)
  | "batch_block_addresses", [admin, addresses] =>
    return .batchBlockAddresses (← asAddress admin) (← asVec asAddress addresses)
  | "transfer_admin", [admin, newAdmin] =>
    return .transferAdmin (← asAddress admin) (← asAddress newAdmin)
  | "accept_admin", [newAdmin] => return .acceptAdmin (← asAddress newAdmin)
  | "clear_address", [admin, addr] => return .clearAddress (← asAddress admin) (← asAddress addr)
  | "pause", [admin] => return .pause (← asAddress admin)
  | "unpause", [admin] => return .unpause (← asAddress admin)
  | _, _ => none

/-- The entry point of the invoice contract that the host calls, with its arguments. -/
def invoiceCall (op : Operation) : Option Invoicing.Call :=
  match op.function, op.args with
  | "upgrade", [hash] => return .upgrade (← asBytesN hash)
  | "transfer_admin", [caller, newAdmin] =>
    return .transferAdmin (← asAddress caller) (← asAddress newAdmin)
  | "accept_admin", [newAdmin] => return .acceptAdmin (← asAddress newAdmin)
  | "initialize", [admin] => return .initializeContract (← asAddress admin)
  | "create_invoice", [merchant, customer, amount, token, expiresAt, nonce, reference] =>
    return .createInvoice (← asAddress merchant) (← asAddress customer) (← asI128 amount)
      (← asAddress token) (← asU64 expiresAt) (← asU64 nonce) (← asOption asString reference)
  | "mark_paids", [ids] => return .markPaids (← asVec asU64 ids)
  | "pay_invoice", [payer, id] => return .payInvoice (← asAddress payer) (← asU64 id)
  | "cancel_invoiced", [id, caller] => return .cancelInvoiced (← asU64 id) (← asAddress caller)
  | "request_refund", [id, caller] => return .requestRefund (← asU64 id) (← asAddress caller)
  | "release_escrow", [id, caller] => return .releaseEscrow (← asU64 id) (← asAddress caller)
  | "batch_expire", [ids] => return .batchExpire (← asVec asU64 ids)
  | "set_treasury", [caller, treasury] =>
    return .setTreasury (← asAddress caller) (← asAddress treasury)
  | "set_compliance", [caller, compliance] =>
    return .setCompliance (← asAddress caller) (← asAddress compliance)
  | "raise_dispute", [id, settlementId, claimant, reason] =>
    return .raiseDispute (← asU64 id) (← asU64 settlementId) (← asAddress claimant)
      (← asU32 reason)
  | "pause", [caller] => return .pause (← asAddress caller)
  | "unpause", [caller] => return .unpause (← asAddress caller)
  | "set_grace_window", [caller, window] =>
    return .setGraceWindow (← asAddress caller) (← asU64 window)
  | _, _ => none

/-! ## Clients -/

/-- The calls of the compliance contract. The backend allows an address until a time if it is given
one that is not zero. -/
inductive ComplianceClient
  | backendAllow (address : Address) (untilTime : Option UInt64)
  | backendBlock (address : Address)
  | allowAddress (address : Address)
  | blockAddress (address : Address)
  | clearAddress (address : Address)
  | allowAddressUntil (address : Address) (untilTimestamp : UInt64)

def ComplianceClient.operation : ComplianceClient → Operation
  | .backendAllow address untilTime =>
    match untilTime.filter (· ≠ 0) with
    | some t => ⟨"allow_address_until", [.address address, .u64 t]⟩
    | none => ⟨"allow_address", [.address address]⟩
  | .backendBlock address => ⟨"block_address", [.address address]⟩
  | .allowAddress address => ⟨"allow_address", [.address address]⟩
  | .blockAddress address => ⟨"block_address", [.address address]⟩
  | .clearAddress address => ⟨"clear_address", [.address address]⟩
  | .allowAddressUntil address untilTimestamp =>
    ⟨"allow_address_until", [.address address, .u64 untilTimestamp]⟩

/-- The calls of the invoice contract: those of the backend, and of the frontend. -/
inductive InvoiceClient
  | backendCreate (merchantAddress : Address) (amount expiresInSeconds : UInt64)
      (reference : Option (List UInt8))
  | backendCancel (invoiceId : UInt64) (signer : Address)
  | backendRefund (invoiceId : UInt64) (signer : Address)
  | backendRelease (invoiceId : UInt64) (signer : Address)
  | backendGraceWindow (signer : Address) (graceWindowSeconds : UInt64)
  | payInvoice (invoiceId : UInt32)
  | cancelInvoice (publicKey : Address) (invoiceId : UInt64)
  | requestRefund (invoiceId : UInt32)
  | batchExpireInvoices (invoiceIds : List UInt64)
  | releaseEscrow (invoiceId : UInt64) (publicKey : Address)

def InvoiceClient.operation : InvoiceClient → Operation
  | .backendCreate merchantAddress amount expiresInSeconds reference =>
    ⟨"create_invoice", [.address merchantAddress, .u64 amount, .u64 amount, .u64 expiresInSeconds,
      .void, (reference.filter (· ≠ [])).elim .void .string]⟩
  | .backendCancel invoiceId signer => ⟨"cancel_invoiced", [.u64 invoiceId, .address signer]⟩
  | .backendRefund invoiceId signer => ⟨"request_refund", [.u64 invoiceId, .address signer]⟩
  | .backendRelease invoiceId signer => ⟨"release_escrow", [.u64 invoiceId, .address signer]⟩
  | .backendGraceWindow signer seconds => ⟨"set_grace_window", [.address signer, .u64 seconds]⟩
  | .payInvoice invoiceId => ⟨"mark_paid", [.u32 invoiceId]⟩
  | .cancelInvoice publicKey invoiceId =>
    ⟨"cancel_invoice", [.address publicKey, .u64 invoiceId]⟩
  | .requestRefund invoiceId => ⟨"request_refund", [.u32 invoiceId]⟩
  | .batchExpireInvoices invoiceIds => ⟨"batch_expire", [.vec (invoiceIds.map .u64)]⟩
  | .releaseEscrow invoiceId publicKey => ⟨"release_escrow", [.u64 invoiceId, .address publicKey]⟩

/-! ## Runs -/

/-- An input of a run in which clients take part: a call of one of them, or anything else. -/
inductive ClientInput (D : Deployment) (C K : Type)
  | client (e : Env) (k : K)
  | other (i : Soroban.Input D C)

section Run

variable {D : Deployment} {S ε C K : Type}
  (invoke : Env → World D S → C → Except (Failure ε) (World D S × Val))
  (convert : Operation → Option C) (operation : K → Operation)

/-- The host traps on a call that it cannot convert. -/
def clientStep (w : World D S) : ClientInput D C K → World D S
  | .client e k =>
    match convert (operation k) with
    | none => w
    | some c => Soroban.step invoke w (.call e c)
  | .other i => Soroban.step invoke w i

/-- What an input comes to at the contract. -/
def ClientInput.converted : ClientInput D C K → Option (Soroban.Input D C)
  | .client e k => (convert (operation k)).map (.call e)
  | .other i => some i

/-- **Clients do what their converted calls do**, and nothing where there are none. -/
theorem run_clientStep (w : World D S) (is : List (ClientInput D C K)) :
    run (clientStep invoke convert operation) w is =
      run (Soroban.step invoke) w (is.filterMap (ClientInput.converted convert operation)) := by
  induction is generalizing w with
  | nil => rfl
  | cons i is ih =>
    rw [run_cons, ih, List.filterMap_cons]
    cases i with
    | other i => rfl
    | client e k => cases h : convert (operation k) <;> simp [ClientInput.converted, clientStep, h]

end Run

/-! ## The compliance contract -/

variable {D : Deployment}

/-- No client names the admin, so that no call of one is converted. -/
theorem complianceCall_operation (k : ComplianceClient) : complianceCall k.operation = none := by
  cases k with
  | backendAllow address untilTime =>
    rw [ComplianceClient.operation]
    cases untilTime.filter (· ≠ 0) <;> rfl
  | backendBlock | allowAddress | blockAddress | clearAddress | allowAddressUntil => rfl

/-- What else happens. -/
def ClientInput.isOther {C K : Type} : ClientInput D C K → Option (Soroban.Input D C)
  | .client _ _ => none
  | .other i => some i

/-- **The clients change nothing of the compliance contract**: a run with them leaves the world that
the same run leaves without them. After an upgrade the run goes on with the same code. -/
theorem compliance_untouched (w : Compliance.State D)
    (is : List (ClientInput D Compliance.Call ComplianceClient)) :
    run (clientStep Compliance.invoke complianceCall ComplianceClient.operation) w is =
      run Compliance.step w (is.filterMap ClientInput.isOther) := by
  rw [run_clientStep]
  congr 1
  apply List.filterMap_congr
  intro i _
  cases i with
  | other i => rfl
  | client e k => simp [ClientInput.converted, ClientInput.isOther, complianceCall_operation]

/-! ## The invoice contract -/

theorem asVec_asU64 (ids : List UInt64) : asVec asU64 (.vec (ids.map .u64)) = some ids := by
  show (ids.map ScVal.u64).mapM asU64 = some ids
  induction ids with
  | nil => rfl
  | cons id ids ih => simp [List.mapM_cons, asU64, ih]

/-- What a call of a client is converted to. -/
theorem invoiceCall_operation (k : InvoiceClient) : invoiceCall k.operation =
    match k with
    | .backendCancel id signer => some (.cancelInvoiced id signer)
    | .backendRefund id signer => some (.requestRefund id signer)
    | .backendRelease id signer => some (.releaseEscrow id signer)
    | .backendGraceWindow signer window => some (.setGraceWindow signer window)
    | .batchExpireInvoices ids => some (.batchExpire ids)
    | .releaseEscrow id publicKey => some (.releaseEscrow id publicKey)
    | _ => none := by
  cases k with
  | batchExpireInvoices ids =>
    show (do return Invoicing.Call.batchExpire (← asVec asU64 (.vec (ids.map .u64)))) = _
    rw [asVec_asU64]
    rfl
  | backendCreate | backendCancel | backendRefund | backendRelease | backendGraceWindow | payInvoice
  | cancelInvoice | requestRefund | releaseEscrow => rfl

open Invoicing (InvoiceStatus Invoice relabel)

/-- What the status of an invoice comes to where it is not paid any more: a pending invoice is
cancelled or expires, a paid one is refunded, and then released. -/
def Settles (status status' : InvoiceStatus) : Prop :=
  status' = status ∨ status = .pending ∧ (status' = .cancelled ∨ status' = .expired) ∨
    status = .paid ∧ (status' = .refundRequested ∨ status' = .released) ∨
    status = .refundRequested ∧ status' = .released

theorem Settles.trans {a b c : InvoiceStatus} (h : Settles a b) (h' : Settles b c) :
    Settles a c := by
  unfold Settles at *
  cases a <;> cases b <;> simp_all

/-- No invoice is created, none is paid, and nothing but the statuses and the grace window of the
contract's storage changes. -/
structure OnlySettled (w w' : Invoicing.State D) : Prop where
  storage : w'.storage = { w.storage with
    invoice := w'.storage.invoice
    graceWindow := w'.storage.graceWindow }
  none : ∀ id, w.storage.invoice id = none → w'.storage.invoice id = none
  some : ∀ id x, w.storage.invoice id = some x →
    ∃ status, w'.storage.invoice id = some { x with status } ∧ Settles x.status status

variable {e : Env} {w w' w'' : Invoicing.State D} {v : Val}

theorem OnlySettled.refl (w : Invoicing.State D) : OnlySettled w w :=
  ⟨rfl, fun _ h => h, fun _ x h => ⟨x.status, h, Or.inl rfl⟩⟩

theorem OnlySettled.trans (h : OnlySettled w w') (h' : OnlySettled w' w'') :
    OnlySettled w w'' where
  storage := by
    rw [h'.storage, h.storage]
  none id hid := h'.none id (h.none id hid)
  some id x hx := by
    obtain ⟨status, hx', hsettles⟩ := h.some id x hx
    obtain ⟨status', hx'', hsettles'⟩ := h'.some id _ hx'
    exact ⟨status', hx'', hsettles.trans hsettles'⟩

/-- Statuses that are written settle the invoices. -/
theorem onlySettled_relabel {ids : List UInt64} {status : InvoiceStatus}
    (hw : w'.storage = { w.storage with invoice := relabel w.storage.invoice ids status })
    (hids : ∀ id ∈ ids, ∀ x, w.storage.invoice id = some x → Settles x.status status) :
    OnlySettled w w' where
  storage := by rw [hw]
  none id hid := by
    rw [hw]
    exact Invoicing.relabel_eq_none_iff.mpr hid
  some id x hx := by
    rw [hw]
    by_cases hid : id ∈ ids
    · exact ⟨status, by simp [relabel, hid, hx], hids id hid x hx⟩
    · exact ⟨x.status, by simp [relabel, hid, hx], Or.inl rfl⟩

/-- The status of one invoice is written. -/
theorem onlySettled_storeInvoice {id : UInt64} {x : Invoice} {status : InvoiceStatus}
    (hx : w.storage.invoice id = some x) (hsettles : Settles x.status status)
    (hw : w'.storage = (Invoicing.storeInvoice w id { x with status }).storage) :
    OnlySettled w w' := by
  have hrelabel : w'.storage = { w.storage with
      invoice := Invoicing.relabel w.storage.invoice [id] status } := by
    rw [hw, ← Invoicing.update_eq_relabel hx]
    rfl
  refine onlySettled_relabel hrelabel fun id' hid' x' hx' => ?_
  obtain rfl := List.mem_singleton.mp hid'
  obtain rfl := Option.some.inj (hx.symm.trans hx')
  exact hsettles

/-- **A call of a client** settles invoices, or sets the grace window. -/
theorem onlySettled_of_ok {k : InvoiceClient} {c : Invoicing.Call}
    (hc : invoiceCall k.operation = some c) (h : Invoicing.invoke e w c = .ok (w', v)) :
    OnlySettled w w' := by
  -- the entry points that a call is converted to
  have hcancel : ∀ {id caller}, c = .cancelInvoiced id caller → OnlySettled w w' := by
    rintro id caller rfl
    obtain ⟨⟨-, -, x, hx, -, h⟩, -⟩ := by
      simpa only [Invoicing.invoke, Invoicing.unitResult_eq_ok, Invoicing.cancelInvoiced_eq_ok]
        using h
    rcases h with ⟨hpending, rfl⟩ | ⟨hpaid, rfl⟩
    · exact onlySettled_storeInvoice hx (Or.inr (Or.inl ⟨hpending, Or.inl rfl⟩)) rfl
    · exact onlySettled_storeInvoice hx (Or.inr (Or.inr (Or.inl ⟨hpaid, Or.inl rfl⟩))) rfl
  have hrefund : ∀ {id caller}, c = .requestRefund id caller → OnlySettled w w' := by
    rintro id caller rfl
    obtain ⟨⟨-, x, hx, -, hpaid, rfl⟩, -⟩ := by
      simpa only [Invoicing.invoke, Invoicing.unitResult_eq_ok, Invoicing.requestRefund_eq_ok]
        using h
    exact onlySettled_storeInvoice hx (Or.inr (Or.inr (Or.inl ⟨hpaid, Or.inl rfl⟩))) rfl
  have hrelease : ∀ {id caller}, c = .releaseEscrow id caller → OnlySettled w w' := by
    rintro id caller rfl
    obtain ⟨⟨-, x, hx, -, hrequested, -, rfl⟩, -⟩ := by
      simpa only [Invoicing.invoke, Invoicing.unitResult_eq_ok, Invoicing.releaseEscrow_eq_ok]
        using h
    exact onlySettled_storeInvoice hx (Or.inr (Or.inr (Or.inr ⟨hrequested, rfl⟩))) rfl
  have hexpire : ∀ {ids}, c = .batchExpire ids → OnlySettled w w' := by
    rintro ids rfl
    obtain ⟨⟨-, -, -, rfl⟩, -⟩ := by
      simpa only [Invoicing.invoke, Invoicing.unitResult_eq_ok, Invoicing.batchExpire_eq_ok] using h
    refine onlySettled_relabel (Invoicing.foldl_expireDue ids w).1 fun id hid x hx => ?_
    have hdue := (List.mem_filter.mp hid).2
    rw [Invoicing.due, hx] at hdue
    have hpending : x.status = .pending := by simp_all
    exact Or.inr (Or.inl ⟨hpending, Or.inr rfl⟩)
  have hgrace : ∀ {caller window}, c = .setGraceWindow caller window → OnlySettled w w' := by
    rintro caller window rfl
    obtain ⟨⟨-, -, -, rfl⟩, -⟩ := by
      simpa only [Invoicing.invoke, Invoicing.unitResult_eq_ok, Invoicing.setGraceWindow_eq_ok]
        using h
    exact ⟨rfl, fun _ hid => hid, fun _ x hx => ⟨x.status, hx, Or.inl rfl⟩⟩
  rw [invoiceCall_operation] at hc
  cases k with
  | backendCancel id signer => exact hcancel (Option.some.inj hc).symm
  | backendRefund id signer => exact hrefund (Option.some.inj hc).symm
  | backendRelease id signer => exact hrelease (Option.some.inj hc).symm
  | backendGraceWindow signer window => exact hgrace (Option.some.inj hc).symm
  | batchExpireInvoices ids => exact hexpire (Option.some.inj hc).symm
  | releaseEscrow id publicKey => exact hrelease (Option.some.inj hc).symm
  | backendCreate | payInvoice | cancelInvoice | requestRefund => cases hc

/-- A call of a client, or a change of the rest of the ledger. -/
def clientsOnly {C K : Type} : (Env × K) ⊕ D.Ledger → ClientInput D C K
  | .inl (e, k) => .client e k
  | .inr l => .other (.outside l)

/-- **Where only the clients call**, no invoice is created and none is paid: those that are there
are cancelled, expired, refunded and released. -/
theorem invoices_onlySettled (w : Invoicing.State D)
    (is : List ((Env × InvoiceClient) ⊕ D.Ledger)) :
    OnlySettled w (run (clientStep Invoicing.invoke invoiceCall InvoiceClient.operation) w
      (is.map clientsOnly)) := by
  induction is using List.reverseRecOn with
  | nil => exact .refl w
  | append_singleton is i ih =>
    rw [List.map_append, List.map_singleton, run_snoc]
    refine ih.trans ?_
    generalize run (clientStep Invoicing.invoke invoiceCall InvoiceClient.operation) w
      (is.map clientsOnly) = w₁
    cases i with
    | inr l => exact ⟨rfl, fun _ h => h, fun _ x h => ⟨x.status, h, Or.inl rfl⟩⟩
    | inl call =>
      obtain ⟨e, k⟩ := call
      rw [clientsOnly, clientStep]
      split
      · exact .refl w₁
      · next c hc =>
        rw [Soroban.step]
        split
        · next hinvoke => exact onlySettled_of_ok hc hinvoke
        · exact .refl w₁

end Offchain
