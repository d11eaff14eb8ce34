import Comebackhere.Invoice.Accepted
import Comebackhere.Invoice.Views

/-!
# The invoice actions of the Express backend

The routes `cancel` and `refund` read the invoice's status on chain, refuse some actions themselves,
and submit the others to the invoice contract. Their own checks code the contract's transitions a
second time: the customer of a paid invoice is refused a cancellation that the contract turns into a
refund, and a refund once the due date of the database has passed.

## Main definitions

* `applyInvoiceAction`: the action, on the world the contract is in
* `Services`: what the services the backend calls do in one request
* `Mirrors`: what the backend refuses the contract would, and what it returns is on chain
* `Locks`: the backend's checks stand between a payer and the refund

## Main results

* `mirrors_iff`: the backend mirrors the contract exactly when it does not lock the payer out
-/

namespace Http.InvoiceActions

open Soroban Checked
open Invoicing (Invoice InvoiceStatus State isPaused)

/-! ## Errors -/

structure ContractError where
  contractCode : ℕ
  message : String
  status : ℕ

/-- What the backend throws: a typed error of its own, or what a service threw. -/
inductive Thrown
  | contractError (err : ContractError)
  | error (message : String)

/-- `Error(Contract, #n)` at the start of a text. -/
def contractErrorAt (text : List Char) : Option ℕ :=
  let start := "Error(Contract, #".toList
  let digits := (text.drop start.length).takeWhile Char.isDigit
  if start <+: text ∧ digits ≠ [] ∧
      (text.drop (start.length + digits.length)).head? = some ')' then
    some (Nat.ofDigitChars 10 digits 0)
  else none

/-- The contract error code of a host error message, if any. -/
def parseContractErrorCode (message : String) : Option ℕ :=
  message.toList.tails.findSome? contractErrorAt

example : parseContractErrorCode "HostError: Error(Contract, #11)" = some 11 := by decide

/-- An error of a service on the way to the contract: it is none of the contract's. -/
structure Outage where
  message : String
  notContract : parseContractErrorCode message = none

/-! ## The services -/

/-- What becomes of a submitted transaction: it never reaches the ledger, or it is executed, and its
result comes back or does not. -/
inductive Submission
  | lost (outage : Outage)
  | confirmed (hash : String)
  | unconfirmed (outage : Outage)

/-- What the services do in one request: the error of the status read, the due dates by invoice id
in the database, the clock in milliseconds, the ledger the transaction is executed in, and how a
node words the failure of a simulation. -/
structure Services where
  read : Option Outage
  database : Except String (String → Option ℤ)
  now : ℕ
  timestamp : UInt64
  overflowChecks : Bool
  submission : Submission
  describe : Failure Invoicing.ContractError → String

variable {D : Deployment}

def simulationFailed (text : String) : String := "Soroban simulation failed: " ++ text

/-- The simulation of `get_invoice_status`. -/
def readStatus (s : Services) (w : State D) (id : UInt64) : Except String InvoiceStatus :=
  match s.read with
  | some outage => .error outage.message
  | none => (Invoicing.getInvoiceStatus w.storage id).mapError (simulationFailed ∘ s.describe)

/-- The environment of a transaction that the signer signs. -/
def Services.env (s : Services) (signer : Address) : Env :=
  ⟨{signer}, s.timestamp, s.overflowChecks⟩

/-- `submitContractCall`: it simulates the call, sends it and waits for its result. -/
def submitContractCall (s : Services) (w : State D) (signer : Address) (c : Invoicing.Call) :
    State D × Except String String :=
  match s.submission, Invoicing.invoke (s.env signer) w c with
  | .lost outage, _ => (w, .error outage.message)
  | _, .error failure => (w, .error (simulationFailed (s.describe failure)))
  | .confirmed hash, .ok (w', _) => (w', .ok hash)
  | .unconfirmed outage, .ok (w', _) => (w', .error outage.message)

/-! ## The action -/

inductive InvoiceAction
  | cancelInvoiced
  | requestRefund
  deriving DecidableEq

/-- The entry point of the action, with its arguments. -/
def InvoiceAction.call (id : UInt64) (signer : Address) : InvoiceAction → Invoicing.Call
  | .cancelInvoiced => .cancelInvoiced id signer
  | .requestRefund => .requestRefund id signer

def statusName : InvoiceStatus → String
  | .pending => "Pending"
  | .paid => "Paid"
  | .expired => "Expired"
  | .cancelled => "Cancelled"
  | .refundRequested => "RefundRequested"
  | .released => "Released"

def getInvoiceStatus (s : Services) (w : State D) (id : UInt64) : Except Thrown InvoiceStatus :=
  match readStatus s w id with
  | .ok status => .ok status
  | .error message =>
    if parseContractErrorCode message = some 4 then
      .error (.contractError ⟨4, "Invoice not found", 404⟩)
    else .error (.error message)

/-- An invoice that the database does not know has not expired. -/
def isInvoiceExpired (s : Services) (invoiceId : String) : Except Thrown Bool := do
  let dueDate ← s.database.mapError .error
  match dueDate invoiceId with
  | none => return false
  | some due => return due < s.now / 1000

/-- The checks before the submission: the status of an invoice that may be submitted. -/
def checkAction (s : Services) (w : State D) (action : InvoiceAction) (id : UInt64) :
    Except Thrown InvoiceStatus := do
  let currentStatus ← getInvoiceStatus s w id
  ensure (¬ (action = .cancelInvoiced ∧ currentStatus = .paid))
    (.contractError ⟨3, "Cannot cancel a paid invoice", 409⟩)
  ensure (¬ (action = .requestRefund ∧ currentStatus = .cancelled))
    (.contractError ⟨3, "Cannot pay a cancelled invoice", 409⟩)
  if action = .requestRefund then
    let isExpired ← isInvoiceExpired s (toString id.toNat)
    ensure (isExpired = false)
      (.contractError ⟨3, "Cannot pay an expired invoice", 409⟩)
    if currentStatus ≠ .paid then
      ensure (currentStatus ≠ .refundRequested)
        (.contractError ⟨11, "A refund has already been requested", 409⟩)
      throw (.contractError ⟨4,
        "Cannot request a refund while invoice status is " ++ statusName currentStatus, 409⟩)
  return currentStatus

structure ActionResult where
  invoiceId : String
  status : InvoiceStatus
  txHash : String

/-- The error of a failed submission, as it is thrown on. -/
def submissionError (action : InvoiceAction) (message : String) : Thrown :=
  match parseContractErrorCode message with
  | some code =>
    if code = 1 ∨ code = 9 then
      .contractError ⟨code, "Caller is not allowed to perform this invoice action", 403⟩
    else if code = 4 then
      .contractError ⟨4, "Invoice not found or no longer eligible for this action",
        if action = .requestRefund then 409 else 404⟩
    else if code = 7 ∨ code = 10 ∨ code = 11 ∨ code = 18 then
      .contractError ⟨code, "Invoice state does not allow this action", 409⟩
    else .error message
  | none => .error message

def applyInvoiceAction (s : Services) (w : State D) (signer : Address) (action : InvoiceAction)
    (id : UInt64) : State D × Except Thrown ActionResult :=
  match checkAction s w action id with
  | .error thrown => (w, .error thrown)
  | .ok currentStatus =>
    let (w', result) := submitContractCall s w signer (action.call id signer)
    match result with
    | .ok txHash =>
      let status :=
        if action = .requestRefund ∨ currentStatus = .paid then .refundRequested else .cancelled
      (w', .ok ⟨toString id.toNat, status, txHash⟩)
    | .error message => (w', .error (submissionError action message))

/-! ## What the backend mirrors -/

/-- The backend refuses an action only if the contract would, and the status it returns is the
invoice's on chain afterwards. -/
structure Mirrors (s : Services) (w : State D) (signer : Address) (action : InvoiceAction)
    (id : UInt64) : Prop where
  refused : ∀ err, checkAction s w action id = .error (.contractError err) →
    ∀ timestamp checks r,
      Invoicing.invoke ⟨{signer}, timestamp, checks⟩ w (action.call id signer) ≠ .ok r
  returned : ∀ w' result, applyInvoiceAction s w signer action id = (w', .ok result) →
    Invoicing.getInvoiceStatus w'.storage id = .ok result.status

/-- The backend's own checks stand between the payer of an invoice and the refund: a paid invoice is
cancelled, or its due date has passed. -/
def Locks (s : Services) (x : Invoice) (action : InvoiceAction) (id : UInt64) : Prop :=
  s.read = none ∧ x.status = .paid ∧
    (action = .cancelInvoiced ∨ isInvoiceExpired s (toString id.toNat) = .ok true)

variable {s : Services} {w w' : State D} {e : Env} {signer : Address} {action : InvoiceAction}
  {id : UInt64} {x : Invoice} {err : ContractError}

/-- The customer of an unpaused contract's invoice may cancel it while it is pending, and may have
the refund of a paid one requested either way. -/
theorem invoke_accepted_iff (hpaused : isPaused w.storage = false)
    (hx : w.storage.invoice id = some x) (hsigner : x.customer = signer) (hauth : signer ∈ e.auths) :
    (∃ r, Invoicing.invoke e w (action.call id signer) = .ok r) ↔
      x.status = .paid ∨ action = .cancelInvoiced ∧ x.status = .pending := by
  subst hsigner
  cases action with
  | cancelInvoiced =>
    simp [InvoiceAction.call, Invoicing.invoke, Invoicing.cancelInvoiced_eq_ok, hpaused, hauth, hx,
      exists_or, or_comm]
  | requestRefund =>
    simp [InvoiceAction.call, Invoicing.invoke, Invoicing.requestRefund_eq_ok, hpaused, hx]

theorem getInvoiceStatus_eq (hx : w.storage.invoice id = some x) :
    getInvoiceStatus s w id = match s.read with
      | some outage => .error (.error outage.message)
      | none => .ok x.status := by
  cases hread : s.read with
  | some outage => simp [getInvoiceStatus, readStatus, hread, outage.notContract]
  | none =>
    simp [getInvoiceStatus, readStatus, hread, Invoicing.getInvoiceStatus, Invoicing.getInvoice,
      hx, orFail, Except.mapError]

/-- A cancellation is refused to a paid invoice alone. -/
theorem cancel_refused_iff (hx : w.storage.invoice id = some x) :
    (∃ err, checkAction s w .cancelInvoiced id = .error (.contractError err)) ↔
      s.read = none ∧ x.status = .paid := by
  rw [checkAction, getInvoiceStatus_eq hx]
  cases s.read with
  | some outage => simp [bind, Except.bind]
  | none => cases x.status <;> simp [ensure, bind, Except.bind, pure, Except.pure]

/-- A database that fails is no refusal. -/
theorem isInvoiceExpired_ne {invoiceId : String} :
    isInvoiceExpired s invoiceId ≠ .error (.contractError err) := by
  unfold isInvoiceExpired
  cases s.database with
  | error message => simp [Except.mapError, bind, Except.bind]
  | ok dueDate =>
    cases h : dueDate invoiceId <;>
      simp [Except.mapError, bind, Except.bind, h, pure, Except.pure]

/-- A refund is refused to an invoice that is not paid, or whose due date has passed. -/
theorem refund_refused_iff (hx : w.storage.invoice id = some x) :
    (∃ err, checkAction s w .requestRefund id = .error (.contractError err)) ↔
      s.read = none ∧ (x.status = .cancelled ∨
        ∃ expired, isInvoiceExpired s (toString id.toNat) = .ok expired ∧
          (expired = true ∨ x.status ≠ .paid)) := by
  rw [checkAction, getInvoiceStatus_eq hx]
  cases s.read with
  | some outage => simp [bind, Except.bind]
  | none =>
    cases hexp : isInvoiceExpired s (toString id.toNat) with
    | error thrown =>
      cases thrown with
      | contractError err => exact absurd hexp isInvoiceExpired_ne
      | error message => cases x.status <;> simp [ensure, bind, Except.bind]
    | ok expired =>
      cases expired <;> cases x.status <;>
        simp [ensure, bind, Except.bind, throw, throwThe, MonadExceptOf.throw, pure, Except.pure]

/-- The submission that succeeds leaves the world the entry point returns. -/
theorem submitContractCall_eq_ok {c : Invoicing.Call} {hash : String}
    (h : submitContractCall s w signer c = (w', .ok hash)) :
    ∃ v, Invoicing.invoke (s.env signer) w c = .ok (w', v) := by
  unfold submitContractCall at h
  split at h
  · simp at h
  · simp at h
  · next w'' v _ hinvoke =>
    obtain ⟨rfl, -⟩ := Prod.mk.inj h
    exact ⟨v, hinvoke⟩
  · simp at h

theorem getInvoiceStatus_of_stored {st : Invoicing.Storage} (hx : st.invoice id = some x) :
    Invoicing.getInvoiceStatus st id = .ok x.status := by
  simp [Invoicing.getInvoiceStatus, Invoicing.getInvoice, hx, orFail, pure, Except.pure]

/-- The status that an accepted action leaves on chain. -/
theorem status_of_invoke {v : Val} (hx : w.storage.invoice id = some x)
    (h : Invoicing.invoke e w (action.call id signer) = .ok (w', v)) :
    Invoicing.getInvoiceStatus w'.storage id =
      .ok (if action = .requestRefund ∨ x.status = .paid then .refundRequested else .cancelled) := by
  cases action with
  | cancelInvoiced =>
    obtain ⟨-, -, y, hy, -, ⟨hs, rfl⟩ | ⟨hs, rfl⟩⟩ :=
      Invoicing.cancelInvoiced_eq_ok.mp (Invoicing.unitResult_eq_ok.mp h).1
    · obtain rfl : x = y := Option.some.inj (hx.symm.trans hy)
      rw [if_neg (by simp [hs])]
      exact getInvoiceStatus_of_stored (x := { x with status := .cancelled })
        (Function.update_self id _ _)
    · obtain rfl : x = y := Option.some.inj (hx.symm.trans hy)
      rw [if_pos (Or.inr hs)]
      exact getInvoiceStatus_of_stored (x := { x with status := .refundRequested })
        (Function.update_self id _ _)
  | requestRefund =>
    obtain ⟨-, y, hy, -, -, rfl⟩ :=
      Invoicing.requestRefund_eq_ok.mp (Invoicing.unitResult_eq_ok.mp h).1
    rw [if_pos (Or.inl rfl)]
    exact getInvoiceStatus_of_stored (x := { y with status := .refundRequested })
      (Function.update_self id _ _)

/-- The checks return the status they read. -/
theorem checkAction_status {status : InvoiceStatus} (hx : w.storage.invoice id = some x)
    (h : checkAction s w action id = .ok status) : status = x.status := by
  rw [checkAction, getInvoiceStatus_eq hx] at h
  cases hread : s.read with
  | some outage => simp [hread] at h
  | none =>
    rw [hread] at h
    cases action with
    | cancelInvoiced =>
      simp only [bind_eq_ok, Except.ok.injEq, exists_eq_left', reduceCtorEq, if_false,
        pure_eq_ok] at h
      obtain ⟨-, -, -, -, hstatus⟩ := h
      exact hstatus
    | requestRefund =>
      simp only [bind_eq_ok, Except.ok.injEq, exists_eq_left', if_true] at h
      obtain ⟨-, -, -, -, expired, -, -, -, h⟩ := h
      split at h
      · obtain ⟨-, -, h⟩ := bind_eq_ok.mp h
        simp [throw, throwThe, MonadExceptOf.throw] at h
      · exact pure_eq_ok.mp h

/-- The status that the backend returns is on chain, whatever it refuses. -/
theorem returned_status {result : ActionResult} (hx : w.storage.invoice id = some x)
    (h : applyInvoiceAction s w signer action id = (w', .ok result)) :
    Invoicing.getInvoiceStatus w'.storage id = .ok result.status := by
  unfold applyInvoiceAction at h
  split at h
  · simp at h
  · next status hcheck =>
    dsimp only at h
    split at h
    · next hash hresult =>
      obtain ⟨rfl, hr⟩ := Prod.mk.inj h
      obtain ⟨v, hinvoke⟩ := submitContractCall_eq_ok (Prod.ext rfl hresult)
      rw [status_of_invoke hx hinvoke, ← checkAction_status hx hcheck, ← Except.ok.inj hr]
    · simp at h

/-- The contract accepts the customer's action in some ledger exactly from these statuses. -/
theorem exists_accepted_iff (hpaused : isPaused w.storage = false)
    (hx : w.storage.invoice id = some x) (hsigner : x.customer = signer) :
    (∃ timestamp checks r, Invoicing.invoke ⟨{signer}, timestamp, checks⟩ w
        (action.call id signer) = .ok r) ↔
      x.status = .paid ∨ action = .cancelInvoiced ∧ x.status = .pending := by
  have haccepted (timestamp : UInt64) (checks : Bool) :=
    @invoke_accepted_iff D w ⟨{signer}, timestamp, checks⟩ signer action id x hpaused hx hsigner
      (Finset.mem_singleton_self _)
  constructor
  · rintro ⟨timestamp, checks, h⟩
    exact (haccepted timestamp checks).mp h
  · intro h
    exact ⟨0, true, (haccepted 0 true).mpr h⟩

/-- The backend locks the payer out exactly when it refuses what the contract would accept. -/
theorem locks_iff (hx : w.storage.invoice id = some x) : Locks s x action id ↔
    (∃ err, checkAction s w action id = .error (.contractError err)) ∧
      (x.status = .paid ∨ action = .cancelInvoiced ∧ x.status = .pending) := by
  cases action with
  | cancelInvoiced =>
    rw [cancel_refused_iff hx]
    constructor
    · exact fun ⟨hread, hpaid, _⟩ => ⟨⟨hread, hpaid⟩, Or.inl hpaid⟩
    · exact fun ⟨⟨hread, hpaid⟩, _⟩ => ⟨hread, hpaid, Or.inl rfl⟩
  | requestRefund =>
    rw [refund_refused_iff hx]
    constructor
    · rintro ⟨hread, hpaid, hc | hexp⟩
      · simp at hc
      · exact ⟨⟨hread, Or.inr ⟨true, hexp, Or.inl rfl⟩⟩, Or.inl hpaid⟩
    · rintro ⟨⟨hread, hrefused⟩, hpaid | ⟨hc, -⟩⟩
      · -- a paid invoice is refused a refund for its due date alone
        rcases hrefused with hcancelled | ⟨expired, hexp, rfl | hne⟩
        · simp [hpaid] at hcancelled
        · exact ⟨hread, hpaid, Or.inr hexp⟩
        · exact absurd hpaid hne
      · simp at hc

/-- **The backend mirrors the contract exactly when its own checks do not lock the payer out.** -/
theorem mirrors_iff (hpaused : isPaused w.storage = false) (hx : w.storage.invoice id = some x)
    (hsigner : x.customer = signer) : Mirrors s w signer action id ↔ ¬ Locks s x action id := by
  constructor
  · intro h hl
    obtain ⟨⟨err, hcheck⟩, haccept⟩ := (locks_iff hx).mp hl
    obtain ⟨timestamp, checks, r, hr⟩ := (exists_accepted_iff hpaused hx hsigner).mpr haccept
    exact h.refused err hcheck timestamp checks r hr
  · intro hl
    refine ⟨fun err hcheck timestamp checks r hr => hl ?_, fun w' result h => returned_status hx h⟩
    have haccept := (exists_accepted_iff hpaused hx hsigner).mp ⟨timestamp, checks, r, hr⟩
    exact (locks_iff hx).mpr ⟨⟨err, hcheck⟩, haccept⟩

/-- A paid invoice of account 2, due at second 100. -/
def paidInvoice : Invoice :=
  ⟨1, .account 1, .account 2, 10000000, .contract 3, .paid, 0, 100, none⟩

def paidWorld : State (isolated (.contract 0)) :=
  Invoicing.storeInvoice (Invoicing.fresh () 0) 1 paidInvoice

theorem invoice_paidWorld : paidWorld.storage.invoice 1 = some paidInvoice := by
  simp [paidWorld, Invoicing.storeInvoice]

/-- Every service works, and the clock stands at second 50. -/
def atSecond50 : Services where
  read := none
  database := .ok fun id => if id = "1" then some 100 else none
  now := 50000
  timestamp := 50
  overflowChecks := true
  submission := .confirmed "ab12"
  describe _ := "HostError"

/-- The refund of the paid invoice before its due date is not locked. -/
theorem mirrors_iff_refund :
    Mirrors atSecond50 paidWorld (.account 2) .requestRefund 1 ↔
      ¬ Locks atSecond50 paidInvoice .requestRefund 1 :=
  mirrors_iff (by decide) invoice_paidWorld rfl

/-- A customer who cancels a paid invoice is refused what the contract turns into a refund. -/
theorem not_mirrors_cancel_paid : ¬ ∀ (D : Deployment) (s : Services) (w : State D)
    (signer : Address) (action : InvoiceAction) (id : UInt64) (x : Invoice),
    isPaused w.storage = false → w.storage.invoice id = some x → x.customer = signer →
    Mirrors s w signer action id := by
  intro h
  have hmirrors := h _ atSecond50 paidWorld (.account 2) .cancelInvoiced 1 paidInvoice
    (by decide) invoice_paidWorld rfl
  obtain ⟨err, herr⟩ := (cancel_refused_iff (s := atSecond50) invoice_paidWorld).mpr ⟨rfl, rfl⟩
  have haccepted : ∃ r, Invoicing.invoke ⟨{.account 2}, 50, true⟩ paidWorld
      (InvoiceAction.cancelInvoiced.call 1 (.account 2)) = .ok r :=
    (invoke_accepted_iff (by decide) invoice_paidWorld rfl (by decide)).mpr (Or.inl rfl)
  obtain ⟨r, hr⟩ := haccepted
  exact hmirrors.refused err herr 50 true r hr

end Http.InvoiceActions
