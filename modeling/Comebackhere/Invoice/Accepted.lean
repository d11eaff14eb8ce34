import Comebackhere.Invoice.Contract

/-!
# Accepted invocations of the invoice contract

For each entry point: the invocations the contract accepts, and the world an accepted one leaves.
Every later module reads an entry point through its lemma here.

## Main definitions

* `relabel b ids status`: the stored invoices after those in `ids` are given one status
* `Payable e w id`: what `mark_paids` asks of an invoice

## Main results

* `markPaids_eq_ok`, `batchExpire_eq_ok`: the batches that are accepted, and what they store
-/

namespace Invoicing

open Soroban Checked

variable {D : Deployment} {e : Env} {w w' : State D} {s : Storage} {v : Val}

@[simp] theorem storedAdmin_eq_ok {a : Address} : storedAdmin s = .ok a ↔ s.admin = some a := by
  simp [storedAdmin]

@[simp] theorem checkNotPaused_eq_ok {u : Unit} :
    checkNotPaused s = .ok u ↔ isPaused s = false := by
  simp [checkNotPaused]

@[simp] theorem checkAdmin_eq_ok {addr : Address} {u : Unit} :
    checkAdmin s addr = .ok u ↔ s.admin = some addr := by
  simp [checkAdmin]

@[simp] theorem findInvoice_eq_ok {id : UInt64} {x : Invoice} :
    findInvoice s id = .ok x ↔ s.invoice id = some x := by
  simp [findInvoice]

@[simp] theorem unitResult_eq_ok {r : Result (State D)} :
    unitResult r = .ok (w', v) ↔ r = .ok w' ∧ v = .void := by
  simp [unitResult]

/-- An entry point that returns `()` leaves the world that it computes. -/
theorem step_of_ok {c : Call} {r : Result (State D)} (hc : invoke e w c = unitResult r)
    (h : r = .ok w') : step w (.call e c) = w' := by
  have hinvoke : invoke e w c = .ok (w', .void) := hc.trans (unitResult_eq_ok.mpr ⟨h, rfl⟩)
  exact (accepted_of_invoke hinvoke).2

/-- A call of it that is refused leaves the world as it is. -/
theorem step_of_not_ok {c : Call} {r : Result (State D)} (hc : invoke e w c = unitResult r)
    (h : ¬ ∃ w', r = .ok w') : step w (.call e c) = w := by
  apply step_call_of_not_accepted
  rw [Option.eq_none_iff_forall_ne_some]
  intro t ht
  obtain ⟨w', v, hinvoke, -⟩ := accepted_call_iff.mp ht
  exact h ⟨w', (unitResult_eq_ok.mp (hc.symm.trans hinvoke)).1⟩

/-- The compliance contract answers that an address is allowed. -/
def Allowed (e : Env) (w : State D) (compliance addr : Address) : Prop :=
  D.query e w.ledger compliance "is_allowed" [.address addr] = some (.bool true)

@[simp] theorem checkAllowed_eq_ok {compliance addr : Address} {u : Unit} :
    checkAllowed e w compliance addr = .ok u ↔ Allowed e w compliance addr := by
  simp [checkAllowed, Allowed]

@[simp] theorem checkPayable_eq_ok {x : Invoice} {u : Unit} :
    checkPayable e x = .ok u ↔ x.status = .pending ∧ e.timestamp < x.expiresAt := by
  cases hs : x.status <;> simp [checkPayable, hs]

@[simp] theorem checkParties_eq_ok {merchant customer : Address} {u : Unit} :
    checkParties e w merchant customer = .ok u ↔
      ∀ compliance, w.storage.complianceContract = some compliance →
        Allowed e w compliance merchant ∧ Allowed e w compliance customer := by
  cases hc : w.storage.complianceContract <;> simp [checkParties, hc]

@[simp] theorem checkPayer_eq_ok {payer : Address} {u : Unit} :
    checkPayer e w payer = .ok u ↔
      ∀ compliance, w.storage.complianceContract = some compliance →
        Allowed e w compliance payer := by
  cases hc : w.storage.complianceContract <;> simp [checkPayer, hc]

/-! ## Administration -/

theorem upgrade_eq_ok {newWasmHash : WasmHash} :
    upgrade e w newWasmHash = .ok w' ↔
      (∃ admin, w.storage.admin = some admin ∧ admin ∈ e.auths) ∧
      w' = { w with wasm := newWasmHash }.publish [.symbol "upgraded"] (.bytesN newWasmHash) := by
  simp only [upgrade, bind_eq_ok, storedAdmin_eq_ok, requireAuth_eq_ok, pure_eq_ok]
  constructor
  · rintro ⟨admin, ha, -, hauth, rfl⟩
    exact ⟨⟨admin, ha, hauth⟩, rfl⟩
  · rintro ⟨⟨admin, ha, hauth⟩, rfl⟩
    exact ⟨admin, ha, (), hauth, rfl⟩

theorem transferAdmin_eq_ok {caller newAdmin : Address} :
    transferAdmin e w caller newAdmin = .ok w' ↔
      isPaused w.storage = false ∧ caller ∈ e.auths ∧ w.storage.admin = some caller ∧
      w' = { w with storage.pendingAdmin := some newAdmin }.publish
        [.symbol "admin_transfer_initiated"] (.vec [.address caller, .address newAdmin]) := by
  simp [transferAdmin]

theorem acceptAdmin_eq_ok {newAdmin : Address} :
    acceptAdmin e w newAdmin = .ok w' ↔
      isPaused w.storage = false ∧ newAdmin ∈ e.auths ∧ w.storage.pendingAdmin = some newAdmin ∧
      w' = { w with storage.admin := some newAdmin, storage.pendingAdmin := none }.publish
        [.symbol "admin_transfer_accepted"] (.address newAdmin) := by
  simp [acceptAdmin]

theorem initializeContract_eq_ok {admin : Address} :
    initializeContract w admin = .ok w' ↔
      w.storage.admin = none ∧
      w' = { w with
        storage.admin := some admin
        storage.graceWindow := some 86400
        storage.invoiceCount := some 0
        storage.paused := some false } := by
  simp [initializeContract]

theorem setTreasury_eq_ok {caller treasury : Address} :
    setTreasury w caller treasury = .ok w' ↔
      isPaused w.storage = false ∧ w.storage.admin = some caller ∧
      w' = { w with storage.treasuryContract := some treasury } := by
  simp [setTreasury]

theorem setCompliance_eq_ok {caller compliance : Address} :
    setCompliance w caller compliance = .ok w' ↔
      isPaused w.storage = false ∧ w.storage.admin = some caller ∧
      w' = { w with storage.complianceContract := some compliance } := by
  simp [setCompliance]

theorem pause_eq_ok {caller : Address} :
    pause w caller = .ok w' ↔
      w.storage.admin = some caller ∧
      w' = { w with storage.paused := some true }.publish [.symbol "contract_paused"] .void := by
  simp [pause]

theorem unpause_eq_ok {caller : Address} :
    unpause w caller = .ok w' ↔
      w.storage.admin = some caller ∧
      w' = { w with storage.paused := some false }.publish
        [.symbol "contract_unpaused"] .void := by
  simp [unpause]

theorem setGraceWindow_eq_ok {caller : Address} {window : UInt64} :
    setGraceWindow w caller window = .ok w' ↔
      isPaused w.storage = false ∧ w.storage.admin = some caller ∧ window ≤ maxGraceWindow ∧
      w' = { w with storage.graceWindow := some window }.publish
        [.symbol "grace_window_updated"]
        (.vec [.u64 (w.storage.graceWindow.getD 86400), .u64 window]) := by
  simp [setGraceWindow]

/-! ## Single invoices -/

theorem createInvoice_eq_ok {merchant customer token : Address} {amount : ℤ}
    {expiresAt nonce count : UInt64} {reference : Option (List UInt8)} :
    createInvoice e w merchant customer amount token expiresAt nonce reference = .ok (w', count) ↔
      isPaused w.storage = false ∧ merchant ∈ e.auths ∧ minAmountUsdc ≤ amount ∧
      (∀ r ∈ reference, r.length ≤ maxReferenceLen) ∧
      w.storage.nonce (merchant, nonce) = none ∧
      (∀ compliance, w.storage.complianceContract = some compliance →
        Allowed e w compliance merchant ∧ Allowed e w compliance customer) ∧
      checkedAdd (w.storage.invoiceCount.getD 0) 1 = some count ∧
      w' = { storeInvoice w count
          { id := count, merchant, customer, amount, token, status := .pending,
            createdAt := e.timestamp, expiresAt, reference } with
        storage.nonce := Function.update w.storage.nonce (merchant, nonce) (some true)
        storage.invoiceCount := some count
        storage.customerInvoices := Function.update w.storage.customerInvoices customer
          (some ((w.storage.customerInvoices customer).getD [] ++ [count])) }.publish
        [.symbol "invoice_created"] (.vec [.address merchant, .u64 count]) := by
  simp only [createInvoice, bind_eq_ok, checkNotPaused_eq_ok, requireAuth_eq_ok, ensure_eq_ok,
    checkParties_eq_ok, orFail_eq_ok, pure_eq_ok, Prod.mk.injEq]
  constructor
  · rintro ⟨-, hp, -, hauth, -, hamount, -, href, -, hnonce, -, hparties, n, hn, rfl, rfl⟩
    exact ⟨hp, hauth, hamount, href, hnonce, hparties, hn, rfl⟩
  · rintro ⟨hp, hauth, hamount, href, hnonce, hparties, hn, rfl⟩
    exact ⟨(), hp, (), hauth, (), hamount, (), href, (), hnonce, (), hparties, count, hn, rfl, rfl⟩

theorem payInvoice_eq_ok {payer : Address} {id : UInt64} :
    payInvoice e w payer id = .ok w' ↔
      isPaused w.storage = false ∧ payer ∈ e.auths ∧
      ∃ x, w.storage.invoice id = some x ∧ (x.status = .pending ∧ e.timestamp < x.expiresAt) ∧
        (∀ compliance, w.storage.complianceContract = some compliance →
          Allowed e w compliance payer) ∧
        ∃ l, D.call e w.ledger x.token "transfer"
            [.address payer, .address D.self, .i128 x.amount] = some (l, .void) ∧
          w' = invoicePaid (storeInvoice { w with ledger := l } id { x with status := .paid })
            id := by
  simp only [payInvoice, bind_eq_ok, checkNotPaused_eq_ok, requireAuth_eq_ok, findInvoice_eq_ok,
    checkPayable_eq_ok, checkPayer_eq_ok, invokeUnit_eq_ok, pure_eq_ok]
  constructor
  · rintro ⟨-, hp, -, hauth, x, hx, -, hpay, -, hallowed, _, ⟨l, hl, rfl⟩, rfl⟩
    exact ⟨hp, hauth, x, hx, hpay, hallowed, l, hl, rfl⟩
  · rintro ⟨hp, hauth, x, hx, hpay, hallowed, l, hl, rfl⟩
    exact ⟨(), hp, (), hauth, x, hx, (), hpay, (), hallowed, _, ⟨l, hl, rfl⟩, rfl⟩

theorem cancelInvoiced_eq_ok {caller : Address} {id : UInt64} :
    cancelInvoiced e w id caller = .ok w' ↔
      isPaused w.storage = false ∧ caller ∈ e.auths ∧
      ∃ x, w.storage.invoice id = some x ∧ (caller = x.merchant ∨ caller = x.customer) ∧
        (x.status = .pending ∧
            w' = invoiceCancelled (storeInvoice w id { x with status := .cancelled }) id ∨
          x.status = .paid ∧
            w' = invoiceRefundReq (storeInvoice w id { x with status := .refundRequested })
              id) := by
  simp only [cancelInvoiced, bind_eq_ok, checkNotPaused_eq_ok, requireAuth_eq_ok,
    findInvoice_eq_ok, ensure_eq_ok, exists_const]
  refine and_congr_right fun _ => and_congr_right fun _ => exists_congr fun x =>
    and_congr_right fun _ => and_congr_right fun _ => ?_
  -- two statuses have a successor, the others fail
  cases hs : x.status <;> simp [throw, throwThe, MonadExceptOf.throw]

theorem requestRefund_eq_ok {caller : Address} {id : UInt64} :
    requestRefund w id caller = .ok w' ↔
      isPaused w.storage = false ∧
      ∃ x, w.storage.invoice id = some x ∧ caller = x.customer ∧ x.status = .paid ∧
        w' = invoiceRefundReq (storeInvoice w id { x with status := .refundRequested }) id := by
  simp only [requestRefund, bind_eq_ok, checkNotPaused_eq_ok, findInvoice_eq_ok, ensure_eq_ok,
    exists_const, pure_eq_ok]
  refine and_congr_right fun _ => exists_congr fun x => and_congr_right fun _ =>
    and_congr_right fun _ => and_congr_right fun hs => ?_
  -- the second check of the status passes, as the first did
  simp [hs]

theorem releaseEscrow_eq_ok {caller : Address} {id : UInt64} :
    releaseEscrow e w id caller = .ok w' ↔
      isPaused w.storage = false ∧
      ∃ x, w.storage.invoice id = some x ∧ caller = x.merchant ∧ x.status = .refundRequested ∧
        (∃ graceWindow releaseAt, w.storage.graceWindow = some graceWindow ∧
          checkedAdd x.createdAt graceWindow = some releaseAt ∧ releaseAt ≤ e.timestamp) ∧
        w' = escrowReleased (storeInvoice w id { x with status := .released }) id := by
  simp only [releaseEscrow, bind_eq_ok, checkNotPaused_eq_ok, findInvoice_eq_ok, ensure_eq_ok,
    exists_const, orFail_eq_ok, pure_eq_ok]
  refine and_congr_right fun _ => exists_congr fun x => and_congr_right fun _ =>
    and_congr_right fun _ => and_congr_right fun _ => ?_
  constructor
  · rintro ⟨g, hg, r, hr, hle, rfl⟩
    exact ⟨⟨g, r, hg, hr, hle⟩, rfl⟩
  · rintro ⟨⟨g, r, hg, hr, hle⟩, rfl⟩
    exact ⟨g, hg, r, hr, hle, rfl⟩

theorem raiseDispute_eq_ok {id settlementId : UInt64} {claimant : Address} {reason : UInt32} :
    raiseDispute e w id settlementId claimant reason = .ok w' ↔
      isPaused w.storage = false ∧ claimant ∈ e.auths ∧
      ∃ x, w.storage.invoice id = some x ∧ (claimant = x.merchant ∨ claimant = x.customer) ∧
        ∃ treasury l, w.storage.treasuryContract = some treasury ∧
          D.call e w.ledger treasury "raise_dispute"
            [.address claimant, .u64 settlementId, .u32 reason] = some (l, .void) ∧
          w' = { w with ledger := l }.publish [.symbol "dispute_raised"]
            (.vec [.u64 id, .u64 settlementId, .address claimant]) := by
  simp only [raiseDispute, bind_eq_ok, checkNotPaused_eq_ok, requireAuth_eq_ok,
    findInvoice_eq_ok, ensure_eq_ok, exists_const, orFail_eq_ok, invokeUnit_eq_ok, pure_eq_ok]
  refine and_congr_right fun _ => and_congr_right fun _ => exists_congr fun x =>
    and_congr_right fun _ => and_congr_right fun _ => exists_congr fun treasury => ?_
  constructor
  · rintro ⟨ht, _, ⟨l, hl, rfl⟩, rfl⟩
    exact ⟨l, ht, hl, rfl⟩
  · rintro ⟨l, ht, hl, rfl⟩
    exact ⟨ht, _, ⟨l, hl, rfl⟩, rfl⟩

/-! ## Batches -/

/-- The stored invoices after those in `ids` are given one status. -/
def relabel (b : UInt64 → Option Invoice) (ids : List UInt64) (status : InvoiceStatus) :
    UInt64 → Option Invoice :=
  fun id => if id ∈ ids then (b id).map fun x => { x with status } else b id

variable {b : UInt64 → Option Invoice} {status : InvoiceStatus}

@[simp] theorem relabel_nil (status : InvoiceStatus) : relabel b [] status = b := by
  funext id
  simp [relabel]

theorem relabel_relabel (id : UInt64) (ids : List UInt64) :
    relabel (relabel b [id] status) ids status = relabel b (id :: ids) status := by
  funext id'
  by_cases hid : id' = id
  · by_cases hm : id ∈ ids <;> simp [relabel, hid, hm, Option.map_map, Function.comp_def]
  · simp [relabel, hid]

theorem update_eq_relabel {id : UInt64} {x : Invoice} (hx : b id = some x) :
    Function.update b id (some { x with status }) = relabel b [id] status := by
  funext id'
  by_cases hid : id' = id
  · simp [relabel, hid, hx]
  · simp [relabel, hid]

theorem relabel_eq_none_iff {id : UInt64} {ids : List UInt64} :
    relabel b ids status id = none ↔ b id = none := by
  by_cases hm : id ∈ ids <;> simp [relabel, hm]

/-- What does not depend on the status stays. -/
theorem relabel_map {β : Type} {f : Invoice → β} (hf : ∀ x status, f { x with status } = f x)
    (b : UInt64 → Option Invoice) (ids : List UInt64) (status : InvoiceStatus) (id : UInt64) :
    (relabel b ids status id).map f = (b id).map f := by
  by_cases hm : id ∈ ids
  · simp [relabel, hm, Option.map_map, Function.comp_def, hf]
  · simp [relabel, hm]

/-- What `mark_paids` asks of an invoice: it is pending and not yet expired, and the compliance
contract, when there is one, allows its parties. -/
def Payable (e : Env) (w : State D) (id : UInt64) : Prop :=
  ∃ x, w.storage.invoice id = some x ∧ (x.status = .pending ∧ e.timestamp < x.expiresAt) ∧
    ∀ compliance, w.storage.complianceContract = some compliance →
      Allowed e w compliance x.merchant ∧ Allowed e w compliance x.customer

/-- Store an invoice as paid, and publish that. -/
def setPaid (w : State D) (id : UInt64) : State D :=
  match w.storage.invoice id with
  | some x => invoicePaid (storeInvoice w id { x with status := .paid }) id
  | none => w

theorem markPaid_eq_ok {id : UInt64} :
    markPaid e w id = .ok w' ↔ Payable e w id ∧ w' = setPaid w id := by
  simp only [markPaid, bind_eq_ok, findInvoice_eq_ok, checkPayable_eq_ok, checkParties_eq_ok,
    exists_const, pure_eq_ok]
  constructor
  · rintro ⟨x, hx, hpay, hallowed, rfl⟩
    exact ⟨⟨x, hx, hpay, hallowed⟩, by rw [setPaid, hx]⟩
  · rintro ⟨⟨x, hx, hpay, hallowed⟩, rfl⟩
    exact ⟨x, hx, hpay, hallowed, by rw [setPaid, hx]⟩

theorem setPaid_storage (w : State D) (id : UInt64) :
    (setPaid w id).storage =
      { w.storage with invoice := relabel w.storage.invoice [id] .paid } := by
  unfold setPaid
  split
  · next x hx =>
    rw [← update_eq_relabel hx]
    rfl
  · next hx =>
    have hsame : relabel w.storage.invoice [id] .paid = w.storage.invoice := by
      funext id'
      by_cases hid : id' = id <;> simp [relabel, hid, hx]
    rw [hsame]

@[simp] theorem setPaid_ledger (w : State D) (id : UInt64) : (setPaid w id).ledger = w.ledger := by
  unfold setPaid
  split <;> rfl

theorem foldl_setPaid (ids : List UInt64) (w : State D) :
    (ids.foldl setPaid w).storage =
        { w.storage with invoice := relabel w.storage.invoice ids .paid } ∧
      (ids.foldl setPaid w).ledger = w.ledger := by
  induction ids generalizing w with
  | nil => simp
  | cons id ids ih =>
    rw [List.foldl_cons, (ih _).1, (ih _).2, setPaid_storage, setPaid_ledger, relabel_relabel]
    exact ⟨rfl, rfl⟩

/-- **The batches `mark_paids` accepts**: distinct ids of payable invoices, no more than fit. -/
theorem markPaids_eq_ok {ids : List UInt64} :
    markPaids e w ids = .ok w' ↔
      isPaused w.storage = false ∧ ids.length ≤ maxBatchSize ∧ ids.Nodup ∧
      (∀ id ∈ ids, Payable e w id) ∧ w' = ids.foldl setPaid w := by
  -- paying an invoice uses up its own condition, so the ids of a batch are distinct
  have hself : ∀ (w : State D) id, Payable e w id → ¬ Payable e (setPaid w id) id := by
    rintro w id ⟨x, hx, -⟩ ⟨y, hy, ⟨hpending, -⟩, -⟩
    obtain rfl : { x with status := .paid } = y := by
      simpa [setPaid_storage, relabel, hx] using hy
    simp at hpending
  have hothers : ∀ (w : State D) id id', Payable e w id → id' ≠ id →
      (Payable e (setPaid w id) id' ↔ Payable e w id') := by
    intro w id id' _ hne
    simp [Payable, Allowed, setPaid_storage, relabel, hne]
  simp only [markPaids, bind_eq_ok, checkNotPaused_eq_ok, ensure_eq_ok, exists_const,
    foldlM_once_eq_ok_iff (fun _ _ _ => markPaid_eq_ok) hself hothers]

/-- The invoice is pending, and its time to expire has come. -/
def due (e : Env) (b : UInt64 → Option Invoice) (id : UInt64) : Bool :=
  (b id).any fun x => x.status = .pending ∧ x.expiresAt ≤ e.timestamp

/-- Expire an invoice that is due, and publish that. -/
def expireDue (e : Env) (w : State D) (id : UInt64) : State D :=
  match w.storage.invoice id with
  | some x =>
    if x.status = .pending ∧ x.expiresAt ≤ e.timestamp then
      invoiceExpired (storeInvoice w id { x with status := .expired }) id
    else w
  | none => w

theorem expire_eq_ok {id : UInt64} :
    expire e w id = .ok w' ↔ w.storage.invoice id ≠ none ∧ w' = expireDue e w id := by
  cases hx : w.storage.invoice id with
  | none => simp [expire, hx]
  | some x =>
    simp only [expire, bind_eq_ok, findInvoice_eq_ok, hx, Option.some.injEq, exists_eq_left',
      expireDue, ne_eq, reduceCtorEq, not_false_eq_true, true_and]
    split <;> simp

theorem expireDue_storage (w : State D) (id : UInt64) :
    (expireDue e w id).storage = { w.storage with
      invoice := relabel w.storage.invoice ([id].filter (due e w.storage.invoice)) .expired } := by
  unfold expireDue
  split
  · next x hx =>
    by_cases hdue : x.status = .pending ∧ x.expiresAt ≤ e.timestamp
    · rw [if_pos hdue, List.filter_cons_of_pos (by simpa [due, hx] using hdue), List.filter_nil,
        ← update_eq_relabel hx]
      rfl
    · rw [if_neg hdue, List.filter_cons_of_neg (by simpa [due, hx] using hdue), List.filter_nil,
        relabel_nil]
  · next hx => simp [due, hx]

@[simp] theorem expireDue_ledger (w : State D) (id : UInt64) :
    (expireDue e w id).ledger = w.ledger := by
  unfold expireDue
  split
  · split <;> rfl
  · rfl

/-- Expiring one invoice, and then those of a list that are still due, expires those that were due
at the start. -/
theorem relabel_filter_due (id : UInt64) (ids : List UInt64) :
    relabel (relabel b ([id].filter (due e b)) .expired)
        (ids.filter (due e (relabel b ([id].filter (due e b)) .expired))) .expired =
      relabel b ((id :: ids).filter (due e b)) .expired := by
  by_cases hdue : due e b id = true
  · rw [List.filter_cons_of_pos hdue, List.filter_cons_of_pos hdue, List.filter_nil]
    funext id'
    by_cases hid : id' = id
    · -- an expired invoice is no longer due
      have hnot : due e (relabel b [id] .expired) id = false := by
        cases hx : b id <;> simp [due, relabel, hx]
      simp [relabel, hid, hnot]
    · have hsame : due e (relabel b [id] .expired) id' = due e b id' := by
        simp [due, relabel, hid]
      simp [relabel, hid, hsame]
  · simp [hdue]

theorem foldl_expireDue (ids : List UInt64) (w : State D) :
    (ids.foldl (expireDue e) w).storage = { w.storage with
        invoice := relabel w.storage.invoice (ids.filter (due e w.storage.invoice)) .expired } ∧
      (ids.foldl (expireDue e) w).ledger = w.ledger := by
  induction ids generalizing w with
  | nil => simp
  | cons id ids ih =>
    rw [List.foldl_cons, (ih _).1, (ih _).2, expireDue_storage, expireDue_ledger,
      relabel_filter_due]
    exact ⟨rfl, rfl⟩

/-- The batches `batch_expire` accepts: ids of invoices that exist, no more than fit. -/
theorem batchExpire_eq_ok {ids : List UInt64} :
    batchExpire e w ids = .ok w' ↔
      isPaused w.storage = false ∧ ids.length ≤ maxBatchSize ∧
      (∀ id ∈ ids, w.storage.invoice id ≠ none) ∧ w' = ids.foldl (expireDue e) w := by
  -- expiring an invoice keeps it stored, so an id may occur twice
  have hstable : ∀ (w : State D) id id', w.storage.invoice id ≠ none →
      ((expireDue e w id).storage.invoice id' ≠ none ↔ w.storage.invoice id' ≠ none) := by
    intro w id id' _
    rw [expireDue_storage, ne_eq, ne_eq, relabel_eq_none_iff]
  simp only [batchExpire, bind_eq_ok, checkNotPaused_eq_ok, ensure_eq_ok, exists_const,
    foldlM_eq_ok_iff (fun _ _ _ => expire_eq_ok) hstable]

end Invoicing
