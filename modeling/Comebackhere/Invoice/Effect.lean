import Comebackhere.Invoice.Accepted

/-!
# The effects of the invoice contract's entry points

The status of an invoice is the one field that changes after the invoice is created. `Edge` lists
the changes, each with the guards of the entry point that makes it, and `Effect` says what an
accepted entry point does to the stored invoices and to the rest of the ledger.

## Main definitions

* `Edge`: the changes of the status of a stored invoice
* `Effect`: what an accepted entry point does to the invoices and the rest of the ledger

## Main results

* `effect_of_ok`: every accepted entry point has one of these effects
* `step_cases`: an input is not accepted and leaves the storage, or has one of these effects
-/

namespace Invoicing

open Soroban Checked

variable {D : Deployment}

/-- A history of the invoice contract. -/
abbrev History (D : Deployment) := List (State D × Input D Call)

/-- The entry points that write no invoice and have no other contract called. -/
def Call.isConfig : Call → Bool
  | .upgrade _ | .transferAdmin _ _ | .acceptAdmin _ | .initializeContract _ | .setTreasury _ _
  | .setCompliance _ _ | .pause _ | .unpause _ | .setGraceWindow _ _ => true
  | _ => false

/-- What an entry point does to the status of an invoice it names. -/
inductive Edge (e : Env) (x : Invoice) : Call → InvoiceStatus → Prop
  | markPaid {ids : List UInt64} (hpending : x.status = .pending)
      (hdue : e.timestamp < x.expiresAt) : Edge e x (.markPaids ids) .paid
  | cancel {id : UInt64} {caller : Address} (hpending : x.status = .pending)
      (hcaller : caller = x.merchant ∨ caller = x.customer) :
      Edge e x (.cancelInvoiced id caller) .cancelled
  | cancelPaid {id : UInt64} {caller : Address} (hpaid : x.status = .paid)
      (hcaller : caller = x.merchant ∨ caller = x.customer) :
      Edge e x (.cancelInvoiced id caller) .refundRequested
  | refund {id : UInt64} (hpaid : x.status = .paid) :
      Edge e x (.requestRefund id x.customer) .refundRequested
  | release {id : UInt64} (hrefund : x.status = .refundRequested) :
      Edge e x (.releaseEscrow id x.merchant) .released

/-- The entry points that write the status of every invoice they name. -/
def Call.movesStatus : Call → Bool
  | .markPaids _ | .cancelInvoiced _ _ | .requestRefund _ _ | .releaseEscrow _ _ => true
  | _ => false

/-- The invoices that such an entry point names. -/
def Call.ids : Call → List UInt64
  | .markPaids ids => ids
  | .cancelInvoiced id _ | .requestRefund id _ | .releaseEscrow id _ => [id]
  | _ => []

/-- What an accepted entry point does to the stored invoices and to the rest of the ledger. -/
inductive Effect (e : Env) (w w' : State D) : Call → Val → Prop
  | config {c : Call} {v : Val} (hc : c.isConfig = true)
      (hb : w'.storage.invoice = w.storage.invoice) (hledger : w'.ledger = w.ledger) :
      Effect e w w' c v
  | created {merchant customer token : Address} {amount : ℤ} {expiresAt nonce count : UInt64}
      {reference : Option (List UInt8)} {x : Invoice}
      (hcount : checkedAdd (w.storage.invoiceCount.getD 0) 1 = some count)
      (hamount : minAmountUsdc ≤ x.amount)
      (hx : x = { id := count, merchant, customer, amount, token, status := .pending,
                  createdAt := e.timestamp, expiresAt, reference })
      (hb : w'.storage.invoice = Function.update w.storage.invoice count (some x))
      (hledger : w'.ledger = w.ledger) :
      Effect e w w' (.createInvoice merchant customer amount token expiresAt nonce reference)
        (.u64 count)
  | moved {c : Call} {v : Val} {status : InvoiceStatus} (hc : c.movesStatus = true)
      (hedge : ∀ id ∈ c.ids, ∃ x, w.storage.invoice id = some x ∧ Edge e x c status)
      (hb : w'.storage.invoice = relabel w.storage.invoice c.ids status)
      (hledger : w'.ledger = w.ledger) : Effect e w w' c v
  | expired {ids : List UInt64} {v : Val}
      (hb : w'.storage.invoice =
        relabel w.storage.invoice (ids.filter (due e w.storage.invoice)) .expired)
      (hledger : w'.ledger = w.ledger) : Effect e w w' (.batchExpire ids) v
  | paid {payer : Address} {id : UInt64} {x : Invoice} (hx : w.storage.invoice id = some x)
      (hpending : x.status = .pending) (hdue : e.timestamp < x.expiresAt)
      (hauth : payer ∈ e.auths)
      (hb : w'.storage.invoice = relabel w.storage.invoice [id] .paid)
      (hcall : D.call e w.ledger x.token "transfer"
        [.address payer, .address D.self, .i128 x.amount] = some (w'.ledger, .void)) :
      Effect e w w' (.payInvoice payer id) .void
  | disputed {id settlementId : UInt64} {claimant treasury : Address} {reason : UInt32}
      (hb : w'.storage.invoice = w.storage.invoice)
      (hcall : D.call e w.ledger treasury "raise_dispute"
        [.address claimant, .u64 settlementId, .u32 reason] = some (w'.ledger, .void)) :
      Effect e w w' (.raiseDispute id settlementId claimant reason) .void

variable {e : Env} {w w' : State D} {c : Call} {v : Val}

/-- Writing the status of one invoice is an effect. -/
theorem Effect.moved_one {id : UInt64} {x : Invoice} {status : InvoiceStatus}
    (hx : w.storage.invoice id = some x) (hedge : Edge e x c status) (hc : c.movesStatus = true)
    (hid : c.ids = [id])
    (hb : w'.storage.invoice = Function.update w.storage.invoice id (some { x with status }))
    (hledger : w'.ledger = w.ledger) : Effect e w w' c v := by
  have hrel : w'.storage.invoice = relabel w.storage.invoice c.ids status := by
    rw [hid]
    exact hb.trans (update_eq_relabel hx)
  refine .moved hc (fun id' hid' => ?_) hrel hledger
  obtain rfl := List.mem_singleton.mp (hid ▸ hid')
  exact ⟨x, hx, hedge⟩

/-- **Every accepted entry point has one of the effects.** -/
theorem effect_of_ok (h : invoke e w c = .ok (w', v)) : Effect e w w' c v := by
  cases c with
  | upgrade newWasmHash =>
    obtain ⟨⟨-, rfl⟩, rfl⟩ := by simpa only [invoke, unitResult_eq_ok, upgrade_eq_ok] using h
    exact .config rfl rfl rfl
  | transferAdmin caller newAdmin =>
    obtain ⟨⟨-, -, -, rfl⟩, rfl⟩ := by
      simpa only [invoke, unitResult_eq_ok, transferAdmin_eq_ok] using h
    exact .config rfl rfl rfl
  | acceptAdmin newAdmin =>
    obtain ⟨⟨-, -, -, rfl⟩, rfl⟩ := by
      simpa only [invoke, unitResult_eq_ok, acceptAdmin_eq_ok] using h
    exact .config rfl rfl rfl
  | initializeContract admin =>
    obtain ⟨⟨-, rfl⟩, rfl⟩ := by
      simpa only [invoke, unitResult_eq_ok, initializeContract_eq_ok] using h
    exact .config rfl rfl rfl
  | setTreasury caller treasury =>
    obtain ⟨⟨-, -, rfl⟩, rfl⟩ := by
      simpa only [invoke, unitResult_eq_ok, setTreasury_eq_ok] using h
    exact .config rfl rfl rfl
  | setCompliance caller compliance =>
    obtain ⟨⟨-, -, rfl⟩, rfl⟩ := by
      simpa only [invoke, unitResult_eq_ok, setCompliance_eq_ok] using h
    exact .config rfl rfl rfl
  | pause caller =>
    obtain ⟨⟨-, rfl⟩, rfl⟩ := by simpa only [invoke, unitResult_eq_ok, pause_eq_ok] using h
    exact .config rfl rfl rfl
  | unpause caller =>
    obtain ⟨⟨-, rfl⟩, rfl⟩ := by simpa only [invoke, unitResult_eq_ok, unpause_eq_ok] using h
    exact .config rfl rfl rfl
  | setGraceWindow caller window =>
    obtain ⟨⟨-, -, -, rfl⟩, rfl⟩ := by
      simpa only [invoke, unitResult_eq_ok, setGraceWindow_eq_ok] using h
    exact .config rfl rfl rfl
  | createInvoice merchant customer amount token expiresAt nonce reference =>
    simp only [invoke, bind_eq_ok, pure_eq_ok, Prod.mk.injEq] at h
    obtain ⟨⟨w₁, count⟩, h, rfl, rfl⟩ := h
    obtain ⟨-, -, hamount, -, -, -, hcount, rfl⟩ := createInvoice_eq_ok.mp h
    exact .created hcount hamount rfl rfl rfl
  | markPaids ids =>
    obtain ⟨⟨-, -, -, hpay, rfl⟩, rfl⟩ := by
      simpa only [invoke, unitResult_eq_ok, markPaids_eq_ok] using h
    -- all ids of the batch are payable at the start, so the loop is one change of all of them
    have hb : (ids.foldl setPaid w).storage.invoice = relabel w.storage.invoice ids .paid := by
      rw [(foldl_setPaid ids w).1]
    refine .moved rfl (fun id hid => ?_) hb (foldl_setPaid ids w).2
    obtain ⟨x, hx, ⟨hpending, hdue⟩, -⟩ := hpay id hid
    exact ⟨x, hx, .markPaid hpending hdue⟩
  | payInvoice payer id =>
    obtain ⟨⟨-, hauth, x, hx, ⟨hpending, hdue⟩, -, l, hl, rfl⟩, rfl⟩ := by
      simpa only [invoke, unitResult_eq_ok, payInvoice_eq_ok] using h
    exact .paid hx hpending hdue hauth (update_eq_relabel hx) hl
  | cancelInvoiced id caller =>
    obtain ⟨⟨-, -, x, hx, hcaller, ⟨hpending, rfl⟩ | ⟨hpaid, rfl⟩⟩, rfl⟩ := by
      simpa only [invoke, unitResult_eq_ok, cancelInvoiced_eq_ok] using h
    · exact .moved_one hx (.cancel hpending hcaller) rfl rfl rfl rfl
    · exact .moved_one hx (.cancelPaid hpaid hcaller) rfl rfl rfl rfl
  | requestRefund id caller =>
    obtain ⟨⟨-, x, hx, rfl, hpaid, rfl⟩, rfl⟩ := by
      simpa only [invoke, unitResult_eq_ok, requestRefund_eq_ok] using h
    exact .moved_one hx (.refund hpaid) rfl rfl rfl rfl
  | releaseEscrow id caller =>
    obtain ⟨⟨-, x, hx, rfl, hrefund, -, rfl⟩, rfl⟩ := by
      simpa only [invoke, unitResult_eq_ok, releaseEscrow_eq_ok] using h
    exact .moved_one hx (.release hrefund) rfl rfl rfl rfl
  | batchExpire ids =>
    obtain ⟨⟨-, -, -, rfl⟩, rfl⟩ := by
      simpa only [invoke, unitResult_eq_ok, batchExpire_eq_ok] using h
    exact .expired (by rw [(foldl_expireDue ids w).1]) (foldl_expireDue ids w).2
  | raiseDispute id settlementId claimant reason =>
    obtain ⟨⟨-, -, x, hx, -, treasury, l, -, hl, rfl⟩, rfl⟩ := by
      simpa only [invoke, unitResult_eq_ok, raiseDispute_eq_ok] using h
    exact .disputed rfl hl

/-- An input of a run is not accepted and leaves the storage, or is an accepted invocation with
one of the effects. -/
theorem step_cases (w : State D) (i : Input D Call) :
    (accepted invoke (w, i) = none ∧ (step w i).storage = w.storage) ∨
    ∃ e c v, i = .call e c ∧ accepted invoke (w, i) = some (e, c, v) ∧
      Effect e w (step w i) c v := by
  cases h : accepted invoke (w, i) with
  | none => exact Or.inl ⟨rfl, storage_of_not_accepted h⟩
  | some r =>
    obtain ⟨e, c, v⟩ := r
    obtain ⟨hi, ho⟩ := invoke_of_accepted h
    exact Or.inr ⟨e, c, v, hi, rfl, effect_of_ok ho⟩

end Invoicing
