import Comebackhere.Invoice.Effect
import Comebackhere.Soroban.Token
import Mathlib.Algebra.BigOperators.Group.Finset.Basic

/-!
# Escrow of the invoice contract

`pay_invoice` has the amount of an invoice transferred to the contract, which never transfers
anything out: `release_escrow` writes the status of the invoice only. The balance the contract
holds in a token is compared with the invoices that were paid through it and are not released.

## Main definitions

* `paidIds h`: the invoices that were paid through `pay_invoice`
* `Escrowed T h w`: the balance is the sum of the amounts of those not released
* `BacksEscrow`: the invocation changes the balance and that sum alike

## Main results

* `escrowed_iff`: the balance is that sum throughout the runs that back the escrow
-/

namespace Invoicing

open Soroban Checked Machine

variable {D : Deployment} {e : Env} {w : State D} {i : Input D Call} {h : History D} {c : Call}
  {v : Val} {token : Address}

/-! ## The escrowed invoices -/

/-- The ids of the invoices that were paid through `pay_invoice`, after one more transition. An
invoice stored under the id of another takes its place, and is not paid. -/
def addPayment (ids : Finset UInt64) (t : State D × Input D Call) : Finset UInt64 :=
  match accepted invoke t with
  | some (_, .payInvoice _ id, _) => insert id ids
  | some (_, .createInvoice _ _ _ _ _ _ _, .u64 id) => ids.erase id
  | _ => ids

/-- The ids of the invoices that were paid through `pay_invoice`. -/
def paidIds (h : History D) : Finset UInt64 := h.foldl addPayment ∅

@[simp] theorem paidIds_nil : paidIds ([] : History D) = ∅ := rfl

theorem paidIds_snoc (t : State D × Input D Call) :
    paidIds (h ++ [t]) = addPayment (paidIds h) t := by
  simp [paidIds]

theorem addPayment_of_not_accepted (hn : accepted invoke (w, i) = none) (ids : Finset UInt64) :
    addPayment ids (w, i) = ids := by
  simp [addPayment, hn]

/-- The entry points that change which invoices were paid through `pay_invoice`. -/
def Call.recordsPayment : Call → Bool
  | .payInvoice _ _ | .createInvoice _ _ _ _ _ _ _ => true
  | _ => false

theorem addPayment_of_not_recordsPayment (ha : accepted invoke (w, i) = some (e, c, v))
    (hc : c.recordsPayment = false) (ids : Finset UInt64) : addPayment ids (w, i) = ids := by
  simp only [addPayment, ha]
  cases c <;> first | rfl | exact absurd hc.symm Bool.false_ne_true

theorem addPayment_pay {payer : Address} {id : UInt64}
    (ha : accepted invoke (w, i) = some (e, .payInvoice payer id, v)) (ids : Finset UInt64) :
    addPayment ids (w, i) = insert id ids := by
  simp only [addPayment, ha]

theorem addPayment_create {merchant customer token : Address} {amount : ℤ}
    {expiresAt nonce id : UInt64} {reference : Option (List UInt8)}
    (ha : accepted invoke (w, i) =
      some (e, .createInvoice merchant customer amount token expiresAt nonce reference, .u64 id))
    (ids : Finset UInt64) : addPayment ids (w, i) = ids.erase id := by
  simp only [addPayment, ha]

theorem not_recordsPayment_of_movesStatus (hc : c.movesStatus = true) :
    c.recordsPayment = false := by
  cases c <;> first | rfl | exact absurd hc Bool.false_ne_true

theorem not_recordsPayment_of_isConfig (hc : c.isConfig = true) : c.recordsPayment = false := by
  cases c <;> first | rfl | exact absurd hc Bool.false_ne_true

/-- The amount of an invoice in the token, unless it is released. -/
def outstanding (token : Address) (invoice : Option Invoice) : ℤ :=
  match invoice with
  | some x => if x.token = token ∧ x.status ≠ .released then x.amount else 0
  | none => 0

/-- The balance the contract holds is the sum of the amounts of the invoices in the token that
were paid through `pay_invoice` and are not released. -/
def Escrowed (T : StandardToken D token) (h : History D) (w : State D) : Prop :=
  T.held w = ∑ id ∈ paidIds h, outstanding token (w.storage.invoice id)

/-- No escrowed invoice in the token is released or stored over, and the contract pays no
invoice in the token itself. -/
def BacksEscrow (D : Deployment) (token : Address) (h : History D) (s : Storage) : Call → Prop
  | .payInvoice payer id => ∀ x, s.invoice id = some x → x.token = token → payer ≠ D.self
  | .releaseEscrow id _ =>
    id ∈ paidIds h → ∀ x, s.invoice id = some x → x.token ≠ token
  | .createInvoice _ _ _ _ _ _ _ =>
    s.invoiceCount.getD 0 + 1 ∈ paidIds h →
      outstanding token (s.invoice (s.invoiceCount.getD 0 + 1)) = 0
  | _ => True

variable {b : UInt64 → Option Invoice} {ids : Finset UInt64} {status : InvoiceStatus}

/-- Writing a status other than `released` over one other than `released` leaves what is
outstanding. -/
theorem outstanding_relabel {l : List UInt64} (hstatus : status ≠ .released)
    (hb : ∀ id ∈ l, ∀ x, b id = some x → x.status ≠ .released) (id : UInt64) :
    outstanding token (relabel b l status id) = outstanding token (b id) := by
  by_cases hid : id ∈ l
  · cases hx : b id with
    | none => simp [relabel, hid, hx]
    | some x => simp [relabel, hid, hx, outstanding, hstatus, hb id hid x hx]
  · simp [relabel, hid]

theorem outstanding_of_some {id : UInt64} {x : Invoice} (hx : b id = some x)
    (hs : x.status ≠ .released) :
    outstanding token (b id) = if x.token = token then x.amount else 0 := by
  simp [outstanding, hx, hs]

/-- What is outstanding after a pending invoice is paid: its amount more. -/
theorem sum_outstanding_pay {id : UInt64} {x : Invoice} (hid : id ∉ ids) (hx : b id = some x)
    (hpending : x.status = .pending) :
    ∑ id' ∈ insert id ids, outstanding token (relabel b [id] .paid id') =
      (if x.token = token then x.amount else 0) + ∑ id' ∈ ids, outstanding token (b id') := by
  have hs : x.status ≠ .released := by simp [hpending]
  have hkeep : ∀ id' ∈ insert id ids,
      outstanding token (relabel b [id] .paid id') = outstanding token (b id') := by
    intro id' _
    refine outstanding_relabel (by decide) (fun id'' hid'' y hy => ?_) id'
    obtain rfl := List.mem_singleton.mp hid''
    obtain rfl : x = y := by simpa [hx] using hy
    exact hs
  rw [Finset.sum_congr rfl hkeep, Finset.sum_insert hid, outstanding_of_some hx hs]

/-- What is outstanding after an invoice is released: nothing for that invoice. -/
theorem sum_outstanding_release (id : UInt64) :
    ∑ id' ∈ ids, outstanding token (relabel b [id] .released id') =
      (∑ id' ∈ ids, outstanding token (b id')) -
        (if id ∈ ids then outstanding token (b id) else 0) := by
  -- the sum is split at the released invoice, which then counts zero
  have hreleased : outstanding token (relabel b [id] .released id) = 0 := by
    cases hx : b id <;> simp [relabel, hx, outstanding]
  have hothers : ∀ id' ∈ ids.erase id,
      outstanding token (relabel b [id] .released id') = outstanding token (b id') := by
    intro id' hid'
    simp [relabel, Finset.ne_of_mem_erase hid']
  by_cases hid : id ∈ ids
  · rw [← Finset.add_sum_erase _ _ hid, ← Finset.add_sum_erase _ _ hid, hreleased, if_pos hid,
      Finset.sum_congr rfl hothers]
    omega
  · rw [Finset.erase_eq_of_notMem hid] at hothers
    rw [if_neg hid, sub_zero, Finset.sum_congr rfl hothers]

/-- What is outstanding after an invoice is stored under an id, with no payment. -/
theorem sum_outstanding_create (id : UInt64) (x : Invoice) :
    ∑ id' ∈ ids.erase id, outstanding token (Function.update b id (some x) id') =
      (∑ id' ∈ ids, outstanding token (b id')) -
        (if id ∈ ids then outstanding token (b id) else 0) := by
  have hothers : ∀ id' ∈ ids.erase id,
      outstanding token (Function.update b id (some x) id') = outstanding token (b id') := by
    intro id' hid'
    rw [Function.update_of_ne (Finset.ne_of_mem_erase hid')]
  rw [Finset.sum_congr rfl hothers]
  by_cases hid : id ∈ ids
  · rw [← Finset.add_sum_erase _ _ hid, if_pos hid]
    omega
  · rw [Finset.erase_eq_of_notMem hid, if_neg hid, sub_zero]

/-! ## The invariant -/

/-- Every stored invoice has at least the smallest amount, and one that was paid through
`pay_invoice` is stored and no longer pending. -/
structure Recorded (h : History D) (w : State D) : Prop where
  amount : ∀ id x, w.storage.invoice id = some x → minAmountUsdc ≤ x.amount
  paid : ∀ id ∈ paidIds h, ∃ x, w.storage.invoice id = some x ∧ x.status ≠ .pending

theorem Recorded.amount_pos {id : UInt64} {x : Invoice} (hI : Recorded h w)
    (hx : w.storage.invoice id = some x) : 0 < x.amount :=
  lt_of_lt_of_le (by decide) (hI.amount id x hx)

/-- A pending invoice was not paid. -/
theorem Recorded.notMem_paidIds {id : UInt64} {x : Invoice} (hI : Recorded h w)
    (hx : w.storage.invoice id = some x) (hpending : x.status = .pending) : id ∉ paidIds h := by
  intro hid
  obtain ⟨y, hy, hstatus⟩ := hI.paid id hid
  obtain rfl : x = y := by simpa [hx] using hy
  exact hstatus hpending

theorem recorded_fresh (l : D.Ledger) (wasm : WasmHash) : Recorded [] (fresh l wasm) :=
  ⟨fun _ _ hx => by simp [fresh, Storage.empty] at hx, by simp⟩

/-- Writing no invoice keeps the invariant. -/
theorem Recorded.keep {w' : State D} {t : State D × Input D Call} (hI : Recorded h w)
    (hb : w'.storage.invoice = w.storage.invoice)
    (hpaid : addPayment (paidIds h) t = paidIds h) : Recorded (h ++ [t]) w' := by
  refine ⟨fun id x hx => hI.amount id x (hb ▸ hx), fun id hid => ?_⟩
  rw [paidIds_snoc, hpaid] at hid
  rw [hb]
  exact hI.paid id hid

/-- Writing a status other than `pending` keeps the invariant. -/
theorem Recorded.relabel {w' : State D} {t : State D × Input D Call} {l : List UInt64}
    (hI : Recorded h w) (hstatus : status ≠ .pending)
    (hb : w'.storage.invoice = relabel w.storage.invoice l status)
    (hpaid : ∀ id ∈ addPayment (paidIds h) t, id ∈ paidIds h ∨
      id ∈ l ∧ w.storage.invoice id ≠ none) : Recorded (h ++ [t]) w' := by
  refine ⟨fun id x hx => ?_, fun id hid => ?_⟩
  · rw [hb, Invoicing.relabel] at hx
    split at hx
    · obtain ⟨y, hy, rfl⟩ := Option.map_eq_some_iff.mp hx
      exact hI.amount id y hy
    · exact hI.amount id x hx
  · rw [paidIds_snoc] at hid
    rw [hb, Invoicing.relabel]
    split
    · obtain ⟨x, hx⟩ : ∃ x, w.storage.invoice id = some x := by
        rcases hpaid id hid with hold | ⟨-, hnew⟩
        · obtain ⟨x, hx, -⟩ := hI.paid id hold
          exact ⟨x, hx⟩
        · exact Option.ne_none_iff_exists'.mp hnew
      exact ⟨_, by rw [hx, Option.map_some], hstatus⟩
    · next hl => exact hI.paid id ((hpaid id hid).resolve_right fun hm => hl hm.1)

/-- Storing a new invoice keeps the invariant. -/
theorem Recorded.create {w' : State D} {t : State D × Input D Call} {id : UInt64} {x : Invoice}
    (hI : Recorded h w) (hamount : minAmountUsdc ≤ x.amount)
    (hb : w'.storage.invoice = Function.update w.storage.invoice id (some x))
    (hpaid : addPayment (paidIds h) t = (paidIds h).erase id) : Recorded (h ++ [t]) w' := by
  refine ⟨fun id' y hy => ?_, fun id' hid' => ?_⟩
  · by_cases hid : id' = id
    · obtain rfl : x = y := by simpa [hb, hid] using hy
      exact hamount
    · exact hI.amount id' y (by simpa [hb, hid] using hy)
  · rw [paidIds_snoc, hpaid, Finset.mem_erase] at hid'
    rw [hb, Function.update_of_ne hid'.1]
    exact hI.paid id' hid'.2

theorem Edge.status_ne_pending {x : Invoice} (hedge : Edge e x c status) : status ≠ .pending := by
  cases hedge <;> decide

theorem Edge.not_released {x : Invoice} (hedge : Edge e x c status) : x.status ≠ .released := by
  cases hedge with
  | markPaid hs _ | cancel hs _ | cancelPaid hs _ | refund hs | release hs =>
    rw [hs]
    decide

theorem Edge.eq_release {x : Invoice} (hedge : Edge e x c .released) :
    ∃ id, c = .releaseEscrow id x.merchant := by
  cases hedge with
  | release _ => exact ⟨_, rfl⟩

/-- An entry point that moves the status of invoices leaves what is outstanding, unless it
releases one. -/
theorem outstanding_moved
    (hedge : ∀ id ∈ c.ids, ∃ x, b id = some x ∧ Edge e x c status)
    (hc : ∀ id caller, c ≠ .releaseEscrow id caller) (id : UInt64) :
    outstanding token (relabel b c.ids status id) = outstanding token (b id) := by
  by_cases hstatus : status = .released
  · have hnil : c.ids = [] := by
      apply List.eq_nil_iff_forall_not_mem.mpr
      intro id' hid'
      obtain ⟨x, -, hx⟩ := hedge id' hid'
      obtain ⟨id'', he⟩ := (hstatus ▸ hx).eq_release
      exact hc _ _ he
    rw [hnil, relabel_nil]
  · refine outstanding_relabel hstatus (fun id' hid' y hy => ?_) id
    obtain ⟨x, hx, hx'⟩ := hedge id' hid'
    obtain rfl : x = y := by simpa [hx] using hy
    exact hx'.not_released

/-- **Every input keeps the invariant.** -/
theorem recorded_step (hI : Recorded h w) : Recorded (h ++ [(w, i)]) (step w i) := by
  rcases step_cases w i with ⟨hn, hs⟩ | ⟨e, c, v, -, ha, heff⟩
  · exact hI.keep (by rw [hs]) (addPayment_of_not_accepted hn _)
  have hsame := addPayment_of_not_recordsPayment ha
  cases heff with
  | config hc hb _ => exact hI.keep hb (hsame (not_recordsPayment_of_isConfig hc) _)
  | created _ hamount _ hb _ => exact hI.create hamount hb (addPayment_create ha _)
  | @moved _ _ status hc hedge hb _ =>
    have hpaid := hsame (not_recordsPayment_of_movesStatus hc) (paidIds h)
    -- an empty batch moves nothing, whatever the status
    cases hids : c.ids with
    | nil => exact hI.keep (by rw [hb, hids, relabel_nil]) hpaid
    | cons id ids =>
      obtain ⟨x, -, hedge⟩ := hedge id (by simp [hids])
      exact hI.relabel hedge.status_ne_pending hb fun id' hid' => Or.inl (hpaid ▸ hid')
  | expired hb _ =>
    have hpaid := hsame rfl (paidIds h)
    exact hI.relabel (by decide) hb fun id' hid' => Or.inl (hpaid ▸ hid')
  | @paid payer id x hx _ _ _ hb _ =>
    apply hI.relabel (by decide) hb
    intro id' hid'
    rw [addPayment_pay ha, Finset.mem_insert] at hid'
    rcases hid' with rfl | hid'
    · exact Or.inr ⟨by simp, by simp [hx]⟩
    · exact Or.inl hid'
  | disputed hb _ => exact hI.keep hb (hsame rfl _)

/-! ## Steps -/

variable (T : StandardToken D token)

/-- An entry point that changes neither the balance nor what is outstanding. -/
theorem escrowed_of_same {w' : State D} {t : State D × Input D Call} (hE : Escrowed T h w)
    (hheld : T.held w' = T.held w) (hpaid : addPayment (paidIds h) t = paidIds h)
    (hout : ∀ id, outstanding token (w'.storage.invoice id) =
      outstanding token (w.storage.invoice id)) : Escrowed T (h ++ [t]) w' := by
  rw [Escrowed, paidIds_snoc, hpaid, hheld, Finset.sum_congr rfl fun id _ => hout id]
  exact hE

/-- A new invoice keeps the escrow unless it is stored over an escrowed one. -/
theorem escrowed_create_iff {merchant customer contract : Address} {amount : ℤ}
    {expiresAt nonce count : UInt64} {reference : Option (List UInt8)} {x : Invoice}
    (hE : Escrowed T h w)
    (ha : accepted invoke (w, i) = some
      (e, .createInvoice merchant customer amount contract expiresAt nonce reference, .u64 count))
    (hcount : checkedAdd (w.storage.invoiceCount.getD 0) 1 = some count)
    (hb : (step w i).storage.invoice = Function.update w.storage.invoice count (some x))
    (hledger : (step w i).ledger = w.ledger) :
    Escrowed T (h ++ [(w, i)]) (step w i) ↔ BacksEscrow D token h w.storage
      (.createInvoice merchant customer amount contract expiresAt nonce reference) := by
  obtain rfl := add_eq_of_checkedAdd hcount
  rw [Escrowed, paidIds_snoc, addPayment_create ha, hb, sum_outstanding_create, ← hE,
    StandardToken.held, hledger]
  simp only [BacksEscrow, StandardToken.held]
  -- storing over an escrowed invoice takes its amount out of the sum
  split
  · next hid =>
    simp only [hid, forall_const]
    omega
  · next hid => simp [hid]

/-- A release keeps the escrow unless the invoice is in the token and was paid through
`pay_invoice`. -/
theorem escrowed_release_iff {id : UInt64} {caller : Address} {x : Invoice} (hI : Recorded h w)
    (hE : Escrowed T h w) (ha : accepted invoke (w, i) = some (e, .releaseEscrow id caller, v))
    (hx : w.storage.invoice id = some x) (hrefund : x.status = .refundRequested)
    (hb : (step w i).storage.invoice = relabel w.storage.invoice [id] .released)
    (hledger : (step w i).ledger = w.ledger) :
    Escrowed T (h ++ [(w, i)]) (step w i) ↔
      BacksEscrow D token h w.storage (.releaseEscrow id caller) := by
  have hheld : T.held (step w i) = T.held w := by simp only [StandardToken.held, hledger]
  rw [Escrowed, paidIds_snoc, addPayment_of_not_recordsPayment ha rfl, hb,
    sum_outstanding_release, ← hE, hheld, outstanding_of_some hx (by simp [hrefund])]
  -- the balance stays, and an escrowed invoice leaves the sum
  have hamount := hI.amount_pos hx
  have hless : T.held w ≠ T.held w - x.amount := by omega
  by_cases hid : id ∈ paidIds h <;> by_cases ht : x.token = token <;>
    simp [BacksEscrow, hx, hid, ht, hless]

/-- A payment keeps the escrow unless the contract pays an invoice in the token itself. -/
theorem escrowed_pay_iff {id : UInt64} {payer : Address} {x : Invoice} (hI : Recorded h w)
    (hE : Escrowed T h w) (ha : accepted invoke (w, i) = some (e, .payInvoice payer id, v))
    (hx : w.storage.invoice id = some x) (hpending : x.status = .pending)
    (hb : (step w i).storage.invoice = relabel w.storage.invoice [id] .paid)
    (hcall : D.call e w.ledger x.token "transfer"
      [.address payer, .address D.self, .i128 x.amount] = some ((step w i).ledger, .void)) :
    Escrowed T (h ++ [(w, i)]) (step w i) ↔
      BacksEscrow D token h w.storage (.payInvoice payer id) := by
  have hamount := hI.amount_pos hx
  rw [Escrowed, paidIds_snoc, addPayment_pay ha, hb,
    sum_outstanding_pay (hI.notMem_paidIds hx hpending) hx hpending, ← hE, StandardToken.held,
    T.held_of_transfer_in hcall, StandardToken.held]
  by_cases ht : x.token = token <;> by_cases hp : payer = D.self
  · -- the contract pays itself: the sum grows by a positive amount and the balance does not
    simp [BacksEscrow, hx, ht, hp, hamount.ne']
  · simp [BacksEscrow, hx, ht, hp, add_comm]
  · simp [BacksEscrow, hx, ht]
  · simp [BacksEscrow, hx, ht]

/-- After an accepted invocation the balance is still what is outstanding exactly when the
invocation backs the escrow. -/
theorem escrowed_step_iff (hI : Recorded h w) (hE : Escrowed T h w)
    (ha : accepted invoke (w, i) = some (e, c, v)) (heff : Effect e w (step w i) c v) :
    Escrowed T (h ++ [(w, i)]) (step w i) ↔ BacksEscrow D token h w.storage c := by
  have hsame := addPayment_of_not_recordsPayment ha
  cases heff with
  | config hc hb hledger =>
    refine iff_of_true (escrowed_of_same T hE (by simp only [StandardToken.held, hledger])
      (hsame (not_recordsPayment_of_isConfig hc) _) fun id => by rw [hb]) ?_
    cases c <;> trivial
  | created hcount _ _ hb hledger => exact escrowed_create_iff T hE ha hcount hb hledger
  | moved hc hedge hb hledger =>
    cases c with
    | releaseEscrow id caller =>
      obtain ⟨x, hx, hedge⟩ := hedge id List.mem_cons_self
      cases hedge with
      | release hrefund => exact escrowed_release_iff T hI hE ha hx hrefund hb hledger
    | _ =>
      refine iff_of_true (escrowed_of_same T hE (by simp only [StandardToken.held, hledger])
        (hsame (not_recordsPayment_of_movesStatus hc) _) fun id => ?_) (by trivial)
      rw [hb]
      exact outstanding_moved hedge (by simp) id
  | expired hb hledger =>
    refine iff_of_true (escrowed_of_same T hE (by simp only [StandardToken.held, hledger])
      (hsame rfl _) fun id => ?_) trivial
    rw [hb]
    -- what is due is pending, and pending invoices are not released
    refine outstanding_relabel (by decide) (fun id' hid' x hx => ?_) id
    have hdue := (List.mem_filter.mp hid').2
    simp only [due, hx, Option.any_some, decide_eq_true_eq] at hdue
    rw [hdue.1]
    decide
  | paid hx hpending _ _ hb hcall => exact escrowed_pay_iff T hI hE ha hx hpending hb hcall
  | disputed hb hcall =>
    refine iff_of_true (escrowed_of_same T hE ?_ (hsame rfl _) fun id => by rw [hb]) trivial
    exact T.others _ _ _ _ _ _ _ (fun _ => by decide) hcall

/-! ## Runs -/

/-- **Conservation of the escrow**: among the runs from a fresh deployment that holds nothing, in
which nobody else changes the balance of the contract, the balance is what is outstanding
throughout exactly those whose accepted invocations back the escrow. -/
theorem escrowed_iff (l : D.Ledger) (wasm : WasmHash) (is : List (Input D Call))
    (hzero : T.balance l D.self = 0)
    (hquiet : Each step (fun _ w i => T.Quiet w i) (fresh l wasm) is) :
    Always step (Escrowed T) (fresh l wasm) is ↔
      Each step (fun h w i =>
        IfAccepted invoke (fun _ c _ => BacksEscrow D token h w.storage c) (w, i))
        (fresh l wasm) is := by
  refine always_iff_each_assuming (I := fun h w => Recorded h w ∧ Escrowed T h w)
    ⟨recorded_fresh l wasm, by simpa [Escrowed, fresh, StandardToken.held] using hzero⟩
    (fun _ _ hI => hI.2) ?_ ?_ hquiet
  · rintro h w i ⟨hI, hE⟩ hA hC
    refine ⟨recorded_step hI, ?_⟩
    cases hacc : accepted invoke (w, i) with
    | none =>
      refine escrowed_of_same T hE (T.held_step_of_not_accepted hA hacc)
        (addPayment_of_not_accepted hacc _) fun id => ?_
      rw [storage_of_not_accepted hacc]
    | some r =>
      obtain ⟨e, c, v⟩ := r
      exact (escrowed_step_iff T hI hE hacc (effect_of_ok (invoke_of_accepted hacc).2)).mpr
        ((ifAccepted_iff hacc).mp hC)
  · rintro h w i ⟨hI, hE⟩ _ hP
    rcases step_cases w i with ⟨hn, -⟩ | ⟨e, c, v, -, ha, heff⟩
    · exact ifAccepted_of_none hn
    · exact (ifAccepted_iff ha).mpr ((escrowed_step_iff T hI hE ha heff).mp hP)

/-- A customer's funds: the amount of one invoice. -/
def customerFunds : Address → ℤ := fun a => if a = .account 2 then 10000000 else 0

/-- An invoice is created and paid through the contract. -/
def createAndPay : List (Input (tokenDeployment (.contract 0) (.contract 1)) Call) :=
  [.call ⟨{.account 0}, 0, true⟩ (.initializeContract (.account 0)),
    .call ⟨{.account 1}, 1, true⟩
      (.createInvoice (.account 1) (.account 2) 10000000 (.contract 1) 1000 7 none),
    .call ⟨{.account 2}, 2, true⟩ (.payInvoice (.account 2) 1)]

theorem createAndPay_escrowed_iff :
    Always step (Escrowed (standardToken (.contract 0) (.contract 1))) (fresh customerFunds 0)
      createAndPay ↔
    Each step (fun h w i => IfAccepted invoke (fun _ c _ => BacksEscrow
      (tokenDeployment (.contract 0) (.contract 1)) (.contract 1) h w.storage c) (w, i))
      (fresh customerFunds 0) createAndPay :=
  escrowed_iff (standardToken (.contract 0) (.contract 1)) _ 0 createAndPay (by decide) (by decide)

/-- The invoice is refunded and released after the grace window, and the contract still holds the
amount. -/
def releaseWithoutTransfer : List (Input (tokenDeployment (.contract 0) (.contract 1)) Call) :=
  createAndPay ++
    [.call ⟨{.account 2}, 3, true⟩ (.requestRefund 1 (.account 2)),
      .call ⟨{.account 1}, 86401, true⟩ (.releaseEscrow 1 (.account 1))]

theorem releaseWithoutTransfer_not_escrowed :
    customerFunds (.contract 0) = 0 ∧
    Each step (fun _ w i => (standardToken (.contract 0) (.contract 1)).Quiet w i)
      (fresh customerFunds 0) releaseWithoutTransfer ∧
    ¬ Always step (Escrowed (standardToken (.contract 0) (.contract 1))) (fresh customerFunds 0)
      releaseWithoutTransfer := by
  refine ⟨by decide, by decide, fun h => ?_⟩
  have hend : (10000000 : ℤ) = 0 := h.at_end
  omega

end Invoicing
