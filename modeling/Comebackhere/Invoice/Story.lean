import Comebackhere.Invoice.Effect

/-!
# The stories of the invoices

The contract publishes an event for an invoice that is created and for every change of its status.
Read in order, the events about one invoice tell how it came to its status, without a gap and
without a repetition.

## Main definitions

* `readTransition`: the invoice and the status that an event reports
* `story id events`: the statuses that the events tell of an invoice, since its creation
* `path`: the statuses that lead to a status

## Main results

* `Told.of_ok`: an accepted entry point publishes exactly the changes it makes
* `stories_told`: in every run the story of every invoice is the path to its status
-/

namespace Invoicing

open Soroban Checked Machine

variable {D : Deployment} {e : Env} {w w' : State D} {c : Call} {v : Val} {id : UInt64}
  {x : Invoice} {status : InvoiceStatus}

/-! ## Reading events -/

/-- The status that an event about one invoice reports, by its name. -/
def statusOfName (name : Symbol) : Option InvoiceStatus :=
  match name with
  | "invoice_paid" => some .paid
  | "invoice_expired" => some .expired
  | "invoice_cancelled" => some .cancelled
  | "invoice_refund_req" => some .refundRequested
  | "escrow_released" => some .released
  | _ => none

/-- The invoice and the status that an event reports. -/
def readTransition (event : Event) : Option (UInt64 × InvoiceStatus) :=
  match event.topics, event.data with
  | [.symbol "invoice_created"], .vec [.address _, .u64 id] => some (id, .pending)
  | [.symbol name], .u64 id => (statusOfName name).map (id, ·)
  | _, _ => none

/-- What is told of an invoice after one more event. A creation begins a new story. -/
def tell (id : UInt64) (told : List InvoiceStatus) (event : Event) : List InvoiceStatus :=
  match readTransition event with
  | some (id', status) =>
    if id' ≠ id then told else if status = .pending then [.pending] else told ++ [status]
  | none => told

/-- The statuses that the events tell of an invoice, since its creation. -/
def story (id : UInt64) (events : List Event) : List InvoiceStatus := events.foldl (tell id) []

theorem story_snoc (id : UInt64) (events : List Event) (event : Event) :
    story id (events ++ [event]) = tell id (story id events) event := by
  simp [story, List.foldl_append]

/-- The statuses that lead to a status, from the creation on. -/
def path : InvoiceStatus → List InvoiceStatus
  | .pending => [.pending]
  | .paid => [.pending, .paid]
  | .expired => [.pending, .expired]
  | .cancelled => [.pending, .cancelled]
  | .refundRequested => [.pending, .paid, .refundRequested]
  | .released => [.pending, .paid, .refundRequested, .released]

/-! ## Told stories -/

/-- Every story is the path to the status that is stored. -/
def Told (w : State D) : Prop :=
  ∀ id, story id w.events = (w.storage.invoice id).elim [] fun x => path x.status

/-- An event that reports no status tells nothing. -/
theorem Told.publish (h : Told w) {w₁ : State D} {topics : List Val} {data : Val}
    (hb : w₁.storage.invoice = w.storage.invoice) (hevents : w₁.events = w.events)
    (hread : readTransition ⟨topics, data⟩ = none) : Told (w₁.publish topics data) := by
  intro id
  show story id (w₁.events ++ [⟨topics, data⟩]) = _
  rw [story_snoc, tell, hread, hevents, World.publish_storage, hb]
  exact h id

/-- A creation begins the story. -/
theorem Told.created (h : Told w) {w₁ : State D} {merchant : Address}
    (hx : x.status = .pending) (hb : w₁.storage.invoice =
      Function.update w.storage.invoice id (some x)) (hevents : w₁.events = w.events) :
    Told (w₁.publish [.symbol "invoice_created"] (.vec [.address merchant, .u64 id])) := by
  intro id'
  show story id' (w₁.events ++ [_]) = _
  rw [story_snoc, World.publish_storage, hb, hevents]
  show (if id ≠ id' then _ else if InvoiceStatus.pending = .pending then _ else _) = _
  by_cases hid : id' = id
  · subst hid
    simp [hx, path]
  · rw [if_pos (Ne.symm hid), Function.update_of_ne hid]
    exact h id'

/-- A change of the status goes on with the story. -/
theorem Told.moved (h : Told w) {name : Symbol} (hname : statusOfName name = some status)
    (hx : w.storage.invoice id = some x) (hpath : path status = path x.status ++ [status]) :
    Told (publishId (storeInvoice w id { x with status }) name id) := by
  have hread : readTransition ⟨[.symbol name], .u64 id⟩ = some (id, status) := by
    unfold readTransition
    simp [hname]
  have hpending : status ≠ .pending := by
    rintro rfl
    -- no event about one invoice is named after its creation
    unfold statusOfName at hname
    split at hname <;> cases hname
  intro id'
  show story id' (w.events ++ [⟨[.symbol name], .u64 id⟩]) =
    (Function.update w.storage.invoice id _ id').elim [] _
  rw [story_snoc, tell, hread]
  by_cases hid : id' = id
  · subst hid
    have hold := h id'
    rw [hx] at hold
    simp [hpending, hold, hpath]
  · rw [Function.update_of_ne hid]
    simp [Ne.symm hid, h id']

theorem Told.setPaid (h : Told w) (hx : w.storage.invoice id = some x)
    (hpending : x.status = .pending) : Told (setPaid w id) := by
  rw [Invoicing.setPaid, hx]
  exact h.moved rfl hx (by rw [hpending]; rfl)

/-- Distinct pending invoices are paid one after the other. -/
theorem Told.foldl_setPaid {ids : List UInt64} (h : Told w) (hids : ids.Nodup)
    (hpending : ∀ id ∈ ids, ∃ x, w.storage.invoice id = some x ∧ x.status = .pending) :
    Told (ids.foldl Invoicing.setPaid w) := by
  induction ids generalizing w with
  | nil => exact h
  | cons id ids ih =>
    obtain ⟨hid, hids⟩ := List.nodup_cons.mp hids
    obtain ⟨x, hx, hxp⟩ := hpending id List.mem_cons_self
    apply ih (h.setPaid hx hxp) hids
    intro id' hid'
    have hne : id' ≠ id := fun heq => hid (heq ▸ hid')
    rw [setPaid_storage]
    simpa [relabel, hne] using hpending id' (List.mem_cons_of_mem _ hid')

/-- The due invoices among some expire, and the others keep their stories. -/
theorem Told.foldl_expireDue {ids : List UInt64} (h : Told w) :
    Told (ids.foldl (expireDue e) w) := by
  induction ids generalizing w with
  | nil => exact h
  | cons id ids ih =>
    apply ih
    unfold expireDue
    split
    · next x hx =>
      split
      · next hdue => exact h.moved rfl hx (by rw [hdue.1]; rfl)
      · exact h
    · exact h

/-- **The step lemma**: an accepted entry point publishes exactly the changes it makes. -/
theorem Told.of_ok (hT : Told w) (h : invoke e w c = .ok (w', v)) : Told w' := by
  cases c with
  | upgrade newWasmHash =>
    obtain ⟨⟨-, rfl⟩, rfl⟩ := by simpa only [invoke, unitResult_eq_ok, upgrade_eq_ok] using h
    exact hT.publish rfl rfl rfl
  | transferAdmin caller newAdmin =>
    obtain ⟨⟨-, -, -, rfl⟩, rfl⟩ := by
      simpa only [invoke, unitResult_eq_ok, transferAdmin_eq_ok] using h
    exact hT.publish rfl rfl rfl
  | acceptAdmin newAdmin =>
    obtain ⟨⟨-, -, -, rfl⟩, rfl⟩ := by
      simpa only [invoke, unitResult_eq_ok, acceptAdmin_eq_ok] using h
    exact hT.publish rfl rfl rfl
  | initializeContract admin =>
    obtain ⟨⟨-, rfl⟩, rfl⟩ := by
      simpa only [invoke, unitResult_eq_ok, initializeContract_eq_ok] using h
    exact hT
  | setTreasury caller treasury =>
    obtain ⟨⟨-, -, rfl⟩, rfl⟩ := by
      simpa only [invoke, unitResult_eq_ok, setTreasury_eq_ok] using h
    exact hT
  | setCompliance caller compliance =>
    obtain ⟨⟨-, -, rfl⟩, rfl⟩ := by
      simpa only [invoke, unitResult_eq_ok, setCompliance_eq_ok] using h
    exact hT
  | pause caller =>
    obtain ⟨⟨-, rfl⟩, rfl⟩ := by simpa only [invoke, unitResult_eq_ok, pause_eq_ok] using h
    exact hT.publish rfl rfl rfl
  | unpause caller =>
    obtain ⟨⟨-, rfl⟩, rfl⟩ := by simpa only [invoke, unitResult_eq_ok, unpause_eq_ok] using h
    exact hT.publish rfl rfl rfl
  | setGraceWindow caller window =>
    obtain ⟨⟨-, -, -, rfl⟩, rfl⟩ := by
      simpa only [invoke, unitResult_eq_ok, setGraceWindow_eq_ok] using h
    exact hT.publish rfl rfl rfl
  | createInvoice merchant customer amount token expiresAt nonce reference =>
    simp only [invoke, bind_eq_ok, pure_eq_ok, Prod.mk.injEq] at h
    obtain ⟨⟨w₁, count⟩, h, rfl, rfl⟩ := h
    obtain ⟨-, -, -, -, -, -, -, rfl⟩ := createInvoice_eq_ok.mp h
    exact hT.created rfl rfl rfl
  | markPaids ids =>
    obtain ⟨⟨-, -, hids, hpay, rfl⟩, rfl⟩ := by
      simpa only [invoke, unitResult_eq_ok, markPaids_eq_ok] using h
    apply hT.foldl_setPaid hids
    intro id hid
    obtain ⟨x, hx, ⟨hpending, -⟩, -⟩ := hpay id hid
    exact ⟨x, hx, hpending⟩
  | payInvoice payer id =>
    obtain ⟨⟨-, -, x, hx, ⟨hpending, -⟩, -, l, -, rfl⟩, rfl⟩ := by
      simpa only [invoke, unitResult_eq_ok, payInvoice_eq_ok] using h
    have hT' : Told { w with ledger := l } := hT
    exact hT'.moved rfl hx (by rw [hpending]; rfl)
  | cancelInvoiced id caller =>
    obtain ⟨⟨-, -, x, hx, -, ⟨hpending, rfl⟩ | ⟨hpaid, rfl⟩⟩, rfl⟩ := by
      simpa only [invoke, unitResult_eq_ok, cancelInvoiced_eq_ok] using h
    · exact hT.moved rfl hx (by rw [hpending]; rfl)
    · exact hT.moved rfl hx (by rw [hpaid]; rfl)
  | requestRefund id caller =>
    obtain ⟨⟨-, x, hx, -, hpaid, rfl⟩, rfl⟩ := by
      simpa only [invoke, unitResult_eq_ok, requestRefund_eq_ok] using h
    exact hT.moved rfl hx (by rw [hpaid]; rfl)
  | releaseEscrow id caller =>
    obtain ⟨⟨-, x, hx, -, hrefund, -, rfl⟩, rfl⟩ := by
      simpa only [invoke, unitResult_eq_ok, releaseEscrow_eq_ok] using h
    exact hT.moved rfl hx (by rw [hrefund]; rfl)
  | batchExpire ids =>
    obtain ⟨⟨-, -, -, rfl⟩, rfl⟩ := by
      simpa only [invoke, unitResult_eq_ok, batchExpire_eq_ok] using h
    exact hT.foldl_expireDue
  | raiseDispute id settlementId claimant reason =>
    obtain ⟨⟨-, -, x, -, -, treasury, l, -, -, rfl⟩, rfl⟩ := by
      simpa only [invoke, unitResult_eq_ok, raiseDispute_eq_ok] using h
    exact hT.publish rfl rfl rfl

theorem Told.step (hT : Told w) (i : Input D Call) : Told (step w i) := by
  cases ha : accepted invoke (w, i) with
  | none =>
    cases i with
    | outside l => exact hT
    | call e c => rwa [Invoicing.step, step_call_of_not_accepted ha]
  | some r =>
    obtain ⟨e, c, v⟩ := r
    exact hT.of_ok (invoke_of_accepted ha).2

/-- **Every story is told**: at every point of every run, by any callers and at any times, the
events that the contract has published about an id since its last creation are exactly those of the
path to the status of the invoice stored under it, in order and each once; about an id without an
invoice there are none. -/
theorem stories_told (l : D.Ledger) (wasm : WasmHash) (is : List (Input D Call)) :
    Always Invoicing.step (fun _ w => Told w) (fresh l wasm) is := by
  intro pre _
  refine inv_of_each (I := fun _ w => Told w) (C := fun _ _ _ => True) (fun id => rfl) ?_
    (fun _ _ _ => trivial)
  intro _ w i hT _
  exact hT.step i

end Invoicing
