import Comebackhere.Invoice.Effect
import Comebackhere.Offchain.InvoiceCrash

/-!
# From the invoice contract to its indexer

The contract publishes every event under one topic, the name of the event, and puts the id of the
invoice into the data. The indexer looks for the id in the second topic, finds none, and files
every transition under the invoice "unknown". The invoice records therefore keep the status they
have, whatever the contract does.

## Main definitions

* `RoundTrips`: what the indexer reads from an event is what the contract published
* `Follows`: the invoice records have the statuses of the chain once all events are consumed

## Main results

* `events_of_ok`: every published event has one topic
* `find_after_of_ne_unknown`: the records of invoices with an id are never changed
* `statusesMatch_run`: the statuses match as long as every invoice is pending
* `tracksChain_iff`: the indexer tracks the chain in the runs that create no invoice
-/

namespace Offchain

open Soroban Checked Machine Invoicing

variable {D : Deployment} {e : Env} {w w' w'' : Invoicing.State D} {c : Call} {v : Val}

/-! ## The published events -/

/-- The event has one topic, its name. -/
def SingleTopic (event : Event) : Prop := ∃ name, event.topics = [.symbol name]

theorem singleTopic_symbol {name : Symbol} {data : Val} : SingleTopic ⟨[.symbol name], data⟩ :=
  ⟨name, rfl⟩

theorem publishes_setPaid (w : Invoicing.State D) (id : UInt64) :
    Publishes SingleTopic w (setPaid w id) := by
  unfold setPaid
  split
  · exact publishes_publish rfl singleTopic_symbol
  · exact publishes_of_eq rfl

theorem publishes_expireDue (w : Invoicing.State D) (id : UInt64) :
    Publishes SingleTopic w (expireDue e w id) := by
  unfold expireDue
  split
  · split
    · exact publishes_publish rfl singleTopic_symbol
    · exact publishes_of_eq rfl
  · exact publishes_of_eq rfl

/-- **Every entry point** publishes events with one topic. -/
theorem events_of_ok (h : invoke e w c = .ok (w', v)) : Publishes SingleTopic w w' := by
  cases c with
  | upgrade newWasmHash =>
    obtain ⟨⟨-, rfl⟩, rfl⟩ := by simpa only [invoke, unitResult_eq_ok, upgrade_eq_ok] using h
    exact publishes_publish rfl singleTopic_symbol
  | transferAdmin caller newAdmin =>
    obtain ⟨⟨-, -, -, rfl⟩, rfl⟩ := by
      simpa only [invoke, unitResult_eq_ok, transferAdmin_eq_ok] using h
    exact publishes_publish rfl singleTopic_symbol
  | acceptAdmin newAdmin =>
    obtain ⟨⟨-, -, -, rfl⟩, rfl⟩ := by
      simpa only [invoke, unitResult_eq_ok, acceptAdmin_eq_ok] using h
    exact publishes_publish rfl singleTopic_symbol
  | initializeContract admin =>
    obtain ⟨⟨-, rfl⟩, rfl⟩ := by
      simpa only [invoke, unitResult_eq_ok, initializeContract_eq_ok] using h
    exact publishes_of_eq rfl
  | setTreasury caller treasury =>
    obtain ⟨⟨-, -, rfl⟩, rfl⟩ := by
      simpa only [invoke, unitResult_eq_ok, setTreasury_eq_ok] using h
    exact publishes_of_eq rfl
  | setCompliance caller compliance =>
    obtain ⟨⟨-, -, rfl⟩, rfl⟩ := by
      simpa only [invoke, unitResult_eq_ok, setCompliance_eq_ok] using h
    exact publishes_of_eq rfl
  | pause caller =>
    obtain ⟨⟨-, rfl⟩, rfl⟩ := by simpa only [invoke, unitResult_eq_ok, pause_eq_ok] using h
    exact publishes_publish rfl singleTopic_symbol
  | unpause caller =>
    obtain ⟨⟨-, rfl⟩, rfl⟩ := by simpa only [invoke, unitResult_eq_ok, unpause_eq_ok] using h
    exact publishes_publish rfl singleTopic_symbol
  | setGraceWindow caller window =>
    obtain ⟨⟨-, -, -, rfl⟩, rfl⟩ := by
      simpa only [invoke, unitResult_eq_ok, setGraceWindow_eq_ok] using h
    exact publishes_publish rfl singleTopic_symbol
  | createInvoice merchant customer amount token expiresAt nonce reference =>
    simp only [invoke, bind_eq_ok, pure_eq_ok, Prod.mk.injEq] at h
    obtain ⟨⟨w₁, count⟩, h, rfl, rfl⟩ := h
    obtain ⟨-, -, -, -, -, -, -, rfl⟩ := createInvoice_eq_ok.mp h
    exact publishes_publish rfl singleTopic_symbol
  | markPaids ids =>
    obtain ⟨⟨-, -, -, -, rfl⟩, rfl⟩ := by
      simpa only [invoke, unitResult_eq_ok, markPaids_eq_ok] using h
    exact publishes_foldl publishes_setPaid ids w
  | payInvoice payer id =>
    obtain ⟨⟨-, -, x, -, -, -, l, -, rfl⟩, rfl⟩ := by
      simpa only [invoke, unitResult_eq_ok, payInvoice_eq_ok] using h
    exact publishes_publish rfl singleTopic_symbol
  | cancelInvoiced id caller =>
    obtain ⟨⟨-, -, x, -, -, ⟨-, rfl⟩ | ⟨-, rfl⟩⟩, rfl⟩ := by
      simpa only [invoke, unitResult_eq_ok, cancelInvoiced_eq_ok] using h
    · exact publishes_publish rfl singleTopic_symbol
    · exact publishes_publish rfl singleTopic_symbol
  | requestRefund id caller =>
    obtain ⟨⟨-, x, -, -, -, rfl⟩, rfl⟩ := by
      simpa only [invoke, unitResult_eq_ok, requestRefund_eq_ok] using h
    exact publishes_publish rfl singleTopic_symbol
  | releaseEscrow id caller =>
    obtain ⟨⟨-, x, -, -, -, -, rfl⟩, rfl⟩ := by
      simpa only [invoke, unitResult_eq_ok, releaseEscrow_eq_ok] using h
    exact publishes_publish rfl singleTopic_symbol
  | batchExpire ids =>
    obtain ⟨⟨-, -, -, rfl⟩, rfl⟩ := by
      simpa only [invoke, unitResult_eq_ok, batchExpire_eq_ok] using h
    exact publishes_foldl publishes_expireDue ids w
  | raiseDispute id settlementId claimant reason =>
    obtain ⟨⟨-, -, x, -, -, treasury, l, -, -, rfl⟩, rfl⟩ := by
      simpa only [invoke, unitResult_eq_ok, raiseDispute_eq_ok] using h
    exact publishes_publish rfl singleTopic_symbol

theorem singleTopic_of_run (l : D.Ledger) (wasm : WasmHash) (is : List (Soroban.Input D Call)) :
    ∀ event ∈ (run Invoicing.step (fresh l wasm) is).events, SingleTopic event :=
  (publishes_run events_of_ok (fresh l wasm) is).all (by simp [fresh])

/-! ## What the indexer reads -/

/-- **The id is lost**: the indexer reads no id from an event of the contract. -/
theorem parseInvoiceId_of_carries {received : RpcEvent} {event : Event}
    (hcarries : received.Carries event) (hsingle : SingleTopic event) :
    parseInvoiceId received.topic = "unknown" := by
  obtain ⟨name, htopics⟩ := hsingle
  rw [hcarries.topic, htopics]
  rfl

/-- The id of an invoice is a number. -/
theorem toString_ne_unknown (id : UInt64) : toString id ≠ "unknown" := by
  intro h
  have hdigits : Nat.toDigits 10 id.toNat = "unknown".toList := by
    rw [← h]
    exact String.toList_ofList.symm
  have hdigit : ('u').isDigit := by
    apply Nat.isDigit_of_mem_toDigits (b := 10) (n := id.toNat) (by decide) (by decide)
    rw [hdigits]
    decide
  exact absurd hdigit (by decide)

variable {rpc : Rpc} {cfg : Config} {start : Start rpc cfg}
  {is : List (Process.Input Unit Answer)}

theorem lastStatus_eq_none {invoiceId : String} {records : List InvoiceEventRecord}
    (h : ∀ record ∈ records, record.transition.invoiceId ≠ invoiceId) :
    lastStatus invoiceId records = none := by
  have hnone : records.filterMap (statusFor invoiceId) = [] :=
    List.filterMap_eq_nil_iff.mpr fun record hrecord => if_neg (h record hrecord)
  rw [lastStatus, hnone, List.getLast?_nil]

theorem recordOf_invoiceId {contractId : String} {event : RpcEvent} {record : InvoiceEventRecord}
    (h : recordOf contractId event = some record) :
    record.transition.invoiceId = parseInvoiceId event.topic := by
  unfold recordOf at h
  split at h
  · obtain rfl := Option.some.inj h
    rfl
  · cases h

/-- **No record of an invoice with an id is changed** by an indexer that reads events with one
topic, whatever crashes there are. -/
theorem find_after_of_ne_unknown (hlegal : start.Legal is)
    (hunknown : ∀ event ∈ rpc.events, parseInvoiceId event.topic = "unknown") {invoiceId : String}
    (hne : invoiceId ≠ "unknown") :
    (start.after is).shared.db.invoices.find invoiceId = start.db.invoices.find invoiceId := by
  obtain ⟨_, g, -, -, hconsistent, -⟩ := pollers_run Mode.free (Or.inl inferInstance)
    hlegal (fun _ _ _ => Mode.free_allows _ _) List.prefix_rfl
  -- no event of the log is of the invoice, so none gives it a status
  have hnone : lastStatus invoiceId (((rpc.log cfg).take g.written).drop start.base) = none := by
    apply lastStatus_eq_none
    intro record hrecord
    have hmem := List.mem_of_mem_take (List.mem_of_mem_drop hrecord)
    obtain ⟨event, hevent, hof⟩ := List.mem_filterMap.mp hmem
    rw [recordOf_invoiceId hof, hunknown event hevent]
    exact hne.symm
  rw [hconsistent.synced.statuses invoiceId, hnone]
  cases start.db.invoices.find invoiceId <;> rfl

/-! ## Tracking the chain -/

/-- The tracked event type that reports a status. -/
def eventTypeOf : InvoiceStatus → Option InvoiceEventType
  | .pending => some .invoiceCreated
  | .paid => some .invoicePaid
  | .expired => some .invoiceExpired
  | .cancelled => some .invoiceCancelled
  | .released => some .escrowReleased
  | .refundRequested => none

/-- For every invoice that an input creates or gives another status, an event is published from
which the indexer reads the type that reports the status, and the id. -/
def RoundTrips (t : Invoicing.State D × Soroban.Input D Call) : Prop :=
  ∀ id x, (Invoicing.step t.1 t.2).storage.invoice id = some x →
    (t.1.storage.invoice id).map (·.status) ≠ some x.status →
      ∃ event ∈ (Invoicing.step t.1 t.2).events.drop t.1.events.length,
        ∀ received : RpcEvent, received.Carries event →
          ∃ eventType, eventTypeOf x.status = some eventType ∧
            parseEventType received.topic = some eventType ∧
            parseInvoiceId received.topic = toString id

/-- The server returns the events of the contract, and at the start none is handled and every
invoice of the chain has a record, which is pending. -/
structure Watches (start : Start rpc cfg) (w : Invoicing.State D) : Prop where
  carries : List.Forall₂ RpcEvent.Carries rpc.events w.events
  unhandled : start.handled = 0
  pending : ∀ id x, w.storage.invoice id = some x →
    start.db.invoices.find (toString id) = some ⟨toString id, .pending⟩

/-- The invoices of the chain have their statuses in the database. -/
def StatusesMatch (db : Db) (w : Invoicing.State D) : Prop :=
  ∀ id x, w.storage.invoice id = some x →
    db.invoices.find (toString id) = some ⟨toString id, x.status⟩

/-- Once an indexer that watches the contract has consumed all its events, the statuses match. -/
def Follows (w : Invoicing.State D) : Prop :=
  ∀ (rpc : Rpc) (cfg : Config) (start : Start rpc cfg) (is : List (Process.Input Unit Answer)),
    Watches start w → start.Legal is → start.Consumed is →
      StatusesMatch (start.after is).shared.db w

theorem Watches.unknown {w : Invoicing.State D} (h : Watches start w)
    (hsingle : ∀ event ∈ w.events, SingleTopic event) :
    ∀ event ∈ rpc.events, parseInvoiceId event.topic = "unknown" := by
  intro received hreceived
  obtain ⟨i, hi⟩ := List.mem_iff_getElem.mp hreceived
  obtain ⟨hlt, rfl⟩ := hi
  have hlen := h.carries.length_eq
  have hcarries := h.carries.get hlt (hlen ▸ hlt)
  exact parseInvoiceId_of_carries hcarries (hsingle _ (List.getElem_mem (hlen ▸ hlt)))

/-- The statuses match as long as every invoice is pending. -/
theorem statusesMatch_iff {w : Invoicing.State D} (h : Watches start w)
    (hsingle : ∀ event ∈ w.events, SingleTopic event) (hlegal : start.Legal is) :
    StatusesMatch (start.after is).shared.db w ↔
      ∀ id x, w.storage.invoice id = some x → x.status = .pending := by
  refine forall_congr' fun id => forall_congr' fun x => imp_congr_right fun hx => ?_
  rw [find_after_of_ne_unknown hlegal (h.unknown hsingle) (toString_ne_unknown id),
    h.pending id x hx]
  constructor
  · intro heq
    exact (congrArg InvoiceRecord.status (Option.some.inj heq)).symm
  · intro hpending
    rw [hpending]

/-- **The statuses match** at the end of a run of the contract exactly when all its invoices are
pending. -/
theorem statusesMatch_run {l : D.Ledger} {wasm : WasmHash} {inputs : List (Soroban.Input D Call)}
    (h : Watches start (run Invoicing.step (fresh l wasm) inputs)) (hlegal : start.Legal is) :
    StatusesMatch (start.after is).shared.db (run Invoicing.step (fresh l wasm) inputs) ↔
      ∀ id x, (run Invoicing.step (fresh l wasm) inputs).storage.invoice id = some x →
        x.status = .pending :=
  statusesMatch_iff h (singleTopic_of_run l wasm inputs) hlegal

/-- The input creates no invoice. -/
def CreatesNone (t : Invoicing.State D × Soroban.Input D Call) : Prop :=
  IfAccepted invoke (fun _ c _ => ∀ merchant customer amount token expiresAt nonce reference,
    c ≠ .createInvoice merchant customer amount token expiresAt nonce reference) t

/-- Without invoices, an input that creates none leaves none. -/
theorem step_none {w : Invoicing.State D} {i : Soroban.Input D Call}
    (hnone : ∀ id, w.storage.invoice id = none) (hcreates : CreatesNone (w, i)) :
    ∀ id, (Invoicing.step w i).storage.invoice id = none := by
  intro id
  rcases step_cases w i with ⟨-, hs⟩ | ⟨e, c, v, -, ha, heff⟩
  · rw [hs, hnone]
  · have hc := (ifAccepted_iff ha).mp hcreates
    -- only a creation stores an invoice that was not stored before
    cases heff with
    | config _ hb _ | disputed hb _ => rw [hb, hnone]
    | created hcount _ hx hb _ => exact absurd rfl (hc _ _ _ _ _ _ _)
    | moved _ _ hb _ | expired hb _ | paid _ _ _ _ hb _ =>
      rw [hb, relabel_eq_none_iff, hnone]

/-- The event of a creation does not round-trip. -/
theorem createsNone_of_roundTrips {w : Invoicing.State D} {i : Soroban.Input D Call}
    (hnone : ∀ id, w.storage.invoice id = none) (h : RoundTrips (w, i)) : CreatesNone (w, i) := by
  rcases step_cases w i with ⟨hn, -⟩ | ⟨e, c, v, -, ha, heff⟩
  · exact ifAccepted_of_none hn
  · refine (ifAccepted_iff ha).mpr ?_
    rintro merchant customer amount token expiresAt nonce reference rfl
    cases heff with
    | config hc _ _ | moved hc _ _ _ => simp [Call.isConfig, Call.movesStatus] at hc
    | created hcount _ hx hb _ =>
      obtain ⟨id, x, hstored⟩ : ∃ id x, (Invoicing.step w i).storage.invoice id = some x :=
        ⟨_, _, by rw [hb, Function.update_self]⟩
      obtain ⟨event, hevent, hread⟩ := h id x hstored (by simp [hnone])
      obtain ⟨published, he, hsingle⟩ := publishes_step events_of_ok w i
      rw [he, List.drop_left] at hevent
      -- what the server returns for the event has no id in its topics
      obtain ⟨_, -, -, hid⟩ := hread _ (RpcEvent.of_carries event)
      rw [parseInvoiceId_of_carries (RpcEvent.of_carries event) (hsingle event hevent)] at hid
      exact absurd hid.symm (toString_ne_unknown id)

/-- The indexer tracks the chain: every event so far round-trips, and the database follows. -/
structure TracksChain (h : History D) (w : Invoicing.State D) : Prop where
  roundTrips : ∀ t ∈ h, RoundTrips t
  follows : Follows w

theorem tracksChain_of_none {h : History D} {w : Invoicing.State D}
    (hround : ∀ t ∈ h, RoundTrips t) (hnone : ∀ id, w.storage.invoice id = none) :
    TracksChain h w := by
  refine ⟨hround, fun rpc cfg start is _ _ _ id x hx => ?_⟩
  rw [hnone id] at hx
  cases hx

/-- **The indexer tracks the chain** throughout exactly the runs that create no invoice. -/
theorem tracksChain_iff (l : D.Ledger) (wasm : WasmHash) (is : List (Soroban.Input D Call)) :
    Always Invoicing.step TracksChain (fresh l wasm) is ↔
      Each Invoicing.step (fun _ w i => CreatesNone (w, i)) (fresh l wasm) is := by
  -- the first creation is the first step that does not round-trip
  refine always_iff_each (I := fun h w => (∀ t ∈ h, RoundTrips t) ∧
    ∀ id, w.storage.invoice id = none) ⟨by simp, fun _ => rfl⟩
    (fun h w hI => tracksChain_of_none hI.1 hI.2) ?_ ?_ is
  · rintro h w i ⟨hround, hnone⟩ hcreates
    have hnone' := step_none hnone hcreates
    refine ⟨fun t ht => ?_, hnone'⟩
    rcases List.mem_append.mp ht with ht | ht
    · exact hround t ht
    · -- there is no invoice after the step
      obtain rfl := List.mem_singleton.mp ht
      intro id x hx
      rw [hnone' id] at hx
      cases hx
  · rintro h w i ⟨-, hnone⟩ htracks
    exact createsNone_of_roundTrips hnone (htracks.roundTrips (w, i) (by simp))

/-! ## A payment that is not seen -/

/-- Account 1 creates an invoice, and it is marked as paid. -/
def createdAndPaid : List (Soroban.Input (isolated (.contract 0)) Call) :=
  [.call ⟨{.account 1}, 1, true⟩
      (.createInvoice (.account 1) (.account 2) 10000000 (.contract 1) 100 1 none),
    .call ⟨∅, 2, true⟩ (.markPaids [1])]

/-- The server returns the two events of the run. -/
def createdAndPaidRpc : Rpc where
  events :=
    [⟨some "created", some "created", 1, none, none, [.symbol "invoice_created"],
        .vec [.address (.account 1), .u64 1]⟩,
      ⟨some "paid", some "paid", 2, none, none, [.symbol "invoice_paid"], .u64 1⟩]
  after token := if token = "created" then 1 else if token = "paid" then 2 else 0
  ids := by decide
  ids_nodup := by decide
  ledgers := by simp
  ledger_pos := by decide
  after_token := by
    intro i event token hi htoken
    rcases i with _ | _ | i
    · obtain rfl := Option.some.inj hi
      obtain rfl := Option.some.inj htoken
      rfl
    · obtain rfl := Option.some.inj hi
      obtain rfl := Option.some.inj htoken
      rfl
    · cases hi

/-- The indexer has not polled yet, and invoice 1 is recorded as pending. -/
def createdAndPaidStart : Start createdAndPaidRpc ⟨"invoice", some 1⟩ where
  db := ⟨.empty, ⟨[⟨"1", .pending⟩], by decide⟩, .empty, none⟩
  handled := 0
  resume_le := by decide
  later := by decide
  applied := by simp
  absent := by simp

/-- Invoice 1 after the payment. -/
def paidInvoice : Invoice :=
  { id := 1, merchant := .account 1, customer := .account 2, amount := 10000000,
    token := .contract 1, status := .paid, createdAt := 1, expiresAt := 100, reference := none }

theorem createdAndPaid_invoice :
    (run Invoicing.step (fresh () 0) createdAndPaid).storage.invoice =
      Function.update (Function.update (fun _ => none) 1
        (some { paidInvoice with status := .pending })) 1 (some paidInvoice) := rfl

/-- **The payment is not seen**: the invoice is paid, and after the indexer has consumed both
events its record is pending. -/
theorem createdAndPaid_not_tracksChain :
    ¬ Always Invoicing.step TracksChain (fresh () 0) createdAndPaid := by
  intro h
  have hwatches : Watches createdAndPaidStart
      (run Invoicing.step (fresh () 0) createdAndPaid) := by
    refine ⟨.cons ⟨rfl, rfl⟩ (.cons ⟨rfl, rfl⟩ .nil), rfl, fun id x hx => ?_⟩
    by_cases hid : id = 1
    · rw [hid]
      decide
    · rw [createdAndPaid_invoice, Function.update_of_ne hid, Function.update_of_ne hid] at hx
      cases hx
  have hmatch := h.at_end.follows _ _ createdAndPaidStart (ticks 13) hwatches (by decide)
    ⟨_, List.prefix_rfl, by decide⟩
  have hpaid := hmatch 1 paidInvoice (by decide)
  exact absurd hpaid (by decide)

end Offchain
