import Comebackhere.Invoice.Views
import Comebackhere.Library.Crew
import Comebackhere.Library.Decimal
import Comebackhere.Offchain.InvoiceDecoders
import Comebackhere.Offchain.InvoiceEvents

/-!
# The statuses that the backend reports

The Express backend keeps a status for every invoice next to the contract's. A request for an
invoice finds the record, simulates `get_invoice_status`, writes the status it has read to the
record, and answers with it, or with the status of the record when one of these fails. The creation
of an invoice inserts a record, and the indexer gives records the statuses of the events it reads.
All of them interleave with each other and with the contract.

## Main definitions

* `State`, `Action`, `step`: the contract, the records and the requests in progress
* `Seen h s id status`: the contract had the status for the invoice at some point of a history
* `Phase.Holds Q F`: what a request has found meets `Q`, and what it has read meets `F`

## Main results

* `Genuine.step`: no step makes a status up
* `statuses_genuine`: statuses that are stored or answered are those of the contract
-/

namespace Http.StatusSync

open Soroban Checked Machine Crew Offchain
open Invoicing (InvoiceStatus)

variable {D : Deployment}

/-! ## Reading the contract -/

/-- The contract's encoding of a status. -/
def statusVal (status : InvoiceStatus) : Val := .vec [.symbol (statusSymbol status)]

/-- The status that a text is taken for. -/
def statusOf (name : Symbol) : Option InvoiceStatus :=
  match name with
  | "Pending" => some .pending
  | "Paid" => some .paid
  | "Expired" => some .expired
  | "Cancelled" => some .cancelled
  | "RefundRequested" => some .refundRequested
  | "Released" => some .released
  | _ => none

/-- `value.vec()?.[0]?.sym()?.toString()` -/
def parseStatus (value : ScVal) : Js (Option InvoiceStatus) := do
  let name ← optional (← component (some value) 0) ScVal.getSym
  return name.bind statusOf

theorem parseStatus_statusVal (status : InvoiceStatus) :
    parseStatus (toScVal (statusVal status)) = .ok (some status) := by
  cases status <;> rfl

/-- The status that the contract has for an invoice. An id of more than 64 bits is not encoded. -/
def chainStatus (w : Invoicing.State D) (id : ℕ) : Option InvoiceStatus :=
  if id < 2 ^ 64 then (Invoicing.getInvoiceStatus w.storage (.ofNat id)).toOption else none

/-- `getInvoiceStatus`, when the server answers; `none` is an error. -/
def getInvoiceStatus (w : Invoicing.State D) (id : ℕ) : Option InvoiceStatus := do
  let status ← chainStatus w id
  (parseStatus (toScVal (statusVal status))).toOption.join

theorem getInvoiceStatus_eq (w : Invoicing.State D) (id : ℕ) :
    getInvoiceStatus w id = chainStatus w id := by
  rw [getInvoiceStatus]
  cases hstatus : chainStatus w id with
  | none => rfl
  | some status =>
    show (parseStatus (toScVal (statusVal status))).toOption.join = some status
    rw [parseStatus_statusVal]
    rfl

/-! ## Requests -/

/-- Where a request for an invoice is. An answer is the status it has read and written, or the one
it has found. -/
inductive Phase
  | finding
  | reading (found : InvoiceStatus)
  | writing (found status : InvoiceStatus)
  | answered (status : InvoiceStatus) (synced : Bool)
  | notFound
  | failed
  deriving DecidableEq

/-- A request `GET /invoices/:id`. The id is normalized to a number. -/
structure Request where
  id : ℕ
  phase : Phase

/-- Where a request that creates an invoice is, once the contract has created it. -/
inductive Creation
  | inserting (id : UInt64)
  | inserted
  | conflict
  | failed

abbrev Invoices := Collection Offchain.InvoiceRecord String (·.invoiceId)

structure State (D : Deployment) where
  chain : Invoicing.State D
  invoices : Invoices
  requests : List Request
  creations : List Creation

/-- The input of `create_invoice`, in the transaction of a creation. -/
structure NewInvoice where
  merchant : Address
  customer : Address
  amount : ℤ
  token : Address
  expiresAt : UInt64
  nonce : UInt64
  reference : Option (List UInt8)

inductive Action (D : Deployment)
  | chain (i : Soroban.Input D Invoicing.Call)
  /-- The indexer applies an event that the contract has published, once or again. -/
  | index (k : ℕ)
  | get (id : ℕ)
  /-- A request goes on, and the service that it calls works or fails. -/
  | advance (i : ℕ) (works : Bool)
  | create (e : Env) (new : NewInvoice)
  | insert (i : ℕ) (works : Bool)

/-- `findOne`, then `syncInvoiceStatus` with the two services it calls. -/
def Request.next (s : State D) (r : Request) (works : Bool) : Phase :=
  match r.phase with
  | .finding =>
    if works then
      match s.invoices.find (toString r.id) with
      | none => .notFound
      | some record => .reading record.status
    else .failed
  | .reading found =>
    match getInvoiceStatus s.chain r.id, works with
    | some status, true => .writing found status
    | _, _ => .answered found false
  | .writing found status => if works then .answered status true else .answered found false
  | .answered status synced => .answered status synced
  | .notFound => .notFound
  | .failed => .failed

/-- The status that a request writes next. -/
def Request.writes (r : Request) (works : Bool) : Option InvoiceStatus :=
  match r.phase with
  | .writing _ status => if works then some status else none
  | _ => none

/-- What the indexer does with an event of the contract. -/
def indexEvent (invoices : Invoices) (event : Event) : Invoices :=
  let topics := event.topics.map toScVal
  match (parseEventType topics).bind statusByEvent with
  | none => invoices
  | some status => setStatus invoices (parseInvoiceId topics) status

/-- The record of a new invoice. -/
def newRecord (id : UInt64) : Offchain.InvoiceRecord := ⟨toString id.toNat, .pending⟩

def Creation.insert (invoices : Invoices) (works : Bool) : Creation → Creation × Invoices
  | .inserting id =>
    if !works then (.failed, invoices)
    else if (invoices.find (toString id.toNat)).isSome then (.conflict, invoices)
    else (.inserted, invoices.insertIfAbsent (newRecord id))
  | creation => (creation, invoices)

def step (s : State D) : Action D → State D
  | .chain i => { s with chain := Invoicing.step s.chain i }
  | .index k =>
    match s.chain.events[k]? with
    | none => s
    | some event => { s with invoices := indexEvent s.invoices event }
  | .get id => { s with requests := s.requests ++ [⟨id, .finding⟩] }
  | .advance i works =>
    match s.requests[i]? with
    | none => s
    | some r =>
      { s with
        requests := s.requests.set i { r with phase := r.next s works }
        invoices := (r.writes works).elim s.invoices (setStatus s.invoices (toString r.id)) }
  | .create e new =>
    match Invoicing.createInvoice e s.chain new.merchant new.customer new.amount new.token
        new.expiresAt new.nonce new.reference with
    | .error _ => s
    | .ok (chain, id) => { s with chain, creations := s.creations ++ [.inserting id] }
  | .insert i works =>
    match s.creations[i]? with
    | none => s
    | some creation =>
      let (creation, invoices) := creation.insert s.invoices works
      { s with creations := s.creations.set i creation, invoices }

/-- A backend whose contract has just been deployed. -/
def initial (l : D.Ledger) (wasm : WasmHash) : State D :=
  ⟨Invoicing.fresh l wasm, .empty, [], []⟩

/-! ## Statuses of the contract -/

/-- The contract had the status for the invoice at some point of a history, or has it now. -/
def Seen (h : List (State D × Action D)) (s : State D) (id : ℕ) (status : InvoiceStatus) : Prop :=
  (∃ t ∈ h, chainStatus t.1.chain id = some status) ∨ chainStatus s.chain id = some status

/-- What a request has found meets `Q`, and what it has read of the contract meets `F`. -/
def Phase.Holds (Q F : InvoiceStatus → Prop) : Phase → Prop
  | .reading found => Q found
  | .writing found status => Q found ∧ F status
  | .answered status synced => if synced then F status else Q status
  | .finding | .notFound | .failed => True

section Seen

variable {h : List (State D × Action D)} {s s' : State D} {a : Action D} {id : ℕ}
  {status : InvoiceStatus}

/-- What was seen remains so. -/
theorem Seen.snoc (hseen : Seen h s id status) : Seen (h ++ [(s, a)]) s' id status := by
  left
  rcases hseen with ⟨t, ht, hstatus⟩ | hnow
  · exact ⟨t, List.mem_append_left _ ht, hstatus⟩
  · exact ⟨(s, a), by simp, hnow⟩

/-- What is seen in a run was the contract's at a point of it. -/
theorem seen_run {s₀ : State D} {as : List (Action D)} :
    Seen (transitions step s₀ as) (run step s₀ as) id status ↔
      ∃ pre, pre <+: as ∧ chainStatus (run step s₀ pre).chain id = some status := by
  constructor
  · rintro (⟨t, ht, hstatus⟩ | hnow)
    · obtain ⟨pre, hpre, hstate⟩ := (mem_transitions_iff step).mp ht
      exact ⟨pre, (List.prefix_append ..).trans hpre, hstate ▸ hstatus⟩
    · exact ⟨as, List.prefix_rfl, hnow⟩
  · rintro ⟨pre, ⟨rest, rfl⟩, hstatus⟩
    cases rest with
    | nil =>
      rw [List.append_nil]
      exact Or.inr hstatus
    | cons a rest =>
      refine Or.inl ⟨(run step s₀ pre, a), ?_, hstatus⟩
      rw [transitions_append]
      exact List.mem_append_right _ List.mem_cons_self

/-- **A request goes on** with what the record has, and with what the contract has. -/
theorem Request.next_holds {r : Request} {Q F Q' F' : InvoiceStatus → Prop} (works : Bool)
    (h : r.phase.Holds Q F) (hQ : ∀ status, Q status → Q' status)
    (hF : ∀ status, F status → F' status)
    (hfound : ∀ record, s.invoices.find (toString r.id) = some record → Q' record.status)
    (hread : ∀ status, chainStatus s.chain r.id = some status → F' status) :
    (r.next s works).Holds Q' F' := by
  obtain ⟨id, phase⟩ := r
  cases phase with
  | finding =>
    cases works with
    | false => trivial
    | true =>
      cases hfind : s.invoices.find (toString id) with
      | none =>
        simp only [Request.next, hfind]
        trivial
      | some record =>
        simp only [Request.next, hfind]
        exact hfound record hfind
  | reading found =>
    simp only [Request.next, getInvoiceStatus_eq]
    cases hstatus : chainStatus s.chain id with
    | none => exact hQ found h
    | some status =>
      cases works with
      | false => exact hQ found h
      | true => exact ⟨hQ found h, hread status hstatus⟩
  | writing found status =>
    cases works with
    | false => exact hQ found h.1
    | true => exact hF status h.2
  | answered status synced =>
    cases synced with
    | false => exact hQ status h
    | true => exact hF status h
  | notFound => trivial
  | failed => trivial

/-- A request writes what it has read. -/
theorem Request.writes_holds {r : Request} {Q F : InvoiceStatus → Prop} {works : Bool}
    (h : r.phase.Holds Q F) (hwrites : r.writes works = some status) : F status := by
  obtain ⟨id, phase⟩ := r
  cases phase with
  | writing found read =>
    cases works with
    | false => cases hwrites
    | true =>
      obtain rfl := Option.some.inj hwrites
      exact h.2
  | finding | reading _ | answered _ _ | notFound | failed => cases hwrites

end Seen

/-! ## Records -/

/-- A record after one is given a status. -/
theorem mem_setStatus {invoices : Invoices} {invoiceId : String} {status : InvoiceStatus}
    {record : Offchain.InvoiceRecord} (h : record ∈ (setStatus invoices invoiceId status).docs) :
    record ∈ invoices.docs ∨
      record.status = status ∧ record.invoiceId = invoiceId ∧
        ∃ old ∈ invoices.docs, old.invoiceId = invoiceId := by
  obtain ⟨old, hold, rfl⟩ := List.mem_map.mp h
  by_cases hid : old.invoiceId = invoiceId
  · rw [if_pos hid]
    exact Or.inr ⟨rfl, hid, old, hold, hid⟩
  · rw [if_neg hid]
    exact Or.inl hold

/-- A creation that goes on inserts the record of its invoice, or none. -/
theorem Creation.insert_cases (invoices : Invoices) (works : Bool) (creation : Creation) :
    (∀ id, (creation.insert invoices works).1 ≠ .inserting id) ∧
      ∀ record ∈ (creation.insert invoices works).2.docs, record ∈ invoices.docs ∨
        ∃ id, creation = .inserting id ∧ record = newRecord id := by
  cases creation with
  | inserting id =>
    rw [Creation.insert]
    split
    · exact ⟨by simp, fun record hrecord => Or.inl hrecord⟩
    · split
      · exact ⟨by simp, fun record hrecord => Or.inl hrecord⟩
      · next hnew =>
        have hnone : invoices.find (toString id.toNat) = none := by simpa using hnew
        refine ⟨by simp, fun record hrecord => ?_⟩
        rw [Collection.docs_insertIfAbsent (d := newRecord id) hnone, List.mem_append,
          List.mem_singleton] at hrecord
        rcases hrecord with hrecord | hrecord
        · exact Or.inl hrecord
        · exact Or.inr ⟨id, rfl, hrecord⟩
  | inserted | conflict | failed =>
    exact ⟨by simp [Creation.insert], fun record hrecord => Or.inl hrecord⟩

/-- What is known of the records, the requests and the creations at a point of a history. -/
structure Genuine (h : List (State D × Action D)) (s : State D) : Prop where
  single : ∀ event ∈ s.chain.events, SingleTopic event
  records : ∀ record ∈ s.invoices.docs, ∃ id : UInt64, record.invoiceId = toString id.toNat ∧
    Seen h s id.toNat record.status
  requests : ∀ r ∈ s.requests, r.phase.Holds (Seen h s r.id) (Seen h s r.id)
  creations : ∀ creation ∈ s.creations, ∀ id, creation = .inserting id →
    Seen h s id.toNat .pending

section Genuine

variable {h : List (State D × Action D)} {s s' : State D} {id : ℕ} {status : InvoiceStatus}

theorem genuine_initial (l : D.Ledger) (wasm : WasmHash) : Genuine [] (initial l wasm) :=
  ⟨by simp [initial, Invoicing.fresh], by simp [initial, Collection.empty], by simp [initial],
    by simp [initial]⟩

/-- What a request finds is a status that was seen. -/
theorem Genuine.of_find (hs : Genuine h s) {record : Offchain.InvoiceRecord}
    (hfind : s.invoices.find (toString id) = some record) : Seen h s id record.status := by
  obtain ⟨id', hkey, hseen⟩ := hs.records record (Collection.mem_of_find hfind)
  have hid : toString id = toString id'.toNat := (Collection.key_of_find hfind).symm.trans hkey
  rw [Decimal.repr_inj hid]
  exact hseen

/-- The indexer finds no id in an event, and changes no record. -/
theorem Genuine.mem_indexEvent (hs : Genuine h s) {event : Event} (hevent : event ∈ s.chain.events)
    {record : Offchain.InvoiceRecord} (hrecord : record ∈ (indexEvent s.invoices event).docs) :
    record ∈ s.invoices.docs := by
  have hunknown : parseInvoiceId (event.topics.map toScVal) = "unknown" :=
    parseInvoiceId_of_carries (RpcEvent.of_carries event) (hs.single event hevent)
  unfold indexEvent at hrecord
  dsimp only at hrecord
  split at hrecord
  · exact hrecord
  · rcases mem_setStatus hrecord with hrecord | ⟨-, -, old, hold, hid⟩
    · exact hrecord
    · -- no record is that of an invoice without an id
      obtain ⟨id, hkey, -⟩ := hs.records old hold
      rw [hid, hunknown] at hkey
      exact absurd hkey.symm (toString_ne_unknown id)

/-- Requests that do not go on keep what they have. -/
theorem Phase.Holds.snoc {a : Action D} {phase : Phase}
    (hphase : phase.Holds (Seen h s id) (Seen h s id)) :
    phase.Holds (Seen (h ++ [(s, a)]) s' id) (Seen (h ++ [(s, a)]) s' id) := by
  cases phase with
  | reading found => exact Seen.snoc hphase
  | writing found status => exact ⟨Seen.snoc hphase.1, Seen.snoc hphase.2⟩
  | answered status synced =>
    cases synced with
    | false => exact Seen.snoc hphase
    | true => exact Seen.snoc hphase
  | finding | notFound | failed => trivial

/-- A new invoice is pending on the chain. -/
theorem chainStatus_of_create {e : Env} {new : NewInvoice} {w w' : Invoicing.State D} {id : UInt64}
    (hcreate : Invoicing.createInvoice e w new.merchant new.customer new.amount new.token
      new.expiresAt new.nonce new.reference = .ok (w', id)) :
    chainStatus w' id.toNat = some .pending := by
  obtain ⟨-, -, -, -, -, -, -, rfl⟩ := Invoicing.createInvoice_eq_ok.mp hcreate
  rw [chainStatus, if_pos id.toNat_lt, UInt64.ofNat_toNat]
  simp [Invoicing.getInvoiceStatus, Invoicing.getInvoice, Invoicing.storeInvoice, orFail, bind,
    Except.bind, pure, Except.pure, Except.toOption]

/-- **No step makes a status up.** -/
theorem Genuine.step (hs : Genuine h s) (a : Action D) :
    Genuine (h ++ [(s, a)]) (StatusSync.step s a) := by
  -- what is as it was has been seen
  have hrecords : ∀ {s' : State D}, ∀ record ∈ s.invoices.docs, ∃ id : UInt64,
      record.invoiceId = toString id.toNat ∧ Seen (h ++ [(s, a)]) s' id.toNat record.status := by
    intro s' record hrecord
    obtain ⟨id, hkey, hseen⟩ := hs.records record hrecord
    exact ⟨id, hkey, hseen.snoc⟩
  have hrequests : ∀ {s' : State D}, ∀ r ∈ s.requests, r.phase.Holds
      (Seen (h ++ [(s, a)]) s' r.id) (Seen (h ++ [(s, a)]) s' r.id) :=
    fun r hr => (hs.requests r hr).snoc
  have hcreations : ∀ {s' : State D}, ∀ creation ∈ s.creations, ∀ id,
      creation = .inserting id → Seen (h ++ [(s, a)]) s' id.toNat .pending :=
    fun creation hc id hid => (hs.creations creation hc id hid).snoc
  cases a with
  | chain i =>
    refine ⟨?_, hrecords, hrequests, hcreations⟩
    exact (publishes_step events_of_ok s.chain i).all hs.single
  | index k =>
    rw [StatusSync.step]
    split
    · exact ⟨hs.single, hrecords, hrequests, hcreations⟩
    · next event hk =>
      refine ⟨hs.single, fun record hrecord => ?_, hrequests, hcreations⟩
      exact hrecords record (hs.mem_indexEvent (List.mem_of_getElem? hk) hrecord)
  | get id =>
    refine ⟨hs.single, hrecords, fun r hr => ?_, hcreations⟩
    rcases List.mem_append.mp hr with hr | hr
    · exact hrequests r hr
    · obtain rfl := List.mem_singleton.mp hr
      trivial
  | advance i works =>
    rw [StatusSync.step]
    split
    · exact ⟨hs.single, hrecords, hrequests, hcreations⟩
    · next r hi =>
      have hphase := hs.requests r (List.mem_of_getElem? hi)
      refine ⟨hs.single, fun record hrecord => ?_, ?_, hcreations⟩
      · cases hwrites : r.writes works with
        | none =>
          rw [hwrites] at hrecord
          exact hrecords record hrecord
        | some status =>
          rw [hwrites] at hrecord
          rcases mem_setStatus hrecord with hrecord | ⟨rfl, hid, old, hold, hold'⟩
          · exact hrecords record hrecord
          · -- the record of the invoice gets the status that was read
            obtain ⟨id, hkey, -⟩ := hs.records old hold
            have heq : r.id = id.toNat := Decimal.repr_inj (hold'.symm.trans hkey)
            refine ⟨id, by rw [hid, heq], ?_⟩
            rw [← heq]
            exact (Request.writes_holds hphase hwrites).snoc
      · refine forall_mem_set hrequests ?_ i
        apply Request.next_holds works hphase
        · exact fun status => Seen.snoc
        · exact fun status => Seen.snoc
        · exact fun record hfind => (hs.of_find hfind).snoc
        · exact fun status hstatus => Seen.snoc (Or.inr hstatus)
  | create e new =>
    rw [StatusSync.step]
    split
    · exact ⟨hs.single, hrecords, hrequests, hcreations⟩
    · next w id hcreate =>
      refine ⟨?_, hrecords, hrequests, fun creation hc id' hid => ?_⟩
      · obtain ⟨-, -, -, -, -, -, -, hw⟩ := Invoicing.createInvoice_eq_ok.mp hcreate
        rw [hw]
        exact Publishes.all (publishes_publish rfl singleTopic_symbol) hs.single
      · rcases List.mem_append.mp hc with hc | hc
        · exact hcreations creation hc id' hid
        · obtain rfl := List.mem_singleton.mp hc
          obtain rfl := Creation.inserting.inj hid
          exact Or.inr (chainStatus_of_create hcreate)
  | insert i works =>
    rw [StatusSync.step]
    split
    · exact ⟨hs.single, hrecords, hrequests, hcreations⟩
    · next creation hi =>
      obtain ⟨hdone, hinserted⟩ := creation.insert_cases s.invoices works
      refine ⟨hs.single, fun record hrecord => ?_, hrequests, forall_mem_set hcreations ?_ i⟩
      · rcases hinserted record hrecord with hrecord | ⟨id, rfl, rfl⟩
        · exact hrecords record hrecord
        · have hcreated := hs.creations _ (List.mem_of_getElem? hi) id rfl
          exact ⟨id, rfl, hcreated.snoc⟩
      · exact fun id hid => absurd hid (hdone id)

end Genuine

/-! ## Runs -/

section Run

variable {l : D.Ledger} {wasm : WasmHash} {id : ℕ} {status : InvoiceStatus}

theorem genuine_run (l : D.Ledger) (wasm : WasmHash) (as : List (Action D)) :
    Genuine (transitions StatusSync.step (initial l wasm) as)
      (run StatusSync.step (initial l wasm) as) :=
  inv_of_each (C := fun _ _ _ => True) (genuine_initial l wasm) (fun _ _ a hs _ => hs.step a)
    fun _ _ _ => trivial

/-- A request keeps its place and its id. -/
theorem requests_step {s : State D} {i : ℕ} {r : Request} (hi : s.requests[i]? = some r)
    (a : Action D) : ∃ works, (StatusSync.step s a).requests[i]? =
      some { r with phase := r.next s works } ∨
        (StatusSync.step s a).requests[i]? = some r := by
  have hlt : i < s.requests.length := (List.getElem?_eq_some_iff.mp hi).1
  cases a with
  | advance j works =>
    refine ⟨works, ?_⟩
    rw [StatusSync.step]
    split
    · exact Or.inr hi
    · next r' hj =>
      by_cases hij : j = i
      · subst hij
        obtain rfl := Option.some.inj (hi.symm.trans hj)
        left
        simp [hlt]
      · right
        simpa [List.getElem?_set_ne hij] using hi
  | get id =>
    refine ⟨true, Or.inr ?_⟩
    rw [StatusSync.step, List.getElem?_append_left hlt]
    exact hi
  | chain _ => exact ⟨true, Or.inr hi⟩
  | index k =>
    refine ⟨true, Or.inr ?_⟩
    rw [StatusSync.step]
    split <;> exact hi
  | create e new =>
    refine ⟨true, Or.inr ?_⟩
    rw [StatusSync.step]
    split <;> exact hi
  | insert j works =>
    refine ⟨true, Or.inr ?_⟩
    rw [StatusSync.step]
    split <;> exact hi

/-- What a request has read was the contract's since the request is there. -/
theorem fresh_run {s₀ : State D} {i : ℕ} (hi : s₀.requests[i]? = some ⟨id, .finding⟩)
    (as : List (Action D)) : ∃ phase, (run StatusSync.step s₀ as).requests[i]? = some ⟨id, phase⟩ ∧
      phase.Holds (fun _ => True)
        (Seen (transitions StatusSync.step s₀ as) (run StatusSync.step s₀ as) id) := by
  induction as using List.reverseRecOn with
  | nil => exact ⟨.finding, hi, trivial⟩
  | append_singleton as a ih =>
    obtain ⟨phase, hphase, hholds⟩ := ih
    rw [run_snoc, transitions_snoc]
    obtain ⟨works, hnext | hsame⟩ := requests_step hphase a
    · refine ⟨_, hnext, ?_⟩
      apply Request.next_holds works (r := ⟨id, phase⟩) hholds
      · exact fun _ _ => trivial
      · exact fun status => Seen.snoc
      · exact fun _ _ => trivial
      · exact fun status hstatus => Seen.snoc (Or.inr hstatus)
    · refine ⟨phase, hsame, ?_⟩
      cases phase with
      | reading found => trivial
      | writing found status => exact ⟨trivial, hholds.2.snoc⟩
      | answered status synced =>
        cases synced with
        | false => trivial
        | true => exact Seen.snoc hholds
      | finding | notFound | failed => trivial

/-- A status that is stored for an invoice, or that a request is answered with, is one that the
contract had for the invoice at some point of the run. If the request has read and written it, the
contract had it after the request came in. -/
structure Reports (l : D.Ledger) (wasm : WasmHash) (as : List (Action D)) : Prop where
  stored : ∀ record ∈ (run StatusSync.step (initial l wasm) as).invoices.docs,
    ∃ id : UInt64, record.invoiceId = toString id.toNat ∧ ∃ pre, pre <+: as ∧
      chainStatus (run StatusSync.step (initial l wasm) pre).chain id.toNat = some record.status
  answered : ∀ r ∈ (run StatusSync.step (initial l wasm) as).requests, ∀ status synced,
    r.phase = .answered status synced → ∃ pre, pre <+: as ∧
      chainStatus (run StatusSync.step (initial l wasm) pre).chain r.id = some status
  fresh : ∀ before id after status, as = before ++ .get id :: after →
    (run StatusSync.step (initial l wasm) as).requests[
        (run StatusSync.step (initial l wasm) before).requests.length]? =
      some ⟨id, .answered status true⟩ →
    ∃ pre, pre <+: after ∧
      chainStatus (run StatusSync.step (initial l wasm) (before ++ .get id :: pre)).chain id =
        some status

/-- **Statuses are genuine**, however requests, creations, the indexer and the contract
interleave. -/
theorem statuses_genuine (l : D.Ledger) (wasm : WasmHash) (as : List (Action D)) :
    Reports l wasm as where
  stored record hrecord := by
    obtain ⟨id, hkey, hseen⟩ := (genuine_run l wasm as).records record hrecord
    exact ⟨id, hkey, seen_run.mp hseen⟩
  answered r hr status synced hphase := by
    have hholds := (genuine_run l wasm as).requests r hr
    rw [hphase] at hholds
    apply seen_run.mp
    cases synced with
    | false => exact hholds
    | true => exact hholds
  fresh before id after status has hanswered := by
    subst has
    have happend : before ++ Action.get id :: after = before ++ [.get id] ++ after := by simp
    have hnew : (run StatusSync.step (initial l wasm) (before ++ [.get id])).requests[
        (run StatusSync.step (initial l wasm) before).requests.length]? =
          some ⟨id, .finding⟩ := by
      rw [run_snoc, StatusSync.step]
      simp
    obtain ⟨phase, hphase, hholds⟩ := fresh_run hnew after
    rw [happend, run_append, hphase] at hanswered
    obtain rfl : phase = .answered status true := by simpa using hanswered
    obtain ⟨pre, hpre, hstatus⟩ := seen_run.mp hholds
    refine ⟨pre, hpre, ?_⟩
    have hsplit : before ++ Action.get id :: pre = before ++ [.get id] ++ pre := by simp
    rw [hsplit, run_append]
    exact hstatus

end Run

end Http.StatusSync
