import Comebackhere.Http.Express
import Comebackhere.Http.ExecutedHash
import Comebackhere.Library.Listing

/-!
# Held settlements of the Express backend

The backend lists the settlement records that are pending and those that are on hold, and lets an
administrator release a held settlement or escalate it. The records themselves are written by the
indexer and by the route that executes settlements. None of these ever puts a settlement on hold.

## Main definitions

* `HoldRequest`, `serveHold`: the four requests, and what they do to the records
* `holdStep`: the requests next to the indexer and the executions
* `Advances`: what may have become of the records

## Main results

* `advances_step`: records are inserted as pending or executed, and only executed later
* `never_held`: the list of held settlements is empty, nothing is released or escalated, and a
  settlement is listed as pending until it is executed, and never after
-/

namespace Http.Settlements

open Soroban Machine Listing Offchain
open Offchain.TreasuryIndexer (SettlementRecord)
open Treasury (SettlementStatus)

variable {P : Type} {D : Deployment}

abbrev Records := Collection SettlementRecord ℕ (·.id)

/-! ## Requests -/

/-- What a response shows of a record. -/
structure SettlementView where
  id : ℕ
  merchantAddress : String
  amount : String
  approvals : List String
  approvalWeight : ℕ
  status : SettlementStatus
  holdReason : Option String

/-- The list of pending settlements shows their transactions too. -/
structure PendingView extends SettlementView where
  proposedTxHash : Option String
  executedTxHash : Option String

/-- The requests. The last two carry the administrator's key, and their validated body the id of a
settlement. -/
inductive HoldRequest
  | pendingSettlements
  | onHoldSettlements
  | releaseHold (adminKey : Option String) (settlementId : ℕ)
  | escalateHold (adminKey : Option String) (settlementId : ℕ)

inductive HoldResponse
  | pending (settlements : List PendingView)
  | onHold (settlements : List SettlementView)
  | settlement (settlement : SettlementView)

def SettlementView.of (record : SettlementRecord) : SettlementView :=
  ⟨record.id, record.merchantAddress, record.amount, record.approvals, record.approvalWeight,
    record.status, record.holdReason⟩

def PendingView.of (record : SettlementRecord) : PendingView :=
  ⟨.of record, record.proposedTxHash, record.executedTxHash⟩

/-- The middleware `requireAdmin`, with the key that is configured. -/
def requireAdmin (configured adminKey : Option String) : Except AppError Unit :=
  match present configured with
  | none => .error (serviceMisconfiguredError "ADMIN_KEY is not configured")
  | some configuredKey =>
    match present adminKey with
    | none => .error (unauthorizedError "Admin credentials are required")
    | some suppliedKey =>
      if suppliedKey = configuredKey then .ok ()
      else .error (forbiddenError "Admin credentials are invalid")

/-- `find({ status }).sort({ id: 1 })` -/
def findByStatus (records : Records) (status : SettlementStatus) : List SettlementRecord :=
  (records.docs.filter fun record => record.status = status).mergeSort fun a b => a.id ≤ b.id

def notOnHold (settlementId : ℕ) : AppError :=
  notFoundError ("Settlement #" ++ toString settlementId ++ " not found or not on hold")

/-- `findOneAndUpdate({ id, status: "OnHold" }, …)`: the held record under an id is changed. -/
def updateHeld (records : Records) (settlementId : ℕ) (f : SettlementRecord → SettlementRecord)
    (hf : ∀ record, (f record).id = record.id) : Records × Except AppError HoldResponse :=
  match records.find settlementId with
  | some record =>
    if record.status = .onHold then
      (records.updateOne settlementId f hf, .ok (.settlement (.of (f record))))
    else (records, .error (notOnHold settlementId))
  | none => (records, .error (notOnHold settlementId))

def releaseHold (records : Records) (settlementId : ℕ) : Records × Except AppError HoldResponse :=
  updateHeld records settlementId
    (fun record => { record with status := .pending, holdReason := none }) fun _ => rfl

def escalateHold (records : Records) (settlementId : ℕ) :
    Records × Except AppError HoldResponse :=
  updateHeld records settlementId
    (fun record => { record with holdReason := some "AdminHold" }) fun _ => rfl

/-- The routes. `GET /pending-settlements` is registered twice, and the first handler answers. -/
def serveHold (configured : Option String) (records : Records) :
    HoldRequest → Records × Except AppError HoldResponse
  | .pendingSettlements =>
    (records, .ok (.pending ((findByStatus records .pending).map PendingView.of)))
  | .onHoldSettlements =>
    (records, .ok (.onHold ((findByStatus records .onHold).map SettlementView.of)))
  | .releaseHold adminKey settlementId =>
    match requireAdmin configured adminKey with
    | .error e => (records, .error e)
    | .ok () => releaseHold records settlementId
  | .escalateHold adminKey settlementId =>
    match requireAdmin configured adminKey with
    | .error e => (records, .error e)
    | .ok () => escalateHold records settlementId

/-! ## The service -/

/-- An input of the executions and of the indexer, or one of the requests. -/
inductive HoldInput (P : Type) (D : Deployment)
  | backend (i : Input P D)
  | hold (request : HoldRequest)

def HoldInput.isBackend : HoldInput P D → Option (Input P D)
  | .backend i => some i
  | .hold _ => none

def State.records (s : State P D) : Records := s.world.db.settlements

/-- One input. -/
def holdStep [DecidableEq P] (cfg : Configs) (configured : Option String) (s : State P D) :
    HoldInput P D → State P D
  | .backend i => step cfg s i
  | .hold request =>
    { s with world.db.settlements := (serveHold configured s.records request).1 }

/-- Nothing is in progress, and the database is empty. -/
def started : State P D := ⟨fun _ => .idle, .empty⟩

/-! ## What becomes of the records -/

/-- A record is inserted as pending or as executed, and its status changes to executed only. -/
structure Advances (records records' : Records) : Prop where
  inserted : ∀ id record, records.find id = none → records'.find id = some record →
    record.status = .pending ∨ record.status = .executed
  kept : ∀ id record, records.find id = some record → ∃ record', records'.find id = some record' ∧
    (record'.status = record.status ∨ record'.status = .executed)

/-- Every record is pending or executed. -/
def Plain (records : Records) : Prop :=
  ∀ record ∈ records.docs, record.status = .pending ∨ record.status = .executed

/-- The settlement is recorded as executed. -/
def RecordedExecuted (settlementId : ℕ) (records : Records) : Prop :=
  ∃ record, records.find settlementId = some record ∧ record.status = .executed

section Advances

variable {records records' records'' : Records} {record : SettlementRecord} {settlementId : ℕ}
  {f : SettlementRecord → SettlementRecord}

theorem Advances.refl (records : Records) : Advances records records where
  inserted _ _ hnone hsome := by simp [hnone] at hsome
  kept _ record h := ⟨record, h, Or.inl rfl⟩

/-- An update that keeps a status, or sets it to executed. -/
theorem advances_updateOne (hf : ∀ record, (f record).id = record.id)
    (hstatus : ∀ record, (f record).status = record.status ∨ (f record).status = .executed) :
    Advances records (records.updateOne settlementId f hf) where
  inserted id record hnone hsome := by
    rw [Collection.find_updateOne] at hsome
    split_ifs at hsome with hid
    · simp [hnone] at hsome
    · simp [hnone] at hsome
  kept id record h := by
    rw [Collection.find_updateOne]
    split_ifs with hid
    · exact ⟨f record, by rw [h, Option.map_some], hstatus record⟩
    · exact ⟨record, h, Or.inl rfl⟩

/-- Such an update, or the insertion of a record that is pending or executed. -/
theorem advances_upsert (hf : ∀ record, (f record).id = record.id)
    (hrecord : record.status = .pending ∨ record.status = .executed)
    (hstatus : ∀ record, (f record).status = record.status ∨ (f record).status = .executed) :
    Advances records (records.upsert record f hf) where
  inserted id record' hnone hsome := by
    rw [Collection.find_upsert] at hsome
    split_ifs at hsome with hid
    · rw [hnone, Option.map_none, Option.getD_none] at hsome
      obtain rfl := Option.some.inj hsome
      exact hrecord
    · simp [hnone] at hsome
  kept id record' h := by
    rw [Collection.find_upsert]
    split_ifs with hid
    · exact ⟨f record', by rw [h, Option.map_some, Option.getD_some], hstatus record'⟩
    · exact ⟨record', h, Or.inl rfl⟩

/-- **The indexer** only advances records. -/
theorem advances_execute {β : Type} (o : TreasuryIndexer.Action β)
    (answer : TreasuryIndexer.Answer) (w : TreasuryIndexer.World) :
    Advances w.db.settlements (TreasuryIndexer.execute o answer w).2.db.settlements := by
  cases o with
  | processSettlementProposed => exact advances_upsert _ (Or.inl rfl) fun _ => Or.inl rfl
  | processSettlementApproved => exact advances_upsert _ (Or.inl rfl) fun _ => Or.inl rfl
  | processSettlementExecuted => exact advances_upsert _ (Or.inr rfl) fun _ => Or.inr rfl
  | loadCursor | getLatestLedger | getEvents | findSettlement | dispatchWebhook | saveCursor =>
    exact .refl _

/-- **One input** of the executions and of the indexer only advances records. -/
theorem advances_step [DecidableEq P] (cfg : Configs) (s : State P D) (i : Input P D) :
    Advances s.records (step cfg s i).records := by
  cases i with
  | store p =>
    -- only a result that is stored changes a record
    rw [step]
    split
    · split
      · exact advances_updateOne (id_executed _) fun _ => Or.inr rfl
      · exact .refl _
      · exact .refl _
    · exact .refl _
    · exact .refl _
  | index p answer =>
    rw [step]
    split
    · exact .refl _
    · exact advances_execute _ answer s.world
    · exact .refl _
    · exact .refl _
  | request p body | batch p | respond p answer =>
    rw [step]
    split <;> exact .refl _
  | giveUp p => exact .refl _

theorem Advances.plain (h : Advances records records') (hplain : Plain records) :
    Plain records' := by
  intro record hrecord
  have hfind := Collection.find_of_mem hrecord
  cases hbefore : records.find record.id with
  | none => exact h.inserted _ _ hbefore hfind
  | some old =>
    obtain ⟨record', hrecord', hstatus⟩ := h.kept _ _ hbefore
    obtain rfl := Option.some.inj (hfind.symm.trans hrecord')
    rcases hstatus with hsame | hexecuted
    · rw [hsame]
      exact hplain old (Collection.mem_of_find hbefore)
    · exact Or.inr hexecuted

theorem Advances.executed (h : Advances records records')
    (hexecuted : RecordedExecuted settlementId records) :
    RecordedExecuted settlementId records' := by
  obtain ⟨record, hrecord, hstatus⟩ := hexecuted
  obtain ⟨record', hrecord', hsame | hdone⟩ := h.kept _ _ hrecord
  · exact ⟨record', hrecord', hsame.trans hstatus⟩
  · exact ⟨record', hrecord', hdone⟩

end Advances

/-! ## Requests of plain records -/

section Plain

variable {records : Records} {record : SettlementRecord} {settlementId : ℕ}

theorem mem_findByStatus {status : SettlementStatus} :
    record ∈ findByStatus records status ↔ record ∈ records.docs ∧ record.status = status := by
  simp [findByStatus, List.mem_filter]

/-- The records of a status are listed once each, in the order of their ids. -/
theorem isListing_findByStatus (status : SettlementStatus) :
    IsListing (fun id => ∃ record, records.find id = some record ∧ record.status = status)
      ((findByStatus records status).map (·.id)) where
  sorted := by
    have hle : (findByStatus records status).Pairwise fun a b => a.id ≤ b.id := by
      have hsort : ((records.docs.filter fun record => record.status = status).mergeSort
          fun a b => a.id ≤ b.id).Pairwise fun a b => decide (a.id ≤ b.id) = true :=
        List.pairwise_mergeSort (fun a b c => by simpa using Nat.le_trans)
          (fun a b => by simpa using Nat.le_total a.id b.id) _
      simpa [findByStatus] using hsort
    have hnodup : ((findByStatus records status).map (·.id)).Nodup := by
      refine ((List.mergeSort_perm _ _).map _).nodup_iff.mpr ?_
      exact records.unique.sublist (List.filter_sublist.map _)
    -- ids are distinct, so that those in order are strictly so
    have hlt := (List.pairwise_map.mpr hle).and hnodup
    exact hlt.imp fun hab => lt_of_le_of_ne hab.1 hab.2
  mem_iff id := by
    rw [List.mem_map]
    constructor
    · rintro ⟨record, hrecord, rfl⟩
      obtain ⟨hmem, hstatus⟩ := mem_findByStatus.mp hrecord
      exact ⟨record, Collection.find_of_mem hmem, hstatus⟩
    · rintro ⟨record, hrecord, hstatus⟩
      exact ⟨record, mem_findByStatus.mpr ⟨Collection.mem_of_find hrecord, hstatus⟩,
        Collection.key_of_find hrecord⟩

theorem Plain.status_ne (hplain : Plain records) (h : records.find settlementId = some record) :
    record.status ≠ .onHold := by
  rcases hplain record (Collection.mem_of_find h) with hs | hs <;> simp [hs]

theorem Plain.findByStatus_onHold (hplain : Plain records) : findByStatus records .onHold = [] := by
  apply List.eq_nil_iff_forall_not_mem.mpr
  intro record hrecord
  obtain ⟨hmem, hstatus⟩ := mem_findByStatus.mp hrecord
  exact hplain.status_ne (Collection.find_of_mem hmem) hstatus

theorem Plain.updateHeld (hplain : Plain records) (settlementId : ℕ)
    (f : SettlementRecord → SettlementRecord) (hf : ∀ record, (f record).id = record.id) :
    updateHeld records settlementId f hf = (records, .error (notOnHold settlementId)) := by
  rw [Settlements.updateHeld]
  split
  · next record hrecord => rw [if_neg (hplain.status_ne hrecord)]
  · rfl

/-- What an administrator's request to change a held settlement is answered with. -/
def refusal (configured adminKey : Option String) (settlementId : ℕ) : AppError :=
  match requireAdmin configured adminKey with
  | .error e => e
  | .ok () => notOnHold settlementId

theorem Plain.serve_release (hplain : Plain records) (configured adminKey : Option String)
    (settlementId : ℕ) : serveHold configured records (.releaseHold adminKey settlementId) =
      (records, .error (refusal configured adminKey settlementId)) := by
  rw [serveHold, refusal]
  cases requireAdmin configured adminKey with
  | error e => rfl
  | ok _ => exact hplain.updateHeld settlementId _ _

theorem Plain.serve_escalate (hplain : Plain records) (configured adminKey : Option String)
    (settlementId : ℕ) : serveHold configured records (.escalateHold adminKey settlementId) =
      (records, .error (refusal configured adminKey settlementId)) := by
  rw [serveHold, refusal]
  cases requireAdmin configured adminKey with
  | error e => rfl
  | ok _ => exact hplain.updateHeld settlementId _ _

/-- No request changes plain records. -/
theorem Plain.serveHold_fst (hplain : Plain records) (configured : Option String)
    (request : HoldRequest) : (serveHold configured records request).1 = records := by
  cases request with
  | pendingSettlements | onHoldSettlements => rfl
  | releaseHold adminKey settlementId => rw [hplain.serve_release]
  | escalateHold adminKey settlementId => rw [hplain.serve_escalate]

end Plain

/-! ## Runs -/

theorem plain_started : Plain (started : State P D).records := by
  intro record hrecord
  exact absurd hrecord List.not_mem_nil

section Runs

variable [DecidableEq P] (cfg : Configs) (configured : Option String)

/-- **One input** leaves plain records plain, and advances them. -/
theorem advances_holdStep {s : State P D} (hplain : Plain s.records) (i : HoldInput P D) :
    Advances s.records (holdStep cfg configured s i).records := by
  cases i with
  | backend i => exact advances_step cfg s i
  | hold request =>
    show Advances s.records (serveHold configured s.records request).1
    rw [hplain.serveHold_fst]
    exact .refl _

theorem plain_run (is : List (HoldInput P D)) :
    Plain (run (holdStep cfg configured) started is).records := by
  induction is using List.reverseRecOn with
  | nil => exact plain_started
  | append_singleton is i ih =>
    rw [run_snoc]
    exact (advances_holdStep cfg configured ih i).plain ih

/-- Without the requests the same records are left. -/
theorem run_isBackend (is : List (HoldInput P D)) :
    run (holdStep cfg configured) started is =
      run (step cfg) started (is.filterMap HoldInput.isBackend) := by
  induction is using List.reverseRecOn with
  | nil => rfl
  | append_singleton is i ih =>
    rw [run_snoc, List.filterMap_append, run_append, ← ih]
    cases i with
    | backend i => rfl
    | hold request =>
      have hsame := (plain_run cfg configured is).serveHold_fst configured request
      rw [holdStep, hsame]
      rfl

theorem executed_run {is js : List (HoldInput P D)} {settlementId : ℕ}
    (h : RecordedExecuted settlementId (run (holdStep cfg configured) started is).records) :
    RecordedExecuted settlementId (run (holdStep cfg configured) started (is ++ js)).records := by
  induction js using List.reverseRecOn with
  | nil => rwa [List.append_nil]
  | append_singleton js j ih =>
    rw [← List.append_assoc, run_snoc]
    have hplain := plain_run cfg configured (is ++ js)
    exact (advances_holdStep cfg configured hplain j).executed ih

/-- What the requests are answered with after the inputs `is`. Held settlements are none, requests
to change one are refused and leave the records as they are, and the pending settlements are those
that are recorded and have not been executed before. -/
structure Unheld (is : List (HoldInput P D)) : Prop where
  onHold : serveHold configured (run (holdStep cfg configured) started is).records
    .onHoldSettlements = ((run (holdStep cfg configured) started is).records, .ok (.onHold []))
  release : ∀ adminKey settlementId,
    serveHold configured (run (holdStep cfg configured) started is).records
        (.releaseHold adminKey settlementId) =
      ((run (holdStep cfg configured) started is).records,
        .error (refusal configured adminKey settlementId))
  escalate : ∀ adminKey settlementId,
    serveHold configured (run (holdStep cfg configured) started is).records
        (.escalateHold adminKey settlementId) =
      ((run (holdStep cfg configured) started is).records,
        .error (refusal configured adminKey settlementId))
  pending : ∃ settlements,
    serveHold configured (run (holdStep cfg configured) started is).records .pendingSettlements =
      ((run (holdStep cfg configured) started is).records, .ok (.pending settlements)) ∧
    IsListing (fun id =>
        (run (holdStep cfg configured) started is).records.find id ≠ none ∧
        ∀ pre, pre <+: is →
          ¬ RecordedExecuted id (run (holdStep cfg configured) started pre).records)
      (settlements.map (·.id))
  requests : run (holdStep cfg configured) started is =
    run (step cfg) started (is.filterMap HoldInput.isBackend)

/-- A settlement is pending if it is recorded and has never been executed. -/
theorem pending_iff (is : List (HoldInput P D)) (id : ℕ) :
    (∃ record, (run (holdStep cfg configured) started is).records.find id = some record ∧
      record.status = .pending) ↔
    (run (holdStep cfg configured) started is).records.find id ≠ none ∧
      ∀ pre, pre <+: is →
        ¬ RecordedExecuted id (run (holdStep cfg configured) started pre).records := by
  constructor
  · rintro ⟨record, hrecord, hpending⟩
    refine ⟨by simp [hrecord], fun pre hpre hexecuted => ?_⟩
    obtain ⟨rest, rfl⟩ := hpre
    -- once executed, it would still be so after the rest of the run
    have hafter : RecordedExecuted id (run (holdStep cfg configured) started (pre ++ rest)).records :=
      executed_run cfg configured hexecuted
    obtain ⟨record', hrecord', hstatus⟩ := hafter
    obtain rfl := Option.some.inj (hrecord.symm.trans hrecord')
    simp [hpending] at hstatus
  · rintro ⟨hsome, hnever⟩
    obtain ⟨record, hrecord⟩ := Option.ne_none_iff_exists'.mp hsome
    rcases plain_run cfg configured is record (Collection.mem_of_find hrecord) with hs | hs
    · exact ⟨record, hrecord, hs⟩
    · exact absurd ⟨record, hrecord, hs⟩ (hnever is List.prefix_rfl)

/-- **No settlement is ever held.** However requests, executions and batches of the indexer
interleave, and whatever events the indexer reads: the list of held settlements is empty, every
release and escalation is refused, the pending settlements are listed once each, in the order of
their ids, until they are executed and never after, and the requests make no difference. -/
theorem never_held (is : List (HoldInput P D)) : Unheld cfg configured is where
  onHold := by
    rw [serveHold, (plain_run cfg configured is).findByStatus_onHold, List.map_nil]
  release := (plain_run cfg configured is).serve_release configured
  escalate := (plain_run cfg configured is).serve_escalate configured
  pending := by
    refine ⟨_, rfl, ?_⟩
    have hids : ((findByStatus (run (holdStep cfg configured) started is).records .pending).map
        PendingView.of).map (·.id) =
        (findByStatus (run (holdStep cfg configured) started is).records .pending).map (·.id) := by
      rw [List.map_map]
      rfl
    rw [hids]
    exact (isListing_findByStatus .pending).congr (pending_iff cfg configured is)
  requests := run_isBackend cfg configured is

end Runs

end Http.Settlements
