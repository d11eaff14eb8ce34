import Comebackhere.Library.Recent
import Comebackhere.Offchain.InvoiceIndexer
import Comebackhere.Treasury.Contract

/-!
# The treasury indexer

The indexer fetches a page of the treasury contract's events, writes those of settlements to the
settlement records, dispatches a webhook for each, and saves its cursor together with the ids of
the events it has applied, of which the last 1000 are kept. A batch is a program whose actions are
the calls to the server, the writes to the database, each atomic, and the webhooks. The cache of
balances, the metrics and the times at which documents are written are left out.

## Main definitions

* `Db`, `World`: the database, and the database with the webhooks dispatched
* `processIndexerBatch`: a batch
* `system`, `batch`: what the actions do, and one batch run to its end
* `recorded`: all ids recorded in a history of batches

## Main results

* `batch_of_response`: a batch handles its events and then saves the cursor
* `remembered_run`: the ids remembered are the last 1000 of those recorded
-/

namespace Offchain.TreasuryIndexer

open Soroban Process Machine
open Treasury (SettlementStatus)

/-! ## Data -/

/-- A settlement record. -/
structure SettlementRecord where
  id : ℕ
  merchantAddress : String
  amount : String
  token : String
  approvals : List String
  approvalWeight : ℕ
  status : SettlementStatus
  holdReason : Option String
  proposedTxHash : Option String
  executedTxHash : Option String
  deriving DecidableEq

/-- The cursor document. -/
structure Cursor where
  pagingToken : Option String
  lastLedger : ℕ
  processedEventIds : List String
  deriving DecidableEq

/-- The settlements, with their unique key, and the indexer's cursor document. -/
structure Db where
  settlements : Collection SettlementRecord ℕ (·.id)
  cursor : Option Cursor

inductive Webhook
  | settlementProposed (settlementId : ℕ) (merchantAddress amount token txHash : String)
  | settlementApproved (settlementId : ℕ) (signer approvalWeight txHash : String)
  | settlementExecuted (settlementId : ℕ) (status : SettlementStatus)
      (merchantAddress amount token txHash : String)
  deriving DecidableEq

/-- The database, and the webhooks dispatched so far, each with the id of its event. -/
structure World where
  db : Db
  webhooks : List (String × Webhook)

/-- Nothing is indexed yet. -/
def World.empty : World := ⟨⟨.empty, none⟩, []⟩

/-- The ids that the cursor document holds. -/
def World.remembered (w : World) : List String := (w.db.cursor.map (·.processedEventIds)).getD []

/-- The configuration of the process: where webhooks go. -/
structure Config where
  webhookUrl : Option String

/-- `WEBHOOK_URL` is set. -/
def Config.notifies (cfg : Config) : Bool := cfg.webhookUrl.any (· ≠ "")

/-! ## Reading an event -/

def topicSymbol (topic : List ScVal) (index : ℕ) : Js (Option Symbol) :=
  optional topic[index]? ScVal.getSym

def valueU64 (value : ScVal) (index : ℕ) : Js UInt64 := do
  return (← optional (← component (some value) index) ScVal.getU64).getD 0

def valueAddress (value : ScVal) (index : ℕ) : Js String := do
  readAddress (← component (some value) index)

inductive SettlementEventType
  | settlementProposed
  | settlementApproved
  | settlementExecuted
  deriving DecidableEq, Repr

/-- The events that are tracked. -/
def trackedEvent : Symbol → Option SettlementEventType
  | "settlement_proposed" => some .settlementProposed
  | "settlement_approved" => some .settlementApproved
  | "settlement_executed" => some .settlementExecuted
  | _ => none

def SettlementEventType.name : SettlementEventType → Symbol
  | settlementProposed => "settlement_proposed"
  | settlementApproved => "settlement_approved"
  | settlementExecuted => "settlement_executed"

/-- The paging token where there is one, else a text of what the event is about. -/
def buildEventId (pagingToken : Option String) (txHash : String) (eventType : Symbol)
    (settlementId : ℕ) : String :=
  match pagingToken.filter (· ≠ "") with
  | some token => token
  | none => txHash ++ ":" ++ eventType ++ ":" ++ toString settlementId

theorem buildEventId_of_token {token : String} (h : token ≠ "") (txHash : String)
    (eventType : Symbol) (settlementId : ℕ) :
    buildEventId (some token) txHash eventType settlementId = token := by
  simp [buildEventId, Option.filter, h]

/-- A tracked event, before its fields are read. -/
structure Header where
  eventType : SettlementEventType
  settlementId : ℕ
  eventId : String

/-- The header of an event, when it is tracked. -/
def readHeader (event : RpcEvent) : Js (Option Header) := do
  match (← topicSymbol event.topic 0).bind trackedEvent with
  | none => return none
  | some eventType =>
    let settlementId := number (← valueU64 event.value 0).toNat
    return some ⟨eventType, settlementId,
      buildEventId event.pagingToken (event.txHash.getD "") eventType.name settlementId⟩

/-- What a tracked event says of its settlement. -/
inductive Change
  | proposed (token : String) (amount : UInt64) (merchant : String)
  | approved (signer : String) (newWeight : UInt64)
  | executed

/-- The fields of a tracked event. -/
def readChange (value : ScVal) : SettlementEventType → Js Change
  | .settlementProposed => do
    return .proposed (← valueAddress value 1) (← valueU64 value 2) (← valueAddress value 3)
  | .settlementApproved => do
    return .approved (← valueAddress value 1) (← valueU64 value 3)
  | .settlementExecuted => return .executed

/-! ## Actions -/

/-- The steps of the indexer that others can come between. -/
inductive Action : Type → Type
  | loadCursor : Action (Option Cursor)
  | getLatestLedger : Action ℕ
  | getEvents (startLedger : ℕ) (cursor : Option String) : Action (Option EventsResponse)
  | processSettlementProposed (settlementId : ℕ) (token : String) (amount : UInt64)
      (merchant txHash : String) : Action Unit
  | processSettlementApproved (settlementId : ℕ) (signer : String) (newWeight : UInt64) :
      Action Unit
  | processSettlementExecuted (settlementId : ℕ) (txHash : String) : Action Unit
  | findSettlement (settlementId : ℕ) : Action (Option SettlementRecord)
  | dispatchWebhook (eventId : String) (webhook : Webhook) : Action Unit
  | saveCursor (pagingToken : Option String) (lastLedger : ℕ) (newEventIds : List String) :
      Action Unit

abbrev Batch (α : Type) := Prog Action α

open Prog (perform)

/-! ## The batch -/

/-- A webhook is dispatched when there is a URL for it. -/
def notify (cfg : Config) (eventId : String) (webhook : Webhook) : Batch Unit :=
  if cfg.notifies then perform (.dispatchWebhook eventId webhook) else return ()

/-- The handler of a tracked event, and its webhook. -/
def applyChange (cfg : Config) (header : Header) (txHash : String) : Change → Batch Unit
  | .proposed token amount merchant => do
    perform (.processSettlementProposed header.settlementId token amount merchant txHash)
    notify cfg header.eventId
      (.settlementProposed header.settlementId merchant (toString amount) token txHash)
  | .approved signer newWeight => do
    perform (.processSettlementApproved header.settlementId signer newWeight)
    let _ ← perform (.findSettlement header.settlementId)
    notify cfg header.eventId
      (.settlementApproved header.settlementId signer (toString newWeight) txHash)
  | .executed => do
    perform (.processSettlementExecuted header.settlementId txHash)
    let _ ← perform (.findSettlement header.settlementId)
    if cfg.notifies then
      -- the webhook has what the record holds now
      let updatedRecord ← perform (.findSettlement header.settlementId)
      perform (.dispatchWebhook header.eventId (.settlementExecuted header.settlementId
        ((updatedRecord.map (·.status)).getD .executed)
        ((updatedRecord.map (·.merchantAddress)).getD "")
        ((updatedRecord.map (·.amount)).getD "0") ((updatedRecord.map (·.token)).getD "") txHash))

/-- One round of the loop of `processIndexerBatch`: the id of the event when it is newly
applied. -/
def handleEvent (cfg : Config) (processedIds : List String) (event : RpcEvent) :
    Batch (Js (Option String)) :=
  match readHeader event with
  | .error err => return .error err
  | .ok none => return .ok none
  | .ok (some header) =>
    if header.eventId ∈ processedIds then return .ok none
    else
      -- the fields are read before anything is written
      match readChange event.value header.eventType with
      | .error err => return .error err
      | .ok change => do
        applyChange cfg header (event.txHash.getD "") change
        return .ok (some header.eventId)

/-- The loop of `processIndexerBatch`: the ids that are newly applied. An error ends the batch. -/
def handleEvents (cfg : Config) (processedIds : List String) :
    List RpcEvent → Batch (Js (List String))
  | [] => return .ok []
  | event :: events => do
    match ← handleEvent cfg processedIds event with
    | .error err => return .error err
    | .ok applied =>
      match ← handleEvents cfg (processedIds ++ applied.toList) events with
      | .error err => return .error err
      | .ok rest => return .ok (applied.toList ++ rest)

/-- Where to start without a cursor: 100 ledgers ago. -/
def startLedger (lastLedger : ℕ) : Batch ℕ :=
  if 0 < lastLedger then return lastLedger
  else do return max 1 ((← perform .getLatestLedger) - 100)

/-- The last paging token of a page, else the one of the cursor. -/
def lastPagingToken (cursor : Option Cursor) (events : List RpcEvent) : Option String :=
  (events.filterMap (·.pagingToken)).getLast?.or (cursor.bind (·.pagingToken))

/-- Fetches and handles a page of events: how many are newly applied, `none` when it throws. -/
def processIndexerBatch (cfg : Config) : Batch (Option ℕ) := do
  let cursor ← perform .loadCursor
  let lastLedger := (cursor.map (·.lastLedger)).getD 0
  let start ← startLedger lastLedger
  match ← perform (.getEvents start ((cursor.bind (·.pagingToken)).filter (· ≠ ""))) with
  | none => return none
  | some response =>
    match ← handleEvents cfg ((cursor.map (·.processedEventIds)).getD []) response.events with
    -- no cursor is saved, and no id is recorded for the events before the error
    | .error _ => return none
    | .ok newEventIds =>
      perform (.saveCursor (lastPagingToken cursor response.events)
        (response.latestLedger.getD lastLedger) newEventIds)
      return some newEventIds.length

/-! ## The server and the database -/

/-- The most events in a page. -/
def eventLimit : ℕ := 100

/-- How many ids the cursor document keeps. -/
def keptEventIds : ℕ := 1000

/-- What the environment answers: the page, unless the request fails, and the latest ledger. -/
structure Answer where
  response : Option EventsResponse := none
  sequence : ℕ := 0

def Answer.events (answer : Answer) : List RpcEvent :=
  (answer.response.map (·.events)).getD []

/-- `updateOne` of `processSettlementProposed`. -/
def upsertProposed (settlements : Collection SettlementRecord ℕ (·.id)) (settlementId : ℕ)
    (token : String) (amount : UInt64) (merchant txHash : String) :
    Collection SettlementRecord ℕ (·.id) :=
  settlements.upsert
    { id := settlementId, merchantAddress := merchant, amount := toString amount, token,
      approvals := [], approvalWeight := 0, status := .pending, holdReason := none,
      proposedTxHash := some txHash, executedTxHash := none }
    (fun record => { record with
      merchantAddress := merchant, amount := toString amount, token,
      proposedTxHash := some txHash })
    fun _ => rfl

/-- `updateOne` of `processSettlementApproved`. -/
def upsertApproved (settlements : Collection SettlementRecord ℕ (·.id)) (settlementId : ℕ)
    (signer : String) (newWeight : UInt64) : Collection SettlementRecord ℕ (·.id) :=
  settlements.upsert
    { id := settlementId, merchantAddress := "", amount := "0", token := "",
      approvals := [signer], approvalWeight := number newWeight.toNat, status := .pending,
      holdReason := none, proposedTxHash := none, executedTxHash := none }
    (fun record => { record with
      approvals :=
        if signer ∈ record.approvals then record.approvals else record.approvals ++ [signer]
      approvalWeight := number newWeight.toNat })
    fun _ => rfl

/-- `updateOne` of `processSettlementExecuted`. -/
def upsertExecuted (settlements : Collection SettlementRecord ℕ (·.id)) (settlementId : ℕ)
    (txHash : String) : Collection SettlementRecord ℕ (·.id) :=
  settlements.upsert
    { id := settlementId, merchantAddress := "", amount := "0", token := "",
      approvals := [], approvalWeight := 0, status := .executed, holdReason := none,
      proposedTxHash := none, executedTxHash := some txHash }
    (fun record => { record with status := .executed, executedTxHash := some txHash })
    fun _ => rfl

/-- The ids kept after new ones are pushed. -/
def pushEventIds (ids newEventIds : List String) : List String :=
  if newEventIds = [] then ids else (ids ++ newEventIds).rtake keptEventIds

/-- What an action does to the world, and the result it has. -/
def execute {β : Type} (o : Action β) (answer : Answer) (w : World) : β × World :=
  match o with
  | .loadCursor => (w.db.cursor, w)
  | .getLatestLedger => (answer.sequence, w)
  | .getEvents _ _ => (answer.response, w)
  | .processSettlementProposed settlementId token amount merchant txHash =>
    ((), { w with db.settlements :=
      upsertProposed w.db.settlements settlementId token amount merchant txHash })
  | .processSettlementApproved settlementId signer newWeight =>
    ((), { w with db.settlements := upsertApproved w.db.settlements settlementId signer newWeight })
  | .processSettlementExecuted settlementId txHash =>
    ((), { w with db.settlements := upsertExecuted w.db.settlements settlementId txHash })
  | .findSettlement settlementId => (w.db.settlements.find settlementId, w)
  | .dispatchWebhook eventId webhook =>
    ((), { w with webhooks := w.webhooks ++ [(eventId, webhook)] })
  | .saveCursor pagingToken lastLedger newEventIds =>
    let cursor := ⟨pagingToken, lastLedger, pushEventIds w.remembered newEventIds⟩
    ((), { w with db.cursor := some cursor })

/-- The indexer; a process may crash before any action, and any page may be returned. -/
def system : System Action Answer World where
  exec := execute
  legal _ _ _ := True
  crashes _ := True

/-- A batch run to its end, with the answer of the environment. -/
def batch (cfg : Config) (w : World) (answer : Answer) : World :=
  (system.complete answer (processIndexerBatch cfg) w).2

/-! ## A batch run to its end -/

variable {cfg : Config} {answer : Answer} {w : World}

@[simp] theorem complete_done {α : Type} (a : α) (w : World) :
    system.complete answer (.done a) w = (a, w) := rfl

@[simp] theorem complete_act {α β : Type} (o : Action β) (k : β → Batch α) (w : World) :
    system.complete answer (.act o k) w =
      system.complete answer (k (execute o answer w).1) (execute o answer w).2 := rfl

/-- The loop over a page, run to its end. -/
def handled (cfg : Config) (w : World) (answer : Answer) (events : List RpcEvent) :
    Js (List String) × World :=
  system.complete answer (handleEvents cfg w.remembered events) w

/-- The ids that a batch records: none when it throws. -/
def newEventIds (cfg : Config) (t : World × Answer) : List String :=
  match (handled cfg t.1 t.2 t.2.events).1 with
  | .ok ids => ids
  | .error _ => []

/-- All ids recorded in a history of batches. -/
def recorded (cfg : Config) (h : List (World × Answer)) : List String :=
  h.flatMap (newEventIds cfg)

theorem complete_startLedger (lastLedger : ℕ) :
    (system.complete answer (startLedger lastLedger) w).2 = w := by
  unfold startLedger
  split
  · rfl
  · rfl

/-- A request that fails leaves the world. -/
theorem batch_of_none (h : answer.response = none) : batch cfg w answer = w := by
  simp [batch, processIndexerBatch, System.complete_bind, complete_startLedger, execute, h]

/-- **A batch** handles the events of the page, and then saves the cursor unless it throws. -/
theorem batch_of_response {response : EventsResponse} (h : answer.response = some response) :
    batch cfg w answer =
      match (handled cfg w answer response.events).1 with
      | .error _ => (handled cfg w answer response.events).2
      | .ok ids =>
        (execute (.saveCursor (lastPagingToken w.db.cursor response.events)
          (response.latestLedger.getD ((w.db.cursor.map (·.lastLedger)).getD 0)) ids) answer
          (handled cfg w answer response.events).2).2 := by
  simp only [batch, processIndexerBatch, Prog.perform_bind, complete_act, System.complete_bind,
    complete_startLedger, execute, h]
  rw [← World.remembered, ← handled]
  cases hr : (handled cfg w answer response.events).1 with
  | error err => rfl
  | ok ids => rfl

/-- The loop reaches its end when every round does. -/
theorem handleEvents_cons_eq_ok {processedIds ids : List String} {event : RpcEvent}
    {events : List RpcEvent} :
    (system.complete answer (handleEvents cfg processedIds (event :: events)) w).1 = .ok ids ↔
      ∃ applied rest, (system.complete answer (handleEvent cfg processedIds event) w).1 =
          .ok applied ∧
        (system.complete answer (handleEvents cfg (processedIds ++ applied.toList) events)
          (system.complete answer (handleEvent cfg processedIds event) w).2).1 = .ok rest ∧
        ids = applied.toList ++ rest := by
  rw [handleEvents, System.complete_bind]
  cases (system.complete answer (handleEvent cfg processedIds event) w).1 with
  | error err => simp
  | ok applied =>
    dsimp only
    rw [System.complete_bind]
    cases hrest : (system.complete answer (handleEvents cfg (processedIds ++ applied.toList) events)
      (system.complete answer (handleEvent cfg processedIds event) w).2).1 with
    | error err => simp [hrest]
    | ok rest => simp [hrest, eq_comm]

/-! ## What the loop leaves alone -/

theorem applyChange_frame (header : Header) (txHash : String) (change : Change) :
    (system.complete answer (applyChange cfg header txHash change) w).2.db.cursor =
      w.db.cursor := by
  cases change <;> simp only [applyChange, notify, Prog.perform_bind, complete_act] <;>
    split <;> rfl

theorem handleEvent_frame (cfg : Config) (answer : Answer) (w : World)
    (processedIds : List String) (event : RpcEvent) :
    (system.complete answer (handleEvent cfg processedIds event) w).2.db.cursor = w.db.cursor := by
  unfold handleEvent
  split
  · rfl
  · rfl
  · split
    · rfl
    · split
      · rfl
      · rw [System.complete_bind]
        exact applyChange_frame _ _ _

/-- The loop leaves the cursor alone. -/
theorem handleEvents_frame (events : List RpcEvent) (processedIds : List String) (w : World) :
    (system.complete answer (handleEvents cfg processedIds events) w).2.db.cursor =
      w.db.cursor := by
  induction events generalizing processedIds w with
  | nil => rfl
  | cons event events ih =>
    rw [handleEvents, System.complete_bind]
    have hevent := handleEvent_frame cfg answer w processedIds event
    cases (system.complete answer (handleEvent cfg processedIds event) w).1 with
    | error err => exact hevent
    | ok applied =>
      -- the rest of the page goes on with the id of the event, if it is new
      dsimp only
      rw [System.complete_bind]
      have hevents := ih (processedIds ++ applied.toList)
        (system.complete answer (handleEvent cfg processedIds event) w).2
      split
      · exact hevents.trans hevent
      · exact hevents.trans hevent

/-- An id that is kept has been there before, or is new. -/
theorem mem_pushEventIds {ids newEventIds : List String} {id : String}
    (h : id ∈ pushEventIds ids newEventIds) : id ∈ ids ∨ id ∈ newEventIds := by
  unfold pushEventIds at h
  split at h
  · exact Or.inl h
  · exact List.mem_append.mp (List.mem_of_mem_drop h)

@[simp] theorem pushEventIds_nil (ids : List String) : pushEventIds ids [] = ids := rfl

theorem handled_remembered (events : List RpcEvent) :
    (handled cfg w answer events).2.remembered = w.remembered := by
  rw [World.remembered, handled, handleEvents_frame]
  rfl

/-- A batch pushes the ids it records. -/
theorem remembered_batch (cfg : Config) (w : World) (answer : Answer) :
    (batch cfg w answer).remembered =
      pushEventIds w.remembered (newEventIds cfg (w, answer)) := by
  cases h : answer.response with
  | none =>
    have hids : newEventIds cfg (w, answer) = [] := by simp [newEventIds, Answer.events, h]; rfl
    rw [batch_of_none h, hids, pushEventIds_nil]
  | some response =>
    have hevents : answer.events = response.events := by simp [Answer.events, h]
    rw [batch_of_response h, newEventIds, hevents]
    cases hr : (handled cfg w answer response.events).1 with
    | error err => exact handled_remembered _
    | ok ids =>
      dsimp only [execute]
      rw [handled_remembered]
      rfl

/-- Cut lists can be pushed to. -/
theorem pushEventIds_rtake (l ids : List String) :
    pushEventIds (l.rtake keptEventIds) ids = (l ++ ids).rtake keptEventIds := by
  unfold pushEventIds
  split
  · next h => rw [h, List.append_nil]
  · exact Recent.rtake_append_rtake _ _ _

theorem recorded_snoc (h : List (World × Answer)) (t : World × Answer) :
    recorded cfg (h ++ [t]) = recorded cfg h ++ newEventIds cfg t := by
  simp [recorded]

/-- **The ids remembered** are the last 1000 of those recorded. -/
theorem remembered_run (cfg : Config) (answers : List Answer) :
    (run (batch cfg) World.empty answers).remembered =
      (recorded cfg (transitions (batch cfg) World.empty answers)).rtake keptEventIds := by
  -- on the last batch: it pushes to the ids cut so far as to the uncut ones
  induction answers using List.reverseRecOn with
  | nil => simp [recorded, World.remembered, World.empty, List.rtake_nil]
  | append_singleton answers answer ih =>
    rw [run_snoc, transitions_snoc, remembered_batch, ih, recorded_snoc, pushEventIds_rtake]

end Offchain.TreasuryIndexer
