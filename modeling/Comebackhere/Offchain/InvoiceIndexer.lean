import Comebackhere.Invoice.Contract
import Comebackhere.Library.Collection
import Comebackhere.Library.Process
import Comebackhere.Offchain.ScVal

/-!
# The invoice indexer

The indexer polls the RPC server for the events of the invoice contract, stores those it tracks
and writes their status to the invoice records. Its poll is a program whose actions are the calls
to the server, the writes to the database, each atomic, and the hook for a new transition. The
mode without a database, the metrics and the times at which documents are written are left out.

## Main definitions

* `Db`, `World`: the database, and the database with the calls of the hook
* `recordTransition`, `pollOnce`: the poll
* `Rpc`: the server, with the events it will return
* `indexer`: what the actions do, and the answers the server may give
-/

namespace Offchain

open Soroban Process
open Invoicing (InvoiceStatus)

/-! ## Data -/

inductive InvoiceEventType
  | invoiceCreated
  | invoicePaid
  | invoiceExpired
  | invoiceCancelled
  | escrowReleased
  deriving DecidableEq, Repr

/-- A transition of an invoice. The time it is stored stands in for a closing time the server did
not send. -/
structure InvoiceStateTransition where
  eventType : InvoiceEventType
  invoiceId : String
  ledger : ℕ
  ledgerClosedAt : Option String
  transactionHash : String
  contractId : String
  rawTopics : List ScVal
  rawValue : ScVal

structure InvoiceEventRecord where
  eventId : String
  pagingToken : Option String
  transition : InvoiceStateTransition
  applied : Bool

/-- An invoice record, as far as the indexer writes it. -/
structure InvoiceRecord where
  invoiceId : String
  status : InvoiceStatus
  deriving DecidableEq

structure IndexerCursor where
  pagingToken : Option String
  lastLedger : ℕ
  deriving DecidableEq

/-- A range of ledgers that the server no longer had. -/
structure IndexerGapRecord where
  contractId : String
  fromLedger : ℕ
  toLedger : ℤ
  missingLedgers : ℤ
  deriving DecidableEq

/-- The collections of the indexer, with their unique keys, and its cursor document. -/
structure Db where
  invoiceEvents : Collection InvoiceEventRecord String (·.eventId)
  invoices : Collection InvoiceRecord String (·.invoiceId)
  indexerGaps : Collection IndexerGapRecord (ℕ × ℤ) fun gap => (gap.fromLedger, gap.toLedger)
  cursor : Option IndexerCursor

/-- The database, and the calls of the hook so far: the event, when it has an id, and its
transition. -/
structure World where
  db : Db
  calls : List (Option String × InvoiceStateTransition)

/-! ## Event parsing -/

/-- The events that are tracked. -/
def trackedEvent : Symbol → Option InvoiceEventType
  | "invoice_created" => some .invoiceCreated
  | "invoice_paid" => some .invoicePaid
  | "invoice_expired" => some .invoiceExpired
  | "invoice_cancelled" => some .invoiceCancelled
  | "escrow_released" => some .escrowReleased
  | _ => none

def parseEventType (topics : List ScVal) : Option InvoiceEventType :=
  match optional topics[0]? ScVal.getSym with
  | .ok (some name) => trackedEvent name
  | _ => none

def parseInvoiceId (topics : List ScVal) : String :=
  match topics[1]? with
  | none => "unknown"
  | some topic =>
    match topic.getU64, topic.getU32 with
    | .ok (some n), _ => toString n
    | _, .ok (some n) => toString n
    | _, _ => "unknown"

/-- The id of an event: its own, or its paging token. -/
def eventIdOf (event : RpcEvent) : Option String := event.id.or event.pagingToken

/-- The status that an event gives its invoice. -/
def statusByEvent : InvoiceEventType → Option InvoiceStatus
  | .invoiceCreated => none
  | .invoicePaid => some .paid
  | .invoiceExpired => some .expired
  | .invoiceCancelled => some .cancelled
  | .escrowReleased => some .released

/-! ## Actions -/

/-- Where the server resumes: after a paging token, or at a ledger. -/
inductive Resume
  | cursor (pagingToken : String)
  | startLedger (ledger : ℕ)
  deriving DecidableEq

/-- The ledger asked for, if one is. -/
def Resume.ledger : Resume → ℕ
  | cursor _ => 0
  | startLedger ledger => ledger

structure EventsResponse where
  events : List RpcEvent
  cursor : Option String
  latestLedger : Option ℕ

/-- What `getEvents` throws: an error of the retention window, with the oldest ledger when the
message names it, or any other. -/
inductive RpcError
  | retention (oldestLedger : Option ℕ)
  | other
  deriving DecidableEq

/-- A write that failed because another one inserted its key first. -/
inductive WriteError
  | duplicateKey

/-- The steps of the indexer that others can come between. The hook is named with the id of the
event it is called for. -/
inductive Action : Type → Type
  | loadMongoCursor : Action (Option IndexerCursor)
  | getLatestLedger : Action ℕ
  | getHealth : Action (Option ℕ)
  | getEvents (resume : Resume) : Action (Except RpcError EventsResponse)
  | findOneAndUpdate (record : InvoiceEventRecord) :
      Action (Except WriteError (Option InvoiceEventRecord))
  | updateStatus (invoiceId : String) (status : InvoiceStatus) : Action Unit
  | markApplied (eventId : String) : Action Unit
  | persistTransition (eventId : Option String) (transition : InvoiceStateTransition) : Action Unit
  | saveMongoCursor (pagingToken : Option String) (lastLedger : ℕ) : Action Unit
  | recordRetentionGap (contractId : String) (fromLedger : ℕ) (toLedger : ℤ) : Action Unit

abbrev Poll (α : Type) := Prog Action α

open Prog (perform)

/-! ## The poll -/

/-- The status of an event, when it has one, is written to its invoice. -/
def applyStatus (transition : InvoiceStateTransition) : Poll Unit :=
  match statusByEvent transition.eventType with
  | some status => perform (.updateStatus transition.invoiceId status)
  | none => return ()

/-- Stores the event under its id and applies it to the invoice; `false` when it was applied
already. -/
def recordTransition (eventId : String) (pagingToken : Option String)
    (transition : InvoiceStateTransition) : Poll Bool := do
  match ← perform (.findOneAndUpdate ⟨eventId, pagingToken, transition, false⟩) with
  | .error .duplicateKey => return false
  | .ok before =>
    if before.any (·.applied) then
      return false
    else
      applyStatus transition
      -- the event is marked before the hook is called, not after
      perform (.markApplied eventId)
      perform (.persistTransition (some eventId) transition)
      return true

def transitionOf (contractId : String) (event : RpcEvent) (eventType : InvoiceEventType) :
    InvoiceStateTransition where
  eventType := eventType
  invoiceId := parseInvoiceId event.topic
  ledger := event.ledger
  ledgerClosedAt := event.ledgerClosedAt
  transactionHash := event.txHash.getD ""
  contractId := contractId
  rawTopics := event.topic
  rawValue := event.value

/-- One round of the loop of `pollOnce`: whether the event is newly applied. -/
def handleEvent (contractId : String) (event : RpcEvent) : Poll Bool :=
  match parseEventType event.topic with
  | none => return false
  | some eventType =>
    let transition := transitionOf contractId event eventType
    match eventIdOf event with
    | some eventId => recordTransition eventId event.pagingToken transition
    | none => do
      perform (.persistTransition none transition)
      return true

/-- The loop of `pollOnce`: how many events are newly applied. -/
def handleEvents (contractId : String) : List RpcEvent → Poll ℕ
  | [] => return 0
  | event :: events => do
    let applied ← handleEvent contractId event
    let rest ← handleEvents contractId events
    return applied.toNat + rest

/-- The configuration of the process: the contract, and the ledger to start from. -/
structure Config where
  contractId : String
  startLedger : Option ℕ

/-- The resume point of a stored cursor: its token, else its ledger. -/
def savedResume (saved : Option IndexerCursor) : Option Resume :=
  match (saved.bind (·.pagingToken)).filter (· ≠ "") with
  | some pagingToken => some (.cursor pagingToken)
  | none =>
    let lastLedger := (saved.map (·.lastLedger)).getD 0
    if 0 < lastLedger then some (.startLedger lastLedger) else none

/-- Ledger to start from when no cursor has ever been saved. -/
def initialStartLedger (cfg : Config) : Poll ℕ :=
  match cfg.startLedger.filter (0 < ·) with
  | some configured => return configured
  | none => perform .getLatestLedger

def resumeFrom (cfg : Config) (saved : Option IndexerCursor) : Poll Resume :=
  match savedResume saved with
  | some resume => return resume
  | none => do return .startLedger (← initialStartLedger cfg)

/-- The ledger in a paging token "<toid>-<event index>": the upper 32 bits of the toid. -/
def ledgerFromPagingToken (token : String) : Option ℕ :=
  let toid := (token.splitOn "-").headD ""
  if toid ≠ "" ∧ toid.toList.all Char.isDigit then
    (toid.toNat?).map fun n => number (n / 2 ^ 32)
  else none

/-- The first ledger of a gap. -/
def gapStart (resume : Resume) (lastLedger : ℕ) : ℕ :=
  match resume with
  | .startLedger ledger => ledger
  | .cursor token => (ledgerFromPagingToken token).getD lastLedger

/-- The resume point after a page: its last event, or where the scan of an empty page ended. -/
def nextCursor (lastLedger : ℕ) (response : EventsResponse) : IndexerCursor :=
  match response.events.getLast? with
  | some last => ⟨last.pagingToken, last.ledger⟩
  | none => ⟨response.cursor, max lastLedger (response.latestLedger.getD 0)⟩

/-- A page is handled, and then the cursor is saved. -/
def handlePage (cfg : Config) (lastLedger : ℕ) (response : EventsResponse) : Poll ℕ := do
  let applied ← handleEvents cfg.contractId response.events
  let next := nextCursor lastLedger response
  perform (.saveMongoCursor next.pagingToken next.lastLedger)
  return applied

/-- The answer to an error of the retention window: the missing range is recorded, and the poll
goes on at the oldest ledger. -/
def skipGap (cfg : Config) (resume : Resume) (lastLedger oldest : ℕ) : Poll (Option ℕ) := do
  perform (.recordRetentionGap cfg.contractId (gapStart resume lastLedger) (oldest - 1))
  perform (.saveMongoCursor none oldest)
  match ← perform (.getEvents (.startLedger oldest)) with
  | .ok response => some <$> handlePage cfg oldest response
  | .error _ => return none

/-- Fetches and handles one page of events; `none` when the server's error is thrown. -/
def pollOnce (cfg : Config) : Poll (Option ℕ) := do
  let saved ← perform .loadMongoCursor
  let lastLedger := (saved.map (·.lastLedger)).getD 0
  let resume ← resumeFrom cfg saved
  match ← perform (.getEvents resume) with
  | .ok response => some <$> handlePage cfg lastLedger response
  | .error .other => return none
  | .error (.retention (some oldest)) => skipGap cfg resume lastLedger oldest
  | .error (.retention none) =>
    match ← perform .getHealth with
    | some oldest => skipGap cfg resume lastLedger oldest
    | none => return none

/-- The process polls again and again, whatever a poll returns. -/
def poll (cfg : Config) : Poll Unit := do
  let _ ← pollOnce cfg
  return ()

/-! ## The server and the database -/

/-- The server: the events it will return, in order, and the resume points of the paging tokens. -/
structure Rpc where
  events : List RpcEvent
  after : String → ℕ
  ids : ∀ event ∈ events, event.id ≠ none
  ids_nodup : (events.map (·.id)).Nodup
  ledgers : events.Pairwise (·.ledger ≤ ·.ledger)
  ledger_pos : ∀ event ∈ events, 0 < event.ledger
  after_token : ∀ i event token, events[i]? = some event → event.pagingToken = some token →
    after token = i + 1

/-- How many events come before a resume point. -/
def Rpc.position (rpc : Rpc) : Resume → ℕ
  | .cursor token => rpc.after token
  | .startLedger ledger => (rpc.events.takeWhile (·.ledger < ledger)).length

/-- The most events in a page. -/
def eventLimit : ℕ := 100

/-- An answer of the server: how many events a page has, its other fields, and the answers to the
other requests. -/
structure Answer where
  count : ℕ := 0
  cursor : Option String := none
  latestLedger : Option ℕ := none
  error : Option RpcError := none
  sequence : ℕ := 0
  oldestLedger : Option ℕ := none

/-- The page the server returns: the events after the resume point, in order. -/
def Rpc.page (rpc : Rpc) (resume : Resume) (answer : Answer) : EventsResponse where
  events := (rpc.events.drop (rpc.position resume)).take answer.count
  cursor := answer.cursor
  latestLedger := answer.latestLedger

/-- The server returns a page of at most the limit. An empty page names the latest ledger, which is
not before the ledger asked for, every later event being in a later one; if it has a cursor, that
is where it resumed. -/
def Rpc.MayAnswer (rpc : Rpc) (resume : Resume) (answer : Answer) : Prop :=
  (∀ error ∈ answer.error, error = .other) ∧ answer.count ≤ eventLimit ∧
    ((rpc.page resume answer).events = [] →
      (∀ token ∈ answer.cursor, rpc.after token = rpc.position resume) ∧
        ∃ latest ∈ answer.latestLedger, 0 < latest ∧ resume.ledger ≤ latest ∧
          ∀ event ∈ rpc.events.drop (rpc.position resume), latest < event.ledger)

/-- The invoice records after one is given a status. -/
def setStatus (invoices : Collection InvoiceRecord String (·.invoiceId)) (invoiceId : String)
    (status : InvoiceStatus) : Collection InvoiceRecord String (·.invoiceId) :=
  invoices.updateOne invoiceId (fun record => { record with status }) fun _ => rfl

/-- The event records after one is marked as applied. -/
def setApplied (events : Collection InvoiceEventRecord String (·.eventId)) (eventId : String) :
    Collection InvoiceEventRecord String (·.eventId) :=
  events.updateOne eventId (fun record => { record with applied := true }) fun _ => rfl

/-- What an action does to the database, and the result it has. -/
def execute (rpc : Rpc) {β : Type} (o : Action β) (answer : Answer) (w : World) : β × World :=
  match o with
  | .loadMongoCursor => (w.db.cursor, w)
  | .getLatestLedger => (answer.sequence, w)
  | .getHealth => (answer.oldestLedger, w)
  | .getEvents resume =>
    (match answer.error with
      | some error => .error error
      | none => .ok (rpc.page resume answer), w)
  | .findOneAndUpdate record =>
    (.ok (w.db.invoiceEvents.find record.eventId),
      { w with db.invoiceEvents := w.db.invoiceEvents.insertIfAbsent record })
  | .updateStatus invoiceId status =>
    ((), { w with db.invoices := setStatus w.db.invoices invoiceId status })
  | .markApplied eventId =>
    ((), { w with db.invoiceEvents := setApplied w.db.invoiceEvents eventId })
  | .persistTransition eventId transition =>
    ((), { w with calls := w.calls ++ [(eventId, transition)] })
  | .saveMongoCursor pagingToken lastLedger =>
    ((), { w with db.cursor := some ⟨pagingToken, lastLedger⟩ })
  | .recordRetentionGap contractId fromLedger toLedger =>
    let gap := ⟨contractId, fromLedger, toLedger, max 0 (toLedger - fromLedger + 1)⟩
    ((), { w with db.indexerGaps := w.db.indexerGaps.insertIfAbsent gap })

/-- The answers the environment may give to an action. Where the process starts from the latest
ledger, the events are those from that ledger on. -/
def mayAnswer (rpc : Rpc) {β : Type} (o : Action β) (answer : Answer) : Prop :=
  match o with
  | .getEvents resume => rpc.MayAnswer resume answer
  | .getLatestLedger => ∀ event ∈ rpc.events, answer.sequence ≤ event.ledger
  | _ => True

instance (rpc : Rpc) (resume : Resume) (answer : Answer) : Decidable (rpc.MayAnswer resume answer) :=
  inferInstanceAs (Decidable (_ ∧ _ ∧ (_ → _)))

instance (rpc : Rpc) {β : Type} (answer : Answer) :
    ∀ o : Action β, Decidable (mayAnswer rpc o answer)
  | .getEvents resume => inferInstanceAs (Decidable (rpc.MayAnswer resume answer))
  | .getLatestLedger => inferInstanceAs (Decidable (∀ event ∈ rpc.events, _))
  | .loadMongoCursor | .getHealth | .findOneAndUpdate _ | .updateStatus _ _ | .markApplied _
  | .persistTransition _ _ | .saveMongoCursor _ _ | .recordRetentionGap _ _ _ => isTrue trivial

/-- The indexer on the events of a server; a process may crash before any action. -/
def indexer (rpc : Rpc) : System Action Answer World where
  exec o answer w := execute rpc o answer w
  legal o answer _ := mayAnswer rpc o answer
  crashes _ := True

instance (rpc : Rpc) (β : Type) (o : Action β) (answer : Answer) (w : World) :
    Decidable ((indexer rpc).legal o answer w) :=
  inferInstanceAs (Decidable (mayAnswer rpc o answer))

instance (rpc : Rpc) (β : Type) (o : Action β) : Decidable ((indexer rpc).crashes o) :=
  isTrue trivial

end Offchain
