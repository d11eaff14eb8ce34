import Comebackhere.Library.Collection
import Comebackhere.Library.Run

/-!
# The webhook delivery queue

A delivery posts a payload to an endpoint, and again after a delay while the answer is no success,
up to a number of attempts. One that has failed becomes a dead letter, which can be replayed. While
the process shuts down, the queue defers new deliveries, waits for those under way, and writes what
is unfinished to a store of pending deliveries, from which the next process resumes. Both stores
have the idempotency key of the payload as their key. What a task does between two awaits is one
step, and so is what a store does for one request. The writes to the stores succeed. The history of
attempts, the delays, the ids of requests, the times of failures and the metrics are left out.

## Main definitions

* `buildWebhookPayload`: a payload, with the idempotency key of its event
* `Entry`, `attemptLoop`: a delivery under way, and its loop
* `Process`, `State`: what the queue has in memory, and the stores beside it
* `Action`, `step`: a step of a task, of a store or of the environment
-/

namespace WebhookDelivery

/-! ## Data -/

structure WebhookPayload (Data : Type) where
  eventType : String
  invoiceId : Option String
  settlementId : Option String
  eventId : String
  deliveryId : String
  idempotencyKey : String
  timestamp : String
  data : Data
  deriving DecidableEq

variable {Data : Type}

/-- The payload of an event. The uuids and the time are those of the moment. -/
def buildWebhookPayload (eventType : String) (data : Data) (invoiceId settlementId : Option String)
    (uuid deliveryId timestamp : String) : WebhookPayload Data :=
  -- an event without an id gets a fresh one, and shares its key with no other
  let id := (invoiceId.or settlementId).getD uuid
  let idempotencyKey := eventType ++ ":" ++ id
  { eventType, invoiceId, settlementId, eventId := idempotencyKey, deliveryId, idempotencyKey,
    timestamp, data }

/-- What is delivered: an endpoint, and the payload for it. -/
abbrev Parcel (Data : Type) := String × WebhookPayload Data

/-- A delivery that is not finished, with the attempts it has had. -/
structure WebhookDeliveryJob (Data : Type) where
  endpoint : String
  payload : WebhookPayload Data
  attempts : ℕ
  deriving DecidableEq

namespace WebhookDeliveryJob

def key (job : WebhookDeliveryJob Data) : String := job.payload.idempotencyKey

def parcel (job : WebhookDeliveryJob Data) : Parcel Data := (job.endpoint, job.payload)

end WebhookDeliveryJob

inductive WebhookDeliveryStatus
  | delivered
  | failed
  | pending
  deriving DecidableEq

structure WebhookDeliveryRecord (Data : Type) where
  idempotencyKey : String
  endpoint : String
  payload : WebhookPayload Data
  status : WebhookDeliveryStatus
  attempts : ℕ
  lastStatusCode : Option ℕ
  lastError : Option String
  deriving DecidableEq

def WebhookDeliveryRecord.parcel (record : WebhookDeliveryRecord Data) : Parcel Data :=
  (record.endpoint, record.payload)

/-! ## Deliveries under way -/

/-- What a delivery is waiting for. -/
inductive Phase
  /-- The answer to a POST. -/
  | posting (attempt : ℕ)
  /-- The delay after an attempt. -/
  | waiting (attempt : ℕ)
  /-- `deliverWebhook` has returned, and what the queue does then has not begun. -/
  | returned (status : WebhookDeliveryStatus)
  /-- The dead letter is being written. -/
  | saving
  /-- The dead letter is written, and the queue has not gone on. -/
  | saved
  | over
  deriving DecidableEq

/-- A delivery under way, whether it is among the active ones, and the key of the dead letter that
it replays. The attempts of its record are those of its job. -/
structure Entry (Data : Type) where
  job : WebhookDeliveryJob Data
  lastStatusCode : Option ℕ
  lastError : Option String
  phase : Phase
  active : Bool
  replays : Option String
  deriving DecidableEq

def Entry.record (entry : Entry Data) (status : WebhookDeliveryStatus) :
    WebhookDeliveryRecord Data where
  idempotencyKey := entry.job.payload.idempotencyKey
  endpoint := entry.job.endpoint
  payload := entry.job.payload
  status
  attempts := entry.job.attempts
  lastStatusCode := entry.lastStatusCode
  lastError := entry.lastError

/-- A success: a status from 200 to 299. -/
def succeeds : Except String ℕ → Bool
  | .ok statusCode => 200 ≤ statusCode && statusCode < 300
  | .error _ => false

/-- The record keeps the last status and the last error. -/
def Entry.answered (entry : Entry Data) : Except String ℕ → Entry Data
  | .ok statusCode =>
    { entry with
      lastStatusCode := some statusCode
      lastError :=
        if succeeds (.ok statusCode) then entry.lastError
        else some ("HTTP " ++ toString statusCode) }
  | .error message => { entry with lastStatusCode := none, lastError := some message }

/-- A run of `resumePending`: it has read the pending deliveries, or has taken them. -/
inductive Resume (Data : Type)
  | found (jobs : List (WebhookDeliveryJob Data))
  | taken (jobs : List (WebhookDeliveryJob Data))
  deriving DecidableEq

/-- A run of `replayDeadLetter`: it has read the dead letter, or the delivery has succeeded. -/
inductive Replay (Data : Type)
  | found (idempotencyKey : String) (deadLetter : WebhookDeliveryRecord Data)
  | delivered (idempotencyKey : String) (result : WebhookDeliveryRecord Data)
  deriving DecidableEq

/-- What the queue has in memory, with the tasks under way. `writes` are the jobs that `persist`
is writing. -/
structure Process (Data : Type) where
  maxAttempts : ℕ
  accepting : Bool
  draining : Bool
  aborted : Bool
  entries : List (Entry Data)
  deferred : List (WebhookDeliveryJob Data)
  writes : List (WebhookDeliveryJob Data)
  resumes : List (Resume Data)
  replays : List (Replay Data)

/-- A process that has just been started. -/
def Process.new (maxAttempts : ℕ) : Process Data :=
  ⟨maxAttempts, true, false, false, [], [], [], [], []⟩

/-- The process, the two stores, and what the endpoints have received: the POSTs with a success. -/
structure State (Data : Type) where
  process : Process Data
  pending : Collection (WebhookDeliveryJob Data) String (·.key)
  deadLetters : Collection (WebhookDeliveryRecord Data) String (·.idempotencyKey)
  delivered : List (Parcel Data)

def start (maxAttempts : ℕ) : State Data := ⟨.new maxAttempts, .empty, .empty, []⟩

inductive Action (Data : Type)
  | enqueue (endpoint : String) (payload : WebhookPayload Data)
  | stopAccepting
  /-- `drain` begins, and its wait ends: all deliveries have, or the time is up. -/
  | drain
  | halt
  /-- The next step of a delivery, with the answer to its POST if it waits for one. -/
  | advance (entry : ℕ) (response : Except String ℕ)
  /-- A job that is being persisted is written. -/
  | persist (write : ℕ)
  /-- `resumePending` reads the pending deliveries, and goes on: the deletion, and then the
  re-enqueueing, unless the dead letters cannot be listed. -/
  | resumePending
  | resume (resume : ℕ) (listed : Bool)
  /-- `replayDeadLetter` reads the dead letter, and goes on: the enqueueing, and, when the delivery
  has succeeded, the deletion. -/
  | replayDeadLetter (idempotencyKey : String)
  | replay (replay : ℕ)
  /-- The process ends, and a new one is started. -/
  | restart (maxAttempts : ℕ)

/-! ## Steps -/

/-- The loop of `deliverWebhook`, from an attempt on, up to its first await. -/
def attemptLoop (process : Process Data) (entry : Entry Data) (attempt : ℕ) : Entry Data :=
  if attempt < process.maxAttempts then
    -- the drain has ended: the record stays pending
    if process.aborted then { entry with phase := .returned .pending }
    else { entry with job.attempts := attempt + 1, phase := .posting attempt }
  else { entry with phase := .returned .failed }

def enqueue (s : State Data) (job : WebhookDeliveryJob Data) (replays : Option String) :
    State Data :=
  if s.process.accepting = false then
    -- after the end of the drain nobody looks at the deferred jobs
    if s.process.aborted then { s with process.writes := s.process.writes ++ [job] }
    else { s with process.deferred := s.process.deferred ++ [job] }
  else
    -- the loop runs up to its first await before the caller goes on
    let entry := attemptLoop s.process ⟨job, none, none, .over, true, replays⟩ job.attempts
    { s with process.entries := s.process.entries ++ [entry] }

/-- The jobs of the active deliveries, and those deferred. -/
def Process.unfinished (process : Process Data) : List (WebhookDeliveryJob Data) :=
  (process.entries.filter (·.active)).map (·.job) ++ process.deferred

/-- The end of the wait of `drain`. -/
def halt (s : State Data) : State Data :=
  if s.process.draining then
    { s with
      process.aborted := true
      process.entries := s.process.entries.map ({ · with active := false })
      process.deferred := []
      process.writes := s.process.writes ++ s.process.unfinished }
  else s

namespace State

/-- A delivery goes on. -/
def setEntry (s : State Data) (i : ℕ) (entry : Entry Data) : State Data :=
  { s with process.entries := s.process.entries.set i entry }

/-- An endpoint receives a payload. -/
def deliver (s : State Data) (parcel : Parcel Data) : State Data :=
  { s with delivered := s.delivered ++ [parcel] }

/-- `save` of the store of dead letters. -/
def saveDeadLetter (s : State Data) (record : WebhookDeliveryRecord Data) : State Data :=
  { s with deadLetters := s.deadLetters.replaceOne record }

/-- `delete` of the store of dead letters. -/
def deleteDeadLetter (s : State Data) (idempotencyKey : String) : State Data :=
  { s with
    deadLetters := s.deadLetters.deleteMany fun record => record.idempotencyKey = idempotencyKey }

/-- A run of `replayDeadLetter` goes on. -/
def addReplay (s : State Data) (replay : Replay Data) : State Data :=
  { s with process.replays := s.process.replays ++ [replay] }

/-- `save` of the store of pending deliveries, one job of it. -/
def savePending (s : State Data) (job : WebhookDeliveryJob Data) : State Data :=
  { s with pending := s.pending.replaceOne job }

end State

def answer (s : State Data) (i : ℕ) (entry : Entry Data) (attempt : ℕ)
    (response : Except String ℕ) : State Data :=
  let answered := entry.answered response
  if succeeds response then
    (s.deliver entry.job.parcel).setEntry i { answered with phase := .returned .delivered }
  -- no delay after the last attempt
  else if attempt + 1 = s.process.maxAttempts then
    s.setEntry i (attemptLoop s.process answered (attempt + 1))
  else s.setEntry i { answered with phase := .waiting attempt }

def advance (s : State Data) (i : ℕ) (entry : Entry Data) (response : Except String ℕ) :
    State Data :=
  match entry.phase with
  | .posting attempt => answer s i entry attempt response
  | .waiting attempt => s.setEntry i (attemptLoop s.process entry (attempt + 1))
  -- it stays among the active ones, where `drain` finds it
  | .returned .pending => s.setEntry i { entry with phase := .over }
  | .returned .failed => s.setEntry i { entry with phase := .saving }
  | .returned .delivered =>
    let s := s.setEntry i { entry with active := false, phase := .over }
    match entry.replays with
    | none => s
    | some idempotencyKey => s.addReplay (.delivered idempotencyKey (entry.record .delivered))
  | .saving =>
    (s.saveDeadLetter (entry.record .failed)).setEntry i { entry with phase := .saved }
  | .saved => s.setEntry i { entry with active := false, phase := .over }
  | .over => s

/-- `takeAll` up to the deletion, which is left out when there is nothing to delete. -/
def resumePending (s : State Data) : State Data :=
  let resume := if s.pending.docs = [] then .taken [] else .found s.pending.docs
  { s with process.resumes := s.process.resumes ++ [resume] }

def resume (s : State Data) (i : ℕ) (listed : Bool) : Resume Data → State Data
  | .found jobs =>
    -- whatever is under the keys by now
    { s with
      pending := s.pending.deleteMany fun job => job.key ∈ jobs.map (·.key)
      process.resumes := s.process.resumes.set i (.taken jobs) }
  | .taken jobs =>
    let s := { s with process.resumes := s.process.resumes.eraseIdx i }
    -- the listing of the dead letters stands between the deletion and the loop
    if listed then jobs.foldl (enqueue · · none) s else s

def replayDeadLetter (s : State Data) (idempotencyKey : String) : State Data :=
  match s.deadLetters.find idempotencyKey with
  | none => s
  | some deadLetter => s.addReplay (.found idempotencyKey deadLetter)

def replay (s : State Data) (i : ℕ) (replay : Replay Data) : State Data :=
  let s := { s with process.replays := s.process.replays.eraseIdx i }
  match replay with
  | .found idempotencyKey deadLetter =>
    enqueue s ⟨deadLetter.endpoint, deadLetter.payload, 0⟩ (some idempotencyKey)
  | .delivered idempotencyKey _ => s.deleteDeadLetter idempotencyKey

def step (s : State Data) : Action Data → State Data
  | .enqueue endpoint payload => enqueue s ⟨endpoint, payload, 0⟩ none
  | .stopAccepting => { s with process.accepting := false }
  | .drain => { s with process.accepting := false, process.draining := true }
  | .halt => halt s
  | .advance i response =>
    match s.process.entries[i]? with
    | none => s
    | some entry => advance s i entry response
  | .persist i =>
    match s.process.writes[i]? with
    | none => s
    | some job => { s with process.writes := s.process.writes.eraseIdx i }.savePending job
  | .resumePending => resumePending s
  | .resume i listed =>
    match s.process.resumes[i]? with
    | none => s
    | some r => resume s i listed r
  | .replayDeadLetter idempotencyKey => replayDeadLetter s idempotencyKey
  | .replay i =>
    match s.process.replays[i]? with
    | none => s
    | some r => replay s i r
  | .restart maxAttempts => { s with process := .new maxAttempts }

end WebhookDelivery
