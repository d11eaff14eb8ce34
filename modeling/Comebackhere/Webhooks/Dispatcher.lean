import Comebackhere.Library.Crew
import Comebackhere.Library.Run
import Comebackhere.Offchain.InvoiceDecoders

/-!
# The webhook dispatcher of the Rust backend

An event of an invoice goes to the sink when there is one, and into a queue otherwise. Retry
workers take the queue's first delivery, attempt it, and put a failed one back until its attempts
are used up; then it becomes a dead letter, which an operator may replay. The workers, the emitting
requests and the operator run at the same time: what one of them does under a lock is one step.

## Main definitions

* `Inner`: the dispatcher's configuration, its queue and its dead letters
* `Worker`: what a retry worker is about to do, and with which delivery
* `Action`, `step`: a step of a request, of a worker or of the operator
* `State.places`, `emitted`: the events that the dispatcher has, and those that requests emit

## Main results

* `places_step`: every step moves each delivery from one place to one other
* `Budgeted.step`: no step goes past the attempts that the configuration allows
* `run_conserves`: both, after every run
-/

namespace Webhooks

open Machine Offchain

/-- An event of an invoice, for the endpoint of its merchant. -/
structure WebhookEvent where
  eventType : String
  invoiceId : UInt64
  merchant : String
  data : Json
  createdAt : Int64

namespace Dispatcher

/-- A delivery that still has to be attempted. The source has no field `tries`: it counts the
attempts since the event was emitted or replayed. -/
structure PendingDelivery where
  event : WebhookEvent
  attempts : UInt32
  tries : ℕ

structure RetryConfig where
  maxAttempts : UInt32

def RetryConfig.default : RetryConfig := ⟨5⟩

structure Inner where
  config : RetryConfig
  sink : Bool
  enabled : Bool
  queue : List PendingDelivery
  deadLetter : List PendingDelivery

/-- A dispatcher as its constructors build it. -/
def Inner.built (config : RetryConfig) (sink enabled : Bool) : Inner :=
  ⟨config, sink, enabled, [], []⟩

def Inner.new (config : RetryConfig) : Inner := .built config false true

def Inner.disabled : Inner := .built .default false false

def Inner.withSink : Inner := .built .default true true

/-- Where a retry worker is in its loop: before it looks at the queue, about to attempt a
delivery, or left with one whose attempt has failed. -/
inductive Worker
  | polling
  | delivering (pending : PendingDelivery)
  | failed (pending : PendingDelivery)

/-- The dispatcher and its workers. `replaying` is what the operator has drained while it holds
the lock of the dead letters. The deliveries that the sink has taken are recorded. -/
structure State where
  inner : Inner
  workers : List Worker
  replaying : Option (List PendingDelivery)
  delivered : List PendingDelivery

def start (inner : Inner) : State := ⟨inner, [], none, []⟩

inductive Action
  | emitInvoiceEvent (event : WebhookEvent)
  | spawnRetryWorker
  /-- The next step of a worker, with the sink's answer if it is asked for one. -/
  | runRetryLoop (worker : ℕ) (ok : Bool)
  /-- The two halves of `replay_dead_letters`, each under a lock of its own. -/
  | drainDeadLetters
  | requeueReplayed

/-! ## Steps -/

def enqueue (s : State) (pending : PendingDelivery) : State :=
  { s with inner.queue := s.inner.queue ++ [pending] }

def emitInvoiceEvent (s : State) (event : WebhookEvent) : State :=
  if s.inner.enabled = false then s
  else if s.inner.sink then { s with delivered := s.delivered ++ [⟨event, 0, 1⟩] }
  else enqueue s ⟨event, 0, 0⟩

/-- The worker's next state. -/
def State.setWorker (s : State) (i : ℕ) (worker : Worker) : State :=
  { s with workers := s.workers.set i worker }

/-- One more attempt has been made. -/
def PendingDelivery.tried (d : PendingDelivery) : PendingDelivery := { d with tries := d.tries + 1 }

def runRetryLoop (s : State) (i : ℕ) (ok : Bool) : Worker → State
  | .polling =>
    match s.inner.queue with
    | [] => s
    | pending :: queue => { s with inner.queue := queue }.setWorker i (.delivering pending)
  | .delivering pending =>
    -- without a sink every attempt fails
    if s.inner.sink ∧ ok then
      { s with delivered := s.delivered ++ [pending.tried] }.setWorker i .polling
    -- the worker keeps what has failed until it has decided where to put it
    else s.setWorker i (.failed pending.tried)
  | .failed pending =>
    if s.inner.config.maxAttempts ≤ pending.attempts + 1 then
      match s.replaying with
      -- the operator holds the lock
      | some _ => s
      | none => { s with inner.deadLetter := s.inner.deadLetter ++ [pending] }.setWorker i .polling
    else enqueue (s.setWorker i .polling) { pending with attempts := pending.attempts + 1 }

def drainDeadLetters (s : State) : State :=
  match s.replaying with
  | some _ => s
  | none => { s with inner.deadLetter := [], replaying := some s.inner.deadLetter }

def requeueReplayed (s : State) : State :=
  match s.replaying with
  | none => s
  | some replayed =>
    { s with
      inner.queue := s.inner.queue ++ replayed.map fun delivery => ⟨delivery.event, 0, 0⟩
      replaying := none }

def step (s : State) : Action → State
  | .emitInvoiceEvent event => emitInvoiceEvent s event
  | .spawnRetryWorker => { s with workers := s.workers ++ [.polling] }
  | .runRetryLoop i ok =>
    match s.workers[i]? with
    | none => s
    | some worker => runRetryLoop s i ok worker
  | .drainDeadLetters => drainDeadLetters s
  | .requeueReplayed => requeueReplayed s

/-! ## Where the deliveries are -/

/-- What a worker has in hand. -/
def Worker.held : Worker → List PendingDelivery
  | .polling => []
  | .delivering pending | .failed pending => [pending]

@[simp] theorem Worker.held_polling : Worker.polling.held = [] := rfl

def State.inHands (s : State) : List PendingDelivery := s.workers.flatMap Worker.held

/-- The dead letters: the list behind the lock, with what the operator who holds the lock has
drained from it. -/
def State.deadLetters (s : State) : List PendingDelivery :=
  s.inner.deadLetter ++ s.replaying.getD []

/-- The events of some deliveries, each as often as it occurs. -/
def events (ds : List PendingDelivery) : Multiset WebhookEvent := ↑(ds.map (·.event))

@[simp] theorem events_nil : events [] = 0 := rfl

@[simp] theorem events_append (ds ds' : List PendingDelivery) :
    events (ds ++ ds') = events ds + events ds' := by
  simp [events, ← Multiset.coe_add]

@[simp] theorem events_singleton (d : PendingDelivery) : events [d] = {d.event} := rfl

theorem events_cons (d : PendingDelivery) (ds : List PendingDelivery) :
    events (d :: ds) = {d.event} + events ds := rfl

@[simp] theorem events_replayed (ds : List PendingDelivery) :
    events (ds.map fun d => ⟨d.event, 0, 0⟩) = events ds := by
  simp [events, Function.comp_def]

/-- The events in all these places together. -/
def State.places (s : State) : Multiset WebhookEvent :=
  events s.delivered + events s.inner.queue + events s.inHands + events s.deadLetters

/-- The event that an action emits. -/
def Action.event? : Action → Option WebhookEvent
  | .emitInvoiceEvent event => some event
  | _ => none

/-- The events that some actions emit. -/
def emitted (as : List Action) : Multiset WebhookEvent := ↑(as.filterMap Action.event?)

theorem emitted_snoc (as : List Action) (a : Action) :
    emitted (as ++ [a]) = emitted as + (a.event?.toList : Multiset WebhookEvent) := by
  cases a <;> simp [emitted, Action.event?, ← Multiset.coe_add]

section Places

variable {s : State} {i : ℕ} {worker worker' : Worker}

/-- What the workers have in hand, when one of them goes on. -/
theorem events_setWorker (h : s.workers[i]? = some worker) (worker' : Worker) :
    events (s.setWorker i worker').inHands + events worker.held =
      events s.inHands + events worker'.held := by
  have hset := Crew.coe_flatMap_set Worker.held h worker'
  have hmap := congrArg (Multiset.map (·.event)) hset
  simpa [events, State.inHands, State.setWorker] using hmap

/-- A worker without a delivery takes one. -/
theorem events_take {pending : PendingDelivery} (worker' : Worker)
    (h : s.workers[i]? = some worker)
    (hnone : worker.held = []) (hone : worker'.held = [pending]) :
    events (s.setWorker i worker').inHands = events s.inHands + {pending.event} := by
  have hset := events_setWorker h worker'
  rw [hnone, hone] at hset
  simpa using hset

/-- A worker puts its delivery down. -/
theorem events_put {pending : PendingDelivery} (h : s.workers[i]? = some worker)
    (hone : worker.held = [pending]) :
    events s.inHands = events (s.setWorker i .polling).inHands + {pending.event} := by
  have hset := events_setWorker h .polling
  rw [hone] at hset
  simpa using hset.symm

/-- A worker takes a delivery from one place to one other. -/
theorem places_runRetryLoop (h : s.workers[i]? = some worker) (ok : Bool) :
    (runRetryLoop s i ok worker).places = s.places := by
  cases worker with
  | polling =>
    cases hq : s.inner.queue with
    | nil => simp only [runRetryLoop, hq]
    | cons pending queue =>
      -- from the queue into the worker's hands
      have htake := events_take (.delivering pending) h rfl rfl
      simp only [runRetryLoop, hq]
      calc events s.delivered + events queue +
              events (s.setWorker i (.delivering pending)).inHands + events s.deadLetters
          = events s.delivered + events queue + (events s.inHands + {pending.event}) +
              events s.deadLetters := by rw [htake]
        _ = events s.delivered + ({pending.event} + events queue) + events s.inHands +
              events s.deadLetters := by abel
        _ = s.places := by rw [State.places, hq, events_cons]
  | delivering pending =>
    have hput := events_put h rfl
    simp only [runRetryLoop]
    split
    · -- from the hands to the sink
      calc events (s.delivered ++ [pending.tried]) + events s.inner.queue +
              events (s.setWorker i .polling).inHands + events s.deadLetters
          = events s.delivered + events s.inner.queue +
              (events (s.setWorker i .polling).inHands + {pending.event}) +
              events s.deadLetters := by
            rw [events_append, events_singleton]
            simp only [PendingDelivery.tried]
            abel
        _ = s.places := by rw [← hput, State.places]
    · -- it stays in the hands
      have hkeep := events_setWorker h (.failed pending.tried)
      have hsame : events (s.setWorker i (.failed pending.tried)).inHands = events s.inHands :=
        add_right_cancel hkeep
      calc events s.delivered + events s.inner.queue +
              events (s.setWorker i (.failed pending.tried)).inHands + events s.deadLetters
          = s.places := by rw [hsame, State.places]
  | failed pending =>
    have hput := events_put h rfl
    simp only [runRetryLoop]
    split
    · cases hr : s.replaying with
      | some replayed => rfl
      | none =>
        -- from the hands to the dead letters
        have hdead : events s.deadLetters = events s.inner.deadLetter := by
          simp [State.deadLetters, hr]
        calc _ = events s.delivered + events s.inner.queue +
                events (s.setWorker i .polling).inHands +
                events (s.inner.deadLetter ++ [pending]) := by
              simp [State.places, State.deadLetters, State.setWorker, State.inHands, hr]
          _ = events s.delivered + events s.inner.queue +
                (events (s.setWorker i .polling).inHands + {pending.event}) +
                events s.inner.deadLetter := by
              rw [events_append, events_singleton]
              abel
          _ = s.places := by rw [← hput, ← hdead, State.places]
    · -- from the hands back into the queue
      calc events s.delivered +
              events (s.inner.queue ++ [{ pending with attempts := pending.attempts + 1 }]) +
              events (s.setWorker i .polling).inHands + events s.deadLetters
          = events s.delivered + events s.inner.queue +
              (events (s.setWorker i .polling).inHands + {pending.event}) +
              events s.deadLetters := by
            rw [events_append, events_singleton]
            abel
        _ = s.places := by rw [← hput, State.places]

/-- An enabled dispatcher has an event that is emitted in one more place. -/
theorem places_emitInvoiceEvent (henabled : s.inner.enabled = true) (event : WebhookEvent) :
    (emitInvoiceEvent s event).places = s.places + {event} := by
  simp only [emitInvoiceEvent, henabled, Bool.true_eq_false, if_false]
  split
  · have hsink : events (s.delivered ++ [⟨event, 0, 1⟩]) + events s.inner.queue +
        events s.inHands + events s.deadLetters = s.places + {event} := by
      rw [events_append, events_singleton, State.places]
      abel
    exact hsink
  · have hqueue : events s.delivered + events (s.inner.queue ++ [⟨event, 0, 0⟩]) +
        events s.inHands + events s.deadLetters = s.places + {event} := by
      rw [events_append, events_singleton, State.places]
      abel
    exact hqueue

theorem places_requeueReplayed : (requeueReplayed s).places = s.places := by
  cases hr : s.replaying with
  | none => simp only [requeueReplayed, hr]
  | some replayed =>
    have hdead : events s.deadLetters = events s.inner.deadLetter + events replayed := by
      rw [← events_append]
      simp [State.deadLetters, hr]
    simp only [requeueReplayed, hr]
    calc _ = events s.delivered + (events s.inner.queue +
              events (replayed.map fun delivery => ⟨delivery.event, 0, 0⟩)) + events s.inHands +
              events s.inner.deadLetter := by
            simp [State.places, State.deadLetters, State.inHands]
      _ = events s.delivered + events s.inner.queue + events s.inHands +
            (events s.inner.deadLetter + events replayed) := by
          rw [events_replayed]
          abel
      _ = s.places := by rw [← hdead, State.places]

theorem places_drainDeadLetters : (drainDeadLetters s).places = s.places := by
  cases hr : s.replaying with
  | some replayed => simp only [drainDeadLetters, hr]
  | none => simp [drainDeadLetters, hr, State.places, State.deadLetters, State.inHands]

/-- **Every step** moves each delivery from one place to one other, and adds the event that it
emits. -/
theorem places_step (henabled : s.inner.enabled = true) (a : Action) :
    (step s a).places = s.places + (a.event?.toList : Multiset WebhookEvent) := by
  cases a with
  | emitInvoiceEvent event => exact places_emitInvoiceEvent henabled event
  | spawnRetryWorker =>
    simp [step, State.places, State.inHands, State.deadLetters, Action.event?]
  | runRetryLoop i ok =>
    apply Eq.trans _ (add_zero _).symm
    cases hi : s.workers[i]? with
    | none => simp only [step, hi]
    | some worker => simpa only [step, hi] using places_runRetryLoop hi ok
  | drainDeadLetters => exact places_drainDeadLetters.trans (add_zero _).symm
  | requeueReplayed => exact places_requeueReplayed.trans (add_zero _).symm

end Places

/-! ## Attempts -/

/-- The attempts that a worker has counted are those it has made, and more are left. -/
def Fresh (config : RetryConfig) (d : PendingDelivery) : Prop :=
  d.tries = d.attempts.toNat ∧ d.attempts < config.maxAttempts

/-- What a worker may have in hand. -/
def Worker.Within (config : RetryConfig) : Worker → Prop
  | .polling => True
  | .delivering pending => Fresh config pending
  | .failed pending =>
    pending.tries = pending.attempts.toNat + 1 ∧ pending.attempts < config.maxAttempts

theorem Fresh.le {config : RetryConfig} {d : PendingDelivery} (h : Fresh config d) :
    d.tries ≤ config.maxAttempts.toNat := by
  rw [h.1]
  exact (UInt32.lt_iff_toNat_lt.mp h.2).le

theorem Worker.Within.le {config : RetryConfig} {worker : Worker} (h : worker.Within config)
    {d : PendingDelivery} (hd : d ∈ worker.held) : d.tries ≤ config.maxAttempts.toNat := by
  cases worker with
  | polling => simp at hd
  | delivering pending =>
    obtain rfl := List.mem_singleton.mp hd
    exact Fresh.le h
  | failed pending =>
    obtain rfl := List.mem_singleton.mp hd
    rw [h.1]
    exact UInt32.lt_iff_toNat_lt.mp h.2

/-- No delivery has been attempted more often than the configuration allows. -/
structure Budgeted (s : State) : Prop where
  queue : ∀ d ∈ s.inner.queue, Fresh s.inner.config d
  workers : ∀ worker ∈ s.workers, worker.Within s.inner.config
  deadLetter : ∀ d ∈ s.deadLetters, d.tries ≤ s.inner.config.maxAttempts.toNat
  delivered : ∀ d ∈ s.delivered, d.tries ≤ s.inner.config.maxAttempts.toNat

section Budget

variable {s : State}

theorem budgeted_start (inner : Inner) (hqueue : inner.queue = []) (hdead : inner.deadLetter = []) :
    Budgeted (start inner) := by
  constructor <;> simp [start, State.deadLetters, hqueue, hdead]

/-- While attempts are left, the count of one more does not overflow. -/
theorem toNat_add_one_of_lt {a b : UInt32} (h : a < b) : (a + 1).toNat = a.toNat + 1 := by
  have hab : a.toNat < b.toNat := UInt32.lt_iff_toNat_lt.mp h
  have hb := b.toNat_lt
  rw [UInt32.toNat_add]
  exact Nat.mod_eq_of_lt (by simp; omega)

theorem Budgeted.emitInvoiceEvent (hs : Budgeted s) (hmax : 1 ≤ s.inner.config.maxAttempts)
    (event : WebhookEvent) : Budgeted (emitInvoiceEvent s event) := by
  obtain ⟨hqueue, hworkers, hdead, hdelivered⟩ := hs
  have hone : 1 ≤ s.inner.config.maxAttempts.toNat := UInt32.le_iff_toNat_le.mp hmax
  simp only [Dispatcher.emitInvoiceEvent]
  split
  · exact ⟨hqueue, hworkers, hdead, hdelivered⟩
  split
  · refine ⟨hqueue, hworkers, hdead, fun d hd => ?_⟩
    rcases List.mem_append.mp hd with hd | hd
    · exact hdelivered d hd
    · obtain rfl := List.mem_singleton.mp hd
      exact hone
  · refine ⟨fun d hd => ?_, hworkers, hdead, hdelivered⟩
    rcases List.mem_append.mp hd with hd | hd
    · exact hqueue d hd
    · obtain rfl := List.mem_singleton.mp hd
      exact ⟨rfl, UInt32.lt_iff_toNat_lt.mpr hone⟩

theorem Budgeted.runRetryLoop (hs : Budgeted s) {i : ℕ} {worker : Worker}
    (h : s.workers[i]? = some worker) (ok : Bool) : Budgeted (runRetryLoop s i ok worker) := by
  obtain ⟨hqueue, hworkers, hdead, hdelivered⟩ := hs
  have hworker : worker.Within s.inner.config := hworkers worker (List.mem_of_getElem? h)
  cases worker with
  | polling =>
    cases hq : s.inner.queue with
    | nil =>
      simp only [Dispatcher.runRetryLoop, hq]
      exact ⟨hqueue, hworkers, hdead, hdelivered⟩
    | cons pending queue =>
      simp only [Dispatcher.runRetryLoop, hq]
      rw [hq] at hqueue
      exact ⟨fun d hd => hqueue d (List.mem_cons_of_mem _ hd),
        Crew.forall_mem_set hworkers (b := .delivering pending)
          (hqueue pending (List.mem_cons_self ..)) i, hdead, hdelivered⟩
  | delivering pending =>
    obtain ⟨htries, hlt⟩ := hworker
    have htried : pending.tried.tries = pending.attempts.toNat + 1 := by
      simp [PendingDelivery.tried, htries]
    have hle : pending.tried.tries ≤ s.inner.config.maxAttempts.toNat := by
      rw [htried]
      exact UInt32.lt_iff_toNat_lt.mp hlt
    simp only [Dispatcher.runRetryLoop]
    split
    · refine ⟨hqueue, Crew.forall_mem_set hworkers (b := .polling) trivial i, hdead, fun d hd => ?_⟩
      rcases List.mem_append.mp hd with hd | hd
      · exact hdelivered d hd
      · obtain rfl := List.mem_singleton.mp hd
        exact hle
    · exact ⟨hqueue, Crew.forall_mem_set hworkers (b := .failed pending.tried) ⟨htried, hlt⟩ i,
        hdead, hdelivered⟩
  | failed pending =>
    obtain ⟨htries, hlt⟩ := hworker
    have hadd := toNat_add_one_of_lt hlt
    simp only [Dispatcher.runRetryLoop]
    split
    · cases hr : s.replaying with
      | some replayed => exact ⟨hqueue, hworkers, hdead, hdelivered⟩
      | none =>
        refine ⟨hqueue, Crew.forall_mem_set hworkers (b := .polling) trivial i, fun d hd => ?_,
          hdelivered⟩
        have hd : d ∈ s.inner.deadLetter ∨ d = pending := by
          simpa [State.deadLetters, State.setWorker, hr] using hd
        rcases hd with hd | rfl
        · exact hdead d (List.mem_append_left _ hd)
        · rw [htries]
          exact UInt32.lt_iff_toNat_lt.mp hlt
    · next hleft =>
      refine ⟨fun d hd => ?_, Crew.forall_mem_set hworkers (b := .polling) trivial i, hdead,
        hdelivered⟩
      rcases List.mem_append.mp hd with hd | hd
      · exact hqueue d hd
      · obtain rfl := List.mem_singleton.mp hd
        exact ⟨by rw [hadd, ← htries], UInt32.not_le.mp hleft⟩

theorem Budgeted.drainDeadLetters (hs : Budgeted s) : Budgeted (drainDeadLetters s) := by
  obtain ⟨hqueue, hworkers, hdead, hdelivered⟩ := hs
  cases hr : s.replaying with
  | some replayed =>
    simp only [Dispatcher.drainDeadLetters, hr]
    exact ⟨hqueue, hworkers, hdead, hdelivered⟩
  | none =>
    simp only [Dispatcher.drainDeadLetters, hr]
    refine ⟨hqueue, hworkers, fun d hd => hdead d ?_, hdelivered⟩
    simpa [State.deadLetters] using Or.inl hd

theorem Budgeted.requeueReplayed (hs : Budgeted s) (hmax : 1 ≤ s.inner.config.maxAttempts) :
    Budgeted (requeueReplayed s) := by
  obtain ⟨hqueue, hworkers, hdead, hdelivered⟩ := hs
  cases hr : s.replaying with
  | none =>
    simp only [Dispatcher.requeueReplayed, hr]
    exact ⟨hqueue, hworkers, hdead, hdelivered⟩
  | some replayed =>
    simp only [Dispatcher.requeueReplayed, hr]
    refine ⟨fun d hd => ?_, hworkers, fun d hd => hdead d ?_, hdelivered⟩
    · rcases List.mem_append.mp hd with hd | hd
      · exact hqueue d hd
      · obtain ⟨delivery, -, rfl⟩ := List.mem_map.mp hd
        exact ⟨rfl, UInt32.lt_iff_toNat_lt.mpr (UInt32.le_iff_toNat_le.mp hmax)⟩
    · exact List.mem_append_left _ (by simpa [State.deadLetters] using hd)

/-- No step goes past the attempts that the configuration allows. -/
theorem Budgeted.step (hs : Budgeted s) (hmax : 1 ≤ s.inner.config.maxAttempts) (a : Action) :
    Budgeted (step s a) := by
  cases a with
  | emitInvoiceEvent event => exact hs.emitInvoiceEvent hmax event
  | spawnRetryWorker =>
    obtain ⟨hqueue, hworkers, hdead, hdelivered⟩ := hs
    refine ⟨hqueue, fun worker hworker => ?_, hdead, hdelivered⟩
    rcases List.mem_append.mp hworker with hworker | hworker
    · exact hworkers worker hworker
    · obtain rfl := List.mem_singleton.mp hworker
      trivial
  | runRetryLoop i ok =>
    cases hi : s.workers[i]? with
    | none =>
      simp only [Dispatcher.step, hi]
      exact hs
    | some worker =>
      simp only [Dispatcher.step, hi]
      exact hs.runRetryLoop hi ok
  | drainDeadLetters => exact hs.drainDeadLetters
  | requeueReplayed => exact hs.requeueReplayed hmax

end Budget

/-! ## Runs -/

/-- No step changes how the dispatcher was built. -/
theorem step_inner (s : State) (a : Action) :
    (step s a).inner.config = s.inner.config ∧ (step s a).inner.enabled = s.inner.enabled := by
  cases a with
  | emitInvoiceEvent event =>
    simp only [step, emitInvoiceEvent]
    split_ifs <;> exact ⟨rfl, rfl⟩
  | spawnRetryWorker => exact ⟨rfl, rfl⟩
  | runRetryLoop i ok =>
    cases hi : s.workers[i]? with
    | none => simp [step, hi]
    | some worker =>
      simp only [step, hi, runRetryLoop]
      split <;> (try split) <;> (try split) <;> exact ⟨rfl, rfl⟩
  | drainDeadLetters => cases hr : s.replaying <;> simp [step, drainDeadLetters, hr]
  | requeueReplayed => cases hr : s.replaying <;> simp [step, requeueReplayed, hr]

/-- The dispatcher goes on as it was built, and has what the actions so far have emitted. -/
structure Conserves (config : RetryConfig) (as : List Action) (s : State) : Prop where
  config : s.inner.config = config
  enabled : s.inner.enabled = true
  places : s.places = emitted as
  budgeted : Budgeted s

theorem conserves_run (config : RetryConfig) (sink : Bool) (hmax : 1 ≤ config.maxAttempts)
    (as : List Action) : Conserves config as (run step (start (.built config sink true)) as) := by
  induction as using List.reverseRecOn with
  | nil => exact ⟨rfl, rfl, rfl, budgeted_start _ rfl rfl⟩
  | append_singleton as a ih =>
    rw [run_snoc]
    obtain ⟨hconfig, henabled⟩ := step_inner (run step (start (.built config sink true)) as) a
    refine ⟨hconfig.trans ih.config, henabled.trans ih.enabled, ?_, ?_⟩
    · rw [places_step ih.enabled, ih.places, emitted_snoc]
    · exact ih.budgeted.step (by rw [ih.config]; exact hmax) a

/-- **Conservation.** However the requests, the workers and the operator interleave, and whatever
the deliveries come to, the events that the requests emit are those delivered, those queued, those
in the workers' hands and the dead letters, each in one of these places; and none is attempted more
often than the configuration allows. -/
theorem run_conserves (config : RetryConfig) (sink : Bool) (hmax : 1 ≤ config.maxAttempts)
    (as : List Action) :
    let s := run step (start (.built config sink true)) as
    emitted as =
      events s.delivered + events s.inner.queue + events s.inHands + events s.deadLetters ∧
    ∀ d ∈ s.delivered ++ s.inner.queue ++ s.inHands ++ s.deadLetters,
      d.tries ≤ config.maxAttempts.toNat := by
  intro s
  obtain ⟨hconfig, -, hplaces, hb⟩ := conserves_run config sink hmax as
  refine ⟨hplaces.symm, fun d hd => ?_⟩
  rw [← hconfig]
  simp only [List.mem_append] at hd
  rcases hd with ((hd | hd) | hd) | hd
  · exact hb.delivered d hd
  · exact (hb.queue d hd).le
  · obtain ⟨worker, hworker, hd⟩ := List.mem_flatMap.mp hd
    exact (hb.workers worker hworker).le hd
  · exact hb.deadLetter d hd

/-- A delivery without a sink: two failed attempts, the dead letters, and a replay. -/
theorem run_conserves_replay :
    let event : WebhookEvent := ⟨"invoice.paid", 1, "merchant", .null, 0⟩
    let as : List Action :=
      [.emitInvoiceEvent event, .spawnRetryWorker, .runRetryLoop 0 true, .runRetryLoop 0 true,
        .runRetryLoop 0 true, .runRetryLoop 0 true, .runRetryLoop 0 true, .runRetryLoop 0 true,
        .drainDeadLetters, .requeueReplayed]
    let s := run step (start (.new ⟨2⟩)) as
    emitted as =
      events s.delivered + events s.inner.queue + events s.inHands + events s.deadLetters ∧
    ∀ d ∈ s.delivered ++ s.inner.queue ++ s.inHands ++ s.deadLetters, d.tries ≤ 2 :=
  run_conserves ⟨2⟩ false (by decide) _

end Dispatcher

end Webhooks
