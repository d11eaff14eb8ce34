import Comebackhere.Webhooks.Conservation

/-!
# The shutdown of the process

On a signal the backend stops accepting deliveries, closes the server, drains the delivery queue and
closes the database, one after the other, and exits with the code zero. A failure, and a timeout of
the whole, make it exit with another code. Requests, the indexers and the tasks of the queue go on
in between: what they enqueue once the drain has ended is written to the store by a task that nobody
waits for.

## Main definitions

* `Stage`, `Service`: where the handler is, and the delivery queue
* `Event`, `step`: what the handler waits for, and what happens next to it
* `Late`: a delivery is handed to the queue after the drain has ended
* `Lost`: a process has ended with a delivery in its memory

## Main results

* `takes_step`: what a task of the queue does to its memory
* `inv_step`: what the queue has in its memory at each stage of the shutdown
* `shutdown_loses_late`: a process that exits cleanly takes no delivery with it but late ones and
  those that it was resuming
-/

namespace WebhookDelivery.Shutdown

open Machine

variable {Data : Type}

/-! ## The handler -/

/-- Where the handler is. The drain persists a number of jobs. -/
inductive Stage
  | running
  | closingServer
  | draining
  | persisting (jobs : ℕ)
  | closingMongo
  | exited (code : ℕ)
  deriving DecidableEq

structure Service (Data : Type) where
  stage : Stage
  queue : State Data

/-- What happens: a signal, the ends of what the handler waits for, the hard timeout, a crash of the
process, a step of a task of the queue, and the start of the next process. -/
inductive Event (Data : Type)
  | signal
  | serverClosed (ok : Bool)
  | drained
  | persisted
  | mongoClosed (ok : Bool)
  | hardTimeout
  | crash
  | task (action : Action Data)
  | boot (maxAttempts : ℕ)

/-- The tasks do not do what the handler does, and start no process. -/
def isTask : Action Data → Bool
  | .stopAccepting | .drain | .halt | .restart _ => false
  | _ => true

/-- The handler waits for the jobs of the drain, which come first among those being written. -/
def Stage.next : Stage → Action Data → Stage
  | .persisting jobs, .persist i => .persisting (if i < jobs then jobs - 1 else jobs)
  | stage, _ => stage

/-- One event. After the exit there is only the next process. -/
def step (s : Service Data) (e : Event Data) : Service Data :=
  match s.stage, e with
  | .exited _, .boot maxAttempts => ⟨.running, WebhookDelivery.step s.queue (.restart maxAttempts)⟩
  | .exited _, _ => s
  | .running, .signal => ⟨.closingServer, WebhookDelivery.step s.queue .stopAccepting⟩
  | .closingServer, .serverClosed true => ⟨.draining, WebhookDelivery.step s.queue .drain⟩
  | .closingServer, .serverClosed false => ⟨.exited 1, s.queue⟩
  | .draining, .drained =>
    ⟨.persisting s.queue.process.unfinished.length, WebhookDelivery.step s.queue .halt⟩
  | .persisting jobs, .persisted => if jobs = 0 then ⟨.closingMongo, s.queue⟩ else s
  | .closingMongo, .mongoClosed ok => ⟨.exited (if ok then 0 else 1), s.queue⟩
  | .running, .hardTimeout => s
  | _, .hardTimeout => ⟨.exited 1, s.queue⟩
  | _, .crash => ⟨.exited 137, s.queue⟩
  | stage, .task action =>
    if isTask action then ⟨stage.next action, WebhookDelivery.step s.queue action⟩ else s
  | _, _ => s

/-- The first process, with empty stores. -/
def started (maxAttempts : ℕ) : Service Data := ⟨.running, start maxAttempts⟩

/-! ## What the tasks do -/

/-- The jobs that a task hands to the queue. -/
def handed (queue : State Data) : Action Data → List (WebhookDeliveryJob Data)
  | .enqueue endpoint payload => [⟨endpoint, payload, 0⟩]
  | .resume i listed =>
    match queue.process.resumes[i]? with
    | some (.taken jobs) => if listed then jobs else []
    | _ => []
  | .replay i =>
    match queue.process.replays[i]? with
    | some (.found _ deadLetter) => [⟨deadLetter.endpoint, deadLetter.payload, 0⟩]
    | _ => []
  | _ => []

/-- A queue has taken jobs. After the drain it writes them, and it starts no delivery once it has
stopped accepting. -/
structure Takes (q q' : State Data) (jobs : List (WebhookDeliveryJob Data)) : Prop where
  accepting : q'.process.accepting = q.process.accepting
  draining : q'.process.draining = q.process.draining
  aborted : q'.process.aborted = q.process.aborted
  writes : q'.process.writes = q.process.writes ++
    if q.process.accepting = false ∧ q.process.aborted = true then jobs else []
  deferred : q.process.aborted = true → q'.process.deferred = q.process.deferred
  idle : q.process.accepting = false → (∀ entry ∈ q.process.entries, entry.active = false) →
    ∀ entry ∈ q'.process.entries, entry.active = false

section Takes

variable {q q' q'' : State Data} {jobs jobs' : List (WebhookDeliveryJob Data)}

theorem Takes.refl (q : State Data) : Takes q q [] :=
  ⟨rfl, rfl, rfl, by simp, fun _ => rfl, fun _ => id⟩

theorem Takes.trans (h : Takes q q' jobs) (h' : Takes q' q'' jobs') :
    Takes q q'' (jobs ++ jobs') where
  accepting := h'.accepting.trans h.accepting
  draining := h'.draining.trans h.draining
  aborted := h'.aborted.trans h.aborted
  writes := by
    rw [h'.writes, h.writes, h.accepting, h.aborted, List.append_assoc]
    split <;> simp
  deferred haborted := (h'.deferred (h.aborted.trans haborted)).trans (h.deferred haborted)
  idle haccepting hidle := h'.idle (h.accepting.trans haccepting) (h.idle haccepting hidle)

/-- The memory of the queue but for the runs of its tasks. -/
theorem takes_of_eq (haccepting : q'.process.accepting = q.process.accepting)
    (hdraining : q'.process.draining = q.process.draining)
    (haborted : q'.process.aborted = q.process.aborted)
    (hwrites : q'.process.writes = q.process.writes)
    (hdeferred : q'.process.deferred = q.process.deferred)
    (hentries : q'.process.entries = q.process.entries) : Takes q q' [] :=
  ⟨haccepting, hdraining, haborted, by simp [hwrites], fun _ => hdeferred, fun _ => by
    rw [hentries]
    exact id⟩

theorem takes_enqueue (job : WebhookDeliveryJob Data) (replays : Option String) :
    Takes q (enqueue q job replays) [job] := by
  unfold enqueue
  split
  · next hclosed =>
    split
    · next haborted =>
      exact ⟨rfl, rfl, rfl, by simp [hclosed, haborted], fun _ => rfl, fun _ => id⟩
    · next hwaiting =>
      exact ⟨rfl, rfl, rfl, by simp [hwaiting], fun haborted => absurd haborted hwaiting,
        fun _ => id⟩
  · next hopen =>
    exact ⟨rfl, rfl, rfl, by simp [hopen], fun _ => rfl, fun hclosed => absurd hclosed hopen⟩

theorem takes_enqueueAll (jobs : List (WebhookDeliveryJob Data)) :
    Takes q (jobs.foldl (enqueue · · none) q) jobs := by
  induction jobs generalizing q with
  | nil => exact .refl q
  | cons job jobs ih => exact (takes_enqueue job none).trans ih

/-- A delivery goes on, and does not become active again. -/
theorem takes_setEntry {i : ℕ} {entry entry' : Entry Data}
    (hi : q.process.entries[i]? = some entry)
    (hactive : entry.active = false → entry'.active = false) :
    Takes q (q.setEntry i entry') [] := by
  refine ⟨rfl, rfl, rfl, by simp [State.setEntry], fun _ => rfl, fun _ hidle => ?_⟩
  have hentry := hidle entry (List.mem_of_getElem? hi)
  exact Crew.forall_mem_set hidle (hactive hentry) i

theorem takes_advance {i : ℕ} {entry : Entry Data} (hi : q.process.entries[i]? = some entry)
    (response : Except String ℕ) : Takes q (advance q i entry response) [] := by
  have hset : ∀ entry' : Entry Data, entry'.active = entry.active →
      Takes q (q.setEntry i entry') [] := fun entry' hactive => takes_setEntry hi hactive.trans
  unfold advance
  split
  · unfold answer
    dsimp only
    split
    · have hdeliver : Takes q (q.deliver entry.job.parcel) [] := takes_of_eq rfl rfl rfl rfl rfl rfl
      exact hdeliver.trans (takes_setEntry hi fun hactive => by simpa using hactive)
    · split
      · exact hset _ (by simp)
      · exact hset _ (by simp)
  · exact hset _ (by simp)
  · exact hset _ rfl
  · exact hset _ rfl
  · have hover : Takes q (q.setEntry i { entry with active := false, phase := .over }) [] :=
      takes_setEntry hi fun _ => rfl
    dsimp only
    split
    · exact hover
    · exact hover.trans (takes_of_eq rfl rfl rfl rfl rfl rfl)
  · have hsave : Takes q (q.saveDeadLetter (entry.record .failed)) [] :=
      takes_of_eq rfl rfl rfl rfl rfl rfl
    exact hsave.trans (takes_setEntry hi fun hactive => hactive)
  · exact takes_setEntry hi fun _ => rfl
  · exact .refl q

/-- **What a task does to the memory of the queue.** -/
theorem takes_step {action : Action Data} (htask : isTask action = true)
    (hpersist : ∀ i, action ≠ .persist i) :
    Takes q (WebhookDelivery.step q action) (handed q action) := by
  cases action with
  | enqueue endpoint payload => exact takes_enqueue _ none
  | stopAccepting | drain | halt | restart => cases htask
  | persist i => exact absurd rfl (hpersist i)
  | advance i response =>
    dsimp only [WebhookDelivery.step]
    cases hi : q.process.entries[i]? with
    | none => exact .refl q
    | some entry => exact takes_advance hi response
  | resumePending => exact takes_of_eq rfl rfl rfl rfl rfl rfl
  | resume i listed =>
    dsimp only [WebhookDelivery.step, handed]
    cases hi : q.process.resumes[i]? with
    | none => exact .refl q
    | some r =>
      cases r with
      | found jobs => exact takes_of_eq rfl rfl rfl rfl rfl rfl
      | taken jobs =>
        have herased : Takes q { q with process.resumes := q.process.resumes.eraseIdx i } [] :=
          takes_of_eq rfl rfl rfl rfl rfl rfl
        cases listed with
        | true => exact herased.trans (takes_enqueueAll jobs)
        | false => exact herased
  | replayDeadLetter idempotencyKey =>
    dsimp only [WebhookDelivery.step, replayDeadLetter]
    cases q.deadLetters.find idempotencyKey with
    | none => exact .refl q
    | some deadLetter => exact takes_of_eq rfl rfl rfl rfl rfl rfl
  | replay i =>
    dsimp only [WebhookDelivery.step, handed]
    cases hi : q.process.replays[i]? with
    | none => exact .refl q
    | some r =>
      have herased : Takes q { q with process.replays := q.process.replays.eraseIdx i } [] :=
        takes_of_eq rfl rfl rfl rfl rfl rfl
      cases r with
      | found idempotencyKey deadLetter => exact herased.trans (takes_enqueue _ _)
      | delivered idempotencyKey result => exact herased.trans (takes_of_eq rfl rfl rfl rfl rfl rfl)

end Takes

/-! ## What an event does -/

/-- An event, with the service before it. -/
abbrev Move (Data : Type) := Service Data × Event Data

/-- The next process is started. -/
def Boots (t : Move Data) : Prop :=
  (∃ code, t.1.stage = .exited code) ∧ ∃ maxAttempts, t.2 = .boot maxAttempts

/-- What an event can do: nothing, to end the process, to start the next one, to take the handler a
stage further, or to be a step of a task. -/
inductive Moves : Service Data → Event Data → Service Data → Prop
  | stays {s e} (hboots : ¬ Boots (s, e)) : Moves s e s
  | fails {s e code} (hboots : ¬ Boots (s, e)) : Moves s e ⟨.exited (code + 1), s.queue⟩
  | boots {code queue maxAttempts} : Moves ⟨.exited code, queue⟩ (.boot maxAttempts)
      ⟨.running, WebhookDelivery.step queue (.restart maxAttempts)⟩
  | signals {queue} : Moves ⟨.running, queue⟩ .signal
      ⟨.closingServer, WebhookDelivery.step queue .stopAccepting⟩
  | drains {queue} : Moves ⟨.closingServer, queue⟩ (.serverClosed true)
      ⟨.draining, WebhookDelivery.step queue .drain⟩
  | halts {queue} : Moves ⟨.draining, queue⟩ .drained
      ⟨.persisting queue.process.unfinished.length, WebhookDelivery.step queue .halt⟩
  | persists {queue} : Moves ⟨.persisting 0, queue⟩ .persisted ⟨.closingMongo, queue⟩
  | exits {queue} : Moves ⟨.closingMongo, queue⟩ (.mongoClosed true) ⟨.exited 0, queue⟩
  | task {stage queue action} (hstage : ∀ code, stage ≠ .exited code)
      (htask : isTask action = true) : Moves ⟨stage, queue⟩ (.task action)
        ⟨stage.next action, WebhookDelivery.step queue action⟩

theorem not_boots {s : Service Data} {e : Event Data} (hstage : ∀ code, s.stage ≠ .exited code) :
    ¬ Boots (s, e) := fun hboots => hboots.1.elim hstage

theorem moves_task {stage : Stage} (hstage : ∀ code, stage ≠ .exited code) (queue : State Data)
    (action : Action Data) : Moves ⟨stage, queue⟩ (.task action)
      (if isTask action then ⟨stage.next action, WebhookDelivery.step queue action⟩
        else ⟨stage, queue⟩) := by
  split
  · next htask => exact .task hstage htask
  · exact .stays (not_boots hstage)

theorem moves_step (s : Service Data) (e : Event Data) : Moves s e (step s e) := by
  obtain ⟨stage, queue⟩ := s
  cases stage with
  | exited code =>
    cases e with
    | boot maxAttempts => exact .boots
    | _ => exact .stays (by simp [Boots])
  | running =>
    have hstage : ∀ code, Stage.running ≠ .exited code := nofun
    cases e with
    | signal => exact .signals
    | crash => exact .fails (not_boots hstage)
    | task action => exact moves_task hstage queue action
    | _ => exact .stays (not_boots hstage)
  | closingServer =>
    have hstage : ∀ code, Stage.closingServer ≠ .exited code := nofun
    cases e with
    | serverClosed ok =>
      cases ok with
      | true => exact .drains
      | false => exact .fails (not_boots hstage)
    | hardTimeout | crash => exact .fails (not_boots hstage)
    | task action => exact moves_task hstage queue action
    | _ => exact .stays (not_boots hstage)
  | draining =>
    have hstage : ∀ code, Stage.draining ≠ .exited code := nofun
    cases e with
    | drained => exact .halts
    | hardTimeout | crash => exact .fails (not_boots hstage)
    | task action => exact moves_task hstage queue action
    | _ => exact .stays (not_boots hstage)
  | persisting jobs =>
    have hstage : ∀ code, Stage.persisting jobs ≠ .exited code := nofun
    cases e with
    | persisted =>
      cases jobs with
      | zero => exact .persists
      | succ jobs => exact .stays (not_boots nofun)
    | hardTimeout | crash => exact .fails (not_boots hstage)
    | task action => exact moves_task hstage queue action
    | _ => exact .stays (not_boots hstage)
  | closingMongo =>
    have hstage : ∀ code, Stage.closingMongo ≠ .exited code := nofun
    cases e with
    | mongoClosed ok =>
      cases ok with
      | true => exact .exits
      | false => exact .fails (not_boots hstage)
    | hardTimeout | crash => exact .fails (not_boots hstage)
    | task action => exact moves_task hstage queue action
    | _ => exact .stays (not_boots hstage)

/-! ## The memory of the queue -/

/-- How many jobs of the drain are being written, once it has ended. -/
def Stage.writing : Stage → Option ℕ
  | .persisting jobs => some jobs
  | .closingMongo => some 0
  | _ => none

/-- A delivery is handed to the queue while the handler is behind the drain. -/
def HandsLate (parcel : Parcel Data) (t : Move Data) : Prop :=
  t.1.stage.writing ≠ none ∧
    ∃ action, t.2 = .task action ∧ ∃ job ∈ handed t.1.queue action, job.parcel = parcel

/-- A delivery was handed to the queue of this process after the drain had ended. -/
def Late (parcel : Parcel Data) (h : List (Move Data)) : Prop :=
  Since (fun _ => HandsLate parcel) Boots h

/-- The drain has ended, and `jobs` of its jobs are being written. The others are late. -/
structure Drained (h : List (Move Data)) (jobs : ℕ) (process : Process Data) : Prop where
  accepting : process.accepting = false
  aborted : process.aborted = true
  deferred : process.deferred = []
  idle : ∀ entry ∈ process.entries, entry.active = false
  length : jobs ≤ process.writes.length
  late : ∀ job ∈ process.writes.drop jobs, Late job.parcel h

/-- The drain has not ended, and nothing is being written. -/
structure Undrained (accepting draining : Bool) (process : Process Data) : Prop where
  accepting : accepting = false → process.accepting = false
  draining : draining = true → process.draining = true
  aborted : process.aborted = false
  writes : process.writes = []

/-- What the queue has in its memory, by the stage of the handler. -/
def Inv (h : List (Move Data)) (s : Service Data) : Prop :=
  match s.stage with
  | .running => Undrained true false s.queue.process
  | .closingServer => Undrained false false s.queue.process
  | .draining => Undrained false true s.queue.process
  | .persisting jobs => Drained h jobs s.queue.process
  | .closingMongo | .exited 0 => Drained h 0 s.queue.process
  | .exited _ => True

section Inv

variable {h : List (Move Data)} {t : Move Data} {jobs : ℕ} {process : Process Data}
  {queue : State Data} {stage : Stage} {action : Action Data}

theorem Late.snoc {parcel : Parcel Data} (hlate : Late parcel h) (hboots : ¬ Boots t) :
    Late parcel (h ++ [t]) := since_snoc.mpr (Or.inr ⟨hlate, hboots⟩)

theorem Drained.snoc (hd : Drained h jobs process) (hboots : ¬ Boots t) :
    Drained (h ++ [t]) jobs process :=
  { hd with late := fun job hjob => (hd.late job hjob).snoc hboots }

theorem Inv.snoc {s : Service Data} (hinv : Inv h s) (hboots : ¬ Boots t) : Inv (h ++ [t]) s := by
  obtain ⟨stage, queue⟩ := s
  cases stage with
  | running | closingServer | draining => exact hinv
  | persisting jobs => exact Drained.snoc hinv hboots
  | closingMongo => exact Drained.snoc hinv hboots
  | exited code =>
    cases code with
    | zero => exact Drained.snoc hinv hboots
    | succ code => exact hinv

/-- A step of a task before the drain has ended. -/
theorem Undrained.task {accepting draining : Bool} (hu : Undrained accepting draining queue.process)
    (htask : isTask action = true) :
    Undrained accepting draining (WebhookDelivery.step queue action).process := by
  by_cases hpersist : ∃ i, action = .persist i
  · -- nothing is being written
    obtain ⟨i, rfl⟩ := hpersist
    have hnone : queue.process.writes[i]? = none := by rw [hu.writes, List.getElem?_nil]
    simpa [WebhookDelivery.step, hnone] using hu
  · have htakes : Takes queue (WebhookDelivery.step queue action) _ :=
      takes_step htask (not_exists.mp hpersist)
    refine ⟨fun hclosed => htakes.accepting.trans (hu.accepting hclosed),
      fun hdraining => htakes.draining.trans (hu.draining hdraining),
      htakes.aborted.trans hu.aborted, ?_⟩
    rw [htakes.writes, hu.writes, hu.aborted]
    simp

/-- One of the jobs is written: of the drain, or of the others. -/
theorem drop_eraseIdx {α : Type} {l : List α} {n i : ℕ} (hn : n ≤ l.length) (hi : i < l.length) :
    (if i < n then n - 1 else n) ≤ (l.eraseIdx i).length ∧
      (l.eraseIdx i).drop (if i < n then n - 1 else n) ⊆ l.drop n := by
  have htake : (l.take n).length = n := List.length_take_of_le hn
  have hlength : (l.eraseIdx i).length = l.length - 1 := List.length_eraseIdx_of_lt hi
  have hsplit : l.eraseIdx i = (l.take n ++ l.drop n).eraseIdx i := by rw [List.take_append_drop]
  split
  · next hlt =>
    have hfirst : i < (l.take n).length := hlt.trans_eq htake.symm
    have herased : ((l.take n).eraseIdx i).length = n - 1 := by
      rw [List.length_eraseIdx_of_lt hfirst, htake]
    refine ⟨by omega, ?_⟩
    rw [hsplit, List.eraseIdx_append_of_lt_length hfirst, List.drop_left' herased]
    exact fun x hx => hx
  · next hle =>
    refine ⟨by omega, ?_⟩
    rw [hsplit, List.eraseIdx_append_of_length_le (by omega), List.drop_left' htake]
    exact fun x hx => List.mem_of_mem_eraseIdx hx

theorem Stage.writing_next (hstage : stage.writing = some jobs) (action : Action Data) :
    (stage.next action).writing = some
      (match action with
        | .persist i => if i < jobs then jobs - 1 else jobs
        | _ => jobs) := by
  cases stage with
  | persisting n =>
    obtain rfl : n = jobs := Option.some.inj hstage
    cases action <;> rfl
  | closingMongo =>
    obtain rfl : 0 = jobs := Option.some.inj hstage
    cases action <;> rfl
  | running | closingServer | draining | exited => cases hstage

variable (stage) in
/-- A step of a task after the drain has ended. -/
theorem Drained.task (hd : Drained h jobs queue.process) (htask : isTask action = true)
    (hstage : stage.writing = some jobs) :
    ∃ jobs', (stage.next action).writing = some jobs' ∧
      Drained (h ++ [(⟨stage, queue⟩, .task action)]) jobs'
        (WebhookDelivery.step queue action).process := by
  have hnext := Stage.writing_next hstage action
  have hboots : ¬ Boots ((⟨stage, queue⟩, .task action) : Move Data) := fun hboots =>
    hboots.2.elim nofun
  have hsnoc := hd.snoc hboots
  by_cases hpersist : ∃ i, action = .persist i
  · -- one job less is being written, of the drain or of the late ones
    obtain ⟨i, rfl⟩ := hpersist
    refine ⟨_, hnext, ?_⟩
    cases hi : queue.process.writes[i]? with
    | none =>
      have hle : queue.process.writes.length ≤ i := List.getElem?_eq_none_iff.mp hi
      have hlt : ¬ i < jobs := not_lt.mpr (hd.length.trans hle)
      simpa [WebhookDelivery.step, hi, hlt] using hsnoc
    | some job =>
      have hlt : i < queue.process.writes.length := (List.getElem?_eq_some_iff.mp hi).1
      obtain ⟨hlength, hrest⟩ := drop_eraseIdx hd.length hlt
      have hstep : (WebhookDelivery.step queue (.persist i)).process =
          { queue.process with writes := queue.process.writes.eraseIdx i } := by
        rw [WebhookDelivery.step, hi]
        rfl
      rw [hstep]
      exact ⟨hd.accepting, hd.aborted, hd.deferred, hd.idle, hlength,
        fun job' hjob' => hsnoc.late job' (hrest hjob')⟩
  · -- what the task hands to the queue is late
    have htakes : Takes queue (WebhookDelivery.step queue action) _ :=
      takes_step htask (not_exists.mp hpersist)
    have hwrites : (WebhookDelivery.step queue action).process.writes =
        queue.process.writes ++ handed queue action := by
      rw [htakes.writes, if_pos ⟨hd.accepting, hd.aborted⟩]
    refine ⟨jobs, ?_, htakes.accepting.trans hd.accepting, htakes.aborted.trans hd.aborted,
      (htakes.deferred hd.aborted).trans hd.deferred, htakes.idle hd.accepting hd.idle, ?_, ?_⟩
    · rw [hnext]
      cases action with
      | persist i => exact absurd ⟨i, rfl⟩ hpersist
      | _ => rfl
    · rw [hwrites, List.length_append]
      exact hd.length.trans (Nat.le_add_right _ _)
    · rw [hwrites, List.drop_append_of_le_length hd.length]
      refine List.forall_mem_append.mpr ⟨hsnoc.late, fun job hjob => since_snoc.mpr (Or.inl ?_)⟩
      exact ⟨by simp [hstage], action, rfl, job, hjob, rfl⟩

theorem inv_of_drained {s : Service Data} (hstage : s.stage.writing = some jobs)
    (hd : Drained h jobs s.queue.process) : Inv h s := by
  obtain ⟨stage, queue⟩ := s
  cases stage with
  | persisting n =>
    obtain rfl : n = jobs := Option.some.inj hstage
    exact hd
  | closingMongo =>
    obtain rfl : 0 = jobs := Option.some.inj hstage
    exact hd
  | running | closingServer | draining | exited => cases hstage

/-- The wait of the drain ends. -/
theorem drained_halt (hu : Undrained false true queue.process) :
    Drained h queue.process.unfinished.length (WebhookDelivery.step queue .halt).process := by
  have hhalt : (WebhookDelivery.step queue .halt).process = { queue.process with
      aborted := true
      entries := queue.process.entries.map ({ · with active := false })
      deferred := []
      writes := queue.process.unfinished } := by
    rw [WebhookDelivery.step, halt, if_pos (hu.draining rfl), hu.writes]
    rfl
  rw [hhalt]
  exact ⟨hu.accepting rfl, rfl, rfl, by simp, le_refl _, by simp⟩

/-- **One event** keeps what the queue has in its memory at a stage. -/
theorem inv_step {s : Service Data} (hinv : Inv h s) (e : Event Data) :
    Inv (h ++ [(s, e)]) (step s e) := by
  have hmoves := moves_step s e
  revert hmoves
  generalize step s e = s'
  intro hmoves
  cases hmoves with
  | stays hboots => exact hinv.snoc hboots
  | fails hboots => trivial
  | boots => exact ⟨nofun, nofun, rfl, rfl⟩
  | signals =>
    obtain ⟨-, -, haborted, hwrites⟩ := hinv
    exact ⟨fun _ => rfl, nofun, haborted, hwrites⟩
  | drains =>
    obtain ⟨-, -, haborted, hwrites⟩ := hinv
    exact ⟨fun _ => rfl, fun _ => rfl, haborted, hwrites⟩
  | halts => exact drained_halt hinv
  | persists => exact Drained.snoc hinv (not_boots nofun)
  | exits => exact Drained.snoc hinv (not_boots nofun)
  | @task stage queue action hstage htask =>
    cases stage with
    | running | closingServer | draining => exact Undrained.task hinv htask
    | persisting jobs =>
      obtain ⟨jobs', hnext, hd⟩ := Drained.task (.persisting jobs) hinv htask rfl
      exact inv_of_drained hnext hd
    | closingMongo =>
      obtain ⟨jobs', hnext, hd⟩ := Drained.task .closingMongo hinv htask rfl
      exact inv_of_drained hnext hd
    | exited code => exact absurd rfl (hstage code)

end Inv

/-! ## What is lost -/

/-- What an event makes the queue accept. -/
def acceptedBy (t : Move Data) : Option (Parcel Data) :=
  match t.1.stage, t.2 with
  | .exited _, _ => none
  | _, .task (.enqueue endpoint payload) => some (endpoint, payload)
  | _, _ => none

def accepted (h : List (Move Data)) : List (Parcel Data) := h.filterMap acceptedBy

/-- A process ends with a delivery in its memory. If it exits cleanly, the delivery was late, or a
run of `resumePending` had taken it from the store. -/
structure LostAt (parcel : Parcel Data) (h : List (Move Data)) (t : Move Data) : Prop where
  boots : Boots t
  held : parcel ∈ t.1.queue.process.held
  clean : t.1.stage = .exited 0 → Late parcel h ∨
    ∃ r ∈ t.1.queue.process.resumes, ∃ job ∈ r.inHand, job.parcel = parcel

def Lost (parcel : Parcel Data) (h : List (Move Data)) : Prop :=
  Since (LostAt parcel) (fun _ => False) h

/-- A task leaves the documents of other deliveries alone. -/
def Undisturbed (s : Service Data) : Event Data → Prop
  | .task action => isTask action = true → WebhookDelivery.Undisturbed s.queue action
  | _ => True

/-- What is accepted is kept, or a process has ended with it. -/
structure Accounted (h : List (Move Data)) (s : Service Data) : Prop where
  settled : s.queue.Settled
  inv : Inv h s
  kept : ∀ parcel ∈ accepted h, s.queue.Kept parcel ∨ Lost parcel h

section Accounted

variable {h : List (Move Data)} {s : Service Data} {e : Event Data} {parcel : Parcel Data}

theorem mem_accepted_snoc {t : Move Data} :
    parcel ∈ accepted (h ++ [t]) ↔ parcel ∈ accepted h ∨ acceptedBy t = some parcel := by
  rw [accepted, List.filterMap_append, List.mem_append]
  refine or_congr_right ?_
  rw [List.mem_filterMap]
  simp

theorem Lost.snoc (hlost : Lost parcel h) (t : Move Data) : Lost parcel (h ++ [t]) :=
  since_snoc.mpr (Or.inr ⟨hlost, id⟩)

/-- What is accepted is in the queue. -/
theorem kept_of_accepted (haccepted : acceptedBy (s, e) = some parcel) :
    (step s e).queue.Kept parcel := by
  obtain ⟨stage, queue⟩ := s
  cases e with
  | task action =>
    cases action with
    | enqueue endpoint payload =>
      have hheld : (endpoint, payload) ∈
          (WebhookDelivery.step queue (.enqueue endpoint payload)).process.held :=
        held_enqueue ⟨endpoint, payload, 0⟩ none
      cases stage with
      | exited code => cases haccepted
      | running | closingServer | draining | persisting | closingMongo =>
        obtain rfl : (endpoint, payload) = parcel := Option.some.inj haccepted
        exact State.kept_of_held hheld
    | _ => cases stage <;> cases haccepted
  | _ => cases stage <;> cases haccepted

/-- An event that starts no process keeps every delivery. -/
theorem keeps_event (hs : s.queue.Settled) (hun : Undisturbed s e) (hboots : ¬ Boots (s, e)) :
    Keeps s.queue (step s e).queue ∧ (step s e).queue.Settled := by
  have hmoves := moves_step s e
  revert hmoves
  generalize step s e = s'
  intro hmoves
  cases hmoves with
  | stays | fails | persists | exits => exact ⟨.refl _, hs⟩
  | boots => exact absurd ⟨⟨_, rfl⟩, _, rfl⟩ hboots
  | signals => exact keeps_step (a := .stopAccepting) hs trivial
  | drains => exact keeps_step (a := .drain) hs trivial
  | halts => exact keeps_step (a := .halt) hs trivial
  | task hstage htask => exact keeps_step hs (hun htask)

/-- What a process that exited cleanly has in its memory. -/
theorem Drained.held (hd : Drained h 0 s.queue.process) : ∀ parcel ∈ s.queue.process.held,
    Late parcel h ∨ ∃ r ∈ s.queue.process.resumes, ∃ job ∈ r.inHand, job.parcel = parcel := by
  -- no delivery is active or deferred
  refine forall_held.mpr ⟨?_, ?_, ?_, ?_⟩
  · intro entry hentry hactive
    exact absurd ((hd.idle entry hentry).symm.trans hactive) Bool.noConfusion
  · intro job hjob
    rw [hd.deferred] at hjob
    cases hjob
  · exact fun job hjob => Or.inl (hd.late job hjob)
  · exact fun r hr job hjob => Or.inr ⟨r, hr, job, hjob, rfl⟩

/-- **The start of the next process** loses what the last one had in its memory. -/
theorem Accounted.boot {code : ℕ} {queue : State Data} (hacc : Accounted h ⟨.exited code, queue⟩)
    (maxAttempts : ℕ) : Accounted (h ++ [(⟨.exited code, queue⟩, .boot maxAttempts)])
      (step ⟨.exited code, queue⟩ (.boot maxAttempts)) := by
  have hsettled : (WebhookDelivery.step queue (.restart maxAttempts)).Settled :=
    ⟨by simp [WebhookDelivery.step, Process.new], by simp [WebhookDelivery.step, Process.new]⟩
  refine ⟨hsettled, inv_step hacc.inv _, fun parcel hparcel => ?_⟩
  have hbefore : parcel ∈ accepted h := by
    rcases mem_accepted_snoc.mp hparcel with hbefore | hnow
    · exact hbefore
    · cases hnow
  -- what is delivered, dead or stored is not in the memory of the process
  rcases hacc.kept parcel hbefore with hkept | hlost
  · rcases hkept with hdelivered | hdead | hheld | hstored
    · exact Or.inl (Or.inl hdelivered)
    · exact Or.inl (Or.inr (Or.inl hdead))
    · refine Or.inr (since_snoc.mpr (Or.inl ⟨⟨⟨code, rfl⟩, maxAttempts, rfl⟩, hheld, ?_⟩))
      intro hclean
      obtain rfl : code = 0 := Stage.exited.inj hclean
      exact Drained.held (s := ⟨.exited 0, queue⟩) hacc.inv parcel hheld
    · exact Or.inl (Or.inr (Or.inr (Or.inr hstored)))
  · exact Or.inr (hlost.snoc _)

/-- **One event** loses nothing but what a process ends with. -/
theorem Accounted.step (hacc : Accounted h s) (hun : Undisturbed s e) :
    Accounted (h ++ [(s, e)]) (step s e) := by
  by_cases hboots : Boots (s, e)
  · obtain ⟨⟨code, hcode⟩, maxAttempts, rfl⟩ := hboots
    obtain ⟨stage, queue⟩ := s
    obtain rfl : stage = .exited code := hcode
    exact hacc.boot maxAttempts
  · obtain ⟨hkeeps, hsettled⟩ := keeps_event hacc.settled hun hboots
    refine ⟨hsettled, inv_step hacc.inv e, fun parcel hparcel => ?_⟩
    rcases mem_accepted_snoc.mp hparcel with hbefore | hnow
    · exact (hacc.kept parcel hbefore).imp hkeeps.kept fun hlost => hlost.snoc _
    · exact Or.inl (kept_of_accepted hnow)

end Accounted

section Interrupted

open Example

instance [DecidableEq Data] (s : Service Data) : ∀ e : Event Data, Decidable (Undisturbed s e)
  | .task action => inferInstanceAs
      (Decidable (isTask action = true → WebhookDelivery.Undisturbed s.queue action))
  | .signal | .serverClosed _ | .drained | .persisted | .mongoClosed _ | .hardTimeout | .crash
  | .boot _ => isTrue trivial

/-- A delivery is drained and resumed; another is enqueued when the drain is over. -/
def interrupted : List (Event Members) :=
  [.task (.enqueue shop (executed "1")), .task (.advance 0 (.ok 503)), .signal, .serverClosed true,
    .drained, .task (.enqueue books (executed "2")), .task (.persist 0), .persisted,
    .mongoClosed true, .boot 2, .task .resumePending, .task (.resume 0 true),
    .task (.resume 0 true), .task (.advance 0 (.ok 200))]

example : (run step (started 2) interrupted).queue.Kept (shop, executed "1") ∧
    ¬ (run step (started 2) interrupted).queue.Kept (books, executed "2") := by decide

end Interrupted

end WebhookDelivery.Shutdown
