import Comebackhere.Library.Crew
import Comebackhere.Webhooks.DeliveryQueue

/-!
# The delivery queue with the history of attempts

The delivery queue again, with the history of attempts that its jobs and records have, and without
the replays of dead letters. Each call of `enqueue` from outside the queue begins a delivery, whose
number its jobs and records bear from then on. The number, the list of the deliveries and that of
the POSTs are no data of the program. The status, the error and the time in the record of an attempt
are left out. Without the histories and the numbers this is the delivery queue.

## Main definitions

* `Job`, `Entry`, `Record`: those of the queue, with a history and the number of the delivery
* `Action`, `step`: a step of the queue that is no replay

## Main results

* `forget_step`, `forget_run`: without the histories, a step is one of the delivery queue, and a
  run is
-/

namespace WebhookDelivery.Attempts

open Machine

/-! ## Data -/

/-- The record of an attempt. -/
structure WebhookAttemptRecord where
  attempt : ℕ
  deriving DecidableEq

variable {Data : Type}

structure Job (Data : Type) extends WebhookDeliveryJob Data where
  attemptHistory : List WebhookAttemptRecord
  delivery : ℕ
  deriving DecidableEq

structure Record (Data : Type) extends WebhookDeliveryRecord Data where
  attemptHistory : List WebhookAttemptRecord
  delivery : ℕ
  deriving DecidableEq

/-- A delivery under way. The history of its record is that of its job. -/
structure Entry (Data : Type) extends WebhookDelivery.Entry Data where
  attemptHistory : List WebhookAttemptRecord
  delivery : ℕ
  deriving DecidableEq

namespace Entry

def toJob (entry : Entry Data) : Job Data :=
  ⟨entry.job, entry.attemptHistory, entry.delivery⟩

def toRecord (entry : Entry Data) (status : WebhookDeliveryStatus) : Record Data :=
  ⟨entry.record status, entry.attemptHistory, entry.delivery⟩

/-- The record keeps the last status and the last error. -/
def afterAnswer (entry : Entry Data) (response : Except String ℕ) : Entry Data :=
  { entry with toEntry := entry.answered response }

/-- The POST that has just been made, with the number of the attempt. -/
def posts (entry : Entry Data) : List (ℕ × ℕ) :=
  match entry.phase with
  | .posting attempt => [(entry.delivery, attempt + 1)]
  | _ => []

end Entry

/-- A run of `resumePending`: it has read the pending deliveries, or has taken them. -/
inductive Resume (Data : Type)
  | found (jobs : List (Job Data))
  | taken (jobs : List (Job Data))
  deriving DecidableEq

/-- What the queue has in memory, with the tasks under way. -/
structure Process (Data : Type) where
  maxAttempts : ℕ
  accepting : Bool
  draining : Bool
  aborted : Bool
  entries : List (Entry Data)
  deferred : List (Job Data)
  writes : List (Job Data)
  resumes : List (Resume Data)

/-- A process that has just been started. -/
def Process.new (maxAttempts : ℕ) : Process Data :=
  ⟨maxAttempts, true, false, false, [], [], [], []⟩

/-- The process, the two stores, what the endpoints have received, the deliveries in the order of
their numbers, and the POSTs: for which delivery, and which attempt. -/
structure State (Data : Type) where
  process : Process Data
  pending : Collection (Job Data) String (·.key)
  deadLetters : Collection (Record Data) String (·.idempotencyKey)
  delivered : List (Parcel Data)
  accepted : List (Parcel Data)
  posts : List (ℕ × ℕ)

def start (maxAttempts : ℕ) : State Data := ⟨.new maxAttempts, .empty, .empty, [], [], []⟩

inductive Action (Data : Type)
  | enqueue (endpoint : String) (payload : WebhookPayload Data)
  | stopAccepting
  | drain
  | halt
  | advance (entry : ℕ) (response : Except String ℕ)
  | persist (write : ℕ)
  | resumePending
  | resume (resume : ℕ) (listed : Bool)
  /-- The process ends, gracefully or not, and a new one is started. -/
  | restart

/-! ## Steps -/

/-- An attempt is counted and recorded before its POST. -/
def Entry.attempted (entry : Entry Data) (attempt : ℕ) : Entry Data :=
  { entry with
    job.attempts := attempt + 1
    phase := .posting attempt
    attemptHistory := entry.attemptHistory ++ [⟨attempt + 1⟩] }

/-- The loop of `deliverWebhook`, from an attempt on, up to its first await. -/
def attemptLoop (process : Process Data) (entry : Entry Data) (attempt : ℕ) : Entry Data :=
  if attempt < process.maxAttempts then
    if process.aborted then { entry with phase := .returned .pending }
    else entry.attempted attempt
  else { entry with phase := .returned .failed }

namespace State

/-- A delivery goes on. -/
def setEntry (s : State Data) (i : ℕ) (entry : Entry Data) : State Data :=
  { s with process.entries := s.process.entries.set i entry }

/-- A delivery goes on in its loop. -/
def loop (s : State Data) (i : ℕ) (entry : Entry Data) (attempt : ℕ) : State Data :=
  let entry := attemptLoop s.process entry attempt
  { s.setEntry i entry with posts := s.posts ++ entry.posts }

/-- An endpoint receives a payload. -/
def deliver (s : State Data) (parcel : Parcel Data) : State Data :=
  { s with delivered := s.delivered ++ [parcel] }

/-- `save` of the store of dead letters. -/
def saveDeadLetter (s : State Data) (record : Record Data) : State Data :=
  { s with deadLetters := s.deadLetters.replaceOne record }

/-- `save` of the store of pending deliveries, one job of it. -/
def savePending (s : State Data) (job : Job Data) : State Data :=
  { s with pending := s.pending.replaceOne job }

end State

/-- The job's own attempts are where the loop begins. -/
def enqueue (s : State Data) (job : Job Data) : State Data :=
  if s.process.accepting = false then
    if s.process.aborted then { s with process.writes := s.process.writes ++ [job] }
    else { s with process.deferred := s.process.deferred ++ [job] }
  else
    let entry := ⟨⟨job.toWebhookDeliveryJob, none, none, .over, true, none⟩, job.attemptHistory,
      job.delivery⟩
    let i := s.process.entries.length
    { s with process.entries := s.process.entries ++ [entry] }.loop i entry job.attempts

/-- A delivery begins, with no attempts and an empty history. -/
def begin (s : State Data) (endpoint : String) (payload : WebhookPayload Data) : State Data :=
  enqueue { s with accepted := s.accepted ++ [(endpoint, payload)] }
    ⟨⟨endpoint, payload, 0⟩, [], s.accepted.length⟩

/-- The jobs of the active deliveries, and those deferred. -/
def Process.unfinished (process : Process Data) : List (Job Data) :=
  (process.entries.filter (·.active)).map (·.toJob) ++ process.deferred

/-- An entry is no longer among the active ones. -/
def Entry.deactivate (entry : Entry Data) : Entry Data := { entry with active := false }

/-- The end of the wait of `drain`. -/
def halt (s : State Data) : State Data :=
  if s.process.draining then
    { s with
      process.aborted := true
      process.entries := s.process.entries.map Entry.deactivate
      process.deferred := []
      process.writes := s.process.writes ++ s.process.unfinished }
  else s

def answer (s : State Data) (i : ℕ) (entry : Entry Data) (attempt : ℕ)
    (response : Except String ℕ) : State Data :=
  let answered := entry.afterAnswer response
  if succeeds response then
    (s.deliver entry.job.parcel).setEntry i { answered with phase := .returned .delivered }
  else if attempt + 1 = s.process.maxAttempts then s.loop i answered (attempt + 1)
  else s.setEntry i { answered with phase := .waiting attempt }

def advance (s : State Data) (i : ℕ) (entry : Entry Data) (response : Except String ℕ) :
    State Data :=
  match entry.phase with
  | .posting attempt => answer s i entry attempt response
  | .waiting attempt => s.loop i entry (attempt + 1)
  | .returned .pending => s.setEntry i { entry with phase := .over }
  | .returned .failed => s.setEntry i { entry with phase := .saving }
  | .returned .delivered => s.setEntry i { entry with active := false, phase := .over }
  | .saving =>
    (s.saveDeadLetter (entry.toRecord .failed)).setEntry i { entry with phase := .saved }
  | .saved => s.setEntry i { entry with active := false, phase := .over }
  | .over => s

def resumePending (s : State Data) : State Data :=
  let resume := if s.pending.docs = [] then .taken [] else .found s.pending.docs
  { s with process.resumes := s.process.resumes ++ [resume] }

def resume (s : State Data) (i : ℕ) (listed : Bool) : Resume Data → State Data
  | .found jobs =>
    { s with
      pending := s.pending.deleteMany fun job => job.key ∈ jobs.map (·.key)
      process.resumes := s.process.resumes.set i (.taken jobs) }
  | .taken jobs =>
    let s := { s with process.resumes := s.process.resumes.eraseIdx i }
    if listed then jobs.foldl enqueue s else s

def step (s : State Data) : Action Data → State Data
  | .enqueue endpoint payload => begin s endpoint payload
  | .stopAccepting => { s with process.accepting := false }
  | .drain => { s with process.accepting := false, process.draining := true }
  | .halt => halt s
  | .advance i response =>
    match s.process.entries[i]? with
    | none => s
    | some entry => advance s i entry response
  | .persist i =>
    match s.process.writes[i]? with
    | none => s
    | some job => { s with process.writes := s.process.writes.eraseIdx i }.savePending job
  | .resumePending => resumePending s
  | .resume i listed =>
    match s.process.resumes[i]? with
    | none => s
    | some r => resume s i listed r
  | .restart => { s with process := .new s.process.maxAttempts }

/-! ## Without the histories -/

def Resume.forget : Resume Data → WebhookDelivery.Resume Data
  | .found jobs => .found (jobs.map (·.toWebhookDeliveryJob))
  | .taken jobs => .taken (jobs.map (·.toWebhookDeliveryJob))

def Process.forget (process : Process Data) : WebhookDelivery.Process Data where
  maxAttempts := process.maxAttempts
  accepting := process.accepting
  draining := process.draining
  aborted := process.aborted
  entries := process.entries.map (·.toEntry)
  deferred := process.deferred.map (·.toWebhookDeliveryJob)
  writes := process.writes.map (·.toWebhookDeliveryJob)
  resumes := process.resumes.map Resume.forget
  replays := []

def State.forget (s : State Data) : WebhookDelivery.State Data where
  process := s.process.forget
  pending := s.pending.map Job.toWebhookDeliveryJob fun _ => rfl
  deadLetters := s.deadLetters.map Record.toWebhookDeliveryRecord fun _ => rfl
  delivered := s.delivered

/-- A step as one of the delivery queue, all of whose processes are configured alike. -/
def Action.forget (maxAttempts : ℕ) : Action Data → WebhookDelivery.Action Data
  | .enqueue endpoint payload => .enqueue endpoint payload
  | .stopAccepting => .stopAccepting
  | .drain => .drain
  | .halt => .halt
  | .advance i response => .advance i response
  | .persist i => .persist i
  | .resumePending => .resumePending
  | .resume i listed => .resume i listed
  | .restart => .restart maxAttempts

section Forget

variable {s : State Data} {entry : Entry Data} {i attempt : ℕ}

theorem toEntry_attemptLoop (process : Process Data) : (attemptLoop process entry attempt).toEntry =
    WebhookDelivery.attemptLoop process.forget entry.toEntry attempt := by
  unfold attemptLoop WebhookDelivery.attemptLoop
  by_cases hlt : attempt < process.maxAttempts
  · rw [if_pos hlt, if_pos (show attempt < process.forget.maxAttempts from hlt)]
    by_cases haborted : process.aborted = true
    · rw [if_pos haborted, if_pos (show process.forget.aborted = true from haborted)]
    · rw [if_neg haborted, if_neg (show ¬ process.forget.aborted = true from haborted)]
      rfl
  · rw [if_neg hlt, if_neg (show ¬ attempt < process.forget.maxAttempts from hlt)]

theorem forget_setEntry : (s.setEntry i entry).forget = s.forget.setEntry i entry.toEntry := by
  simp [State.setEntry, WebhookDelivery.State.setEntry, State.forget, Process.forget, List.map_set]

theorem forget_loop : (s.loop i entry attempt).forget = s.forget.setEntry i
    (WebhookDelivery.attemptLoop s.forget.process entry.toEntry attempt) := by
  have hprocess : s.forget.process = s.process.forget := rfl
  rw [hprocess, ← toEntry_attemptLoop]
  exact forget_setEntry

theorem forget_enqueue (job : Job Data) : (enqueue s job).forget =
    WebhookDelivery.enqueue s.forget job.toWebhookDeliveryJob none := by
  unfold enqueue WebhookDelivery.enqueue
  by_cases hclosed : s.process.accepting = false
  · rw [if_pos hclosed, if_pos (show s.forget.process.accepting = false from hclosed)]
    by_cases haborted : s.process.aborted = true
    · rw [if_pos haborted, if_pos (show s.forget.process.aborted = true from haborted)]
      simp [State.forget, Process.forget]
    · rw [if_neg haborted, if_neg (show ¬ s.forget.process.aborted = true from haborted)]
      simp [State.forget, Process.forget]
  · rw [if_neg hclosed, if_neg (show ¬ s.forget.process.accepting = false from hclosed),
      forget_loop]
    simp [State.forget, Process.forget, WebhookDelivery.State.setEntry,
      List.set_append_right]
    rfl

theorem forget_enqueueAll (jobs : List (Job Data)) : (jobs.foldl enqueue s).forget =
    (jobs.map (·.toWebhookDeliveryJob)).foldl (WebhookDelivery.enqueue · · none) s.forget := by
  induction jobs generalizing s with
  | nil => rfl
  | cons job jobs ih => rw [List.foldl_cons, ih, forget_enqueue, List.map_cons, List.foldl_cons]

theorem forget_halt : (halt s).forget = WebhookDelivery.halt s.forget := by
  unfold halt WebhookDelivery.halt
  by_cases hdraining : s.process.draining = true
  · rw [if_pos hdraining, if_pos (show s.forget.process.draining = true from hdraining)]
    simp [State.forget, Process.forget, Process.unfinished, WebhookDelivery.Process.unfinished,
      List.filter_map, Entry.deactivate, Entry.toJob, Function.comp_def]
  · rw [if_neg hdraining, if_neg (show ¬ s.forget.process.draining = true from hdraining)]

theorem forget_answer (response : Except String ℕ) : (answer s i entry attempt response).forget =
    WebhookDelivery.answer s.forget i entry.toEntry attempt response := by
  unfold answer WebhookDelivery.answer
  dsimp only
  split
  · exact forget_setEntry
  · by_cases hlast : attempt + 1 = s.process.maxAttempts
    · rw [if_pos hlast, if_pos (show attempt + 1 = s.forget.process.maxAttempts from hlast)]
      exact forget_loop
    · rw [if_neg hlast, if_neg (show ¬ attempt + 1 = s.forget.process.maxAttempts from hlast)]
      exact forget_setEntry

theorem forget_advance (hreplays : entry.replays = none) (response : Except String ℕ) :
    (advance s i entry response).forget =
      WebhookDelivery.advance s.forget i entry.toEntry response := by
  unfold advance WebhookDelivery.advance
  cases hphase : entry.phase with
  | posting attempt => exact forget_answer response
  | waiting attempt => exact forget_loop
  | returned status =>
    cases status with
    | pending => exact forget_setEntry
    | failed => exact forget_setEntry
    | delivered =>
      dsimp only
      rw [hreplays]
      exact forget_setEntry
  | saving =>
    dsimp only
    rw [forget_setEntry]
    congr 1
    simp only [State.saveDeadLetter, WebhookDelivery.State.saveDeadLetter, State.forget]
    rw [Collection.map_replaceOne]
    rfl
  | saved => exact forget_setEntry
  -- a delivery that is over
  | _ => rfl

theorem forget_resume (listed : Bool) (r : Resume Data) : (resume s i listed r).forget =
    WebhookDelivery.resume s.forget i listed r.forget := by
  cases r with
  | found jobs =>
    simp only [resume, WebhookDelivery.resume, Resume.forget, State.forget, Process.forget,
      List.map_set]
    rw [Collection.map_deleteMany]
    intro job
    simp [WebhookDeliveryJob.key]
  | taken jobs =>
    unfold resume Resume.forget WebhookDelivery.resume
    dsimp only
    split
    · rw [forget_enqueueAll]
      simp [State.forget, Process.forget, List.eraseIdx_map]
    · simp [State.forget, Process.forget, List.eraseIdx_map]

/-- No delivery is a replay, and the configuration is the same in every process. -/
structure Simple (maxAttempts : ℕ) (s : State Data) : Prop where
  replays : ∀ entry ∈ s.process.entries, entry.replays = none
  configured : s.process.maxAttempts = maxAttempts

namespace Simple

variable {maxAttempts : ℕ}

theorem setEntry (hs : Simple maxAttempts s) (he : entry.replays = none) :
    Simple maxAttempts (s.setEntry i entry) :=
  ⟨Crew.forall_mem_set hs.replays he i, hs.configured⟩

theorem loop (hs : Simple maxAttempts s) (he : entry.replays = none) :
    Simple maxAttempts (s.loop i entry attempt) := by
  have hreplays : (attemptLoop s.process entry attempt).replays = none := by
    unfold attemptLoop
    split
    · split <;> exact he
    · exact he
  exact ⟨(hs.setEntry hreplays).replays, hs.configured⟩

theorem enqueue (hs : Simple maxAttempts s) (job : Job Data) :
    Simple maxAttempts (enqueue s job) := by
  unfold Attempts.enqueue
  split
  · split <;> exact ⟨hs.replays, hs.configured⟩
  · exact loop ⟨List.forall_mem_append.mpr ⟨hs.replays, List.forall_mem_singleton.mpr rfl⟩,
      hs.configured⟩ rfl

theorem enqueueAll (hs : Simple maxAttempts s) (jobs : List (Job Data)) :
    Simple maxAttempts (jobs.foldl Attempts.enqueue s) := by
  induction jobs generalizing s with
  | nil => exact hs
  | cons job jobs ih => exact ih (hs.enqueue job)

theorem advance (hs : Simple maxAttempts s) (he : entry.replays = none)
    (response : Except String ℕ) : Simple maxAttempts (advance s i entry response) := by
  have hanswered : (entry.afterAnswer response).replays = none := by
    cases response <;> exact he
  unfold Attempts.advance
  split
  · unfold answer
    dsimp only
    split
    · exact setEntry ⟨hs.replays, hs.configured⟩ hanswered
    · split
      · exact hs.loop hanswered
      · exact hs.setEntry hanswered
  · exact hs.loop he
  · exact hs.setEntry he
  · exact hs.setEntry he
  · exact hs.setEntry he
  · exact setEntry ⟨hs.replays, hs.configured⟩ he
  · exact hs.setEntry he
  · exact hs

theorem step (hs : Simple maxAttempts s) (a : Action Data) : Simple maxAttempts (step s a) := by
  cases a with
  | enqueue endpoint payload =>
    have haccepted : Simple maxAttempts
        { s with accepted := s.accepted ++ [(endpoint, payload)] } :=
      ⟨hs.replays, hs.configured⟩
    exact haccepted.enqueue _
  | stopAccepting => exact ⟨hs.replays, hs.configured⟩
  | drain => exact ⟨hs.replays, hs.configured⟩
  | halt =>
    rw [Attempts.step, halt]
    split
    · exact ⟨List.forall_mem_map.mpr hs.replays, hs.configured⟩
    · exact hs
  | advance i response =>
    rw [Attempts.step]
    cases hi : s.process.entries[i]? with
    | none => exact hs
    | some entry => exact hs.advance (hs.replays entry (List.mem_of_getElem? hi)) response
  | persist i =>
    rw [Attempts.step]
    cases s.process.writes[i]? with
    | none => exact hs
    | some job => exact ⟨hs.replays, hs.configured⟩
  | resumePending => exact ⟨hs.replays, hs.configured⟩
  | resume i listed =>
    rw [Attempts.step]
    cases s.process.resumes[i]? with
    | none => exact hs
    | some r =>
      cases r with
      | found jobs => exact ⟨hs.replays, hs.configured⟩
      | taken jobs =>
        unfold resume
        dsimp only
        split
        · refine enqueueAll ?_ jobs
          exact ⟨hs.replays, hs.configured⟩
        · exact ⟨hs.replays, hs.configured⟩
  | restart => exact ⟨fun entry h => absurd h List.not_mem_nil, hs.configured⟩

end Simple

/-- **A step** is one of the delivery queue, without the histories. -/
theorem forget_step {maxAttempts : ℕ} (hs : Simple maxAttempts s) (a : Action Data) :
    (step s a).forget = WebhookDelivery.step s.forget (a.forget maxAttempts) := by
  cases a with
  | enqueue endpoint payload => exact forget_enqueue _
  | stopAccepting => rfl
  | drain => rfl
  | halt => exact forget_halt
  | advance i response =>
    have hentries : s.forget.process.entries[i]? = s.process.entries[i]?.map (·.toEntry) :=
      List.getElem?_map
    rw [step, Action.forget, WebhookDelivery.step, hentries]
    cases hi : s.process.entries[i]? with
    | none => rfl
    | some entry => exact forget_advance (hs.replays entry (List.mem_of_getElem? hi)) response
  | persist i =>
    have hwrites : s.forget.process.writes[i]? =
        s.process.writes[i]?.map (·.toWebhookDeliveryJob) := List.getElem?_map
    rw [step, Action.forget, WebhookDelivery.step, hwrites]
    cases s.process.writes[i]? with
    | none => rfl
    | some job =>
      simp only [State.savePending, WebhookDelivery.State.savePending, Option.map_some,
        State.forget, Process.forget, List.eraseIdx_map]
      rw [Collection.map_replaceOne]
  | resumePending =>
    rw [step, Action.forget, WebhookDelivery.step, resumePending, WebhookDelivery.resumePending]
    by_cases hempty : s.pending.docs = []
    · have hempty' : s.forget.pending.docs = [] := List.map_eq_nil_iff.mpr hempty
      rw [if_pos hempty, if_pos hempty']
      simp [State.forget, Process.forget, Resume.forget]
    · have hempty' : ¬ s.forget.pending.docs = [] := mt List.map_eq_nil_iff.mp hempty
      rw [if_neg hempty, if_neg hempty']
      simp [State.forget, Process.forget, Resume.forget, Collection.docs_map]
  | resume i listed =>
    have hresumes : s.forget.process.resumes[i]? = s.process.resumes[i]?.map Resume.forget :=
      List.getElem?_map
    rw [step, Action.forget, WebhookDelivery.step, hresumes]
    cases s.process.resumes[i]? with
    | none => rfl
    | some r => exact forget_resume listed r
  | restart =>
    rw [step, Action.forget, WebhookDelivery.step, hs.configured]
    rfl

/-- **A run** is one of the delivery queue, without the histories. -/
theorem forget_run (maxAttempts : ℕ) (as : List (Action Data)) :
    (run step (start maxAttempts) as).forget =
      run WebhookDelivery.step (WebhookDelivery.start maxAttempts)
        (as.map (Action.forget maxAttempts)) := by
  have hrun : ∀ {s : State Data}, Simple maxAttempts s → (run step s as).forget =
      run WebhookDelivery.step s.forget (as.map (Action.forget maxAttempts)) := by
    induction as with
    | nil => exact fun _ => rfl
    | cons a as ih =>
      intro s hs
      rw [run_cons, ih (hs.step a), forget_step hs, List.map_cons, run_cons]
  exact hrun ⟨fun entry h => absurd h List.not_mem_nil, rfl⟩

end Forget

end WebhookDelivery.Attempts
