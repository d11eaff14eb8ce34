import Comebackhere.Library.Crew
import Comebackhere.Webhooks.DeliveryQueue

/-!
# No delivery is lost

What is accepted for delivery is delivered, or a dead letter, or still in the queue or in the store
of pending deliveries, as long as no write takes the place of another delivery's document, no
deletion removes another's, and the process ends with nothing in its memory. The stores address
their documents by the idempotency key, which several deliveries may share: then one is lost when
another is written under its key. What is delivered has always been accepted as it is delivered.

## Main definitions

* `Process.held`, `State.Kept`: where a delivery may be
* `LosesNothing`: every accepted delivery is somewhere, and none is delivered with another's payload
* `Undisturbed`: a step leaves the documents of other deliveries alone

## Main results

* `State.Within.step`: what is anywhere has been accepted
* `keeps_step`: an undisturbed step loses nothing
* `losesNothing_of_undisturbed`: no delivery is lost in a run of undisturbed steps
-/

namespace WebhookDelivery

open Machine

variable {Data : Type}

/-! ## Where a delivery may be -/

/-- The jobs that are in no store while a run of `resumePending` has them. -/
def Resume.inHand : Resume Data → List (WebhookDeliveryJob Data)
  | .found _ => []
  | .taken jobs => jobs

/-- What is in the queue: active, deferred, being written to the pending deliveries, or taken from
them. -/
def Process.held (process : Process Data) : List (Parcel Data) :=
  (process.unfinished ++ process.writes ++ process.resumes.flatMap Resume.inHand).map (·.parcel)

/-- What is a dead letter. -/
def State.dead (s : State Data) : List (Parcel Data) := s.deadLetters.docs.map (·.parcel)

/-- What is in the store of pending deliveries. -/
def State.stored (s : State Data) : List (Parcel Data) := s.pending.docs.map (·.parcel)

/-- A delivery is delivered, or a dead letter, or in the queue, or in the store of pending ones. -/
def State.Kept (s : State Data) (parcel : Parcel Data) : Prop :=
  parcel ∈ s.delivered ∨ parcel ∈ s.dead ∨ parcel ∈ s.process.held ∨ parcel ∈ s.stored

/-- What has been accepted in a history. -/
def accepted (h : List (State Data × Action Data)) : List (Parcel Data) :=
  h.filterMap fun t =>
    match t.2 with
    | .enqueue endpoint payload => some (endpoint, payload)
    | _ => none

/-- What is accepted is kept, and what is delivered was accepted for that endpoint. -/
structure LosesNothing (h : List (State Data × Action Data)) (s : State Data) : Prop where
  kept : ∀ parcel ∈ accepted h, s.Kept parcel
  own : ∀ parcel ∈ s.delivered, parcel ∈ accepted h

/-- The deletion removes no other delivery's document, and what is taken is re-enqueued. -/
def Resume.Undisturbed (s : State Data) (listed : Bool) : Resume Data → Prop
  | .found jobs => ∀ job ∈ jobs, ∀ doc ∈ s.pending.find job.key, doc.parcel = job.parcel
  | .taken jobs => listed = true ∨ jobs = []

/-- The deletion removes no other delivery's dead letter. -/
def Replay.Undisturbed (s : State Data) : Replay Data → Prop
  | .found _ _ => True
  | .delivered idempotencyKey result =>
    ∀ doc ∈ s.deadLetters.find idempotencyKey, doc.parcel = result.parcel

/-- A write takes no other delivery's place, a deletion removes no other delivery's document, what
is taken is re-enqueued, and a process ends with nothing in its memory. -/
def Undisturbed (s : State Data) : Action Data → Prop
  | .persist i =>
    ∀ job ∈ s.process.writes[i]?, ∀ doc ∈ s.pending.find job.key, doc.parcel = job.parcel
  | .advance i _ => ∀ entry ∈ s.process.entries[i]?, entry.phase = .saving →
      ∀ doc ∈ s.deadLetters.find entry.job.key, doc.parcel = entry.job.parcel
  | .resume i listed => ∀ r ∈ s.process.resumes[i]?, r.Undisturbed s listed
  | .replay i => ∀ r ∈ s.process.replays[i]?, r.Undisturbed s
  | .restart _ => s.process.held = []
  -- these write to no store, and what they move stays in the queue
  | .enqueue _ _ | .stopAccepting | .drain | .halt | .resumePending | .replayDeadLetter _ => True

/-! ## What is anywhere has been accepted -/

def Resume.jobs : Resume Data → List (WebhookDeliveryJob Data)
  | .found jobs | .taken jobs => jobs

def Replay.record : Replay Data → WebhookDeliveryRecord Data
  | .found _ record | .delivered _ record => record

/-- All that is in the queue and the stores, and all that is delivered, satisfies `A`. -/
structure State.Within (A : Parcel Data → Prop) (s : State Data) : Prop where
  delivered : ∀ parcel ∈ s.delivered, A parcel
  deadLetters : ∀ record ∈ s.deadLetters.docs, A record.parcel
  pending : ∀ job ∈ s.pending.docs, A job.parcel
  entries : ∀ entry ∈ s.process.entries, A entry.job.parcel
  deferred : ∀ job ∈ s.process.deferred, A job.parcel
  writes : ∀ job ∈ s.process.writes, A job.parcel
  resumes : ∀ r ∈ s.process.resumes, ∀ job ∈ r.jobs, A job.parcel
  replays : ∀ r ∈ s.process.replays, A r.record.parcel

/-- What a step accepts satisfies `A`. -/
def Action.Accepts (A : Parcel Data → Prop) : Action Data → Prop
  | .enqueue endpoint payload => A (endpoint, payload)
  | _ => True

section Loop

variable (process : Process Data) (entry : Entry Data) (attempt : ℕ)

@[simp] theorem parcel_attemptLoop :
    (attemptLoop process entry attempt).job.parcel = entry.job.parcel := by
  unfold attemptLoop
  split
  · split <;> rfl
  · rfl

@[simp] theorem active_attemptLoop : (attemptLoop process entry attempt).active = entry.active := by
  unfold attemptLoop
  split
  · split <;> rfl
  · rfl

/-- The loop goes on, or ends without a success. -/
theorem phase_attemptLoop :
    (attemptLoop process entry attempt).phase = .posting attempt ∨
      (attemptLoop process entry attempt).phase = .returned .pending ∨
      (attemptLoop process entry attempt).phase = .returned .failed := by
  unfold attemptLoop
  split
  · split <;> simp
  · simp

@[simp] theorem job_answered (response : Except String ℕ) :
    (entry.answered response).job = entry.job := by
  cases response <;> rfl

@[simp] theorem active_answered (response : Except String ℕ) :
    (entry.answered response).active = entry.active := by
  cases response <;> rfl

end Loop

section Within

variable {A : Parcel Data → Prop} {s : State Data}

theorem State.Within.mono (hs : s.Within A) {B : Parcel Data → Prop}
    (hAB : ∀ parcel, A parcel → B parcel) : s.Within B :=
  ⟨fun d hd => hAB d (hs.delivered d hd), fun r hr => hAB _ (hs.deadLetters r hr),
    fun j hj => hAB _ (hs.pending j hj), fun e he => hAB _ (hs.entries e he),
    fun j hj => hAB _ (hs.deferred j hj), fun j hj => hAB _ (hs.writes j hj),
    fun r hr j hj => hAB _ (hs.resumes r hr j hj), fun r hr => hAB _ (hs.replays r hr)⟩

theorem State.Within.enqueue (hs : s.Within A) (job : WebhookDeliveryJob Data)
    (hjob : A job.parcel) (replays : Option String) : (enqueue s job replays).Within A := by
  have hsnoc : ∀ jobs : List (WebhookDeliveryJob Data), (∀ j ∈ jobs, A j.parcel) →
      ∀ j ∈ jobs ++ [job], A j.parcel := fun jobs hjobs =>
    List.forall_mem_append.mpr ⟨hjobs, List.forall_mem_singleton.mpr hjob⟩
  unfold WebhookDelivery.enqueue
  split
  · split
    · exact { hs with writes := hsnoc _ hs.writes }
    · exact { hs with deferred := hsnoc _ hs.deferred }
  · refine { hs with entries := List.forall_mem_append.mpr ⟨hs.entries, ?_⟩ }
    exact List.forall_mem_singleton.mpr (by simpa using hjob)

namespace State.Within

theorem setEntry (hs : s.Within A) (i : ℕ) {entry : Entry Data} (hentry : A entry.job.parcel) :
    (s.setEntry i entry).Within A :=
  { hs with entries := Crew.forall_mem_set hs.entries hentry i }

theorem deliver (hs : s.Within A) {parcel : Parcel Data} (hparcel : A parcel) :
    (s.deliver parcel).Within A :=
  { hs with
    delivered := List.forall_mem_append.mpr ⟨hs.delivered, List.forall_mem_singleton.mpr hparcel⟩ }

theorem addReplay (hs : s.Within A) {r : Replay Data} (hr : A r.record.parcel) :
    (s.addReplay r).Within A :=
  { hs with
    replays := List.forall_mem_append.mpr ⟨hs.replays, List.forall_mem_singleton.mpr hr⟩ }

theorem saveDeadLetter (hs : s.Within A) (record : WebhookDeliveryRecord Data)
    (hrecord : A record.parcel) : (s.saveDeadLetter record).Within A := by
  refine { hs with deadLetters := fun doc hdoc => ?_ }
  rcases Collection.mem_replaceOne.mp hdoc with rfl | ⟨hdoc, -⟩
  · exact hrecord
  · exact hs.deadLetters doc hdoc

theorem savePending (hs : s.Within A) {job : WebhookDeliveryJob Data} (hjob : A job.parcel) :
    (s.savePending job).Within A := by
  refine { hs with pending := fun doc hdoc => ?_ }
  rcases Collection.mem_replaceOne.mp hdoc with rfl | ⟨hdoc, -⟩
  · exact hjob
  · exact hs.pending doc hdoc

theorem advance (hs : s.Within A) {i : ℕ} {entry : Entry Data}
    (hi : s.process.entries[i]? = some entry) (response : Except String ℕ) :
    (advance s i entry response).Within A := by
  have hentry := hs.entries entry (List.mem_of_getElem? hi)
  unfold WebhookDelivery.advance
  split
  · unfold answer
    dsimp only
    split
    · exact (hs.deliver hentry).setEntry i (by simpa using hentry)
    · split <;> exact hs.setEntry i (by simpa using hentry)
  · exact hs.setEntry i (by simpa using hentry)
  · exact hs.setEntry i hentry
  · exact hs.setEntry i hentry
  · dsimp only
    split
    · exact hs.setEntry i hentry
    · refine State.Within.addReplay ?_ hentry
      exact hs.setEntry i hentry
  · exact (hs.saveDeadLetter (entry.record .failed) hentry).setEntry i hentry
  · exact hs.setEntry i hentry
  · exact hs

theorem halt (hs : s.Within A) : (halt s).Within A := by
  unfold WebhookDelivery.halt
  split
  · refine { hs with entries := ?_, deferred := by simp, writes := ?_ }
    · exact List.forall_mem_map.mpr hs.entries
    · refine List.forall_mem_append.mpr ⟨hs.writes, List.forall_mem_append.mpr ⟨?_, hs.deferred⟩⟩
      intro job hjob
      obtain ⟨entry, hentry, rfl⟩ := List.mem_map.mp hjob
      exact hs.entries entry (List.mem_of_mem_filter hentry)
  · exact hs

theorem enqueueAll (hs : s.Within A) {jobs : List (WebhookDeliveryJob Data)}
    (hjobs : ∀ job ∈ jobs, A job.parcel) :
    (jobs.foldl (WebhookDelivery.enqueue · · none) s).Within A := by
  induction jobs generalizing s with
  | nil => exact hs
  | cons job jobs ih =>
    obtain ⟨hjob, hjobs⟩ := List.forall_mem_cons.mp hjobs
    exact ih (hs.enqueue job hjob none) hjobs

theorem resume (hs : s.Within A) {i : ℕ} {r : Resume Data}
    (hi : s.process.resumes[i]? = some r) (listed : Bool) : (resume s i listed r).Within A := by
  have hr := hs.resumes r (List.mem_of_getElem? hi)
  cases r with
  | found jobs =>
    refine { hs with
      pending := fun job hjob => hs.pending job (Collection.mem_deleteMany.mp hjob).1
      resumes := Crew.forall_mem_set (b := .taken jobs) hs.resumes hr i }
  | taken jobs =>
    have herased : State.Within A { s with process.resumes := s.process.resumes.eraseIdx i } :=
      { hs with resumes := fun r hr => hs.resumes r (List.mem_of_mem_eraseIdx hr) }
    unfold WebhookDelivery.resume
    dsimp only
    split
    · exact herased.enqueueAll hr
    · exact herased

theorem replay (hs : s.Within A) {i : ℕ} {r : Replay Data}
    (hi : s.process.replays[i]? = some r) : (replay s i r).Within A := by
  have hr := hs.replays r (List.mem_of_getElem? hi)
  have herased : State.Within A { s with process.replays := s.process.replays.eraseIdx i } :=
    { hs with replays := fun r hr => hs.replays r (List.mem_of_mem_eraseIdx hr) }
  cases r with
  | found idempotencyKey deadLetter =>
    exact herased.enqueue ⟨deadLetter.endpoint, deadLetter.payload, 0⟩ hr _
  | delivered idempotencyKey result =>
    exact { herased with
      deadLetters := fun doc hdoc => hs.deadLetters doc (Collection.mem_deleteMany.mp hdoc).1 }

theorem restart (hs : s.Within A) (maxAttempts : ℕ) :
    State.Within A { s with process := .new maxAttempts } := by
  refine ⟨hs.delivered, hs.deadLetters, hs.pending, ?_, ?_, ?_, ?_, ?_⟩ <;> simp [Process.new]

/-- **What is anywhere** has been accepted: a step adds only what it accepts. -/
theorem step (hs : s.Within A) {a : Action Data} (ha : a.Accepts A) : (step s a).Within A := by
  cases a with
  | enqueue endpoint payload => exact hs.enqueue ⟨endpoint, payload, 0⟩ ha none
  | stopAccepting | drain => exact { hs with }
  | halt => exact hs.halt
  | advance i response =>
    dsimp only [WebhookDelivery.step]
    cases hi : s.process.entries[i]? with
    | none => exact hs
    | some entry => exact hs.advance hi response
  | persist i =>
    dsimp only [WebhookDelivery.step]
    cases hi : s.process.writes[i]? with
    | none => exact hs
    | some job =>
      have hjob := hs.writes job (List.mem_of_getElem? hi)
      have herased : State.Within A { s with process.writes := s.process.writes.eraseIdx i } :=
        { hs with writes := fun job hjob => hs.writes job (List.mem_of_mem_eraseIdx hjob) }
      exact herased.savePending hjob
  | resumePending =>
    refine { hs with resumes := List.forall_mem_append.mpr ⟨hs.resumes, ?_⟩ }
    rw [List.forall_mem_singleton]
    split
    · simp [Resume.jobs]
    · exact hs.pending
  | resume i listed =>
    dsimp only [WebhookDelivery.step]
    cases hi : s.process.resumes[i]? with
    | none => exact hs
    | some r => exact hs.resume hi listed
  | replayDeadLetter idempotencyKey =>
    dsimp only [WebhookDelivery.step, replayDeadLetter]
    cases hd : s.deadLetters.find idempotencyKey with
    | none => exact hs
    | some deadLetter =>
      have hdead := hs.deadLetters deadLetter (Collection.mem_of_find hd)
      exact hs.addReplay (r := .found idempotencyKey deadLetter) hdead
  | replay i =>
    dsimp only [WebhookDelivery.step]
    cases hi : s.process.replays[i]? with
    | none => exact hs
    | some r => exact hs.replay hi
  | restart maxAttempts => exact hs.restart maxAttempts

end State.Within

end Within

/-! ## What a step keeps -/

/-- A delivery is delivered or a dead letter. -/
def State.Ended (s : State Data) (parcel : Parcel Data) : Prop :=
  parcel ∈ s.delivered ∨ parcel ∈ s.dead

/-- What is delivered or a dead letter stays so, and what was in the queue or stored is kept. -/
structure Keeps (s s' : State Data) : Prop where
  delivered : ∀ parcel ∈ s.delivered, parcel ∈ s'.delivered
  dead : ∀ parcel ∈ s.dead, s'.Ended parcel
  held : ∀ parcel ∈ s.process.held, s'.Kept parcel
  stored : ∀ parcel ∈ s.stored, s'.Kept parcel

/-- A delivery has been received before its task goes on, and is a dead letter, or delivered since,
before it leaves the active ones. -/
structure Entry.Settled (s : State Data) (entry : Entry Data) : Prop where
  delivered : entry.phase = .returned .delivered → entry.job.parcel ∈ s.delivered
  saved : entry.phase = .saved → s.Ended entry.job.parcel

/-- A dead letter is deleted when its delivery has been received. -/
def Replay.Settled (s : State Data) : Replay Data → Prop
  | .found _ _ => True
  | .delivered _ result => result.parcel ∈ s.delivered

structure State.Settled (s : State Data) : Prop where
  entries : ∀ entry ∈ s.process.entries, entry.Settled s
  replays : ∀ r ∈ s.process.replays, r.Settled s

section Keeps

variable {s s' s'' : State Data} {parcel : Parcel Data}

theorem State.Ended.kept (h : s.Ended parcel) : s.Kept parcel :=
  h.imp_right Or.inl

theorem State.kept_of_held (h : parcel ∈ s.process.held) : s.Kept parcel :=
  Or.inr (Or.inr (Or.inl h))

theorem State.kept_of_stored (h : parcel ∈ s.stored) : s.Kept parcel :=
  Or.inr (Or.inr (Or.inr h))

namespace Keeps

theorem ended (h : Keeps s s') (hparcel : s.Ended parcel) : s'.Ended parcel := by
  rcases hparcel with hparcel | hparcel
  · exact Or.inl (h.delivered parcel hparcel)
  · exact h.dead parcel hparcel

theorem kept (h : Keeps s s') (hparcel : s.Kept parcel) : s'.Kept parcel := by
  rcases hparcel with hparcel | hparcel | hparcel | hparcel
  · exact Or.inl (h.delivered parcel hparcel)
  · exact (h.dead parcel hparcel).kept
  · exact h.held parcel hparcel
  · exact h.stored parcel hparcel

theorem refl (s : State Data) : Keeps s s :=
  ⟨fun _ => id, fun _ => Or.inr, fun _ => State.kept_of_held, fun _ => State.kept_of_stored⟩

theorem trans (h : Keeps s s') (h' : Keeps s' s'') : Keeps s s'' :=
  ⟨fun parcel hp => h'.delivered parcel (h.delivered parcel hp),
    fun parcel hp => h'.ended (h.dead parcel hp), fun parcel hp => h'.kept (h.held parcel hp),
    fun parcel hp => h'.kept (h.stored parcel hp)⟩

theorem entry (h : Keeps s s') {entry : Entry Data} (he : entry.Settled s) : entry.Settled s' :=
  ⟨fun hphase => h.delivered _ (he.delivered hphase), fun hphase => h.ended (he.saved hphase)⟩

theorem replay (h : Keeps s s') {r : Replay Data} (hr : r.Settled s) : r.Settled s' := by
  cases r with
  | found idempotencyKey deadLetter => trivial
  | delivered idempotencyKey result => exact h.delivered _ hr

/-- A step that only changes what the queue has in memory. -/
theorem of_held (hdelivered : s'.delivered = s.delivered) (hdead : s'.deadLetters = s.deadLetters)
    (hpending : s'.pending = s.pending) (hheld : ∀ parcel ∈ s.process.held, s'.Kept parcel) :
    Keeps s s' := by
  refine ⟨?_, ?_, hheld, ?_⟩
  · rw [hdelivered]
    exact fun _ => id
  · intro parcel hp
    rw [State.dead, ← hdead] at hp
    exact Or.inr hp
  · intro parcel hp
    rw [State.stored, ← hpending] at hp
    exact State.kept_of_stored hp

end Keeps

/-- What is in the queue, by where it is. -/
theorem forall_held {process : Process Data} {A : Parcel Data → Prop} :
    (∀ parcel ∈ process.held, A parcel) ↔
      (∀ entry ∈ process.entries, entry.active = true → A entry.job.parcel) ∧
        (∀ job ∈ process.deferred, A job.parcel) ∧ (∀ job ∈ process.writes, A job.parcel) ∧
          ∀ r ∈ process.resumes, ∀ job ∈ r.inHand, A job.parcel := by
  simp only [Process.held, Process.unfinished, List.forall_mem_map, List.forall_mem_append,
    List.mem_filter, List.mem_flatMap, and_imp, forall_exists_index, and_assoc]
  exact and_congr_right fun _ => and_congr_right fun _ => and_congr_right fun _ =>
    ⟨fun h r hr job hjob => h job r hr hjob, fun h job r hr hjob => h r hr job hjob⟩

section Held

variable {process : Process Data} {entry : Entry Data} {job : WebhookDeliveryJob Data}

theorem held_of_entry (h : entry ∈ process.entries) (hactive : entry.active = true) :
    entry.job.parcel ∈ process.held := (forall_held.mp fun _ => id).1 entry h hactive

theorem held_of_deferred (h : job ∈ process.deferred) : job.parcel ∈ process.held :=
  (forall_held.mp fun _ => id).2.1 job h

theorem held_of_writes (h : job ∈ process.writes) : job.parcel ∈ process.held :=
  (forall_held.mp fun _ => id).2.2.1 job h

theorem held_of_resumes {r : Resume Data} (h : r ∈ process.resumes) (hjob : job ∈ r.inHand) :
    job.parcel ∈ process.held := (forall_held.mp fun _ => id).2.2.2 r h job hjob

end Held

/-- A step that only adds to what the queue has in memory. -/
theorem Keeps.of_subset (hdelivered : s'.delivered = s.delivered)
    (hdead : s'.deadLetters = s.deadLetters) (hpending : s'.pending = s.pending)
    (hentries : s.process.entries ⊆ s'.process.entries)
    (hdeferred : s.process.deferred ⊆ s'.process.deferred)
    (hwrites : s.process.writes ⊆ s'.process.writes)
    (hresumes : s.process.resumes ⊆ s'.process.resumes) : Keeps s s' := by
  refine .of_held hdelivered hdead hpending (forall_held.mpr ⟨?_, ?_, ?_, ?_⟩)
  · exact fun entry h hactive => State.kept_of_held (held_of_entry (hentries h) hactive)
  · exact fun job h => State.kept_of_held (held_of_deferred (hdeferred h))
  · exact fun job h => State.kept_of_held (held_of_writes (hwrites h))
  · exact fun r h job hjob => State.kept_of_held (held_of_resumes (hresumes h) hjob)

/-! ### Enqueueing -/

variable (job : WebhookDeliveryJob Data) (replays : Option String)

theorem keeps_enqueue : Keeps s (enqueue s job replays) := by
  have hsnoc : ∀ {α : Type} (l : List α) (x : α), l ⊆ l ++ [x] := fun l x =>
    List.subset_append_left l [x]
  unfold enqueue
  split
  · split
    · exact .of_subset rfl rfl rfl (fun _ => id) (fun _ => id) (hsnoc _ _) fun _ => id
    · exact .of_subset rfl rfl rfl (fun _ => id) (hsnoc _ _) (fun _ => id) fun _ => id
  · exact .of_subset rfl rfl rfl (hsnoc _ _) (fun _ => id) (fun _ => id) fun _ => id

/-- What is enqueued is in the queue. -/
theorem held_enqueue : job.parcel ∈ (enqueue s job replays).process.held := by
  have hlast : ∀ {α : Type} (l : List α) (x : α), x ∈ l ++ [x] := fun l x => by simp
  unfold enqueue
  split
  · split
    · exact held_of_writes (hlast _ _)
    · exact held_of_deferred (hlast _ _)
  · have hheld : ∀ entry : Entry Data, entry.active = true → entry.job.parcel ∈
        ({ s with process.entries := s.process.entries ++ [entry] } : State Data).process.held :=
      fun entry hactive => held_of_entry (hlast _ entry) hactive
    have hentry := hheld _ (active_attemptLoop s.process ⟨job, none, none, .over, true, replays⟩
      job.attempts)
    rwa [parcel_attemptLoop] at hentry

/-- A delivery that is in its loop has nothing to be settled. -/
theorem settled_attemptLoop (process : Process Data) (entry : Entry Data) (attempt : ℕ) :
    (attemptLoop process entry attempt).Settled s := by
  rcases phase_attemptLoop process entry attempt with h | h | h <;> constructor <;> simp [h]

/-- What was there is settled as before; what is new has to be settled. -/
theorem Keeps.settled (h : Keeps s s') (hs : s.Settled)
    (hentries : ∀ entry ∈ s'.process.entries, entry ∈ s.process.entries ∨ entry.Settled s')
    (hreplays : ∀ r ∈ s'.process.replays, r ∈ s.process.replays ∨ r.Settled s') : s'.Settled := by
  refine ⟨fun entry hentry => ?_, fun r hr => ?_⟩
  · exact (hentries entry hentry).elim (fun hmem => h.entry (hs.entries entry hmem)) id
  · exact (hreplays r hr).elim (fun hmem => h.replay (hs.replays r hmem)) id

/-- A step that leaves the deliveries, the replays and what they refer to. -/
theorem State.Settled.of_eq (hs : s.Settled) (hdelivered : s'.delivered = s.delivered)
    (hdead : s'.deadLetters = s.deadLetters) (hentries : s'.process.entries = s.process.entries)
    (hreplays : s'.process.replays = s.process.replays) : s'.Settled := by
  have hended : ∀ parcel, s.Ended parcel → s'.Ended parcel := by
    intro parcel hp
    rwa [State.Ended, State.dead, hdelivered, hdead]
  refine ⟨fun entry hentry => ?_, fun r hr => ?_⟩
  · rw [hentries] at hentry
    have hsettled := hs.entries entry hentry
    exact ⟨fun hphase => hdelivered ▸ hsettled.delivered hphase,
      fun hphase => hended _ (hsettled.saved hphase)⟩
  · rw [hreplays] at hr
    have hsettled := hs.replays r hr
    cases r with
    | found idempotencyKey deadLetter => trivial
    | delivered idempotencyKey result =>
      rw [Replay.Settled, hdelivered]
      exact hsettled

theorem replays_enqueue : (enqueue s job replays).process.replays = s.process.replays := by
  unfold enqueue
  split
  · split <;> rfl
  · rfl

/-- What is enqueued may become a delivery under way, which is in its loop. -/
theorem mem_entries_enqueue {entry : Entry Data}
    (h : entry ∈ (enqueue s job replays).process.entries) : entry ∈ s.process.entries ∨
      entry = attemptLoop s.process ⟨job, none, none, .over, true, replays⟩ job.attempts := by
  unfold enqueue at h
  split at h
  · split at h <;> exact Or.inl h
  · exact (List.mem_append.mp h).imp_right List.mem_singleton.mp

theorem settled_enqueue (hs : s.Settled) : (enqueue s job replays).Settled := by
  refine (keeps_enqueue job replays).settled hs (fun entry hentry => ?_) fun r hr => ?_
  · apply (mem_entries_enqueue job replays hentry).imp_right
    intro he
    rw [he]
    exact settled_attemptLoop _ _ _
  · rw [replays_enqueue] at hr
    exact Or.inl hr

theorem keeps_enqueueAll (jobs : List (WebhookDeliveryJob Data)) (hs : s.Settled) :
    Keeps s (jobs.foldl (enqueue · · none) s) ∧ (jobs.foldl (enqueue · · none) s).Settled ∧
      ∀ job ∈ jobs, (jobs.foldl (enqueue · · none) s).Kept job.parcel := by
  induction jobs generalizing s with
  | nil => exact ⟨.refl s, hs, nofun⟩
  | cons job jobs ih =>
    obtain ⟨hkeeps, hsettled, hjobs⟩ := ih (settled_enqueue job none hs)
    refine ⟨(keeps_enqueue job none).trans hkeeps, hsettled, List.forall_mem_cons.mpr ⟨?_, hjobs⟩⟩
    exact hkeeps.held _ (held_enqueue job none)

/-! ### A delivery that goes on -/

/-- A delivery goes on with the same job, and leaves the active ones only when it has ended. -/
theorem keeps_setEntry {i : ℕ} {entry entry' : Entry Data}
    (hi : s.process.entries[i]? = some entry) (hjob : entry'.job.parcel = entry.job.parcel)
    (hactive : entry'.active = entry.active ∨ s.Ended entry.job.parcel) :
    Keeps s (s.setEntry i entry') := by
  have hset : entry' ∈ (s.setEntry i entry').process.entries := by
    obtain ⟨hlt, -⟩ := List.getElem?_eq_some_iff.mp hi
    exact List.mem_set hlt entry'
  refine .of_held rfl rfl rfl (forall_held.mpr ⟨?_, ?_, ?_, ?_⟩)
  -- the others are where they were
  · intro entry₀ hentry₀ hactive₀
    rcases Crew.mem_set_or hentry₀ i entry' with hmem | hmem
    · exact State.kept_of_held (held_of_entry hmem hactive₀)
    · obtain rfl : entry = entry₀ := Option.some.inj (hi.symm.trans hmem)
      rcases hactive with hactive | hended
      · rw [← hjob]
        exact State.kept_of_held (held_of_entry hset (hactive.trans hactive₀))
      · exact State.Ended.kept hended
  · exact fun job h => State.kept_of_held (held_of_deferred h)
  · exact fun job h => State.kept_of_held (held_of_writes h)
  · exact fun r h job hjob => State.kept_of_held (held_of_resumes h hjob)

theorem settled_setEntry {i : ℕ} {entry : Entry Data} (h : Keeps s (s.setEntry i entry))
    (hs : s.Settled) (hentry : entry.Settled s) : (s.setEntry i entry).Settled := by
  refine h.settled hs (fun entry' hmem => ?_) fun r hr => Or.inl hr
  apply (List.mem_or_eq_of_mem_set hmem).imp_right
  intro he
  rw [he]
  exact h.entry hentry

theorem keeps_deliver (parcel : Parcel Data) : Keeps s (s.deliver parcel) := by
  refine ⟨fun parcel hp => List.mem_append_left _ hp, fun _ => Or.inr, fun parcel hp => ?_,
    fun parcel hp => ?_⟩
  · exact State.kept_of_held hp
  · exact State.kept_of_stored hp

/-- A dead letter is written that takes no other delivery's place. -/
theorem keeps_saveDeadLetter (record : WebhookDeliveryRecord Data)
    (hown : ∀ doc ∈ s.deadLetters.find record.idempotencyKey, doc.parcel = record.parcel) :
    Keeps s (s.saveDeadLetter record) := by
  refine ⟨fun _ => id, fun parcel hp => Or.inr ?_, fun parcel hp => State.kept_of_held hp,
    fun parcel hp => Or.inr (Or.inr (Or.inr hp))⟩
  obtain ⟨doc, hdoc, rfl⟩ := List.mem_map.mp hp
  -- a document that is replaced is of the same delivery
  by_cases hkey : doc.idempotencyKey = record.idempotencyKey
  · refine List.mem_map.mpr ⟨record, Collection.mem_replaceOne.mpr (Or.inl rfl), ?_⟩
    exact (hown doc (hkey ▸ Collection.find_of_mem hdoc)).symm
  · exact List.mem_map_of_mem (Collection.mem_replaceOne.mpr (Or.inr ⟨hdoc, hkey⟩))

/-- A dead letter is deleted that is no other delivery's than one that has been received. -/
theorem keeps_deleteDeadLetter {idempotencyKey : String} {parcel : Parcel Data}
    (hown : ∀ doc ∈ s.deadLetters.find idempotencyKey, doc.parcel = parcel)
    (hdelivered : parcel ∈ s.delivered) : Keeps s (s.deleteDeadLetter idempotencyKey) := by
  refine ⟨fun _ => id, fun parcel' hp => ?_, fun parcel' hp => State.kept_of_held hp,
    fun parcel' hp => Or.inr (Or.inr (Or.inr hp))⟩
  obtain ⟨doc, hdoc, rfl⟩ := List.mem_map.mp hp
  -- a document that is deleted is of the delivery that was received
  by_cases hkey : doc.idempotencyKey = idempotencyKey
  · rw [hown doc (hkey ▸ Collection.find_of_mem hdoc)]
    exact Or.inl hdelivered
  · refine Or.inr (List.mem_map_of_mem (Collection.mem_deleteMany.mpr ⟨hdoc, ?_⟩))
    simpa using hkey

theorem keeps_addReplay {r : Replay Data} (hs : s.Settled) (hr : r.Settled s) :
    Keeps s (s.addReplay r) ∧ (s.addReplay r).Settled := by
  have hkeeps : Keeps s (s.addReplay r) :=
    .of_subset rfl rfl rfl (fun _ => id) (fun _ => id) (fun _ => id) fun _ => id
  refine ⟨hkeeps, hkeeps.settled hs (fun _ => Or.inl) fun r' hr' => ?_⟩
  apply (List.mem_append.mp hr').imp_right
  intro hmem
  rw [List.mem_singleton.mp hmem]
  exact hkeeps.replay hr

theorem advance_setEntry (hs : s.Settled) {i : ℕ} {entry : Entry Data}
    (hi : s.process.entries[i]? = some entry) (entry' : Entry Data)
    (hjob : entry'.job.parcel = entry.job.parcel)
    (hactive : entry'.active = entry.active ∨ s.Ended entry.job.parcel)
    (hentry : entry'.Settled s) :
    Keeps s (s.setEntry i entry') ∧ (s.setEntry i entry').Settled := by
  have hkeeps := keeps_setEntry hi hjob hactive
  exact ⟨hkeeps, settled_setEntry hkeeps hs hentry⟩

theorem keeps_advance (hs : s.Settled) {i : ℕ} {entry : Entry Data}
    (hi : s.process.entries[i]? = some entry) (response : Except String ℕ)
    (hown : entry.phase = .saving → ∀ doc ∈ s.deadLetters.find entry.job.key,
      doc.parcel = entry.job.parcel) :
    Keeps s (advance s i entry response) ∧ (advance s i entry response).Settled := by
  have hentry := hs.entries entry (List.mem_of_getElem? hi)
  unfold advance
  split
  · next attempt _ =>
    unfold answer
    dsimp only
    split
    · -- the endpoint has received the payload
      have hdeliver := keeps_deliver (s := s) entry.job.parcel
      have hsettled : (s.deliver entry.job.parcel).Settled :=
        hdeliver.settled hs (fun _ => Or.inl) fun _ => Or.inl
      obtain ⟨hkeeps, hsettled⟩ := advance_setEntry hsettled hi
        { entry.answered response with phase := .returned .delivered } (by simp)
        (Or.inl (by simp)) ⟨fun _ => by simp [State.deliver], nofun⟩
      exact ⟨hdeliver.trans hkeeps, hsettled⟩
    · split
      · exact advance_setEntry hs hi _ (by simp) (Or.inl (by simp)) (settled_attemptLoop _ _ _)
      · exact advance_setEntry hs hi _ (by simp) (Or.inl (by simp)) ⟨nofun, nofun⟩
  · exact advance_setEntry hs hi _ (by simp) (Or.inl (by simp)) (settled_attemptLoop _ _ _)
  · exact advance_setEntry hs hi _ rfl (Or.inl rfl) ⟨nofun, nofun⟩
  · exact advance_setEntry hs hi _ rfl (Or.inl rfl) ⟨nofun, nofun⟩
  · next hphase =>
    -- it has been received, and leaves the active ones
    have hdelivered := hentry.delivered hphase
    obtain ⟨hkeeps, hsettled⟩ := advance_setEntry hs hi
      { entry with active := false, phase := .over } rfl (Or.inr (Or.inl hdelivered)) ⟨nofun, nofun⟩
    dsimp only
    split
    · exact ⟨hkeeps, hsettled⟩
    · next idempotencyKey _ =>
      obtain ⟨hkeeps', hsettled'⟩ := keeps_addReplay
        (r := .delivered idempotencyKey (entry.record .delivered)) hsettled hdelivered
      exact ⟨hkeeps.trans hkeeps', hsettled'⟩
  · next hphase =>
    -- the dead letter is written
    have hsave := keeps_saveDeadLetter (entry.record .failed) (hown hphase)
    have hsettled : (s.saveDeadLetter (entry.record .failed)).Settled :=
      hsave.settled hs (fun _ => Or.inl) fun _ => Or.inl
    have hdead : (s.saveDeadLetter (entry.record .failed)).Ended entry.job.parcel :=
      Or.inr (List.mem_map.mpr ⟨entry.record .failed, Collection.mem_replaceOne.mpr (Or.inl rfl),
        rfl⟩)
    obtain ⟨hkeeps, hsettled⟩ := advance_setEntry hsettled hi { entry with phase := .saved } rfl
      (Or.inl rfl) ⟨nofun, fun _ => hdead⟩
    exact ⟨hsave.trans hkeeps, hsettled⟩
  · next hphase =>
    exact advance_setEntry hs hi _ rfl (Or.inr (hentry.saved hphase)) ⟨nofun, nofun⟩
  · exact ⟨.refl s, hs⟩

/-! ### The other steps -/

/-- What is unfinished is being written. -/
theorem keeps_halt (hs : s.Settled) : Keeps s (halt s) ∧ (halt s).Settled := by
  unfold halt
  split
  · have hkeeps : Keeps s { s with
        process.aborted := true
        process.entries := s.process.entries.map ({ · with active := false })
        process.deferred := []
        process.writes := s.process.writes ++ s.process.unfinished } := by
      refine .of_held rfl rfl rfl (forall_held.mpr ⟨?_, ?_, ?_, ?_⟩)
      -- what is active or deferred is unfinished
      · intro entry hentry hactive
        have hmem : entry.job ∈ s.process.unfinished :=
          List.mem_append_left _ (List.mem_map_of_mem (List.mem_filter.mpr ⟨hentry, hactive⟩))
        exact State.kept_of_held (held_of_writes (List.mem_append_right _ hmem))
      · intro job hjob
        have hmem : job ∈ s.process.unfinished := List.mem_append_right _ hjob
        exact State.kept_of_held (held_of_writes (List.mem_append_right _ hmem))
      · exact fun job hjob => State.kept_of_held (held_of_writes (List.mem_append_left _ hjob))
      · exact fun r hr job hjob => State.kept_of_held (held_of_resumes hr hjob)
    refine ⟨hkeeps, ⟨?_, fun r hr => hkeeps.replay (hs.replays r hr)⟩⟩
    intro entry hentry
    obtain ⟨entry, hmem, rfl⟩ := List.mem_map.mp hentry
    have hentry := hkeeps.entry (hs.entries entry hmem)
    exact ⟨hentry.delivered, hentry.saved⟩
  · exact ⟨.refl s, hs⟩

/-- A pending delivery is written that takes no other delivery's place. -/
theorem keeps_persist {i : ℕ} {job : WebhookDeliveryJob Data}
    (hi : s.process.writes[i]? = some job)
    (hown : ∀ doc ∈ s.pending.find job.key, doc.parcel = job.parcel) :
    Keeps s ({ s with process.writes := s.process.writes.eraseIdx i }.savePending job) := by
  have hnew : ∀ parcel, job.parcel = parcel →
      ({ s with process.writes := s.process.writes.eraseIdx i }.savePending job).Kept parcel := by
    rintro parcel rfl
    exact State.kept_of_stored
      (List.mem_map.mpr ⟨job, Collection.mem_replaceOne.mpr (Or.inl rfl), rfl⟩)
  refine ⟨fun _ => id, fun _ => Or.inr, forall_held.mpr ⟨?_, ?_, ?_, ?_⟩, fun parcel hp => ?_⟩
  · exact fun entry h hactive => State.kept_of_held (held_of_entry h hactive)
  · exact fun job h => State.kept_of_held (held_of_deferred h)
  · intro job' hjob'
    rcases Crew.mem_eraseIdx_or hjob' i with hmem | hmem
    · exact State.kept_of_held (held_of_writes hmem)
    · obtain rfl : job = job' := Option.some.inj (hi.symm.trans hmem)
      exact hnew _ rfl
  · exact fun r h job hjob => State.kept_of_held (held_of_resumes h hjob)
  · obtain ⟨doc, hdoc, hp⟩ := List.mem_map.mp hp
    -- a document that is replaced is of the same delivery
    by_cases hkey : doc.key = job.key
    · exact hnew parcel ((hown doc (hkey ▸ Collection.find_of_mem hdoc)).symm.trans hp)
    · exact State.kept_of_stored
        (List.mem_map.mpr ⟨doc, Collection.mem_replaceOne.mpr (Or.inr ⟨hdoc, hkey⟩), hp⟩)

theorem keeps_resumePending : Keeps s (resumePending s) :=
  .of_subset rfl rfl rfl (fun _ => id) (fun _ => id) (fun _ => id)
    (List.subset_append_left _ _)

/-- The jobs that were found are taken, and no other delivery's document is deleted. -/
theorem keeps_resume_found {i : ℕ} {jobs : List (WebhookDeliveryJob Data)}
    (hi : s.process.resumes[i]? = some (.found jobs))
    (hown : ∀ job ∈ jobs, ∀ doc ∈ s.pending.find job.key, doc.parcel = job.parcel)
    (listed : Bool) : Keeps s (resume s i listed (.found jobs)) := by
  have hset : Resume.taken jobs ∈ (resume s i listed (.found jobs)).process.resumes := by
    obtain ⟨hlt, -⟩ := List.getElem?_eq_some_iff.mp hi
    exact List.mem_set hlt _
  refine ⟨fun _ => id, fun _ => Or.inr, forall_held.mpr ⟨?_, ?_, ?_, ?_⟩, fun parcel hp => ?_⟩
  · exact fun entry h hactive => State.kept_of_held (held_of_entry h hactive)
  · exact fun job h => State.kept_of_held (held_of_deferred h)
  · exact fun job h => State.kept_of_held (held_of_writes h)
  · intro r hr job hjob
    rcases Crew.mem_set_or hr i (.taken jobs) with hmem | hmem
    · exact State.kept_of_held (held_of_resumes hmem hjob)
    · -- what is only found is in no one's hands
      obtain rfl : Resume.found jobs = r := Option.some.inj (hi.symm.trans hmem)
      cases hjob
  · obtain ⟨doc, hdoc, hp⟩ := List.mem_map.mp hp
    -- what is deleted is in the hands of the one who takes it
    by_cases hkey : doc.key ∈ jobs.map (·.key)
    · obtain ⟨job, hjob, hkey⟩ := List.mem_map.mp hkey
      have hsame := hown job hjob doc (hkey ▸ Collection.find_of_mem hdoc)
      rw [← hp, hsame]
      exact State.kept_of_held (held_of_resumes hset hjob)
    · refine State.kept_of_stored (List.mem_map.mpr ⟨doc, Collection.mem_deleteMany.mpr
        ⟨hdoc, by simpa using hkey⟩, hp⟩)

/-- The jobs that were taken are enqueued. -/
theorem keeps_resume_taken (hs : s.Settled) {i : ℕ} {jobs : List (WebhookDeliveryJob Data)}
    (hi : s.process.resumes[i]? = some (.taken jobs)) {listed : Bool}
    (hlisted : listed = true ∨ jobs = []) :
    Keeps s (resume s i listed (.taken jobs)) ∧ (resume s i listed (.taken jobs)).Settled := by
  set s₀ : State Data := { s with process.resumes := s.process.resumes.eraseIdx i } with hs₀
  have hall : resume s i listed (.taken jobs) = jobs.foldl (enqueue · · none) s₀ := by
    rcases hlisted with rfl | rfl
    · rfl
    · cases listed <;> rfl
  -- the run is over, and its jobs are enqueued without it
  rw [hall]
  have hsettled₀ : s₀.Settled := hs.of_eq rfl rfl rfl rfl
  obtain ⟨hkeeps, hsettled, hjobs⟩ := keeps_enqueueAll jobs hsettled₀
  refine ⟨⟨hkeeps.delivered, hkeeps.dead, forall_held.mpr ⟨?_, ?_, ?_, ?_⟩, hkeeps.stored⟩,
    hsettled⟩
  · exact fun entry h hactive => hkeeps.held _ (held_of_entry h hactive)
  · exact fun job h => hkeeps.held _ (held_of_deferred h)
  · exact fun job h => hkeeps.held _ (held_of_writes h)
  · intro r hr job hjob
    rcases Crew.mem_eraseIdx_or hr i with hmem | hmem
    · exact hkeeps.held _ (held_of_resumes hmem hjob)
    · obtain rfl : Resume.taken jobs = r := Option.some.inj (hi.symm.trans hmem)
      exact hjobs job hjob

/-- A replay goes on: its dead letter is enqueued, or deleted once it has been received. -/
theorem keeps_replay (hs : s.Settled) {i : ℕ} {r : Replay Data}
    (hi : s.process.replays[i]? = some r)
    (hown : r.Undisturbed s) :
    Keeps s (replay s i r) ∧ (replay s i r).Settled := by
  have hr := hs.replays r (List.mem_of_getElem? hi)
  set s₀ : State Data := { s with process.replays := s.process.replays.eraseIdx i } with hs₀
  have hkeeps₀ : Keeps s s₀ :=
    .of_subset rfl rfl rfl (fun _ => id) (fun _ => id) (fun _ => id) fun _ => id
  have hsettled₀ : s₀.Settled := hkeeps₀.settled hs (fun _ => Or.inl) fun r hr =>
    Or.inl (List.mem_of_mem_eraseIdx hr)
  cases r with
  | found idempotencyKey deadLetter =>
    exact ⟨hkeeps₀.trans (keeps_enqueue _ _), settled_enqueue _ _ hsettled₀⟩
  | delivered idempotencyKey result =>
    have hdelete : Keeps s₀ (s₀.deleteDeadLetter idempotencyKey) :=
      keeps_deleteDeadLetter hown hr
    exact ⟨hkeeps₀.trans hdelete, hdelete.settled hsettled₀ (fun _ => Or.inl) fun _ => Or.inl⟩

/-- A process that has nothing in its memory is replaced. -/
theorem keeps_restart (hheld : s.process.held = []) (maxAttempts : ℕ) :
    Keeps s (step s (.restart maxAttempts)) ∧ (step s (.restart maxAttempts)).Settled := by
  refine ⟨.of_held rfl rfl rfl fun parcel hp => ?_, ⟨?_, ?_⟩⟩
  · rw [hheld] at hp
    cases hp
  · simp [step, Process.new]
  · simp [step, Process.new]

/-- **An undisturbed step** keeps every delivery. -/
theorem keeps_step (hs : s.Settled) {a : Action Data} (ha : Undisturbed s a) :
    Keeps s (step s a) ∧ (step s a).Settled := by
  cases a with
  | enqueue endpoint payload => exact ⟨keeps_enqueue _ _, settled_enqueue _ _ hs⟩
  | stopAccepting | drain =>
    exact ⟨.of_subset rfl rfl rfl (fun _ => id) (fun _ => id) (fun _ => id) fun _ => id,
      hs.of_eq rfl rfl rfl rfl⟩
  | halt => exact keeps_halt hs
  | advance i response =>
    dsimp only [step]
    cases hi : s.process.entries[i]? with
    | none => exact ⟨.refl s, hs⟩
    | some entry => exact keeps_advance hs hi response (ha entry hi)
  | persist i =>
    dsimp only [step]
    cases hi : s.process.writes[i]? with
    | none => exact ⟨.refl s, hs⟩
    | some job => exact ⟨keeps_persist hi (ha job hi), hs.of_eq rfl rfl rfl rfl⟩
  | resumePending => exact ⟨keeps_resumePending, hs.of_eq rfl rfl rfl rfl⟩
  | resume i listed =>
    dsimp only [step]
    cases hi : s.process.resumes[i]? with
    | none => exact ⟨.refl s, hs⟩
    | some r =>
      have hr := ha r hi
      cases r with
      | found jobs => exact ⟨keeps_resume_found hi hr listed, hs.of_eq rfl rfl rfl rfl⟩
      | taken jobs => exact keeps_resume_taken hs hi hr
  | replayDeadLetter idempotencyKey =>
    dsimp only [step, replayDeadLetter]
    cases s.deadLetters.find idempotencyKey with
    | none => exact ⟨.refl s, hs⟩
    | some deadLetter => exact keeps_addReplay hs trivial
  | replay i =>
    dsimp only [step]
    cases hi : s.process.replays[i]? with
    | none => exact ⟨.refl s, hs⟩
    | some r => exact keeps_replay hs hi (ha r hi)
  | restart maxAttempts => exact keeps_restart ha maxAttempts

end Keeps

/-! ## Runs -/

@[simp] theorem accepted_nil : accepted ([] : List (State Data × Action Data)) = [] := rfl

theorem mem_accepted_snoc {h : List (State Data × Action Data)} {s : State Data} {a : Action Data}
    {parcel : Parcel Data} : parcel ∈ accepted (h ++ [(s, a)]) ↔
      parcel ∈ accepted h ∨ a = .enqueue parcel.1 parcel.2 := by
  rw [accepted, List.filterMap_append, List.mem_append]
  apply or_congr_right
  cases a <;> simp [Prod.ext_iff, eq_comm]

/-- What is anywhere has been accepted, what is accepted is kept, and the tasks are settled. -/
structure Invariant (h : List (State Data × Action Data)) (s : State Data) : Prop where
  within : s.Within (· ∈ accepted h)
  kept : ∀ parcel ∈ accepted h, s.Kept parcel
  settled : s.Settled

theorem invariant_start (maxAttempts : ℕ) : Invariant [] (start maxAttempts : State Data) := by
  refine ⟨⟨?_, ?_, ?_, ?_, ?_, ?_, ?_, ?_⟩, ?_, ⟨?_, ?_⟩⟩ <;>
    simp [start, Process.new, Collection.empty]

section Runs

variable {h : List (State Data × Action Data)} {s : State Data} {a : Action Data}

/-- What is anywhere has been accepted, with what the step accepts. -/
theorem within_snoc (hs : s.Within (· ∈ accepted h)) (a : Action Data) :
    (step s a).Within (· ∈ accepted (h ++ [(s, a)])) := by
  refine (hs.mono fun parcel hp => mem_accepted_snoc.mpr (Or.inl hp)).step ?_
  cases a with
  | enqueue endpoint payload => exact mem_accepted_snoc.mpr (Or.inr rfl)
  | _ => trivial

theorem Invariant.snoc (hinv : Invariant h s) (ha : Undisturbed s a) :
    Invariant (h ++ [(s, a)]) (step s a) := by
  obtain ⟨hkeeps, hsettled⟩ := keeps_step hinv.settled ha
  refine ⟨within_snoc hinv.within a, fun parcel hp => ?_, hsettled⟩
  -- accepted before, or by this step
  rcases mem_accepted_snoc.mp hp with hp | rfl
  · exact hkeeps.kept (hinv.kept parcel hp)
  · exact State.kept_of_held (held_enqueue ⟨parcel.1, parcel.2, 0⟩ none)

/-- What is delivered has been accepted for that endpoint, in every run. -/
theorem delivered_accepted (maxAttempts : ℕ) (as : List (Action Data)) :
    Always step (fun h s => ∀ parcel ∈ s.delivered, parcel ∈ accepted h) (start maxAttempts)
      as := by
  intro pre _
  have hwithin : (run step (start maxAttempts) pre).Within
      (· ∈ accepted (transitions step (start maxAttempts) pre)) :=
    inv_of_each (C := fun _ _ _ => True)
      (I := fun (h : List (State Data × Action Data)) s => s.Within (· ∈ accepted h))
      (invariant_start maxAttempts).within (fun _ _ a hs _ => within_snoc hs a)
      fun _ _ _ => trivial
  exact hwithin.delivered

/-- **No delivery is lost** in a run whose steps leave the documents of other deliveries alone, and
none is delivered with another's payload. -/
theorem losesNothing_of_undisturbed (maxAttempts : ℕ) (as : List (Action Data))
    (has : Each step (fun _ => Undisturbed) (start maxAttempts) as) :
    Always step LosesNothing (start maxAttempts) as := by
  intro pre hpre
  have hinv : Invariant (transitions step (start maxAttempts) pre)
      (run step (start maxAttempts) pre) :=
    inv_of_each (invariant_start maxAttempts) (fun h s a hinv ha => hinv.snoc ha)
      (has.restrict hpre)
  exact ⟨hinv.kept, hinv.within.delivered⟩

end Runs

/-! ## Two endpoints of one event -/

section Decidable

variable [DecidableEq Data] (s : State Data)

instance (parcel : Parcel Data) : Decidable (s.Kept parcel) :=
  inferInstanceAs (Decidable (_ ∨ _ ∨ _ ∨ _))

instance (listed : Bool) : ∀ r : Resume Data, Decidable (r.Undisturbed s listed)
  | .found jobs => inferInstanceAs (Decidable (∀ job ∈ jobs, ∀ doc ∈ s.pending.find job.key,
      doc.parcel = job.parcel))
  | .taken jobs => inferInstanceAs (Decidable (listed = true ∨ jobs = []))

instance : ∀ r : Replay Data, Decidable (r.Undisturbed s)
  | .found _ _ => isTrue trivial
  | .delivered idempotencyKey result => inferInstanceAs (Decidable
      (∀ doc ∈ s.deadLetters.find idempotencyKey, doc.parcel = result.parcel))

instance : ∀ a : Action Data, Decidable (Undisturbed s a)
  | .persist i => inferInstanceAs (Decidable (∀ job ∈ s.process.writes[i]?,
      ∀ doc ∈ s.pending.find job.key, doc.parcel = job.parcel))
  | .advance i _ => inferInstanceAs (Decidable (∀ entry ∈ s.process.entries[i]?,
      entry.phase = .saving → ∀ doc ∈ s.deadLetters.find entry.job.key,
        doc.parcel = entry.job.parcel))
  | .resume i listed => inferInstanceAs
      (Decidable (∀ r ∈ s.process.resumes[i]?, r.Undisturbed s listed))
  | .replay i => inferInstanceAs (Decidable (∀ r ∈ s.process.replays[i]?, r.Undisturbed s))
  | .restart _ => inferInstanceAs (Decidable (s.process.held = []))
  | .enqueue _ _ | .stopAccepting | .drain | .halt | .resumePending | .replayDeadLetter _ =>
    isTrue trivial

end Decidable

namespace Example

/-- The members of a payload's data. -/
abbrev Members := List (String × String)

/-- The payload of a settlement's execution. -/
def executed (deliveryId : String) : WebhookPayload Members :=
  buildWebhookPayload "settlement_executed" [("amount", "500")] none (some "7") "uuid" deliveryId
    "2026-01-01T00:00:00.000Z"

def shop : String := "https://shop.example/hooks"

def books : String := "https://books.example/hooks"

/-- Both endpoints are down for the one attempt that there is. -/
def bothDown : List (Action Members) :=
  [.enqueue shop (executed "1"), .enqueue books (executed "2"), .advance 0 (.error "timeout"),
    .advance 1 (.error "timeout"), .advance 0 (.error ""), .advance 1 (.error ""),
    .advance 0 (.error ""), .advance 1 (.error ""), .advance 0 (.error ""), .advance 1 (.error "")]

/-- The endpoint is down; the dead letter is replayed; the process is drained while the endpoint is
down again; the next one resumes, and the endpoint answers. -/
def resumed : List (Action Members) :=
  [.enqueue shop (executed "1"), .advance 0 (.ok 503), .advance 0 (.ok 503), .advance 0 (.ok 503),
    .advance 0 (.ok 503), .advance 0 (.ok 503), .advance 0 (.ok 503),
    .replayDeadLetter "settlement_executed:7", .replay 0, .advance 1 (.ok 503), .drain, .halt,
    .persist 0, .restart 2, .resumePending, .resume 0 true, .resume 0 true, .advance 0 (.ok 200),
    .advance 0 (.ok 200)]

end Example

open Example in
/-- Two endpoints get one event, and both fail: the second dead letter takes the place of the
first. -/
theorem not_losesNothing : ¬ ∀ (maxAttempts : ℕ) (as : List (Action Members)),
    Always step LosesNothing (start maxAttempts) as := by
  intro h
  have hkept := (h 1 bothDown).at_end.kept (shop, executed "1") (by decide)
  exact absurd hkept (by decide)

open Example in
/-- One delivery through the dead letters, a drain and a restart. -/
theorem losesNothing_resumed : Always step LosesNothing (start 2) resumed :=
  losesNothing_of_undisturbed 2 resumed (by decide)

end WebhookDelivery
