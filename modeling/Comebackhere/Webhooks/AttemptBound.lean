import Comebackhere.Webhooks.AttemptHistory
import Mathlib.Data.List.Range

/-!
# No delivery is attempted too often

Over all its resumptions, a delivery is posted at most as often as the configuration says, and its
POSTs are numbered from one on. The jobs that are persisted and resumed and the dead letters have as
many attempts as their histories, which have the same numbers. At any time there is one copy of a
delivery that may go on, since a process that has drained makes no further POST, and since the
pending deliveries are taken by one resumption at a time: it goes on where the last POST left off.

## Main definitions

* `State.made`: the numbers of the attempts that have been posted for a delivery
* `Bounded`: the POSTs are bounded, and the histories fit
* `Alone`: no resumption begins while another one has yet to delete what it has found
* `copies`: how many copies of a delivery may go on

## Main results

* `Invariant.loop`: the copy that goes on makes the next attempt
* `Invariant.enqueue`: a job that is enqueued stays one copy
* `bounded_of_alone`: the POSTs are bounded in every run of resumptions one after the other
-/

namespace WebhookDelivery.Attempts

open Machine

variable {Data : Type}

/-! ## Attempts and histories -/

/-- There are as many attempts as the history has, which numbers them from one on. -/
structure Counted (attempts : ℕ) (history : List WebhookAttemptRecord) : Prop where
  length : attempts = history.length
  numbered : history.map (·.attempt) = List.range' 1 history.length

theorem counted_zero : Counted 0 [] := ⟨rfl, rfl⟩

/-- The next attempt. -/
theorem Counted.succ {attempts : ℕ} {history : List WebhookAttemptRecord}
    (h : Counted attempts history) : Counted (attempts + 1) (history ++ [⟨attempts + 1⟩]) := by
  constructor
  · rw [List.length_append, List.length_singleton, h.length]
  · rw [List.map_append, h.numbered, List.length_append, List.length_singleton,
      List.range'_1_concat, h.length, List.map_singleton, Nat.add_comm 1]

/-- The numbers of the attempts that have been posted for a delivery, in order. -/
def State.made (s : State Data) (delivery : ℕ) : List ℕ :=
  (s.posts.filter (·.1 = delivery)).map (·.2)

def Resume.jobs : Resume Data → List (Job Data)
  | .found jobs | .taken jobs => jobs

/-- A job of a delivery that can be resumed: it goes on after the last POST. -/
structure Tracked (s : State Data) (job : Job Data) : Prop where
  accepted : s.accepted[job.delivery]? = some job.parcel
  counted : Counted job.attempts job.attemptHistory
  made : s.made job.delivery = List.range' 1 job.attempts

/-- No delivery has more POSTs than attempts are allowed, and whatever is persisted, resumed, under
way or a dead letter has the attempts of its history. -/
structure Bounded (maxAttempts : ℕ) (s : State Data) : Prop where
  made : ∀ delivery, (s.made delivery).length ≤ maxAttempts
  numbered : ∀ delivery, s.made delivery = List.range' 1 (s.made delivery).length
  persisted : ∀ job ∈ s.process.writes ++ s.pending.docs, Tracked s job
  resumed : ∀ r ∈ s.process.resumes, ∀ job ∈ r.jobs, Tracked s job
  underWay : ∀ entry ∈ s.process.entries, Counted entry.job.attempts entry.attemptHistory
  deadLettered : ∀ record ∈ s.deadLetters.docs, Counted record.attempts record.attemptHistory

def Resume.hasTaken : Resume Data → Bool
  | .found _ => false
  | .taken _ => true

/-- A run of `resumePending` begins when no other one has yet to delete what it has found. The
backend calls it once in a process. -/
def Alone (s : State Data) : Action Data → Prop
  | .resumePending => ∀ r ∈ s.process.resumes, r.hasTaken = true
  | _ => True

instance (s : State Data) : ∀ a : Action Data, Decidable (Alone s a)
  | .resumePending => inferInstanceAs (Decidable (∀ r ∈ s.process.resumes, r.hasTaken = true))
  | .enqueue _ _ | .stopAccepting | .drain | .halt | .advance _ _ | .persist _ | .resume _ _
  | .restart => isTrue trivial

/-! ## One copy of each delivery -/

/-- The jobs in the hands of a run of `resumePending`, which are in no store. -/
def Resume.inHand : Resume Data → List (Job Data)
  | .found _ => []
  | .taken jobs => jobs

/-- The jobs that a run of `resumePending` has found, which it has yet to delete. -/
def Resume.seen : Resume Data → List (Job Data)
  | .found jobs => jobs
  | .taken _ => []

/-- The jobs of the deliveries under way. When the queue has drained, they make no further
attempt. -/
def live (aborted : Bool) (entries : List (Entry Data)) : List (Job Data) :=
  if aborted then [] else entries.map (·.toJob)

/-- The jobs in memory from which a delivery may go on. -/
def Process.held (process : Process Data) : List (Job Data) :=
  live process.aborted process.entries ++
    (process.deferred ++ (process.writes ++ process.resumes.flatMap Resume.inHand))

def Process.seen (process : Process Data) : List (Job Data) :=
  process.resumes.flatMap Resume.seen

/-- How many of the jobs are of a delivery. -/
def countOf (delivery : ℕ) (jobs : List (Job Data)) : ℕ := (jobs.map (·.delivery)).count delivery

/-- How many copies of a delivery may go on. What has been found is a copy of what is stored until
one of both is gone. -/
def copies (s : State Data) (delivery : ℕ) : ℕ :=
  countOf delivery s.process.held +
    max (countOf delivery s.pending.docs) (countOf delivery s.process.seen)

/-- All copies. -/
def State.jobs (s : State Data) : List (Job Data) :=
  s.process.held ++ (s.process.seen ++ s.pending.docs)

section CountOf

variable {delivery : ℕ} {job : Job Data} {jobs jobs' : List (Job Data)}

@[simp] theorem countOf_nil : countOf delivery ([] : List (Job Data)) = 0 := rfl

@[simp] theorem countOf_append :
    countOf delivery (jobs ++ jobs') = countOf delivery jobs + countOf delivery jobs' := by
  simp [countOf]

@[simp] theorem countOf_cons : countOf delivery (job :: jobs) =
    countOf delivery jobs + if job.delivery = delivery then 1 else 0 := by
  simp [countOf, List.count_cons]

theorem countOf_le_of_sublist (delivery : ℕ) (h : jobs.Sublist jobs') :
    countOf delivery jobs ≤ countOf delivery jobs' := (h.map _).count_le _

theorem countOf_of_perm (delivery : ℕ) (h : jobs.Perm jobs') :
    countOf delivery jobs = countOf delivery jobs' := (h.map _).count_eq _

theorem countOf_eq_zero_iff :
    countOf delivery jobs = 0 ↔ ∀ job ∈ jobs, job.delivery ≠ delivery := by
  simp [countOf, List.count_eq_zero]

end CountOf

/-- A delivery under way has the attempts of its history, the last one being the one it is at. -/
structure Entry.Counts (entry : Entry Data) : Prop where
  counted : Counted entry.job.attempts entry.attemptHistory
  posting : ∀ attempt, entry.phase = .posting attempt → entry.job.attempts = attempt + 1
  waiting : ∀ attempt, entry.phase = .waiting attempt → entry.job.attempts = attempt + 1

/-- What holds in every state. The jobs in `rest` are in the hands of a task. -/
structure Invariant (maxAttempts : ℕ) (rest : List (Job Data)) (s : State Data) : Prop where
  once : ∀ delivery, countOf delivery rest + copies s delivery ≤ 1
  tracked : ∀ job ∈ rest ++ s.jobs, Tracked s job
  bounded : ∀ delivery, (s.made delivery).length ≤ maxAttempts
  numbered : ∀ delivery, s.made delivery = List.range' 1 (s.made delivery).length
  fresh : ∀ delivery, s.accepted.length ≤ delivery → s.made delivery = []
  counts : ∀ entry ∈ s.process.entries, entry.Counts
  deadLettered : ∀ record ∈ s.deadLetters.docs, Counted record.attempts record.attemptHistory
  aborted : s.process.aborted = true → s.process.accepting = false
  inactive : s.process.aborted = true → ∀ entry ∈ s.process.entries, entry.active = false
  draining : s.process.draining = true → s.process.accepting = false
  configured : s.process.maxAttempts = maxAttempts

section Steps

variable {maxAttempts : ℕ} {rest rest' : List (Job Data)} {s s' : State Data} {job : Job Data}
  {entry entry' : Entry Data} {i attempt : ℕ}

theorem Tracked.of_eq (h : Tracked s job) (haccepted : s'.accepted = s.accepted)
    (hposts : s'.posts = s.posts) : Tracked s' job where
  accepted := haccepted ▸ h.accepted
  counted := h.counted
  made := by rw [State.made, hposts]; exact h.made

/-- A step that makes no POST and no new copies. -/
theorem Invariant.of_le (hs : Invariant maxAttempts rest s) (haccepted : s'.accepted = s.accepted)
    (hposts : s'.posts = s.posts)
    (hcopies : ∀ delivery, countOf delivery rest' + copies s' delivery ≤
      countOf delivery rest + copies s delivery)
    (hjobs : ∀ job ∈ rest' ++ s'.jobs, job ∈ rest ++ s.jobs)
    (hcounts : ∀ entry ∈ s'.process.entries, entry.Counts)
    (hdead : ∀ record ∈ s'.deadLetters.docs, Counted record.attempts record.attemptHistory)
    (haborted : s'.process.aborted = true → s'.process.accepting = false ∧
      ∀ entry ∈ s'.process.entries, entry.active = false)
    (hdraining : s'.process.draining = true → s'.process.accepting = false)
    (hconfigured : s'.process.maxAttempts = s.process.maxAttempts) :
    Invariant maxAttempts rest' s' := by
  have hmade : s'.made = s.made := by
    funext delivery
    rw [State.made, hposts, State.made]
  constructor
  · exact fun delivery => (hcopies delivery).trans (hs.once delivery)
  · exact fun job h => (hs.tracked job (hjobs job h)).of_eq haccepted hposts
  · exact hmade ▸ hs.bounded
  · exact hmade ▸ hs.numbered
  · exact hmade ▸ haccepted ▸ hs.fresh
  · exact hcounts
  · exact hdead
  · exact fun h => (haborted h).1
  · exact fun h => (haborted h).2
  · exact hdraining
  · exact hconfigured.trans hs.configured

theorem Invariant.quiet (hs : Invariant maxAttempts rest s) (h : s.process.aborted = true) :
    s.process.accepting = false ∧ ∀ entry ∈ s.process.entries, entry.active = false :=
  ⟨hs.aborted h, hs.inactive h⟩

theorem map_toJob_set {entries : List (Entry Data)} (hi : entries[i]? = some entry)
    (hjob : entry'.toJob = entry.toJob) :
    (entries.set i entry').map (·.toJob) = entries.map (·.toJob) := by
  apply List.ext_getElem?
  intro j
  rw [List.getElem?_map, List.getElem?_map, List.getElem?_set]
  by_cases hij : i = j
  · subst hij
    obtain ⟨hlt, rfl⟩ := List.getElem?_eq_some_iff.mp hi
    simp [hlt, hjob]
  · rw [if_neg hij]

/-- A delivery goes on with the same job. -/
theorem Invariant.setEntry (hs : Invariant maxAttempts rest s)
    (hi : s.process.entries[i]? = some entry) (hjob : entry'.toJob = entry.toJob)
    (hactive : entry'.active = true → entry.active = true) (hcounts : entry'.Counts) :
    Invariant maxAttempts rest (s.setEntry i entry') := by
  have hheld : (s.setEntry i entry').process.held = s.process.held := by
    have hlive : live s.process.aborted (s.process.entries.set i entry') =
        live s.process.aborted s.process.entries := by
      rw [live, live, map_toJob_set hi hjob]
    simp only [Process.held, State.setEntry, hlive]
  refine hs.of_le rfl rfl (fun delivery => ?_) (fun job h => ?_)
    (Crew.forall_mem_set hs.counts hcounts i) hs.deadLettered (fun h => ?_) hs.draining rfl
  · rw [copies, hheld]
    exact le_rfl
  · rw [State.jobs, hheld] at h
    exact h
  · obtain ⟨haccepting, hinactive⟩ := hs.quiet h
    refine ⟨haccepting, Crew.forall_mem_set hinactive ?_ i⟩
    have he := hinactive entry (List.mem_of_getElem? hi)
    cases ha : entry'.active with
    | false => rfl
    | true => rw [hactive ha] at he; cases he

theorem made_snoc {delivery delivery' n : ℕ} (hposts : s'.posts = s.posts ++ [(delivery, n)]) :
    s'.made delivery' = s.made delivery' ++ if delivery = delivery' then [n] else [] := by
  by_cases h : delivery = delivery' <;> simp [State.made, hposts, h]

/-- The other jobs are those of other deliveries, and they stay when this one goes on. -/
theorem Invariant.exists_others (hs : Invariant maxAttempts rest s)
    (hi : s.process.entries[i]? = some entry) (haborted : s.process.aborted = false) :
    ∃ others : List (Job Data), (∀ job ∈ others, job.delivery ≠ entry.delivery) ∧
      ∀ entry' : Entry Data,
        (∀ job, job ∈ rest ++ (s.setEntry i entry').jobs ↔ job = entry'.toJob ∨ job ∈ others) ∧
        (entry'.delivery = entry.delivery → copies (s.setEntry i entry') = copies s) := by
  obtain ⟨hlt, rfl⟩ := List.getElem?_eq_some_iff.mp hi
  set entry := s.process.entries[i]
  set before := (s.process.entries.take i).map (·.toJob) with hbefore
  set after := (s.process.entries.drop (i + 1)).map (·.toJob) ++
    (s.process.deferred ++
      (s.process.writes ++ s.process.resumes.flatMap Resume.inHand)) with hafter
  have hheld' : ∀ entry', (s.setEntry i entry').process.held = before ++ entry'.toJob :: after := by
    intro entry'
    have hset : s.process.entries.set i entry' =
        s.process.entries.take i ++ entry' :: s.process.entries.drop (i + 1) := by
      rw [List.set_eq_take_append_cons_drop, if_pos hlt]
    simp [Process.held, live, State.setEntry, haborted, hset, hbefore, hafter]
  have hheld : s.process.held = before ++ entry.toJob :: after := by
    rw [← hheld' entry, State.setEntry, List.set_getElem_self]
  refine ⟨rest ++ (before ++ (after ++ (s.process.seen ++ s.pending.docs))), ?_,
    fun entry' => ⟨?_, ?_⟩⟩
  · apply countOf_eq_zero_iff.mp
    have honce := hs.once entry.delivery
    have hself : entry.toJob.delivery = entry.delivery := rfl
    rw [copies, hheld] at honce
    simp only [countOf_append, countOf_cons, hself, if_true] at honce ⊢
    omega
  · intro job
    have hjobs : (s.setEntry i entry').jobs =
        before ++ entry'.toJob :: after ++ (s.process.seen ++ s.pending.docs) := by
      rw [State.jobs, hheld']
      rfl
    simp only [hjobs, List.mem_append, List.mem_cons]
    grind
  · intro hdelivery
    funext delivery
    have hself : entry'.toJob.delivery = entry.toJob.delivery := hdelivery
    simp only [copies, hheld, hheld', countOf_append, countOf_cons, hself]
    rfl

/-- The attempt that the loop has come to is posted. -/
theorem Invariant.post (hs : Invariant maxAttempts rest s)
    (hi : s.process.entries[i]? = some entry) (hjob : entry'.toJob = entry.toJob)
    (hattempts : entry'.job.attempts = attempt) (haborted : s.process.aborted = false)
    (hlt : attempt < maxAttempts) :
    Invariant maxAttempts rest { s.setEntry i (entry'.attempted attempt) with
      posts := s.posts ++ [(entry'.delivery, attempt + 1)] } := by
  set s' : State Data := { s.setEntry i (entry'.attempted attempt) with
    posts := s.posts ++ [(entry'.delivery, attempt + 1)] } with hs'
  have hdelivery : entry'.delivery = entry.delivery := congrArg Job.delivery hjob
  obtain ⟨others, hothers, hset⟩ := hs.exists_others hi haborted
  obtain ⟨hjobs, hcopies⟩ := hset (entry'.attempted attempt)
  rw [← hdelivery] at hothers
  have hsame : ∀ job ∈ others, Tracked s job := by
    intro job hmem
    have hself : s.setEntry i entry = s := by
      obtain ⟨hlt, rfl⟩ := List.getElem?_eq_some_iff.mp hi
      rw [State.setEntry, List.set_getElem_self]
    have hcases := ((hset entry).1 job).mpr (Or.inr hmem)
    rw [hself] at hcases
    exact hs.tracked job hcases
  have htracked : Tracked s entry'.toJob := by
    refine hs.tracked _ (List.mem_append_right _ (List.mem_append_left _ ?_))
    rw [Process.held, live, haborted, hjob]
    exact List.mem_append_left _ (List.mem_map_of_mem (List.mem_of_getElem? hi))
  -- the POST is the next one of this delivery, and the others have the POSTs they had
  have hmade : ∀ delivery, s'.made delivery =
      s.made delivery ++ if entry'.delivery = delivery then [attempt + 1] else [] := fun delivery =>
    made_snoc rfl
  have hown : s'.made entry'.delivery = List.range' 1 (attempt + 1) := by
    have hbefore : s.made entry'.delivery = List.range' 1 entry'.job.attempts := htracked.made
    rw [hmade, if_pos rfl, hbefore, hattempts, List.range'_1_concat, Nat.add_comm 1]
  have hother : ∀ {delivery}, entry'.delivery ≠ delivery → s'.made delivery = s.made delivery := by
    intro delivery hne
    rw [hmade, if_neg hne, List.append_nil]
  have hcounted : Counted (attempt + 1) (entry'.attempted attempt).attemptHistory := by
    have hbefore : Counted entry'.job.attempts entry'.attemptHistory := htracked.counted
    rw [hattempts] at hbefore
    exact hbefore.succ
  constructor
  · intro delivery
    have he : copies s' = copies s := hcopies hdelivery
    rw [he]
    exact hs.once delivery
  · intro job hmem
    rcases (hjobs job).mp hmem with rfl | hmem
    · exact ⟨htracked.accepted, hcounted, hown⟩
    · have hbefore := hsame job hmem
      refine ⟨hbefore.accepted, hbefore.counted, ?_⟩
      rw [hother (hothers job hmem).symm]
      exact hbefore.made
  · intro delivery
    by_cases hd : entry'.delivery = delivery
    · rw [← hd, hown, List.length_range']
      exact hlt
    · rw [hother hd]
      exact hs.bounded delivery
  · intro delivery
    by_cases hd : entry'.delivery = delivery
    · rw [← hd, hown, List.length_range']
    · rw [hother hd]
      exact hs.numbered delivery
  · intro delivery hd
    have hlt' : entry'.delivery < s.accepted.length :=
      (List.getElem?_eq_some_iff.mp htracked.accepted).1
    have hne : entry'.delivery ≠ delivery := (hlt'.trans_le hd).ne
    rw [hother hne]
    exact hs.fresh delivery hd
  · refine Crew.forall_mem_set hs.counts ⟨hcounted, fun n hn => ?_, fun n hn => ?_⟩ i
    · cases hn
      rfl
    · cases hn
  · exact hs.deadLettered
  · exact hs.aborted
  · exact fun h => absurd (haborted.symm.trans h) Bool.false_ne_true
  · exact hs.draining
  · exact hs.configured

/-- **The loop** makes the next attempt, or ends. -/
theorem Invariant.loop (hs : Invariant maxAttempts rest s)
    (hi : s.process.entries[i]? = some entry) (hjob : entry'.toJob = entry.toJob)
    (hactive : entry'.active = true → entry.active = true)
    (hattempts : entry'.job.attempts = attempt) :
    Invariant maxAttempts rest (s.loop i entry' attempt) := by
  have hcounted : Counted entry'.job.attempts entry'.attemptHistory := by
    have hbefore := (hs.counts entry (List.mem_of_getElem? hi)).counted
    have he : entry'.job = entry.job := congrArg Job.toWebhookDeliveryJob hjob
    rw [he, show entry'.attemptHistory = entry.attemptHistory from congrArg Job.attemptHistory hjob]
    exact hbefore
  -- a loop that ends makes no POST
  have hends : ∀ status, Invariant maxAttempts rest
      { s.setEntry i { entry' with phase := .returned status } with posts := s.posts ++ [] } := by
    intro status
    rw [List.append_nil]
    exact hs.setEntry hi hjob hactive
      ⟨hcounted, by rintro _ ⟨⟩, by rintro _ ⟨⟩⟩
  unfold State.loop attemptLoop
  dsimp only
  split
  · next hlt =>
    split
    · exact hends .pending
    · next haborted =>
      exact hs.post hi hjob hattempts (Bool.not_eq_true _ ▸ haborted) (hs.configured ▸ hlt)
  · exact hends .failed

/-- **A job that is enqueued** stays one copy, and goes on with its own attempts. -/
theorem Invariant.enqueue (hs : Invariant maxAttempts (job :: rest) s) :
    Invariant maxAttempts rest (enqueue s job) := by
  unfold Attempts.enqueue
  split
  · -- the job is about to be stored, or deferred until it is
    split
    all_goals
      next haborted =>
      refine hs.of_le rfl rfl (fun delivery => ?_) (fun j h => ?_) hs.counts hs.deadLettered
        hs.quiet hs.draining rfl
      · simp [copies, Process.held, live, Process.seen, haborted]
        omega
      · simp only [State.jobs, Process.held, live, Process.seen, haborted, List.mem_append,
          List.mem_cons] at h ⊢
        grind
  · next haccepting =>
    have haborted : s.process.aborted = false := by
      by_contra h
      exact haccepting (hs.aborted (Bool.not_eq_false _ ▸ h))
    have hcounted := (hs.tracked job (by simp)).counted
    have hjob : Entry.toJob ⟨⟨job.toWebhookDeliveryJob, none, none, .over, true, none⟩,
      job.attemptHistory, job.delivery⟩ = job := rfl
    -- first it becomes a delivery under way, and then its loop begins
    refine Invariant.loop (hs.of_le rfl rfl (fun delivery => ?_) (fun j h => ?_) ?_
      hs.deadLettered (fun h => ?_) hs.draining rfl) (List.getElem?_concat_length ..) rfl id rfl
    · simp [copies, Process.held, live, Process.seen, haborted, hjob]
      omega
    · simp only [State.jobs, Process.held, live, Process.seen, haborted, List.map_append,
        List.map_singleton, hjob, List.mem_append, List.mem_cons] at h ⊢
      grind
    · refine List.forall_mem_append.mpr ⟨hs.counts, List.forall_mem_singleton.mpr ?_⟩
      exact ⟨hcounted, by rintro _ ⟨⟩, by rintro _ ⟨⟩⟩
    · exact absurd (haborted.symm.trans h) Bool.false_ne_true

theorem Invariant.enqueueAll {jobs : List (Job Data)}
    (hs : Invariant maxAttempts (jobs ++ rest) s) :
    Invariant maxAttempts rest (jobs.foldl Attempts.enqueue s) := by
  induction jobs generalizing s with
  | nil => exact hs
  | cons job jobs ih => exact ih hs.enqueue

/-- A number that has not been given is that of no copy. -/
theorem Invariant.copies_eq_zero (hs : Invariant maxAttempts rest s) :
    countOf s.accepted.length rest + copies s s.accepted.length = 0 := by
  have hnone : countOf s.accepted.length (rest ++ s.jobs) = 0 := by
    apply countOf_eq_zero_iff.mpr
    intro job hjob he
    have hlt := (List.getElem?_eq_some_iff.mp (hs.tracked job hjob).accepted).1
    omega
  simp only [State.jobs, countOf_append] at hnone
  rw [copies]
  omega

/-- A delivery begins under a new number. -/
theorem Invariant.begin (hs : Invariant maxAttempts rest s) (endpoint : String)
    (payload : WebhookPayload Data) : Invariant maxAttempts rest (begin s endpoint payload) := by
  apply Invariant.enqueue
  constructor
  · intro delivery
    have honce := hs.once delivery
    have hzero := hs.copies_eq_zero
    rw [countOf_cons]
    by_cases hd : s.accepted.length = delivery
    · subst hd
      rw [if_pos rfl]
      change countOf _ rest + 1 + copies s _ ≤ 1
      omega
    · rw [if_neg hd]
      exact honce
  · intro job hjob
    rcases List.mem_cons.mp hjob with rfl | hjob
    · refine ⟨?_, counted_zero, ?_⟩
      · exact List.getElem?_concat_length ..
      · exact hs.fresh _ le_rfl
    · have hbefore := hs.tracked job hjob
      refine ⟨?_, hbefore.counted, hbefore.made⟩
      have hlt := (List.getElem?_eq_some_iff.mp hbefore.accepted).1
      exact (List.getElem?_append_left hlt).trans hbefore.accepted
  · exact hs.bounded
  · exact hs.numbered
  · intro delivery hd
    rw [List.length_append] at hd
    exact hs.fresh delivery (Nat.le_of_add_right_le hd)
  · exact hs.counts
  · exact hs.deadLettered
  · exact hs.aborted
  · exact hs.inactive
  · exact hs.draining
  · exact hs.configured

theorem Invariant.answer (hs : Invariant maxAttempts rest s)
    (hi : s.process.entries[i]? = some entry) (hphase : entry.phase = .posting attempt)
    (response : Except String ℕ) :
    Invariant maxAttempts rest (answer s i entry attempt response) := by
  have hcounts := hs.counts entry (List.mem_of_getElem? hi)
  have hattempts := hcounts.posting attempt hphase
  have hjob : (entry.afterAnswer response).toJob = entry.toJob := by
    cases response <;> rfl
  have hjob' : (entry.afterAnswer response).job = entry.job :=
    congrArg Job.toWebhookDeliveryJob hjob
  have hactive : (entry.afterAnswer response).active = entry.active := by
    cases response <;> rfl
  have hcounted : Counted (entry.afterAnswer response).job.attempts
      (entry.afterAnswer response).attemptHistory := hjob' ▸ hcounts.counted
  unfold Attempts.answer
  dsimp only
  split
  · refine Invariant.setEntry ?_ hi hjob (fun h => hactive ▸ h)
      ⟨hcounted, by rintro _ ⟨⟩, by rintro _ ⟨⟩⟩
    exact hs.of_le rfl rfl (fun _ => le_rfl) (fun _ h => h) hs.counts hs.deadLettered hs.quiet
      hs.draining rfl
  · split
    · exact hs.loop hi hjob (fun h => hactive ▸ h) (hjob' ▸ hattempts)
    · refine hs.setEntry hi hjob (fun h => hactive ▸ h) ⟨hcounted, by rintro _ ⟨⟩, ?_⟩
      rintro _ ⟨⟩
      exact hjob' ▸ hattempts

theorem Invariant.advance (hs : Invariant maxAttempts rest s)
    (hi : s.process.entries[i]? = some entry) (response : Except String ℕ) :
    Invariant maxAttempts rest (advance s i entry response) := by
  have hcounts := hs.counts entry (List.mem_of_getElem? hi)
  have hset : ∀ (phase : Phase) (active : Bool), (active = true → entry.active = true) →
      (∀ n, phase ≠ .posting n) → (∀ n, phase ≠ .waiting n) →
      Invariant maxAttempts rest (s.setEntry i { entry with active := active, phase := phase }) :=
    fun phase active hactive hposting hwaiting => hs.setEntry hi rfl hactive
      ⟨hcounts.counted, fun n h => absurd h (hposting n), fun n h => absurd h (hwaiting n)⟩
  unfold Attempts.advance
  split
  · next attempt hphase => exact hs.answer hi hphase response
  · next attempt hphase => exact hs.loop hi rfl id (hcounts.waiting attempt hphase)
  · exact hset .over entry.active id (by simp) (by simp)
  · exact hset .saving entry.active id (by simp) (by simp)
  · exact hset .over false (by simp) (by simp) (by simp)
  · refine Invariant.setEntry (hs.of_le rfl rfl (fun _ => le_rfl) (fun _ h => h) hs.counts
      (fun record hrecord => ?_) hs.quiet hs.draining rfl) hi rfl id
      ⟨hcounts.counted, by rintro _ ⟨⟩, by rintro _ ⟨⟩⟩
    rcases Collection.mem_replaceOne.mp hrecord with rfl | ⟨hrecord, -⟩
    · exact hcounts.counted
    · exact hs.deadLettered record hrecord
  · exact hset .over false (by simp) (by simp) (by simp)
  · exact hs

/-- **The end of a drain**: the active deliveries make no further POST, and their jobs are
written. -/
theorem Invariant.halt (hs : Invariant maxAttempts rest s) :
    Invariant maxAttempts rest (halt s) := by
  unfold Attempts.halt
  split
  · next hdraining =>
    -- the active deliveries are among those that may go on: after a drain there are none
    have hsub : ((s.process.entries.filter (·.active)).map (·.toJob)).Sublist
        (live s.process.aborted s.process.entries) := by
      unfold live
      split
      · next haborted =>
        rw [List.filter_eq_nil_iff.mpr fun entry hentry => by
          simp [hs.inactive haborted entry hentry]]
        exact List.Sublist.refl []
      · exact List.filter_sublist.map _
    refine hs.of_le rfl rfl (fun delivery => ?_) (fun j h => ?_)
      (List.forall_mem_map.mpr fun entry hentry => ?_) hs.deadLettered (fun _ => ?_) hs.draining rfl
    · have hle := countOf_le_of_sublist delivery hsub
      simp only [copies, Process.held, Process.seen, Process.unfinished, live, if_true,
        countOf_append, countOf_nil] at hle ⊢
      omega
    · have hmem : j ∈ (s.process.entries.filter (·.active)).map (·.toJob) →
          j ∈ live s.process.aborted s.process.entries := fun h => hsub.subset h
      simp only [State.jobs, Process.held, Process.seen, Process.unfinished, List.mem_append] at h ⊢
      simp only [live, if_true, List.not_mem_nil, false_or] at h hmem ⊢
      grind
    · have hcounts := hs.counts entry hentry
      exact ⟨hcounts.counted, hcounts.posting, hcounts.waiting⟩
    · exact ⟨hs.draining hdraining, List.forall_mem_map.mpr fun _ _ => rfl⟩
  · exact hs

/-- A job is written: it takes the place of one under its key. -/
theorem Invariant.persist (hs : Invariant maxAttempts rest s)
    (hi : s.process.writes[i]? = some job) : Invariant maxAttempts rest
      ({ s with process.writes := s.process.writes.eraseIdx i }.savePending job) := by
  have hwrites : (job :: s.process.writes.eraseIdx i).Perm s.process.writes := by
    obtain ⟨hlt, rfl⟩ := List.getElem?_eq_some_iff.mp hi
    exact List.getElem_cons_eraseIdx_perm hlt
  refine hs.of_le rfl rfl (fun delivery => ?_) (fun j h => ?_) hs.counts hs.deadLettered hs.quiet
    hs.draining rfl
  · have hcount := countOf_of_perm delivery hwrites
    have hdocs := countOf_of_perm delivery
      (Collection.perm_replaceOne (c := s.pending) (d := job))
    have hfilter := countOf_le_of_sublist delivery
      (List.filter_sublist (p := fun e => !decide (e.key = job.key)) (l := s.pending.docs))
    simp only [countOf_cons] at hcount hdocs
    simp only [Collection.deleteMany] at hdocs
    simp only [copies, Process.held, Process.seen, State.savePending, countOf_append]
    omega
  · have hmem : j ∈ s.process.writes ↔ j ∈ job :: s.process.writes.eraseIdx i :=
      hwrites.mem_iff.symm
    have hdocs : j ∈ (s.pending.replaceOne job).docs → j = job ∨ j ∈ s.pending.docs := fun h =>
      (Collection.mem_replaceOne.mp h).imp_right And.left
    simp only [State.jobs, Process.held, Process.seen, State.savePending, List.mem_append,
      List.mem_cons] at h hmem ⊢
    grind

theorem Invariant.resumePending (hs : Invariant maxAttempts rest s)
    (halone : ∀ r ∈ s.process.resumes, r.hasTaken = true) :
    Invariant maxAttempts rest (resumePending s) := by
  have hseen : s.process.seen = [] := by
    apply List.flatMap_eq_nil_iff.mpr
    intro r hr
    cases r with
    | found jobs => cases halone _ hr
    | taken jobs => rfl
  unfold Attempts.resumePending
  refine hs.of_le rfl rfl (fun delivery => ?_) (fun j h => ?_) hs.counts hs.deadLettered hs.quiet
    hs.draining rfl
  · rw [Process.seen] at hseen
    split
    · simp [copies, Process.held, Process.seen, hseen, Resume.inHand, Resume.seen]
    · simp [copies, Process.held, Process.seen, hseen, Resume.inHand, Resume.seen]
  · rw [Process.seen] at hseen
    split at h
    · simpa [State.jobs, Process.held, Process.seen, hseen, Resume.inHand, Resume.seen] using h
    · simpa [State.jobs, Process.held, Process.seen, hseen, Resume.inHand, Resume.seen] using h

/-- The jobs that were found are taken, and no copy of them stays in the store. -/
theorem Invariant.take (hs : Invariant maxAttempts rest s) {jobs : List (Job Data)}
    (hi : s.process.resumes[i]? = some (.found jobs)) (listed : Bool) :
    Invariant maxAttempts rest (resume s i listed (.found jobs)) := by
  have hhand : ((s.process.resumes.set i (.taken jobs)).flatMap Resume.inHand).Perm
      (s.process.resumes.flatMap Resume.inHand ++ jobs) := by
    have h := Crew.coe_flatMap_set Resume.inHand hi (.taken jobs)
    rw [Multiset.coe_add, Multiset.coe_add, Multiset.coe_eq_coe] at h
    simpa only [Resume.inHand, List.append_nil] using h
  have hseen : ((s.process.resumes.set i (.taken jobs)).flatMap Resume.seen ++ jobs).Perm
      (s.process.resumes.flatMap Resume.seen) := by
    have h := Crew.coe_flatMap_set Resume.seen hi (.taken jobs)
    rw [Multiset.coe_add, Multiset.coe_add, Multiset.coe_eq_coe] at h
    simpa only [Resume.seen, List.append_nil] using h
  -- what is stored of a delivery that was found is under the same key, and is deleted
  have hdeleted : ∀ job ∈ jobs, ∀ doc ∈ (s.pending.deleteMany fun doc =>
      doc.key ∈ jobs.map (·.key)).docs, doc.delivery ≠ job.delivery := by
    intro job hjob doc hdoc he
    obtain ⟨hdoc, hkey⟩ := Collection.mem_deleteMany.mp hdoc
    have hmem : job ∈ s.process.seen := hseen.subset (List.mem_append_right _ hjob)
    have hparcel := (hs.tracked job (by simp [State.jobs, hmem])).accepted
    have hparcel' := (hs.tracked doc (by simp [State.jobs, hdoc])).accepted
    rw [he, hparcel] at hparcel'
    have hpayload : job.payload = doc.payload := congrArg Prod.snd (Option.some.inj hparcel')
    have hsame : doc.key = job.key := congrArg WebhookPayload.idempotencyKey hpayload.symm
    rw [hsame, decide_eq_false_iff_not] at hkey
    exact hkey (List.mem_map_of_mem hjob)
  refine hs.of_le rfl rfl (fun delivery => ?_) (fun j h => ?_) hs.counts hs.deadLettered hs.quiet
    hs.draining rfl
  · have hcount := countOf_of_perm delivery hhand
    have hcount' := countOf_of_perm delivery hseen
    have honce := hs.once delivery
    have hdocs := countOf_le_of_sublist delivery (List.filter_sublist
      (p := fun doc : Job Data => !decide (doc.key ∈ jobs.map (·.key))) (l := s.pending.docs))
    have hzero : countOf delivery jobs ≠ 0 →
        countOf delivery (s.pending.deleteMany fun doc => doc.key ∈ jobs.map (·.key)).docs = 0 := by
      intro hne
      obtain ⟨job, hjob, he⟩ : ∃ job ∈ jobs, job.delivery = delivery := by
        by_contra hnone
        exact hne (countOf_eq_zero_iff.mpr fun job hjob he => hnone ⟨job, hjob, he⟩)
      exact countOf_eq_zero_iff.mpr (he ▸ hdeleted job hjob)
    simp only [Collection.deleteMany] at hzero
    simp only [copies, Process.held, Process.seen, Attempts.resume, Collection.deleteMany,
      countOf_append] at hcount hcount' honce ⊢
    by_cases hne : countOf delivery jobs = 0
    · omega
    · have hzero := hzero hne
      omega
  · have hmem : j ∈ (s.process.resumes.set i (.taken jobs)).flatMap Resume.inHand ↔
        j ∈ s.process.resumes.flatMap Resume.inHand ++ jobs := hhand.mem_iff
    have hmem' : j ∈ (s.process.resumes.set i (.taken jobs)).flatMap Resume.seen ++ jobs ↔
        j ∈ s.process.resumes.flatMap Resume.seen := hseen.mem_iff
    have hdoc : j ∈ (s.pending.deleteMany fun doc => doc.key ∈ jobs.map (·.key)).docs →
        j ∈ s.pending.docs := fun h => (Collection.mem_deleteMany.mp h).1
    rw [List.mem_append] at hmem hmem'
    simp only [State.jobs, Process.held, Process.seen, Attempts.resume, List.mem_append] at h ⊢
    grind

theorem Invariant.resume (hs : Invariant maxAttempts [] s) {r : Resume Data}
    (hi : s.process.resumes[i]? = some r) (listed : Bool) :
    Invariant maxAttempts [] (resume s i listed r) := by
  cases r with
  | found jobs => exact hs.take hi listed
  | taken jobs =>
    have herased : (Resume.taken jobs :: s.process.resumes.eraseIdx i).Perm s.process.resumes := by
      obtain ⟨hlt, he⟩ := List.getElem?_eq_some_iff.mp hi
      exact he ▸ List.getElem_cons_eraseIdx_perm hlt
    have hhand : (jobs ++ (s.process.resumes.eraseIdx i).flatMap Resume.inHand).Perm
        (s.process.resumes.flatMap Resume.inHand) := herased.flatMap_right Resume.inHand
    have hseen : ((s.process.resumes.eraseIdx i).flatMap Resume.seen).Perm
        (s.process.resumes.flatMap Resume.seen) := herased.flatMap_right Resume.seen
    -- the task has the jobs in its hands, and enqueues them or loses them
    have hrest : Invariant maxAttempts (jobs ++ [])
        { s with process.resumes := s.process.resumes.eraseIdx i } := by
      refine hs.of_le rfl rfl (fun delivery => ?_) (fun j h => ?_) hs.counts hs.deadLettered
        hs.quiet hs.draining rfl
      · have hcount := countOf_of_perm delivery hhand
        have hcount' := countOf_of_perm delivery hseen
        simp only [copies, Process.held, Process.seen, countOf_append, countOf_nil] at hcount ⊢
        omega
      · have hmem : j ∈ jobs ++ (s.process.resumes.eraseIdx i).flatMap Resume.inHand ↔
            j ∈ s.process.resumes.flatMap Resume.inHand := hhand.mem_iff
        have hmem' : j ∈ (s.process.resumes.eraseIdx i).flatMap Resume.seen ↔
            j ∈ s.process.resumes.flatMap Resume.seen := hseen.mem_iff
        rw [List.mem_append] at hmem
        simp only [State.jobs, Process.held, Process.seen, List.mem_append] at h ⊢
        grind
    unfold Attempts.resume
    dsimp only
    split
    · exact hrest.enqueueAll
    · refine hrest.of_le rfl rfl (fun delivery => ?_) (fun j h => List.mem_append_right _ h)
        hs.counts hs.deadLettered hs.quiet hs.draining rfl
      exact Nat.add_le_add_right (Nat.zero_le _) _

/-- **A step** keeps one copy of each delivery, which goes on after its last POST. -/
theorem Invariant.step (hs : Invariant maxAttempts [] s) {a : Action Data} (ha : Alone s a) :
    Invariant maxAttempts [] (step s a) := by
  cases a with
  | enqueue endpoint payload => exact hs.begin endpoint payload
  | stopAccepting =>
    exact hs.of_le rfl rfl (fun _ => le_rfl) (fun _ h => h) hs.counts hs.deadLettered
      (fun h => ⟨rfl, hs.inactive h⟩) (fun _ => rfl) rfl
  | drain =>
    exact hs.of_le rfl rfl (fun _ => le_rfl) (fun _ h => h) hs.counts hs.deadLettered
      (fun h => ⟨rfl, hs.inactive h⟩) (fun _ => rfl) rfl
  | halt => exact hs.halt
  | advance i response =>
    rw [Attempts.step]
    cases hi : s.process.entries[i]? with
    | none => exact hs
    | some entry => exact hs.advance hi response
  | persist i =>
    rw [Attempts.step]
    cases hi : s.process.writes[i]? with
    | none => exact hs
    | some job => exact hs.persist hi
  | resumePending => exact hs.resumePending ha
  | resume i listed =>
    rw [Attempts.step]
    cases hi : s.process.resumes[i]? with
    | none => exact hs
    | some r => exact hs.resume hi listed
  | restart =>
    refine hs.of_le rfl rfl (fun delivery => ?_) (fun j h => ?_)
      (fun entry h => absurd h List.not_mem_nil) hs.deadLettered (by rintro ⟨⟩) (by rintro ⟨⟩) rfl
    · have hdocs :
          copies (Attempts.step s .restart) delivery = countOf delivery s.pending.docs := by
        simp [Attempts.step, Process.new, copies, Process.held, Process.seen, live]
      rw [hdocs]
      exact Nat.add_le_add_left ((le_max_left _ _).trans (Nat.le_add_left _ _)) _
    · simp only [Attempts.step, Process.new, State.jobs, Process.held, Process.seen, live] at h ⊢
      simp only [List.mem_append]
      grind

theorem invariant_start (maxAttempts : ℕ) :
    Invariant maxAttempts [] (start maxAttempts : State Data) where
  once _ := Nat.zero_le 1
  tracked _ h := absurd h List.not_mem_nil
  bounded _ := Nat.zero_le maxAttempts
  numbered _ := rfl
  fresh _ _ := rfl
  counts _ h := absurd h List.not_mem_nil
  deadLettered _ h := absurd h List.not_mem_nil
  aborted := by rintro ⟨⟩
  inactive := by rintro ⟨⟩
  draining := by rintro ⟨⟩
  configured := rfl

theorem Invariant.bounds (hs : Invariant maxAttempts [] s) : Bounded maxAttempts s where
  made := hs.bounded
  numbered := hs.numbered
  persisted job h := by
    refine hs.tracked job ?_
    rcases List.mem_append.mp h with h | h <;> simp [State.jobs, Process.held, h]
  resumed r hr job hjob := by
    refine hs.tracked job ?_
    cases r with
    | found jobs =>
      have hmem : job ∈ s.process.seen := List.mem_flatMap.mpr ⟨_, hr, hjob⟩
      simp [State.jobs, hmem]
    | taken jobs =>
      have hmem : job ∈ s.process.resumes.flatMap Resume.inHand :=
        List.mem_flatMap.mpr ⟨_, hr, hjob⟩
      simp only [State.jobs, Process.held, List.mem_append, hmem, or_true, true_or]
  underWay entry h := (hs.counts entry h).counted
  deadLettered := hs.deadLettered

end Steps

/-- **No delivery is attempted too often**, and the histories fit, in every run in which the
resumptions come one after another. -/
theorem bounded_of_alone (maxAttempts : ℕ) (as : List (Action Data))
    (has : Each step (fun _ => Alone) (start maxAttempts) as) :
    Always step (fun _ => Bounded maxAttempts) (start maxAttempts) as := by
  intro pre hpre
  have hinv : Invariant maxAttempts [] (run step (start maxAttempts) pre) :=
    inv_of_each (I := fun _ s => Invariant maxAttempts [] s) (invariant_start maxAttempts)
      (fun _ _ _ hs ha => hs.step ha) (has.restrict hpre)
  exact hinv.bounds

/-- An endpoint is down; the process is drained while the second of three attempts waits for its
answer; the next process resumes the delivery, and the third attempt is the last. -/
def drained : List (Action Unit) :=
  [.enqueue "https://shop.example/hooks"
      (buildWebhookPayload "invoice_paid" () (some "7") none "uuid" "1" "2026-01-01T00:00:00.000Z"),
    .advance 0 (.ok 503), .advance 0 (.ok 503), .drain, .halt, .advance 0 (.error "aborted"),
    .persist 0, .restart, .resumePending, .resume 0 true, .resume 0 true, .advance 0 (.ok 503),
    .advance 0 (.ok 503), .advance 0 (.ok 503), .advance 0 (.ok 503)]

theorem bounded_drained : Always step (fun _ => Bounded 3) (start 3) drained :=
  bounded_of_alone 3 drained (by decide)

example : (run step (start 3) drained).posts = [(0, 1), (0, 2), (0, 3)] := by decide

end WebhookDelivery.Attempts
