import Comebackhere.Offchain.TreasuryIndexer

/-!
# Events processed again

The treasury indexer skips the events whose ids its cursor document holds, and the document holds
the last 1000. A window of events that were processed by batches that did not throw can be
processed again without effect as long as fewer than 1000 ids have been recorded after each of
them; after 1000 more events an old approval sets the weight back.

## Main definitions

* `eventIdOf`: the id of an event that is tracked
* `completedEvents`: the events processed by the batches of a history that did not throw
* `Unchanged`: the settlement records and the webhooks are as before
* `ReplayIdempotent`: a window of processed events can be processed again without effect

## Main results

* `mem_recorded`: every event of a batch that does not throw is recorded
* `batch_of_remembered`: a batch of remembered events has no effect
* `replay_unchanged`: recent windows can be processed again without effect
-/

namespace Offchain.TreasuryIndexer

open Soroban Process Machine

variable {cfg : Config} {answer : Answer} {w w' w'' : World} {event : RpcEvent} {eventId : String}
  {processedIds : List String}

/-! ## Ids -/

/-- The id of an event that is tracked. -/
def eventIdOf (event : RpcEvent) : Option String :=
  match readHeader event with
  | .ok (some header) => some header.eventId
  | _ => none

theorem eventIdOf_eq_some {header : Header} (h : readHeader event = .ok (some header)) :
    eventIdOf event = some header.eventId := by
  simp [eventIdOf, h]

/-- The batch handles its whole page. -/
def Completes (cfg : Config) (t : World × Answer) : Bool :=
  (handled cfg t.1 t.2 t.2.events).1.isOk

/-- The events processed by the batches of a history that did not throw. -/
def completedEvents (cfg : Config) (h : List (World × Answer)) : List RpcEvent :=
  (h.filter (Completes cfg)).flatMap (·.2.events)

theorem completedEvents_snoc (h : List (World × Answer)) (t : World × Answer) :
    completedEvents cfg (h ++ [t]) =
      completedEvents cfg h ++ if Completes cfg t then t.2.events else [] := by
  by_cases ht : Completes cfg t <;> simp [completedEvents, ht]

/-! ## Processed events are recorded -/

theorem mem_of_handleEvent {applied : Option String}
    (h : (system.complete answer (handleEvent cfg processedIds event) w).1 = .ok applied)
    (hid : eventIdOf event = some eventId) : eventId ∈ processedIds ++ applied.toList := by
  unfold handleEvent at h
  cases hheader : readHeader event with
  | error err => simp [eventIdOf, hheader] at hid
  | ok o =>
    cases o with
    | none => simp [eventIdOf, hheader] at hid
    | some header =>
      obtain rfl : header.eventId = eventId := by simpa [eventIdOf, hheader] using hid
      simp only [hheader] at h
      by_cases hmem : header.eventId ∈ processedIds
      · -- skipped, as it is known already
        exact List.mem_append_left _ hmem
      · rw [if_neg hmem] at h
        cases hchange : readChange event.value header.eventType with
        | error err => simp [hchange] at h
        | ok change =>
          simp only [hchange, System.complete_bind] at h
          obtain rfl := Except.ok.inj h
          simp

theorem mem_of_handleEvents {events : List RpcEvent} {ids : List String}
    (h : (system.complete answer (handleEvents cfg processedIds events) w).1 = .ok ids)
    (hevent : event ∈ events) (hid : eventIdOf event = some eventId) :
    eventId ∈ processedIds ++ ids := by
  induction events generalizing processedIds w ids with
  | nil => cases hevent
  | cons first events ih =>
    obtain ⟨applied, rest, hfirst, hrest, rfl⟩ := handleEvents_cons_eq_ok.mp h
    rw [← List.append_assoc]
    rcases List.mem_cons.mp hevent with rfl | hevent
    · exact List.mem_append_left _ (mem_of_handleEvent hfirst hid)
    · exact ih hrest hevent

/-- What a batch that does not throw has handled is recorded, then or before. -/
theorem mem_of_completes {answers : List Answer}
    (hcompletes : Completes cfg (run (batch cfg) World.empty answers, answer))
    (hevent : event ∈ answer.events) (hid : eventIdOf event = some eventId) :
    eventId ∈ recorded cfg (transitions (batch cfg) World.empty answers) ++
      newEventIds cfg (run (batch cfg) World.empty answers, answer) := by
  set w := run (batch cfg) World.empty answers with hw
  cases hhandled : (handled cfg w answer answer.events).1 with
  | error err => simp [Completes, hhandled, Except.isOk, Except.toBool] at hcompletes
  | ok ids =>
    have hids : newEventIds cfg (w, answer) = ids := by simp [newEventIds, hhandled]
    have hmem := mem_of_handleEvents hhandled hevent hid
    rw [hids]
    rcases List.mem_append.mp hmem with hmem | hmem
    · -- the ids the batch began with are among those recorded before
      rw [hw, remembered_run] at hmem
      exact List.mem_append_left _ ((Recent.rtake_suffix _ _).mem hmem)
    · exact List.mem_append_right _ hmem

/-- **Every event** of a batch that does not throw is recorded. -/
theorem mem_recorded (answers : List Answer)
    (hevent : event ∈ completedEvents cfg (transitions (batch cfg) World.empty answers))
    (hid : eventIdOf event = some eventId) :
    eventId ∈ recorded cfg (transitions (batch cfg) World.empty answers) := by
  induction answers using List.reverseRecOn with
  | nil => simp [completedEvents] at hevent
  | append_singleton answers answer ih =>
    rw [transitions_snoc, completedEvents_snoc] at hevent
    rw [transitions_snoc, recorded_snoc]
    rcases List.mem_append.mp hevent with hevent | hevent
    · exact List.mem_append_left _ (ih hevent)
    · split at hevent
      · next hcompletes => exact mem_of_completes hcompletes hevent hid
      · cases hevent

/-! ## Remembered events have no effect -/

/-- The settlement records and the webhooks are as before. -/
structure Unchanged (w w' : World) : Prop where
  settlements : w'.db.settlements = w.db.settlements
  webhooks : w'.webhooks = w.webhooks

theorem Unchanged.refl (w : World) : Unchanged w w := ⟨rfl, rfl⟩

theorem Unchanged.trans (h : Unchanged w w') (h' : Unchanged w' w'') : Unchanged w w'' :=
  ⟨h'.settlements.trans h.settlements, h'.webhooks.trans h.webhooks⟩

/-- A remembered event is read, and nothing else happens. -/
theorem handleEvent_of_mem (h : ∀ eventId ∈ eventIdOf event, eventId ∈ processedIds) :
    handleEvent cfg processedIds event = .done ((readHeader event).map fun _ => none) := by
  unfold handleEvent
  cases hheader : readHeader event with
  | error err => rfl
  | ok o =>
    cases o with
    | none => rfl
    | some header =>
      have hmem := h header.eventId (eventIdOf_eq_some hheader)
      simp only [if_pos hmem]
      rfl

/-- A page of remembered events records no id. -/
theorem handleEvents_of_mem (cfg : Config) {events : List RpcEvent}
    (h : ∀ event ∈ events, ∀ eventId ∈ eventIdOf event, eventId ∈ processedIds) :
    ∃ r, handleEvents cfg processedIds events = .done r ∧ ∀ ids, r = .ok ids → ids = [] := by
  induction events with
  | nil => exact ⟨.ok [], rfl, fun ids hids => (Except.ok.inj hids).symm⟩
  | cons event events ih =>
    obtain ⟨r, hr, hnil⟩ := ih fun event hevent => h event (List.mem_cons_of_mem _ hevent)
    rw [handleEvents, handleEvent_of_mem (h event List.mem_cons_self)]
    cases readHeader event with
    | error err =>
      refine ⟨.error err, rfl, fun ids hids => ?_⟩
      cases hids
    | ok header =>
      cases r with
      | error err =>
        refine ⟨.error err, ?_, fun ids hids => ?_⟩
        · simp [Except.map, hr]
        · cases hids
      | ok ids =>
        obtain rfl := hnil ids rfl
        refine ⟨.ok [], ?_, fun ids hids => (Except.ok.inj hids).symm⟩
        simp [Except.map, hr]

/-- **A batch of remembered events** has no effect, and records no id. -/
theorem batch_of_remembered (cfg : Config)
    (h : ∀ event ∈ answer.events, ∀ eventId ∈ eventIdOf event, eventId ∈ w.remembered) :
    Unchanged w (batch cfg w answer) ∧ (batch cfg w answer).remembered = w.remembered := by
  obtain ⟨r, hr, hnil⟩ := handleEvents_of_mem cfg h
  have hhandled : handled cfg w answer answer.events = (r, w) := by rw [handled, hr]; rfl
  have hids : newEventIds cfg (w, answer) = [] := by
    rw [newEventIds, hhandled]
    cases r with
    | error err => rfl
    | ok ids => exact hnil ids rfl
  rw [remembered_batch, hids, pushEventIds_nil]
  refine ⟨?_, rfl⟩
  cases hresponse : answer.response with
  | none =>
    rw [batch_of_none hresponse]
    exact .refl w
  | some response =>
    have hevents : answer.events = response.events := by simp [Answer.events, hresponse]
    rw [batch_of_response hresponse, ← hevents, hhandled]
    cases r with
    | error err => exact .refl w
    | ok ids => exact ⟨rfl, rfl⟩

theorem run_of_remembered {replays : List Answer}
    (h : ∀ event ∈ replays.flatMap Answer.events, ∀ eventId ∈ eventIdOf event,
      eventId ∈ w.remembered) :
    Unchanged w (run (batch cfg) w replays) := by
  induction replays generalizing w with
  | nil => exact .refl w
  | cons replay replays ih =>
    rw [List.flatMap_cons] at h
    obtain ⟨hunchanged, hremembered⟩ := batch_of_remembered cfg fun event hevent =>
      h event (List.mem_append_left _ hevent)
    refine hunchanged.trans (ih fun event hevent => ?_)
    rw [hremembered]
    exact h event (List.mem_append_right _ hevent)

/-! ## A run of approvals -/

/-- The `n`-th approval of settlement 1, which brings its weight to `n`. -/
def approval (n : ℕ) : RpcEvent where
  id := none
  pagingToken := some (toString n)
  ledger := n
  ledgerClosedAt := none
  txHash := none
  topic := [.symbol "settlement_approved"]
  value := .vec [.u64 1, .address (.account 1), .u64 1, .u64 (.ofNat n)]

/-- A page with the `n`-th approval. -/
def approvalPage (n : ℕ) : Answer where
  response := some ⟨[approval n], none, some n⟩

/-- The process dispatches no webhooks. -/
def silent : Config := ⟨none⟩

theorem toString_injective : Function.Injective (toString : ℕ → String) := by
  intro m n h
  have hdigits : Nat.toDigits 10 m = Nat.toDigits 10 n := by
    simpa [Nat.repr_eq_ofList_toDigits] using congrArg String.toList h
  rw [← Nat.ofDigitChars_ten_toDigits (n := m), hdigits, Nat.ofDigitChars_ten_toDigits]

theorem toString_ne_empty (n : ℕ) : toString n ≠ "" := by
  intro h
  apply Nat.toDigits_ne_nil (n := n) (b := 10)
  simpa [Nat.repr_eq_ofList_toDigits] using congrArg String.toList h

theorem readHeader_approval (n : ℕ) :
    readHeader (approval n) = .ok (some ⟨.settlementApproved, 1, toString n⟩) := by
  have hid := buildEventId_of_token (toString_ne_empty n) "" "settlement_approved" 1
  rw [← hid]
  rfl

theorem readChange_approval (n : ℕ) :
    readChange (approval n).value .settlementApproved =
      .ok (.approved (scAddressToString (.account 1)) (.ofNat n)) := rfl

theorem handled_approval {n : ℕ} (h : toString n ∉ w.remembered) :
    handled silent w (approvalPage n) [approval n] =
      (.ok [toString n], { w with
        db.settlements :=
          upsertApproved w.db.settlements 1 (scAddressToString (.account 1)) (.ofNat n) }) := by
  simp only [handled, handleEvents, handleEvent, readHeader_approval, readChange_approval, if_neg h]
  rfl

theorem newEventIds_approval {n : ℕ} (h : toString n ∉ w.remembered) :
    newEventIds silent (w, approvalPage n) = [toString n] := by
  have hevents : (approvalPage n).events = [approval n] := rfl
  rw [newEventIds, hevents, handled_approval h]

theorem completes_approval {n : ℕ} (h : toString n ∉ w.remembered) :
    Completes silent (w, approvalPage n) = true := by
  have hevents : (approvalPage n).events = [approval n] := rfl
  rw [Completes, hevents, handled_approval h]
  rfl

/-- An approval that is not remembered sets the weight. -/
theorem weight_approval {n : ℕ} (h : toString n ∉ w.remembered) :
    ((batch silent w (approvalPage n)).db.settlements.find 1).map (·.approvalWeight) =
      some (number (UInt64.ofNat n).toNat) := by
  have hresponse : (approvalPage n).response = some ⟨[approval n], none, some n⟩ := rfl
  rw [batch_of_response hresponse, handled_approval h]
  simp only [execute, upsertApproved, Collection.find_upsert, if_true, Option.map_some]
  cases w.db.settlements.find 1 <;> rfl

/-- The first `n` approvals, in a page each. -/
def approvals (n : ℕ) : List Answer := (List.range n).map approvalPage

theorem approvals_succ (n : ℕ) : approvals (n + 1) = approvals n ++ [approvalPage n] := by
  simp [approvals, List.range_succ]

/-- A later approval is not remembered, its id being new. -/
theorem not_mem_remembered {n : ℕ}
    (h : recorded silent (transitions (batch silent) World.empty (approvals n)) =
      (List.range n).map toString) :
    toString n ∉ (run (batch silent) World.empty (approvals n)).remembered := by
  rw [remembered_run, h, Recent.mem_rtake_iff]
  -- ids cut off were recorded too, so it is enough that this one was not
  rintro ⟨hmem, -⟩
  obtain ⟨m, hm, heq⟩ := List.mem_map.mp hmem
  obtain rfl := toString_injective heq
  exact List.not_mem_range_self hm

theorem recorded_approvals (n : ℕ) :
    recorded silent (transitions (batch silent) World.empty (approvals n)) =
      (List.range n).map toString := by
  induction n with
  | zero => rfl
  | succ n ih =>
    rw [approvals_succ, transitions_snoc, recorded_snoc, ih,
      newEventIds_approval (not_mem_remembered ih), List.range_succ, List.map_append]
    rfl

theorem completedEvents_approvals (n : ℕ) :
    completedEvents silent (transitions (batch silent) World.empty (approvals n)) =
      (List.range n).map approval := by
  induction n with
  | zero => rfl
  | succ n ih =>
    have hcompletes := completes_approval (not_mem_remembered (recorded_approvals n))
    rw [approvals_succ, transitions_snoc, completedEvents_snoc, ih, if_pos hcompletes,
      List.range_succ, List.map_append]
    rfl

theorem weight_approvals (n : ℕ) :
    ((run (batch silent) World.empty (approvals (n + 1))).db.settlements.find 1).map
        (·.approvalWeight) = some (number (UInt64.ofNat n).toNat) := by
  rw [approvals_succ, run_snoc]
  exact weight_approval (not_mem_remembered (recorded_approvals n))

theorem since_approvals (n : ℕ) :
    Recent.since ((List.range (n + 1)).map toString) (toString 0) = n := by
  induction n with
  | zero => rfl
  | succ n ih =>
    rw [List.range_succ, List.map_append, List.map_singleton, Recent.since_concat_of_ne, ih]
    exact fun heq => Nat.succ_ne_zero n (toString_injective heq)

/-- The first approval is a window of the processed events. -/
theorem approval_window (n : ℕ) : [approval 0] <:+: completedEvents silent
    (transitions (batch silent) World.empty (approvals (n + 1))) := by
  rw [completedEvents_approvals, List.range_succ_eq_map]
  exact (List.prefix_append [approval 0] _).isInfix

theorem approval_forgotten {n : ℕ} (h : keptEventIds ≤ n) :
    toString 0 ∉ (run (batch silent) World.empty (approvals (n + 1))).remembered := by
  rw [remembered_run, recorded_approvals, Recent.mem_rtake_iff, since_approvals]
  exact fun hmem => Nat.not_lt_of_le h hmem.2

/-! ## Windows processed again -/

/-- **A recent window** of processed events can be processed again, in any batches, without
effect: fewer than 1000 ids have been recorded since the id of each of its events was. -/
theorem replay_unchanged (cfg : Config) (answers replays : List Answer) (window : List RpcEvent)
    (hwindow : window <:+: completedEvents cfg (transitions (batch cfg) World.empty answers))
    (hrecent : ∀ event ∈ window, ∀ eventId ∈ eventIdOf event,
      Recent.since (recorded cfg (transitions (batch cfg) World.empty answers)) eventId <
        keptEventIds)
    (hreplays : replays.flatMap Answer.events = window) :
    Unchanged (run (batch cfg) World.empty answers)
      (run (batch cfg) (run (batch cfg) World.empty answers) replays) := by
  apply run_of_remembered
  intro event hevent eventId hid
  rw [hreplays] at hevent
  rw [remembered_run, Recent.mem_rtake_iff]
  exact ⟨mem_recorded answers (hwindow.subset hevent) hid, hrecent event hevent eventId hid⟩

/-- The first approval processed again at once. -/
theorem replay_firstApproval :
    Unchanged (run (batch silent) World.empty (approvals 1))
      (run (batch silent) (run (batch silent) World.empty (approvals 1)) [approvalPage 0]) := by
  refine replay_unchanged silent (approvals 1) [approvalPage 0] [approval 0] (approval_window 0)
    (fun event hevent eventId hid => ?_) rfl
  obtain rfl := List.mem_singleton.mp hevent
  rw [eventIdOf_eq_some (readHeader_approval 0)] at hid
  obtain rfl := Option.some.inj hid
  rw [recorded_approvals 1, since_approvals 0]
  decide

/-- Any window of processed events can be processed again without effect, whatever was processed
since. -/
def ReplayIdempotent (cfg : Config) (answers : List Answer) : Prop :=
  ∀ window, window <:+: completedEvents cfg (transitions (batch cfg) World.empty answers) →
    ∀ replays : List Answer, replays.flatMap Answer.events = window →
      Unchanged (run (batch cfg) World.empty answers)
        (run (batch cfg) (run (batch cfg) World.empty answers) replays)

/-- Once 1000 later approvals are recorded, the first one sets the weight back to 0. -/
theorem not_replayIdempotent_of_le {n : ℕ} (h : keptEventIds ≤ n) (hlt : n < 2 ^ 53) :
    ¬ ReplayIdempotent silent (approvals (n + 1)) := by
  intro hidempotent
  have hunchanged := hidempotent [approval 0] (approval_window n) [approvalPage 0] rfl
  -- the first approval is forgotten, so it is applied again and sets the weight to its own
  have hafter := weight_approval (approval_forgotten h)
  have hbefore := weight_approvals n
  rw [run_cons, run_nil] at hunchanged
  rw [hunchanged.settlements, hbefore] at hafter
  have hfirst : number (UInt64.ofNat 0).toNat = 0 := rfl
  have hlast : number (UInt64.ofNat n).toNat = n := by
    have hsize : n < UInt64.size := hlt.trans (by decide)
    rw [UInt64.toNat_ofNat_of_lt' hsize, number_of_lt hlt]
  rw [hfirst, hlast] at hafter
  obtain rfl := Option.some.inj hafter
  exact absurd h (by decide)

/-- **The weight is set back**: 1001 approvals are processed, and then the first one again. -/
theorem approvals_not_replayIdempotent : ¬ ReplayIdempotent silent (approvals (1000 + 1)) :=
  not_replayIdempotent_of_le (Nat.le_refl 1000) (by omega)

end Offchain.TreasuryIndexer
