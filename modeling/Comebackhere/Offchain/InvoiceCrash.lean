import Comebackhere.Offchain.InvoicePollers

/-!
# A single poller that crashes

A process polls alone, crashes anywhere and is restarted from the stored cursor. The database
survives this: once all events are consumed each tracked event is stored once, and the invoices
have their last statuses. The calls of the hook survive it too, except for a crash just before a
call: the event is marked as applied by then, so it is passed over when it is read again.

## Main definitions

* `StoredOnce`, `LastStatuses`: what the database is to be once all events are consumed
* `HookedAtLeastOnce`: every event is called for, and none too early
* `Mode.sparing`: no crash comes between the marking of an event and the call for it

## Main results

* `crashSafe`: the database survives crashes
* `hookedAtLeastOnce_iff`: the calls survive exactly the crashes that spare the hook
-/

namespace Offchain

open Process Machine
open Invoicing (InvoiceStatus)

variable {rpc : Rpc} {cfg : Config} {P : Type}

/-! ## Crash safety -/

/-- Every tracked event that can be read is stored exactly once. -/
def StoredOnce (start : Start rpc cfg) (db : Db) : Prop :=
  ∀ event ∈ rpc.events, start.floor ≤ event.ledger →
    ∀ record, recordOf cfg.contractId event = some record →
      db.invoiceEvents.docs.countP (·.eventId = record.eventId) = 1

/-- Every invoice record that was there at the start has the status of the last status-bearing
event of its invoice, if there is one since. -/
def LastStatuses (start : Start rpc cfg) (db : Db) : Prop :=
  ∀ invoice ∈ start.db.invoices.docs, db.invoices.find invoice.invoiceId =
    some (invoice.after (lastStatus invoice.invoiceId
      (tracked cfg.contractId (rpc.events.drop start.handled))))

theorem Start.drop_log (start : Start rpc cfg) :
    (rpc.log cfg).drop start.base = tracked cfg.contractId (rpc.events.drop start.handled) := by
  have hsplit : rpc.log cfg = tracked cfg.contractId (rpc.events.take start.handled) ++
      tracked cfg.contractId (rpc.events.drop start.handled) := by
    unfold Rpc.log tracked
    rw [← List.filterMap_append, List.take_append_drop]
  rw [hsplit]
  exact List.drop_left

section Synced

variable {start : Start rpc cfg} {db : Db} {g : Frontier P}

theorem Synced.storedOnce (h : Synced start db g) (hlen : (rpc.log cfg).length ≤ g.count) :
    StoredOnce start db := by
  intro event hevent hledger record hrecord
  obtain ⟨q, hq⟩ := List.mem_iff_getElem?.mp hevent
  have hlog := Rpc.log_getElem_rank hq hrecord
  -- an event of a ledger that can be read is not before the first one that can
  have hfirst : start.first ≤ rpc.rank cfg q := by
    refine Rpc.rank_mono (not_lt.mp fun hlt => ?_)
    have hbefore := Rpc.ledger_lt_of_lt_position hq hlt
    omega
  have hlt : rpc.rank cfg q < (rpc.log cfg).length := (List.getElem?_eq_some_iff.mp hlog).1
  exact h.stored_once hfirst (hlt.trans_le hlen) hlog

theorem Synced.lastStatuses (h : Synced start db g) (hlen : (rpc.log cfg).length ≤ g.count) :
    LastStatuses start db := by
  intro invoice hinvoice
  rw [h.status_eq hlen, start.drop_log, Collection.find_of_mem hinvoice]
  rfl

end Synced

/-- A process that may take every action and crash before each. -/
def Mode.free : Mode where
  mayAct _ _ := True
  mayCrash _ := True

theorem Mode.free_allows (s : State P Action World) (i : Input P Answer) :
    Mode.free.Allows s i := by
  cases i <;> simp only [Mode.Allows, Mode.free, State.Next] <;> split <;> trivial

/-- **The database survives crashes** of a single process, wherever they come. -/
theorem crashSafe (start : Start rpc cfg) (is : List (Input Unit Answer)) (hlegal : start.Legal is)
    (hconsumed : start.Consumed is) :
    StoredOnce start (start.after is).shared.db ∧
      LastStatuses start (start.after is).shared.db := by
  obtain ⟨g, hconsistent, hlen⟩ := consumed_run Mode.free (Or.inl inferInstance) hlegal
    (fun _ _ _ => Mode.free_allows _ _) hconsumed
  exact ⟨hconsistent.synced.storedOnce hlen, hconsistent.synced.lastStatuses hlen⟩

/-- The process takes its next actions, with pages of two events. -/
def ticks (n : ℕ) : List (Input Unit Answer) := List.replicate n (.tick () { count := 2 })

/-- A crash when the status of the first event is written and the event is not marked. -/
def crashAfterStatus : List (Input Unit Answer) := ticks 5 ++ [.crash ()] ++ ticks 13

theorem crashSafe_afterStatus :
    StoredOnce firstPoll (firstPoll.after crashAfterStatus).shared.db ∧
      LastStatuses firstPoll (firstPoll.after crashAfterStatus).shared.db :=
  crashSafe firstPoll crashAfterStatus (by decide) ⟨_, List.prefix_rfl, by decide⟩

/-! ## The calls of the hook -/

/-- When the hook is called its event is durable. -/
def CallsDurable (s : State P Action World) : Input P Answer → Prop
  | .tick p _ => s.Next p fun
    | .persistTransition eventId transition => Durable s.shared.db eventId transition
    | _ => True
  | .crash _ => True

/-- The hook was called for every tracked event, with its transition, and never before the event
was durable. -/
structure HookedAtLeastOnce (start : Start rpc cfg) (is : List (Input Unit Answer)) : Prop where
  called : ∀ event ∈ rpc.events.drop start.handled,
    ∀ record, recordOf cfg.contractId event = some record →
      (some record.eventId, record.transition) ∈ (start.after is).shared.calls
  durable : start.Throughout CallsDurable is

/-- A process does not crash between the marking of an event as applied and the call for it. -/
def Mode.sparing : Mode where
  mayAct _ _ := True
  mayCrash
    | .persistTransition _ _ => False
    | _ => True

theorem Mode.sparing_sure : Mode.sparing.Sure := fun _ _ h => h

/-- A crash that does not spare the hook is before a call. -/
theorem exists_call_of_not_allows {s : State P Action World} {i : Input P Answer}
    (h : ¬ Mode.sparing.Allows s i) : ∃ p eventId transition k,
      i = .crash p ∧ s.prog p = .act (.persistTransition eventId transition) k := by
  cases i with
  | tick p answer =>
    refine absurd ?_ h
    simp only [Mode.Allows, State.Next, Mode.sparing]
    split <;> trivial
  | crash p =>
    cases hp : s.prog p with
    | done a => exact absurd (by simp [Mode.Allows, State.Next, hp]) h
    | act o k =>
      have hcrash := fun hmay => h ((State.next_iff_of_act hp).mpr hmay)
      cases o with
      | persistTransition eventId transition => exact ⟨p, eventId, transition, k, rfl, hp⟩
      | _ => exact absurd trivial hcrash

section Hook

variable {start : Start rpc cfg} {is : List (Input Unit Answer)}

/-- A process is about to call the hook for its pending event, which is durable. -/
theorem call_of_holds {mode : Mode} {s : State Unit Action World} {g : Frontier Unit}
    (h : (pollRules start mode.Sure).Holds (pollers rpc mode) s g) {eventId : Option String}
    {transition : InvoiceStateTransition} {k : Unit → Poll Unit}
    (hp : s.prog () = .act (.persistTransition eventId transition) k) :
    (∃ id, eventId = some id ∧ g.pending () = some id) ∧
      Durable s.shared.db eventId transition := by
  have hkeeps := h ()
  rw [hp] at hkeeps
  obtain ⟨-, hpending, hdurable⟩ := hkeeps.pre
  exact ⟨hpending, hdurable inferInstance⟩

/-- The hook is never called too early, whatever crashes there are. -/
theorem callsDurable (hlegal : start.Legal is) : start.Throughout CallsDurable is := by
  intro pre i hpre
  obtain ⟨g, -, hholds, -⟩ := pollers_run Mode.free (Or.inl inferInstance) hlegal
    (fun _ _ _ => Mode.free_allows _ _) ((List.prefix_append pre [i]).trans hpre)
  cases i with
  | crash p => trivial
  | tick p answer =>
    change (start.after pre).Next p _
    cases hp : (start.after pre).prog p with
    | done a => simp [State.Next, hp]
    | act o k =>
      rw [State.next_iff_of_act hp]
      cases o with
      | persistTransition eventId transition => exact (call_of_holds hholds hp).2
      | _ => trivial

/-- The hook is called for every event while crashes spare it. -/
theorem called_of_sparing (hlegal : start.Legal is) (hconsumed : start.Consumed is)
    (hsparing : start.Throughout Mode.sparing.Allows is) :
    ∀ event ∈ rpc.events.drop start.handled,
      ∀ record, recordOf cfg.contractId event = some record →
        (some record.eventId, record.transition) ∈ (start.after is).shared.calls := by
  intro event hevent record hrecord
  obtain ⟨pre, hpre, hlen⟩ := hconsumed
  obtain ⟨g, g', -, hconsistent, hconsistent', hlater⟩ :=
    pollers_run Mode.sparing (Or.inl inferInstance) hlegal hsparing hpre
  obtain ⟨i, hi⟩ := List.mem_iff_getElem?.mp hevent
  rw [List.getElem?_drop] at hi
  have hlog := Rpc.log_getElem_rank hi hrecord
  have hlt : rpc.rank cfg (start.handled + i) < (rpc.log cfg).length :=
    (List.getElem?_eq_some_iff.mp hlog).1
  have hcursor : rpc.rank cfg _ = (rpc.log cfg).length := Rpc.rank_of_length_le hlen
  -- the cursor was behind the event by then, so the call had been made
  have hcalled := hconsistent.delivered.complete_cursor Mode.sparing_sure inferInstance _ record
    (Rpc.rank_mono (Nat.le_add_right _ _)) (by rw [hcursor]; exact hlt) hlog
  exact hlater.calls.subset (hconsistent.delivered.mem_calls hlog hcalled)

/-- A crash before a call loses the call: the event is behind the frontier, and not announced. -/
theorem not_called_of_crash (hlegal : start.Legal is) {pre : List (Input Unit Answer)}
    (hpre : pre ++ [.crash ()] <+: is) {eventId : Option String}
    {transition : InvoiceStateTransition} {k : Unit → Poll Unit}
    (hp : (start.after pre).prog () = .act (.persistTransition eventId transition) k) :
    ∃ j record, start.base ≤ j ∧ (rpc.log cfg)[j]? = some record ∧
      some record.eventId ∉ (start.after is).shared.called := by
  have hfree : start.Throughout (Mode.free.Allows (P := Unit)) is :=
    fun _ _ _ => Mode.free_allows _ _
  obtain ⟨g, -, hholds, ⟨hsynced, hdelivered⟩, -⟩ := pollers_run Mode.free (Or.inl inferInstance)
    hlegal hfree ((List.prefix_append pre [.crash ()]).trans hpre)
  obtain ⟨g', g'', hholds', ⟨hsynced', -⟩, -, hlater⟩ :=
    pollers_run Mode.free (Or.inl inferInstance) hlegal hfree hpre
  have hcrash : start.after (pre ++ [.crash ()]) =
      { start.after pre with prog := Function.update (start.after pre).prog () (.done ()) } := by
    unfold Start.after
    rw [run_snoc]
    rfl
  rw [hcrash] at hholds' hsynced' hlater
  -- the process has nothing pending after the crash
  have hidle : g'.pending () = none := by
    have hkeeps := hholds' ()
    simp only [Function.update_self] at hkeeps
    exact (hkeeps _ ((pollRules start Mode.free.Sure).rely_refl () _)).2.2
  obtain ⟨⟨id, rfl, hpending⟩, -⟩ := call_of_holds hholds hp
  -- the event of the call was new, and it is behind the frontier before and after the crash
  obtain ⟨j, record, hbase, hlt, hrecord, rfl⟩ := hdelivered.pending_lt () id hpending
  have hnew := hdelivered.pending_new () record.eventId hpending
  have hmark := hsynced.events j record (start.first_le_base.trans hbase) hrecord
  rw [Frontier.mark_of_lt hlt,
    hsynced'.events j record (start.first_le_base.trans hbase) hrecord] at hmark
  refine ⟨j, record, hbase, hrecord, fun hcalled => ?_⟩
  -- so a later call had to be announced already
  rcases hlater.announced j record (Frontier.lt_of_mark hmark) hrecord (Or.inl hcalled) with
    hmem | ⟨_, hq⟩
  · exact hnew hmem
  · exact Option.some_ne_none _ (hq.symm.trans hidle)

end Hook

/-- **The calls survive exactly the crashes that spare the hook**: once all events are consumed,
each was called for and none too early if and only if no crash came just before a call. -/
theorem hookedAtLeastOnce_iff (start : Start rpc cfg) (is : List (Input Unit Answer))
    (hlegal : start.Legal is) (hconsumed : start.Consumed is) :
    HookedAtLeastOnce start is ↔ start.Throughout Mode.sparing.Allows is := by
  constructor
  · -- a crash just before a call is of an event of the log, and no later call makes up for it
    intro hhooked pre i hpre
    by_contra hcrash
    obtain ⟨p, eventId, transition, k, rfl, hp⟩ := exists_call_of_not_allows hcrash
    obtain ⟨j, record, hbase, hrecord, hnot⟩ := not_called_of_crash hlegal hpre hp
    have hmem : record ∈ (rpc.log cfg).drop start.base := by
      apply List.mem_of_getElem? (i := j - start.base)
      rw [List.getElem?_drop, Nat.add_sub_cancel' hbase, hrecord]
    rw [start.drop_log] at hmem
    obtain ⟨event, hevent, hof⟩ := List.mem_filterMap.mp hmem
    exact hnot (List.mem_map_of_mem (hhooked.called event hevent record hof))
  · exact fun hsparing => ⟨called_of_sparing hlegal hconsumed hsparing, callsDurable hlegal⟩

theorem hookedAtLeastOnce_iff_afterStatus :
    HookedAtLeastOnce firstPoll crashAfterStatus ↔
      firstPoll.Throughout Mode.sparing.Allows crashAfterStatus :=
  hookedAtLeastOnce_iff firstPoll crashAfterStatus (by decide) ⟨_, List.prefix_rfl, by decide⟩

/-- A crash when the first event is marked and the hook is not called. -/
def crashBeforeCall : List (Input Unit Answer) := ticks 6 ++ [.crash ()] ++ ticks 9

/-- **A call is lost**: when all events are consumed the hook was called for the second event
only. -/
theorem crashBeforeCall_not_hooked :
    firstPoll.Legal crashBeforeCall ∧ firstPoll.Consumed crashBeforeCall ∧
      ¬ HookedAtLeastOnce firstPoll crashBeforeCall := by
  refine ⟨by decide, ⟨_, List.prefix_rfl, by decide⟩, fun hhooked => ?_⟩
  have hmem := hhooked.called (invoiceEvent "invoice_paid" "paid" 5) List.mem_cons_self _ rfl
  have hpaid : some "paid" ∈ (firstPoll.after crashBeforeCall).shared.called :=
    List.mem_map_of_mem hmem
  have hcalled : (firstPoll.after crashBeforeCall).shared.called = [some "released"] := by decide
  rw [hcalled] at hpaid
  exact absurd hpaid (by decide)

end Offchain
