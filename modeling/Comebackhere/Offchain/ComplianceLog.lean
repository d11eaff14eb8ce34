import Comebackhere.Compliance.Statuses
import Comebackhere.Offchain.ComplianceEvents

/-!
# The compliance contract's log

The indexer reads little of what the compliance contract publishes. What it publishes is complete
all the same: the events say which address has which status, no other event can be taken for one
that does, and whoever replays them catches up with the statuses that the contract stores.

## Main definitions

* `readStatus`: the status that an event reports, with its address
* `replay`: statuses after some events
* `CatchesUp`: the events published between two worlds lead from the statuses of one to the other's

## Main results

* `readStatus_eq_some`: exactly the events of statuses are read as statuses
* `catchesUp_step`: the events of an input catch up with what its operation leaves
* `log_complete`: in every run the log catches up from any point to any later one
-/

namespace Offchain

open Soroban Machine
open Compliance (AddressStatus Call StatusOp fresh getAddressStatus invoke operationOn)

variable {D : Deployment} {w w' w'' : Compliance.State D} {event : Event} {addr : Address}
  {status : AddressStatus}

/-! ## Reading events -/

/-- The status that an event reports, with its address. -/
def readStatus (event : Event) : Option (Address × AddressStatus) :=
  match event.topics, event.data with
  | [.symbol "address_allowed"], .vec [.address addr, .symbol "Allowed", .void] =>
    some (addr, .allowed)
  | [.symbol "address_allowed_until"],
      .vec [.address addr, .symbol "AllowedUntil", .u64 untilTime] =>
    some (addr, .allowedUntil untilTime)
  | [.symbol "address_blocked"], .vec [.address addr, .symbol "Blocked", .void] =>
    some (addr, .blocked)
  | [.symbol "address_cleared"], .vec [.address addr, .symbol "Cleared", .void] =>
    some (addr, .cleared)
  | _, _ => none

@[simp] theorem readStatus_statusEvent (addr : Address) (status : AddressStatus) :
    readStatus (statusEvent addr status) = some (addr, status) := by
  cases status <;> rfl

/-- Nothing but the event of a status is read as one. -/
theorem readStatus_eq_some : readStatus event = some (addr, status) ↔
    event = statusEvent addr status := by
  constructor
  · intro h
    obtain ⟨topics, data⟩ := event
    unfold readStatus at h
    split at h <;> simp only [Option.some.injEq, Prod.mk.injEq, reduceCtorEq] at h
    all_goals
      obtain ⟨rfl, rfl⟩ := h
      simp_all [statusEvent, statusEventType, statusName, expiry]
  · rintro rfl
    exact readStatus_statusEvent addr status

theorem readStatus_eq_none (h : ∀ addr status, event ≠ statusEvent addr status) :
    readStatus event = none := by
  rw [Option.eq_none_iff_forall_ne_some]
  intro r hr
  exact h r.1 r.2 (readStatus_eq_some.mp hr)

/-! ## Replaying events -/

/-- The statuses after one more event. -/
def replayEvent (statuses : Address → AddressStatus) (event : Event) : Address → AddressStatus :=
  (readStatus event).elim statuses fun r => Function.update statuses r.1 r.2

/-- The statuses after some events. -/
def replay (statuses : Address → AddressStatus) (events : List Event) : Address → AddressStatus :=
  events.foldl replayEvent statuses

theorem replay_append (statuses : Address → AddressStatus) (events published : List Event) :
    replay statuses (events ++ published) = replay (replay statuses events) published :=
  List.foldl_append

/-- Events that report no status change none. -/
theorem replay_of_none {statuses : Address → AddressStatus} {events : List Event}
    (h : ∀ event ∈ events, readStatus event = none) : replay statuses events = statuses := by
  induction events with
  | nil => rfl
  | cons event events ih =>
    have hfirst : replayEvent statuses event = statuses := by
      simp [replayEvent, h event List.mem_cons_self]
    rw [replay, List.foldl_cons, hfirst]
    exact ih fun event hevent => h event (List.mem_cons_of_mem _ hevent)

/-- The events of one status give it to every address they report. -/
theorem replay_statusEvents (statuses : Address → AddressStatus) (addresses : List Address)
    (status : AddressStatus) (a : Address) :
    replay statuses (addresses.map (statusEvent · status)) a =
      if a ∈ addresses then status else statuses a := by
  induction addresses generalizing statuses with
  | nil => rfl
  | cons addr addresses ih =>
    rw [List.map_cons, replay, List.foldl_cons]
    apply (ih _).trans
    by_cases ha : a ∈ addresses
    · simp [ha]
    · by_cases haddr : a = addr <;> simp [replayEvent, ha, haddr]

/-- What an operation leaves an address with. -/
def statusOf (op : StatusOp) : AddressStatus := op.entry.getD .cleared

/-- A call reports the statuses that its operation leaves. -/
theorem reports_eq (c : Call) : reports c =
    c.operation.elim [] fun (addresses, op) => addresses.map (·, statusOf op) := by
  cases c <;> rfl

/-! ## Catching up -/

/-- The events published from one world to the other lead from the statuses of one to the
other's. -/
def CatchesUp (w w' : Compliance.State D) : Prop :=
  ∃ published, w'.events = w.events ++ published ∧
    replay (getAddressStatus w.storage) published = getAddressStatus w'.storage

theorem CatchesUp.trans (h : CatchesUp w w') (h' : CatchesUp w' w'') : CatchesUp w w'' := by
  obtain ⟨published, hevents, hreplay⟩ := h
  obtain ⟨published', hevents', hreplay'⟩ := h'
  refine ⟨published ++ published', by rw [hevents', hevents, List.append_assoc], ?_⟩
  rw [replay_append, hreplay, hreplay']

/-- **The step lemma**: the events of an input lead to the statuses it leaves. -/
theorem catchesUp_step (hpending : w.storage.pendingAdmin = none) (i : Input D Call) :
    CatchesUp w (Compliance.step w i) := by
  cases ha : accepted invoke (w, i) with
  | none =>
    refine ⟨[], by rw [events_of_none ha, List.append_nil], ?_⟩
    rw [storage_of_not_accepted ha]
    rfl
  | some r =>
    obtain ⟨e, c, v⟩ := r
    obtain ⟨rest, hevents, hrest⟩ := published_of_ok (invoke_of_accepted ha).2
    refine ⟨_, hevents.trans (List.append_assoc _ _ _), ?_⟩
    rw [replay_append, replay_of_none fun event h => readStatus_eq_none (hrest event h)]
    ext a
    rw [getAddressStatus, Compliance.status_step hpending i a, reports_eq]
    cases hc : c.operation with
    | none => simp [operationOn, ha, hc, replay, getAddressStatus]
    | some r =>
      obtain ⟨addresses, op⟩ := r
      rw [Option.elim_some, List.map_map]
      apply (replay_statusEvents _ addresses (statusOf op) a).trans
      by_cases hmem : a ∈ addresses
      · simp [operationOn, ha, hc, hmem, statusOf]
      · simp [operationOn, ha, hc, hmem, getAddressStatus]

/-- Nobody is ever nominated. -/
theorem pendingAdmin_run (l : D.Ledger) (wasm : WasmHash) (is : List (Input D Call)) :
    (run Compliance.step (fresh l wasm) is).storage.pendingAdmin = none := by
  induction is using List.reverseRecOn with
  | nil => rfl
  | append_singleton is i ih =>
    rw [run_snoc]
    exact Compliance.pendingAdmin_step ih i

/-- **The log is complete**: in every run, by any callers and at any times, replaying the events
that the contract has published since some point upon the statuses of that point gives the statuses
it stores now; in particular the whole log, upon no statuses, gives all of them. -/
theorem log_complete (l : D.Ledger) (wasm : WasmHash) (is js : List (Input D Call)) :
    CatchesUp (run Compliance.step (fresh l wasm) is)
      (run Compliance.step (fresh l wasm) (is ++ js)) := by
  induction js using List.reverseRecOn with
  | nil => exact ⟨[], by simp, by simp [replay]⟩
  | append_singleton js i ih =>
    rw [← List.append_assoc, run_snoc]
    exact ih.trans (catchesUp_step (pendingAdmin_run l wasm _) i)

end Offchain
