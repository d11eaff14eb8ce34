import Comebackhere.Offchain.InvoiceLog

/-!
# How far the database has followed the events

Whatever crashes and replays there were, the database is that of an indexer that has applied the
tracked events up to one of them, the frontier, and has perhaps begun with that one. The writes of
the indexer keep the database so: they change nothing behind the frontier, take the event at the
frontier one write further, and end by moving the frontier on.

## Main definitions

* `Start`: the database that a run starts from
* `Frontier`: how far the tracked events are applied, and who is at work on the next
* `Synced`: the database is that of its frontier
* `Durable`: an event is applied, and its status written

## Main results

* `Synced.insert`, `Synced.setStatus`, `Synced.setApplied`, `Synced.saveCursor`: the writes
* `Synced.stored_once`, `Synced.status_eq`: the database once all events are applied
-/

namespace Offchain

open Invoicing (InvoiceStatus)

variable {rpc : Rpc} {cfg : Config} {P : Type}

/-! ## The start -/

/-- A database with a cursor that is not ahead of the events it leaves to read. The first `handled`
events were handled before: those that can be read again are stored and applied. The events after
them are not stored. -/
structure Start (rpc : Rpc) (cfg : Config) where
  db : Db
  handled : ℕ
  resume_le : rpc.resumePosition cfg db.cursor ≤ handled
  later : ∀ event ∈ rpc.events.drop (rpc.resumePosition cfg db.cursor),
    floorLedger cfg db.cursor ≤ event.ledger
  applied : ∀ event ∈ rpc.events.take handled, floorLedger cfg db.cursor ≤ event.ledger →
    ∀ record, recordOf cfg.contractId event = some record →
      (db.invoiceEvents.find record.eventId).map (·.applied) = some true
  absent : ∀ event ∈ rpc.events.drop handled, ∀ record,
    recordOf cfg.contractId event = some record → db.invoiceEvents.find record.eventId = none

namespace Start

variable (start : Start rpc cfg)

/-- The ledger from which on events can be read. -/
def floor : ℕ := floorLedger cfg start.db.cursor

/-- The tracked events before this one are not read any more. -/
def first : ℕ := rpc.rank cfg (rpc.position (.startLedger start.floor))

/-- The tracked events before this one were handled before. -/
def base : ℕ := rpc.rank cfg start.handled

theorem cursorAt : rpc.CursorAt cfg start.floor start.db.cursor := ⟨le_rfl, start.later⟩

theorem first_le_base : start.first ≤ start.base :=
  Rpc.rank_mono (start.cursorAt.floor_position_le.trans start.resume_le)

end Start

/-! ## The frontier -/

/-- How far the event at the frontier has got: not stored, stored, or its status written. -/
inductive Phase
  | fresh
  | stored
  | written
  deriving DecidableEq

/-- The tracked events that are applied, how far the next one has got, the process at work on it,
and the events of which each process is about to call the hook. -/
structure Frontier (P : Type) where
  count : ℕ
  phase : Phase
  owner : Option P
  pending : P → Option String

namespace Frontier

variable (g : Frontier P)

/-- Whether a tracked event is applied, if it is stored. -/
def mark (j : ℕ) : Option Bool :=
  if j < g.count then some true
  else if j = g.count ∧ g.phase ≠ .fresh then some false
  else none

/-- The tracked events whose status is written. -/
def written : ℕ := if g.phase = .written then g.count + 1 else g.count

variable {g} {j : ℕ}

theorem mark_of_lt (h : j < g.count) : g.mark j = some true := if_pos h

theorem lt_of_mark (h : g.mark j = some true) : j < g.count := by
  by_contra hlt
  rw [mark, if_neg hlt] at h
  split at h <;> cases h

theorem mark_count : g.mark g.count = if g.phase = .fresh then none else some false := by
  by_cases hphase : g.phase = .fresh <;> simp [mark, hphase]

theorem mark_of_gt (h : g.count < j) : g.mark j = none := by
  have hne : j ≠ g.count := by omega
  simp [mark, h.le, hne]

end Frontier

/-- **The database is that of the frontier**: the tracked events that can be read are stored and
applied up to it, every invoice has the status of its last event among them, and the cursor is not
ahead. -/
structure Synced (start : Start rpc cfg) (db : Db) (g : Frontier P) : Prop where
  base_le : start.base ≤ g.count
  unowned : g.phase = .fresh → g.owner = none
  events : ∀ j record, start.first ≤ j → (rpc.log cfg)[j]? = some record →
    (db.invoiceEvents.find record.eventId).map (·.applied) = g.mark j
  statuses : ∀ invoiceId, db.invoices.find invoiceId =
    (start.db.invoices.find invoiceId).map
      (·.after (lastStatus invoiceId (((rpc.log cfg).take g.written).drop start.base)))
  cursor : rpc.CursorAt cfg start.floor db.cursor
  resume_le : rpc.rank cfg (rpc.resumePosition cfg db.cursor) ≤ g.count

/-- An event is applied, and the record of its invoice has its status. -/
structure Durable (db : Db) (eventId : Option String) (transition : InvoiceStateTransition) :
    Prop where
  applied : ∀ id ∈ eventId, (db.invoiceEvents.find id).map (·.applied) = some true
  status : ∀ status ∈ statusByEvent transition.eventType,
    ∀ record ∈ db.invoices.find transition.invoiceId, record.status = status

/-- The start is at the frontier of the events handled before. -/
theorem Start.synced (start : Start rpc cfg) :
    Synced start start.db (⟨start.base, .fresh, none, fun _ => none⟩ : Frontier P) where
  base_le := le_rfl
  unowned _ := rfl
  events j record hj hrecord := by
    obtain ⟨q, event, hq, hevent, rfl⟩ := Rpc.exists_of_log hrecord
    rcases Nat.lt_or_ge q start.handled with hlt | hge
    · -- handled before, and not before the ledger from which events can be read
      have hmark : rpc.rank cfg q < start.base := by
        have hsucc := Rpc.rank_succ hq hevent
        have hmono : rpc.rank cfg (q + 1) ≤ start.base := Rpc.rank_mono hlt
        omega
      have hledger : floorLedger cfg start.db.cursor ≤ event.ledger := by
        have hposition : rpc.position (.startLedger start.floor) ≤ q := by
          by_contra hlt
          have hsucc := Rpc.rank_succ hq hevent
          have hmono : rpc.rank cfg (q + 1) ≤ start.first := Rpc.rank_mono (not_le.mp hlt)
          omega
        exact Rpc.le_ledger_of_mem_drop (mem_drop_of_getElem? hq hposition)
      rw [Frontier.mark_of_lt hmark]
      exact start.applied event (mem_take_of_getElem? hq hlt) hledger record hevent
    · -- not handled yet
      have hmark : ¬ rpc.rank cfg q < start.base := not_lt.mpr (Rpc.rank_mono hge)
      rw [start.absent event (mem_drop_of_getElem? hq hge) record hevent]
      simp [Frontier.mark, hmark]
  statuses invoiceId := by
    have hdrop : ((rpc.log cfg).take start.base).drop start.base = [] := by simp
    cases h : start.db.invoices.find invoiceId <;>
      simp [Frontier.written, hdrop, lastStatus, InvoiceRecord.after]
  cursor := start.cursorAt
  resume_le := Rpc.rank_mono start.resume_le

/-! ## The writes -/

namespace Synced

variable {start : Start rpc cfg} {db : Db} {g : Frontier P} {record : InvoiceEventRecord}

/-- The statuses of one more event. -/
theorem lastStatus_take_succ (invoiceId : String) {n : ℕ} (hn : start.base ≤ n)
    (hrecord : (rpc.log cfg)[n]? = some record) :
    lastStatus invoiceId (((rpc.log cfg).take (n + 1)).drop start.base) =
      (statusFor invoiceId record).or
        (lastStatus invoiceId (((rpc.log cfg).take n).drop start.base)) := by
  have hlen : n < (rpc.log cfg).length := (List.getElem?_eq_some_iff.mp hrecord).1
  rw [List.take_add_one, hrecord, Option.toList_some,
    List.drop_append_of_le_length (by rw [List.length_take]; omega), lastStatus_snoc]

/-- Other tracked events than the one at the frontier have other ids. -/
theorem eventId_ne {j : ℕ} {record' : InvoiceEventRecord} (hj : j ≠ g.count)
    (hrecord : (rpc.log cfg)[g.count]? = some record)
    (hrecord' : (rpc.log cfg)[j]? = some record') : record'.eventId ≠ record.eventId :=
  fun heq => hj (Rpc.log_index_unique hrecord' hrecord heq)

theorem eq_of_count {record' : InvoiceEventRecord}
    (hrecord : (rpc.log cfg)[g.count]? = some record)
    (hrecord' : (rpc.log cfg)[g.count]? = some record') : record' = record :=
  Option.some.inj (hrecord'.symm.trans hrecord)

/-- Who is at work on the event at the frontier is no matter of the database. -/
theorem reown (h : Synced start db g) (owner : Option P) (pending : P → Option String)
    (howner : g.phase = .fresh → owner = none) :
    Synced start db { g with owner, pending } :=
  { h with unowned := howner }

/-- The event at the frontier is stored. -/
theorem insert (h : Synced start db g) (hphase : g.phase = .fresh)
    (hrecord : (rpc.log cfg)[g.count]? = some record) (p : P) :
    Synced start { db with invoiceEvents := db.invoiceEvents.insertIfAbsent record }
      { g with phase := .stored, owner := some p } where
  base_le := h.base_le
  unowned hfresh := by cases hfresh
  events j record' hj hrecord' := by
    rw [Collection.find_insertIfAbsent]
    by_cases hcount : j = g.count
    · -- it was not stored, and it is stored as not applied
      subst hcount
      obtain rfl := eq_of_count hrecord hrecord'
      have hfind := h.events _ _ hj hrecord'
      rw [Frontier.mark_count, if_pos hphase, Option.map_eq_none_iff] at hfind
      have happlied := applied_of_mem_tracked (List.mem_of_getElem? hrecord')
      simp [hfind, happlied, Frontier.mark]
    · rw [if_neg (eventId_ne hcount hrecord hrecord'), h.events _ _ hj hrecord']
      simp [Frontier.mark, hcount]
  statuses invoiceId := by
    rw [h.statuses invoiceId]
    simp [Frontier.written, hphase]
  cursor := h.cursor
  resume_le := h.resume_le

/-- The status of the event at the frontier is written, once or again. -/
theorem setStatus (h : Synced start db g) (hphase : g.phase ≠ .fresh)
    (hrecord : (rpc.log cfg)[g.count]? = some record) {status : InvoiceStatus}
    (hstatus : statusByEvent record.transition.eventType = some status) :
    Synced start { db with invoices := setStatus db.invoices record.transition.invoiceId status }
      { g with phase := .written } where
  base_le := h.base_le
  unowned hfresh := by cases hfresh
  events j record' hj hrecord' := by
    rw [h.events _ _ hj hrecord']
    simp [Frontier.mark, hphase]
  statuses invoiceId := by
    have hsucc := lastStatus_take_succ invoiceId h.base_le hrecord
    have hwritten : ({ g with phase := .written } : Frontier P).written = g.count + 1 := if_pos rfl
    rw [Offchain.setStatus, Collection.find_updateOne, h.statuses invoiceId, hwritten, hsucc]
    by_cases hid : invoiceId = record.transition.invoiceId
    · -- the new status is the one of the last event, whatever was written before
      rw [if_pos hid, Option.map_map]
      simp [statusFor, hid, hstatus, InvoiceRecord.after, Function.comp_def]
    · -- an invoice of another event keeps its status
      have hnone : statusFor invoiceId record = none := if_neg (Ne.symm hid)
      rw [hnone, Option.none_or] at hsucc
      rw [if_neg hid, hnone, Option.none_or]
      by_cases hw : g.phase = .written
      · rw [Frontier.written, if_pos hw, hsucc]
      · rw [Frontier.written, if_neg hw]
  cursor := h.cursor
  resume_le := h.resume_le

/-- The event at the frontier is marked as applied, after its status was written. -/
theorem setApplied (h : Synced start db g) (hphase : g.phase ≠ .fresh)
    (hrecord : (rpc.log cfg)[g.count]? = some record)
    (hwritten : g.phase = .written ∨ statusByEvent record.transition.eventType = none)
    (pending : P → Option String) :
    Synced start { db with invoiceEvents := setApplied db.invoiceEvents record.eventId }
      ⟨g.count + 1, .fresh, none, pending⟩ where
  base_le := h.base_le.trans (Nat.le_succ _)
  unowned _ := rfl
  events j record' hj hrecord' := by
    rw [Offchain.setApplied, Collection.find_updateOne]
    have hfind := h.events _ _ hj hrecord'
    -- the event that is marked is the one at the frontier, its id being its own
    rcases lt_trichotomy j g.count with hlt | rfl | hgt
    · rw [if_neg (eventId_ne hlt.ne hrecord hrecord'), hfind, Frontier.mark_of_lt hlt,
        Frontier.mark_of_lt (Nat.lt_succ_of_lt hlt)]
    · obtain rfl := eq_of_count hrecord hrecord'
      rw [Frontier.mark_count, if_neg hphase] at hfind
      obtain ⟨stored, hstored, -⟩ := Option.map_eq_some_iff.mp hfind
      rw [if_pos rfl, hstored, Frontier.mark_of_lt (Nat.lt_succ_self _)]
      rfl
    · rw [if_neg (eventId_ne hgt.ne' hrecord hrecord'), hfind, Frontier.mark_of_gt hgt]
      have hlt : ¬ j < g.count + 1 := by omega
      simp [Frontier.mark, hlt]
  statuses invoiceId := by
    rw [h.statuses invoiceId]
    have hsucc := lastStatus_take_succ invoiceId h.base_le hrecord
    have hcount : (⟨g.count + 1, .fresh, none, pending⟩ : Frontier P).written = g.count + 1 :=
      if_neg (by simp)
    rw [hcount]
    by_cases hw : g.phase = .written
    · rw [Frontier.written, if_pos hw]
    · -- the event has no status to write
      have hnone : statusFor invoiceId record = none := by
        rcases hwritten with hw' | hnone
        · exact absurd hw' hw
        · simp [statusFor, hnone]
      rw [Frontier.written, if_neg hw, hsucc, hnone, Option.none_or]
  cursor := h.cursor
  resume_le := h.resume_le.trans (Nat.le_succ _)

theorem saveCursor (h : Synced start db g) {next : IndexerCursor}
    (hcursor : rpc.CursorAt cfg start.floor (some next))
    (hresume : rpc.rank cfg (rpc.resumePosition cfg (some next)) ≤ g.count) :
    Synced start { db with cursor := some next } g :=
  { h with cursor := hcursor, resume_le := hresume }

theorem find_of_lt (h : Synced start db g) {j : ℕ} (hj : start.first ≤ j) (hlt : j < g.count)
    (hrecord : (rpc.log cfg)[j]? = some record) :
    ∃ stored, db.invoiceEvents.find record.eventId = some stored ∧ stored.applied = true := by
  have hfind := h.events j record hj hrecord
  rw [Frontier.mark_of_lt hlt] at hfind
  exact Option.map_eq_some_iff.mp hfind

/-- The event applied last is durable, while no other is begun. -/
theorem durable (h : Synced start db g) {n : ℕ} (hbase : start.base ≤ n) (hcount : g.count = n + 1)
    (hphase : g.phase = .fresh) (hrecord : (rpc.log cfg)[n]? = some record) :
    Durable db (some record.eventId) record.transition where
  applied eventId heventId := by
    obtain rfl := Option.some.inj heventId
    obtain ⟨stored, hstored, happlied⟩ :=
      h.find_of_lt (start.first_le_base.trans hbase) (by omega) hrecord
    rw [hstored, Option.map_some, happlied]
  status status hstatus invoice hinvoice := by
    have hwritten : g.written = n + 1 := by simp [Frontier.written, hphase, hcount]
    have hfor : statusFor record.transition.invoiceId record = some status :=
      (if_pos rfl).trans hstatus
    have hfind := h.statuses record.transition.invoiceId
    rw [hwritten, lastStatus_take_succ _ hbase hrecord, hfor, Option.some_or, hinvoice] at hfind
    obtain ⟨before, -, rfl⟩ := Option.map_eq_some_iff.mp hfind.symm
    rfl

/-! ## The database once all events are applied -/

/-- An event that can be read and is behind the frontier is stored once. -/
theorem stored_once (h : Synced start db g) {j : ℕ} (hj : start.first ≤ j) (hlt : j < g.count)
    (hrecord : (rpc.log cfg)[j]? = some record) :
    db.invoiceEvents.docs.countP (·.eventId = record.eventId) = 1 := by
  obtain ⟨stored, hstored, -⟩ := h.find_of_lt hj hlt hrecord
  exact Collection.count_eq_one hstored

/-- Once all events are applied every invoice has the status of its last one. -/
theorem status_eq (h : Synced start db g) (hlen : (rpc.log cfg).length ≤ g.count)
    (invoiceId : String) :
    db.invoices.find invoiceId = (start.db.invoices.find invoiceId).map
      (·.after (lastStatus invoiceId ((rpc.log cfg).drop start.base))) := by
  have hwritten : (rpc.log cfg).length ≤ g.written := by
    unfold Frontier.written
    split <;> omega
  rw [h.statuses invoiceId, List.take_of_length_le hwritten]

end Synced

end Offchain
