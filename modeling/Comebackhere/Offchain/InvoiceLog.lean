import Comebackhere.Offchain.InvoiceIndexer
import Mathlib.Data.List.TakeWhile

/-!
# The tracked events and the cursor

The events of the server that the indexer tracks, in order, with the status they give an invoice;
and where a cursor lets the indexer resume. A cursor that names an event resumes after it, one that
names a ledger only at the first event of that ledger.

## Main definitions

* `recordOf`, `tracked`, `Rpc.log`: the tracked events, as they are first stored
* `lastStatus`: the status that tracked events give an invoice
* `Rpc.resumePosition`, `Rpc.CursorAt`: where a cursor resumes

## Main results

* `log_getElem_rank`: the place of an event among the tracked ones
* `Rpc.nextCursor_at`: a page is followed by a cursor that resumes in it or at its end
-/

namespace Offchain

open Invoicing (InvoiceStatus)

/-! ## Tracked events -/

/-- The record under which an event that is tracked and has an id is first stored. -/
def recordOf (contractId : String) (event : RpcEvent) : Option InvoiceEventRecord :=
  match parseEventType event.topic, eventIdOf event with
  | some eventType, some eventId =>
    some ⟨eventId, event.pagingToken, transitionOf contractId event eventType, false⟩
  | _, _ => none

def tracked (contractId : String) (events : List RpcEvent) : List InvoiceEventRecord :=
  events.filterMap (recordOf contractId)

/-- The status an event gives an invoice. -/
def statusFor (invoiceId : String) (record : InvoiceEventRecord) : Option InvoiceStatus :=
  if record.transition.invoiceId = invoiceId then statusByEvent record.transition.eventType
  else none

/-- The status of the last status-bearing event of an invoice. -/
def lastStatus (invoiceId : String) (records : List InvoiceEventRecord) : Option InvoiceStatus :=
  (records.filterMap (statusFor invoiceId)).getLast?

/-- An invoice record after its events: it has the status of the last, if there is one. -/
def InvoiceRecord.after (record : InvoiceRecord) (status : Option InvoiceStatus) : InvoiceRecord :=
  { record with status := status.getD record.status }

theorem lastStatus_snoc (invoiceId : String) (records : List InvoiceEventRecord)
    (record : InvoiceEventRecord) :
    lastStatus invoiceId (records ++ [record]) =
      (statusFor invoiceId record).or (lastStatus invoiceId records) := by
  unfold lastStatus
  rw [List.filterMap_append]
  cases h : statusFor invoiceId record with
  | none => simp [h]
  | some status => simp [h]

theorem recordOf_eventId {contractId : String} {event : RpcEvent} {record : InvoiceEventRecord}
    (h : recordOf contractId event = some record) : eventIdOf event = some record.eventId := by
  unfold recordOf at h
  split at h
  · next heventId =>
    obtain rfl := Option.some.inj h
    exact heventId
  · cases h

theorem recordOf_applied {contractId : String} {event : RpcEvent} {record : InvoiceEventRecord}
    (h : recordOf contractId event = some record) : record.applied = false := by
  unfold recordOf at h
  split at h
  · obtain rfl := Option.some.inj h
    rfl
  · cases h

theorem applied_of_mem_tracked {contractId : String} {events : List RpcEvent}
    {record : InvoiceEventRecord} (h : record ∈ tracked contractId events) :
    record.applied = false := by
  obtain ⟨event, -, hrecord⟩ := List.mem_filterMap.mp h
  exact recordOf_applied hrecord

/-- The round of the loop for an event that is tracked and has an id. -/
theorem handleEvent_of_recordOf {contractId : String} {event : RpcEvent}
    {record : InvoiceEventRecord} (h : recordOf contractId event = some record) :
    handleEvent contractId event =
      recordTransition record.eventId record.pagingToken record.transition := by
  unfold recordOf at h
  split at h
  · next heventType heventId =>
    obtain rfl := Option.some.inj h
    simp [handleEvent, heventType, heventId]
  · cases h

/-- The round of the loop for an event that is not tracked. -/
theorem handleEvent_of_untracked {contractId : String} {event : RpcEvent} (hid : event.id ≠ none)
    (h : recordOf contractId event = none) : handleEvent contractId event = .done false := by
  obtain ⟨id, hid⟩ := Option.ne_none_iff_exists'.mp hid
  have heventId : eventIdOf event = some id := by simp [eventIdOf, hid]
  cases heventType : parseEventType event.topic with
  | none => simp [handleEvent, heventType]
  | some eventType => simp [recordOf, heventType, heventId] at h

theorem mem_drop_of_getElem? {events : List RpcEvent} {q n : ℕ} {event : RpcEvent}
    (h : events[q]? = some event) (hn : n ≤ q) : event ∈ events.drop n := by
  apply List.mem_of_getElem? (i := q - n)
  rw [List.getElem?_drop, Nat.add_sub_cancel' hn, h]

theorem mem_take_of_getElem? {events : List RpcEvent} {q n : ℕ} {event : RpcEvent}
    (h : events[q]? = some event) (hn : q < n) : event ∈ events.take n := by
  apply List.mem_of_getElem? (i := q)
  rw [List.getElem?_take_of_lt hn, h]

namespace Rpc

variable (rpc : Rpc) (cfg : Config)

/-- The tracked events of the server, in order. -/
def log : List InvoiceEventRecord := tracked cfg.contractId rpc.events

/-- How many tracked events come before a position. -/
def rank (q : ℕ) : ℕ := (tracked cfg.contractId (rpc.events.take q)).length

variable {rpc cfg}

theorem rank_mono {q q' : ℕ} (h : q ≤ q') : rpc.rank cfg q ≤ rpc.rank cfg q' := by
  have hpre : rpc.events.take q <+: rpc.events.take q' := List.take_prefix_take_left h
  exact (hpre.filterMap _).length_le

theorem rank_of_length_le {q : ℕ} (h : rpc.events.length ≤ q) :
    rpc.rank cfg q = (rpc.log cfg).length := by
  rw [rank, log, List.take_of_length_le h]

variable {q : ℕ} {event : RpcEvent} {record : InvoiceEventRecord}

theorem rank_succ_of_untracked (hq : rpc.events[q]? = some event)
    (h : recordOf cfg.contractId event = none) : rpc.rank cfg (q + 1) = rpc.rank cfg q := by
  simp [rank, tracked, List.take_add_one, hq, h]

theorem rank_succ (hq : rpc.events[q]? = some event)
    (h : recordOf cfg.contractId event = some record) :
    rpc.rank cfg (q + 1) = rpc.rank cfg q + 1 := by
  simp [rank, tracked, List.take_add_one, hq, h]

/-- A tracked event has as many tracked ones before it as its place says. -/
theorem log_getElem_rank (hq : rpc.events[q]? = some event)
    (h : recordOf cfg.contractId event = some record) :
    (rpc.log cfg)[rpc.rank cfg q]? = some record := by
  obtain ⟨hlt, hget⟩ := List.getElem?_eq_some_iff.mp hq
  -- the log is split at the event, and what is before it has length `rank q`
  have hsplit : rpc.events = rpc.events.take q ++ event :: rpc.events.drop (q + 1) := by
    rw [← hget, ← List.drop_eq_getElem_cons hlt, List.take_append_drop]
  have hlog : rpc.log cfg = tracked cfg.contractId (rpc.events.take q) ++
      record :: tracked cfg.contractId (rpc.events.drop (q + 1)) := by
    unfold log
    conv_lhs => rw [hsplit]
    simp [tracked, h]
  rw [hlog, rank, List.getElem?_append_right le_rfl]
  simp

/-- A tracked event is an event of the server. -/
theorem exists_of_log {j : ℕ} (h : (rpc.log cfg)[j]? = some record) :
    ∃ q event, rpc.events[q]? = some event ∧ recordOf cfg.contractId event = some record ∧
      rpc.rank cfg q = j := by
  obtain ⟨hj, hget⟩ := List.getElem?_eq_some_iff.mp h
  suffices ∀ n, j < rpc.rank cfg n → ∃ q event, rpc.events[q]? = some event ∧
      recordOf cfg.contractId event = some record ∧ rpc.rank cfg q = j by
    apply this rpc.events.length
    rwa [rank_of_length_le le_rfl]
  intro n
  induction n with
  | zero => simp [rank, tracked]
  | succ n ih =>
    intro hjn
    by_cases hlt : j < rpc.rank cfg n
    · exact ih hlt
    -- the event at `n` is the one that has `j` tracked events before it
    cases hn : rpc.events[n]? with
    | none =>
      rw [rank, List.take_add_one, hn] at hjn
      simp only [Option.toList_none, List.append_nil] at hjn
      exact absurd hjn hlt
    | some event =>
      cases hrecord : recordOf cfg.contractId event with
      | none => exact absurd (rank_succ_of_untracked hn hrecord ▸ hjn) hlt
      | some record' =>
        rw [rank_succ hn hrecord] at hjn
        have hnj : rpc.rank cfg n = j := by omega
        have hlog := log_getElem_rank hn hrecord
        rw [hnj, h] at hlog
        obtain rfl := Option.some.inj hlog
        exact ⟨n, event, hn, hrecord, hnj⟩

/-- The tracked events have distinct ids. -/
theorem log_nodup : ((rpc.log cfg).map (·.eventId)).Nodup := by
  have hpair := rpc.ids_nodup
  unfold List.Nodup at hpair ⊢
  rw [List.pairwise_map] at hpair ⊢
  rw [log, tracked, List.pairwise_filterMap]
  -- two events of one record id have one id, as every event has one
  refine hpair.imp_of_mem fun {a b} ha hb hne record hrecord record' hrecord' heq => hne ?_
  obtain ⟨id, hid⟩ := Option.ne_none_iff_exists'.mp (rpc.ids a ha)
  obtain ⟨id', hid'⟩ := Option.ne_none_iff_exists'.mp (rpc.ids b hb)
  have h := recordOf_eventId hrecord
  have h' := recordOf_eventId hrecord'
  simp only [eventIdOf, hid, hid', Option.some_or, Option.some.injEq] at h h'
  rw [hid, hid', h, h', heq]

theorem log_index_unique {i j : ℕ} {record record' : InvoiceEventRecord}
    (hi : (rpc.log cfg)[i]? = some record) (hj : (rpc.log cfg)[j]? = some record')
    (h : record.eventId = record'.eventId) : i = j := by
  have hlt : i < ((rpc.log cfg).map (·.eventId)).length := by
    rw [List.length_map]
    exact (List.getElem?_eq_some_iff.mp hi).1
  refine (List.getElem?_inj hlt log_nodup).mp ?_
  rw [List.getElem?_map, List.getElem?_map, hi, hj, Option.map_some, Option.map_some, h]

end Rpc

/-! ## Where a cursor resumes -/

/-- The resume point of the stored cursor, else the configured one. -/
def resumePoint (cfg : Config) (saved : Option IndexerCursor) : Option Resume :=
  (savedResume saved).or ((cfg.startLedger.filter (0 < ·)).map .startLedger)

/-- The ledger before which a poll reads nothing any more. -/
def floorLedger (cfg : Config) (saved : Option IndexerCursor) : ℕ :=
  match savedResume saved with
  | some _ => (saved.map (·.lastLedger)).getD 0
  | none => (cfg.startLedger.filter (0 < ·)).getD 0

theorem resumeFrom_of_some {cfg : Config} {saved : Option IndexerCursor} {resume : Resume}
    (h : resumePoint cfg saved = some resume) : resumeFrom cfg saved = .done resume := by
  unfold resumePoint at h
  unfold resumeFrom initialStartLedger
  cases hsaved : savedResume saved with
  | some resume' => simpa [hsaved] using h
  | none =>
    rw [hsaved, Option.none_or, Option.map_eq_some_iff] at h
    obtain ⟨ledger, hledger, rfl⟩ := h
    simp [hledger]

theorem resumeFrom_of_none {cfg : Config} {saved : Option IndexerCursor}
    (h : resumePoint cfg saved = none) :
    resumeFrom cfg saved = .act .getLatestLedger fun ledger => .done (.startLedger ledger) := by
  obtain ⟨hsaved, hconfigured⟩ := Option.or_eq_none_iff.mp h
  rw [Option.map_eq_none_iff] at hconfigured
  simp [resumeFrom, initialStartLedger, hsaved, hconfigured]

namespace Rpc

variable (rpc : Rpc) (cfg : Config)

/-- Where a poll resumes: at the first event when there is no resume point. -/
def resumePosition (saved : Option IndexerCursor) : ℕ :=
  ((resumePoint cfg saved).map rpc.position).getD 0

/-- The cursor has not gone back before the ledger `floor` nor ahead of an event it leaves to
read. -/
structure CursorAt (floor : ℕ) (saved : Option IndexerCursor) : Prop where
  floor_le : floor ≤ floorLedger cfg saved
  later : ∀ event ∈ rpc.events.drop (rpc.resumePosition cfg saved),
    floorLedger cfg saved ≤ event.ledger

/-- A poll reads from a resume point, with the last ledger of the stored cursor at hand. -/
structure ReadsAt (floor : ℕ) (resume : Resume) (lastLedger : ℕ) : Prop where
  floor_le : floor ≤ max lastLedger resume.ledger
  floor_later : ∀ event ∈ rpc.events.drop (rpc.position resume), floor ≤ event.ledger
  later : ∀ event ∈ rpc.events.drop (rpc.position resume), lastLedger ≤ event.ledger

variable {rpc cfg}

/-! ### Positions of ledgers -/

theorem ledger_lt_of_lt_position {ledger q : ℕ} {event : RpcEvent}
    (hq : rpc.events[q]? = some event) (hlt : q < rpc.position (.startLedger ledger)) :
    event.ledger < ledger := by
  have hlt : q < (rpc.events.takeWhile (·.ledger < ledger)).length := hlt
  have hpre := List.takeWhile_prefix (l := rpc.events) (·.ledger < ledger)
  have hbefore := List.mem_takeWhile_imp (List.getElem_mem hlt)
  have hget := (List.getElem?_eq_some_iff.mp hq).2
  rw [hpre.getElem hlt, hget] at hbefore
  exact of_decide_eq_true hbefore

theorem position_startLedger_le {ledger q : ℕ}
    (h : ∀ event ∈ rpc.events.drop q, ledger ≤ event.ledger) :
    rpc.position (.startLedger ledger) ≤ q := by
  by_contra hlt
  have hlt := not_le.mp hlt
  have hlen : q < rpc.events.length := hlt.trans_le (List.takeWhile_prefix _).length_le
  -- the event at `q` is in an earlier ledger, and it is left to read
  have hq := List.getElem?_eq_getElem hlen
  have hbefore := ledger_lt_of_lt_position hq hlt
  have hle := h _ (mem_drop_of_getElem? hq le_rfl)
  omega

theorem le_ledger_of_mem_drop {ledger : ℕ} {event : RpcEvent}
    (h : event ∈ rpc.events.drop (rpc.position (.startLedger ledger))) : ledger ≤ event.ledger := by
  have hdrop : rpc.events.drop (rpc.position (.startLedger ledger)) =
      rpc.events.dropWhile (·.ledger < ledger) := by
    conv_lhs => rw [← List.takeWhile_append_dropWhile (p := (·.ledger < ledger)) (l := rpc.events)]
    exact List.drop_left
  rw [hdrop] at h
  have hsorted := rpc.ledgers.sublist (List.dropWhile_sublist (l := rpc.events) (·.ledger < ledger))
  cases hrest : rpc.events.dropWhile (·.ledger < ledger) with
  | nil => simp [hrest] at h
  | cons first rest =>
    -- the first event left is not before the ledger, and the others are not before it
    have hfirst := List.head_dropWhile_not (·.ledger < ledger) (l := rpc.events) (by simp [hrest])
    simp only [hrest, List.head_cons, decide_eq_false_iff_not, not_lt] at hfirst
    rw [hrest] at h hsorted
    rcases List.mem_cons.mp h with rfl | h
    · exact hfirst
    · exact hfirst.trans (List.rel_of_pairwise_cons hsorted h)

/-! ### From a stored cursor to the next one -/

variable {floor lastLedger : ℕ} {saved : Option IndexerCursor} {resume : Resume}

theorem savedResume_of_token (lastLedger : ℕ) {token : String} (h : token ≠ "") :
    savedResume (some ⟨some token, lastLedger⟩) = some (.cursor token) := by
  have htoken : (some token).filter (· ≠ "") = some token := by simp [Option.filter, h]
  simp only [savedResume, Option.bind_some, htoken]

theorem savedResume_of_ledger {token : Option String} (htoken : token.filter (· ≠ "") = none)
    (hledger : 0 < lastLedger) :
    savedResume (some ⟨token, lastLedger⟩) = some (.startLedger lastLedger) := by
  simp only [savedResume, Option.bind_some, htoken, Option.map_some, Option.getD_some]
  rw [if_pos hledger]

theorem lastLedger_of_savedResume (h : savedResume saved = none) :
    (saved.map (·.lastLedger)).getD 0 = 0 := by
  unfold savedResume at h
  split at h
  · cases h
  · dsimp only at h
    split at h
    · cases h
    · next hledger => exact Nat.eq_zero_of_not_pos hledger

theorem resumePosition_of_some (h : resumePoint cfg saved = some resume) :
    rpc.resumePosition cfg saved = rpc.position resume := by
  simp [resumePosition, h]

/-- The resume point of a cursor is where a poll reads from. -/
theorem CursorAt.readsAt (h : rpc.CursorAt cfg floor saved)
    (hresume : resumePoint cfg saved = some resume) :
    rpc.ReadsAt floor resume ((saved.map (·.lastLedger)).getD 0) := by
  obtain ⟨hfloor, hlater⟩ := h
  rw [resumePosition_of_some hresume] at hlater
  have hfloorLater := fun event hevent => hfloor.trans (hlater event hevent)
  cases hsaved : savedResume saved with
  | some resume' =>
    simp only [floorLedger, hsaved] at hfloor hlater
    exact ⟨hfloor.trans (le_max_left _ _), hfloorLater, hlater⟩
  | none =>
    rw [lastLedger_of_savedResume hsaved]
    rw [resumePoint, hsaved, Option.none_or, Option.map_eq_some_iff] at hresume
    obtain ⟨ledger, hledger, rfl⟩ := hresume
    simp only [floorLedger, hsaved, hledger, Option.getD_some] at hfloor
    exact ⟨hfloor.trans (le_max_right _ _), hfloorLater, fun _ _ => Nat.zero_le _⟩

/-- Without a resume point a poll reads from the first event. -/
theorem CursorAt.readsAt_latest (h : rpc.CursorAt cfg floor saved)
    (hresume : resumePoint cfg saved = none) {sequence : ℕ}
    (hsequence : ∀ event ∈ rpc.events, sequence ≤ event.ledger) :
    rpc.ReadsAt floor (.startLedger sequence) ((saved.map (·.lastLedger)).getD 0) ∧
      rpc.position (.startLedger sequence) = rpc.resumePosition cfg saved := by
  obtain ⟨hsaved, hconfigured⟩ := Option.or_eq_none_iff.mp hresume
  rw [Option.map_eq_none_iff] at hconfigured
  have hfloor := h.floor_le
  simp only [floorLedger, hsaved, hconfigured, Option.getD_none, Nat.le_zero] at hfloor
  subst hfloor
  rw [lastLedger_of_savedResume hsaved]
  refine ⟨⟨Nat.zero_le _, fun _ _ => Nat.zero_le _, fun _ _ => Nat.zero_le _⟩, ?_⟩
  have hstart : rpc.position (.startLedger sequence) ≤ 0 := position_startLedger_le (by simpa)
  simp only [resumePosition, hresume, Option.map_none, Option.getD_none]
  omega

/-- What is left to read at a cursor is not before the ledger `floor`. -/
theorem CursorAt.floor_position_le (h : rpc.CursorAt cfg floor saved) :
    rpc.position (.startLedger floor) ≤ rpc.resumePosition cfg saved :=
  position_startLedger_le fun event hevent => h.floor_le.trans (h.later event hevent)

/-- A cursor that resumes at `q` by its token, or else at a ledger that has begun by then. -/
theorem cursorAt_saved {token : Option String} {q : ℕ} (hpos : 0 < lastLedger)
    (hfloor : floor ≤ lastLedger) (htoken : ∀ t, token = some t → rpc.after t = q)
    (hlater : ∀ event ∈ rpc.events.drop q, lastLedger ≤ event.ledger) :
    rpc.CursorAt cfg floor (some ⟨token, lastLedger⟩) ∧
      rpc.resumePosition cfg (some ⟨token, lastLedger⟩) ≤ q := by
  cases hfilter : token.filter (· ≠ "") with
  | some t =>
    -- the token is not empty, and the position is exactly where it resumes
    obtain ⟨rfl, hne⟩ := Option.filter_eq_some_iff.mp hfilter
    have hresume := savedResume_of_token lastLedger (of_decide_eq_true hne)
    have hposition : rpc.resumePosition cfg (some ⟨some t, lastLedger⟩) = q := by
      rw [resumePosition_of_some (by rw [resumePoint, hresume, Option.some_or])]
      exact htoken t rfl
    refine ⟨⟨?_, ?_⟩, hposition.le⟩
    · simpa [floorLedger, hresume] using hfloor
    · rw [hposition]
      simpa [floorLedger, hresume] using hlater
  | none =>
    -- the ledger is read from its start, so events of it come again
    have hresume := savedResume_of_ledger hfilter hpos
    have hposition : rpc.resumePosition cfg (some ⟨token, lastLedger⟩) =
        rpc.position (.startLedger lastLedger) :=
      resumePosition_of_some (by rw [resumePoint, hresume, Option.some_or])
    refine ⟨⟨?_, ?_⟩, hposition.trans_le (position_startLedger_le hlater)⟩
    · simpa [floorLedger, hresume] using hfloor
    · rw [hposition]
      intro event hevent
      simpa [floorLedger, hresume] using le_ledger_of_mem_drop hevent

/-- The cursor after a page is that of an empty one, or of the last event. -/
theorem nextCursor_page (lastLedger : ℕ) (resume : Resume) (answer : Answer) :
    ((rpc.page resume answer).events = [] ∧ nextCursor lastLedger (rpc.page resume answer) =
        ⟨answer.cursor, max lastLedger (answer.latestLedger.getD 0)⟩) ∨
      ∃ last n, (rpc.page resume answer).events.length = n + 1 ∧
        rpc.events[rpc.position resume + n]? = some last ∧
        nextCursor lastLedger (rpc.page resume answer) = ⟨last.pagingToken, last.ledger⟩ := by
  set events := (rpc.page resume answer).events with hevents
  rcases List.eq_nil_or_concat events with hnil | ⟨before, last, hlast⟩
  · refine Or.inl ⟨hnil, ?_⟩
    simp only [nextCursor, ← hevents, hnil, List.getLast?_nil]
    rfl
  · rw [List.concat_eq_append] at hlast
    refine Or.inr ⟨last, before.length, by simp [hlast], ?_, ?_⟩
    · have hpre : before ++ [last] <+: rpc.events.drop (rpc.position resume) := by
        rw [← hlast]
        exact List.take_prefix _ _
      obtain ⟨rest, hrest⟩ := hpre
      rw [← List.getElem?_drop, ← hrest]
      simp
    · simp only [nextCursor, ← hevents, hlast, List.getLast?_concat]

/-- The events after one are not in an earlier ledger. -/
theorem le_ledger_of_getElem? {q : ℕ} {event event' : RpcEvent} (hq : rpc.events[q]? = some event)
    (hevent' : event' ∈ rpc.events.drop (q + 1)) : event.ledger ≤ event'.ledger := by
  have hlt := (List.getElem?_eq_some_iff.mp hq).1
  have hsorted := rpc.ledgers.sublist (List.drop_sublist q rpc.events)
  rw [List.drop_eq_getElem_cons hlt, (List.getElem?_eq_some_iff.mp hq).2] at hsorted
  exact List.rel_of_pairwise_cons hsorted hevent'

/-- **The cursor after a page** resumes in the page or at its end. -/
theorem nextCursor_at (cfg : Config) (h : rpc.ReadsAt floor resume lastLedger) {answer : Answer}
    (hanswer : rpc.MayAnswer resume answer) :
    rpc.CursorAt cfg floor (some (nextCursor lastLedger (rpc.page resume answer))) ∧
      rpc.resumePosition cfg (some (nextCursor lastLedger (rpc.page resume answer))) ≤
        rpc.position resume + (rpc.page resume answer).events.length := by
  rcases rpc.nextCursor_page lastLedger resume answer with ⟨hnil, hnext⟩ | ⟨last, n, hlen, hget, hnext⟩
  · -- an empty page moves the cursor to the latest ledger, before which nothing is left
    obtain ⟨htoken, latest, hlatest, hpos, hledger, hlater⟩ := hanswer.2.2 hnil
    rw [Option.mem_def] at hlatest
    rw [hnext, hlatest, Option.getD_some, hnil, List.length_nil, Nat.add_zero]
    have hfloor := h.floor_le
    apply cursorAt_saved (by omega) (by omega) htoken
    intro event hevent
    have hbefore := h.later event hevent
    have hafter := hlater event hevent
    omega
  · -- the last event of the page is the one before the end of the page
    have hmem := mem_drop_of_getElem? hget (Nat.le_add_right _ _)
    rw [hnext, hlen, ← Nat.add_assoc]
    exact cursorAt_saved (rpc.ledger_pos last (List.mem_of_mem_drop hmem))
      (h.floor_later last hmem) (fun token htoken => rpc.after_token _ last token hget htoken)
      fun event hevent => le_ledger_of_getElem? hget hevent

end Rpc

end Offchain
