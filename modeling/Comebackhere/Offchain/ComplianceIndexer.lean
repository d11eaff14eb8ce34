import Comebackhere.Library.Pages
import Comebackhere.Offchain.ComplianceEvents
import Comebackhere.Offchain.EventPages
import Comebackhere.Offchain.TreasuryIndexer

/-!
# The compliance indexer

The indexer fetches a page of the compliance contract's events, records those of statuses in the
audit collection, and saves its cursor. The resume token is that of the last event that is tracked:
where a page has none, the indexer stays where it is, or goes on from the latest ledger. The times at
which documents are written and the metrics are left out.

## Main definitions

* `ComplianceAuditRecord`, `Db`: the database
* `processComplianceIndexerBatch`: a batch
* `Serves`: the RPC server returns the pages of a history
* `Complete`: after some batches every tracked event of the history is recorded

## Main results

* `handleEvents_of_page`: what a batch records of a page, and the token it saves
* `complete_iff`: the indexer records every tracked event exactly where no page without one comes
  before one
-/

namespace Offchain.ComplianceIndexer

open Soroban Checked
open TreasuryIndexer (Cursor pushEventIds eventLimit)

/-! ## Data -/

inductive ComplianceAuditStatus
  | allowed
  | allowedUntil
  | blocked
  | cleared
  deriving DecidableEq, Repr

/-- A record of the audit collection. -/
structure ComplianceAuditRecord where
  eventId : String
  eventType : Symbol
  address : String
  status : Option ComplianceAuditStatus
  expiresAt : Option ℕ
  ledger : ℕ
  ledgerClosedAt : Option String
  transactionHash : String
  contractId : String
  pagingToken : Option String
  deriving DecidableEq

/-- The audit records, and the indexer's cursor document. -/
structure Db where
  complianceAudit : Collection ComplianceAuditRecord String (·.eventId)
  cursor : Option Cursor

/-- Nothing is indexed yet. -/
def Db.empty : Db := ⟨.empty, none⟩

/-- The contract, and `eventStatus`, which the file calls and does not define. -/
structure Config where
  contractId : String
  eventStatus : RpcEvent → Symbol → Js (Option ComplianceAuditStatus)

/-- What `getEvents` is asked for. -/
structure Request where
  startLedger : Option ℕ
  cursor : Option String
  contractIds : List String
  limit : ℕ

/-- The RPC server; `none` where it throws. -/
abbrev SorobanClient := Request → Option EventsResponse

variable (cfg : Config)

/-! ## A batch -/

def complianceEventId (event : RpcEvent) (eventType : Symbol) (addressValue : String) : String :=
  event.pagingToken.getD (event.txHash.getD "" ++ ":" ++ eventType ++ ":" ++ addressValue)

/-- The record of a tracked event. -/
def auditRecord (event : RpcEvent) (eventType : Symbol) (addressValue : String) :
    Js ComplianceAuditRecord := do
  let status ← cfg.eventStatus event eventType
  let expiresAt ← eventExpiry event eventType
  return {
    eventId := complianceEventId event eventType addressValue
    eventType
    address := addressValue
    status
    expiresAt
    ledger := event.ledger
    ledgerClosedAt := event.ledgerClosedAt
    transactionHash := event.txHash.getD ""
    contractId := cfg.contractId
    pagingToken := event.pagingToken }

/-- What the loop of a batch has done so far. -/
structure Progress where
  collection : Collection ComplianceAuditRecord String (·.eventId)
  seen : List String
  newIds : List String
  lastToken : Option String

/-- One round of the loop. -/
def handleEvent (event : RpcEvent) (progress : Progress) : Js Progress := do
  let eventType ← symbol event.topic 0
  -- an untracked event is skipped before its token is kept
  if eventType ∉ eventTypes then return progress
  let addressValue ← eventAddress event eventType
  let id := complianceEventId event eventType addressValue
  let lastToken := event.pagingToken.or progress.lastToken
  if id ∈ progress.seen then return { progress with lastToken }
  let record ← auditRecord cfg event eventType addressValue
  return {
    collection := progress.collection.insertIfAbsent record
    seen := progress.seen ++ [id]
    newIds := progress.newIds ++ [id]
    lastToken }

/-- The loop. An error ends it: what has been written stays. -/
def handleEvents : List RpcEvent → Progress → Progress × Option JsError
  | [], progress => (progress, none)
  | event :: events, progress =>
    match handleEvent cfg event progress with
    | .error err => (progress, some err)
    | .ok progress => handleEvents events progress

/-- What a batch asks for. -/
def request (cursor : Option Cursor) : Request where
  startLedger := (cursor.map (·.lastLedger)).filter (0 < ·)
  cursor := (cursor.bind (·.pagingToken)).filter (· ≠ "")
  contractIds := [cfg.contractId]
  limit := eventLimit

/-- Fetches and records a page of events: how many are newly recorded, `none` when it throws. -/
def processComplianceIndexerBatch (client : SorobanClient) (db : Db) : Db × Option ℕ :=
  match client (request cfg db.cursor) with
  | none => (db, none)
  | some response =>
    let ids := (db.cursor.map (·.processedEventIds)).getD []
    match handleEvents cfg response.events
        ⟨db.complianceAudit, ids, [], db.cursor.bind (·.pagingToken)⟩ with
    -- the records that were written stay, the cursor is not saved
    | (progress, some _) => ({ db with complianceAudit := progress.collection }, none)
    | (progress, none) =>
      ({ complianceAudit := progress.collection
         cursor := some {
           pagingToken := progress.lastToken
           lastLedger := response.latestLedger.getD ((db.cursor.map (·.lastLedger)).getD 0)
           processedEventIds := pushEventIds ids progress.newIds } },
        some progress.newIds.length)

/-- The database after a number of batches, each with the server as it is then. -/
def afterBatches (clients : ℕ → SorobanClient) : ℕ → Db
  | 0 => .empty
  | n + 1 => (processComplianceIndexerBatch cfg (clients n) (afterBatches clients n)).1

/-! ## The server -/

/-- The server returns the pages of a history. The latest ledger grows, and is not before those of
the history. -/
structure Serves (history : List RpcEvent) (latest : ℕ → ℕ) (clients : ℕ → SorobanClient) :
    Prop where
  getEvents : ∀ n req, ∃ response, clients n req = some response ∧
    response.events = (requested history req.startLedger req.cursor).take req.limit ∧
    response.latestLedger = some (latest n)
  reached : ∀ n, ∀ event ∈ history, event.ledger ≤ latest n
  monotone : Monotone latest

/-! ## Reading an event -/

/-- The event reports a status. -/
def tracked (event : RpcEvent) : Bool :=
  match symbol event.topic 0 with
  | .ok eventType => eventType ∈ eventTypes
  | .error _ => false

/-- The record of an event, when it is tracked. -/
def recordOf (event : RpcEvent) : Js (Option ComplianceAuditRecord) := do
  let eventType ← symbol event.topic 0
  if eventType ∉ eventTypes then return none
  let addressValue ← eventAddress event eventType
  return some (← auditRecord cfg event eventType addressValue)

/-- The record of an event that is tracked and decoded. -/
def trackedRecord (event : RpcEvent) : Option ComplianceAuditRecord :=
  match recordOf cfg event with
  | .ok record => record
  | .error _ => none

/-- The events are as the server has them, and are decoded. -/
structure WellFormed (history : List RpcEvent) : Prop extends Sequenced history where
  decodes : ∀ event ∈ history, ∃ record, recordOf cfg event = .ok record

section Event

variable {cfg} {event : RpcEvent} {progress : Progress} {record : Option ComplianceAuditRecord}
  {token : String}

theorem eventId_of_auditRecord {eventType : Symbol} {addressValue : String}
    {r : ComplianceAuditRecord} (h : auditRecord cfg event eventType addressValue = .ok r) :
    r.eventId = complianceEventId event eventType addressValue := by
  simp only [auditRecord, bind_eq_ok, pure_eq_ok] at h
  obtain ⟨status, -, expiresAt, -, rfl⟩ := h
  rfl

theorem handleEvent_of_untracked (hdecodes : recordOf cfg event = .ok record)
    (htracked : tracked event = false) (progress : Progress) :
    trackedRecord cfg event = none ∧ handleEvent cfg event progress = .ok progress := by
  unfold tracked at htracked
  split at htracked
  · next eventType hsymbol =>
    have hnot : eventType ∉ eventTypes := by simpa using htracked
    have hrecord : recordOf cfg event = .ok none := by simp [recordOf, hsymbol, hnot]
    refine ⟨by simp [trackedRecord, hrecord], ?_⟩
    simp [handleEvent, hsymbol, hnot]
  · next err hsymbol => simp [recordOf, hsymbol] at hdecodes

theorem handleEvent_of_tracked (hdecodes : recordOf cfg event = .ok record)
    (htracked : tracked event = true) (htoken : event.pagingToken = some token)
    (progress : Progress) (hseen : token ∉ progress.seen) :
    ∃ r, trackedRecord cfg event = some r ∧ r.eventId = token ∧
      handleEvent cfg event progress = .ok ⟨progress.collection.insertIfAbsent r,
        progress.seen ++ [token], progress.newIds ++ [token], some token⟩ := by
  unfold tracked at htracked
  split at htracked
  · next eventType hsymbol =>
    have hmem : eventType ∈ eventTypes := by simpa using htracked
    have hid : ∀ addressValue, complianceEventId event eventType addressValue = token := by
      simp [complianceEventId, htoken]
    have hrecord := hdecodes
    simp only [recordOf, hsymbol, bind_eq_ok, Except.ok.injEq, exists_eq_left', hmem,
      not_true_eq_false, if_false, pure_eq_ok] at hrecord
    obtain ⟨addressValue, haddress, r, hr, rfl⟩ := hrecord
    refine ⟨r, by simp [trackedRecord, hdecodes], ?_, ?_⟩
    · rw [eventId_of_auditRecord hr, hid]
    · simp [handleEvent, hsymbol, hmem, haddress, hid, hseen, hr, htoken]
  · cases htracked

/-- A record is that of a tracked event, under the event's token. -/
theorem trackedRecord_spec (hdecodes : recordOf cfg event = .ok record)
    (htoken : event.pagingToken = some token) :
    (tracked event = false ∧ trackedRecord cfg event = none) ∨
      ∃ r, tracked event = true ∧ trackedRecord cfg event = some r ∧ r.eventId = token := by
  cases htracked : tracked event with
  | false =>
    exact Or.inl ⟨rfl, (handleEvent_of_untracked hdecodes htracked ⟨.empty, [], [], none⟩).1⟩
  | true =>
    obtain ⟨r, hr, hid, -⟩ := handleEvent_of_tracked hdecodes htracked htoken
      ⟨.empty, [], [], none⟩ (by simp)
    exact Or.inr ⟨r, rfl, hr, hid⟩

end Event

/-! ## A page -/

section Page

variable {cfg} {page : List RpcEvent} {progress : Progress}

/-- **What a batch does with a page** of events that are not recorded yet. -/
theorem handleEvents_of_page (progress : Progress)
    (hdecodes : ∀ e ∈ page, ∃ record, recordOf cfg e = .ok record)
    (htokens : ∀ e ∈ page, ∃ token, e.pagingToken = some token ∧ token ∉ progress.seen ∧
      token ∉ progress.collection.docs.map (·.eventId))
    (hdistinct : (page.map (·.pagingToken)).Nodup) :
    ∃ progress', handleEvents cfg page progress = (progress', none) ∧
      progress'.collection.docs =
        progress.collection.docs ++ page.filterMap (trackedRecord cfg) ∧
      progress'.newIds = progress.newIds ++ (page.filterMap (trackedRecord cfg)).map (·.eventId) ∧
      progress'.lastToken =
        ((page.filter tracked).getLast?.bind (·.pagingToken)).or progress.lastToken := by
  induction page generalizing progress with
  | nil => exact ⟨progress, rfl, by simp⟩
  | cons e page ih =>
    obtain ⟨⟨record, hrecord⟩, hdecodes⟩ := List.forall_mem_cons.mp hdecodes
    obtain ⟨⟨token, htoken, hseen, hfresh⟩, htokens⟩ := List.forall_mem_cons.mp htokens
    obtain ⟨hnot, hdistinct⟩ := List.nodup_cons.mp hdistinct
    cases htracked : tracked e with
    | false =>
      obtain ⟨hnone, hhandle⟩ := handleEvent_of_untracked hrecord htracked progress
      obtain ⟨progress', he, hdocs, hids, hlast⟩ := ih _ hdecodes htokens hdistinct
      refine ⟨progress', by rw [handleEvents, hhandle]; exact he, ?_, ?_, ?_⟩
      · rw [hdocs, List.filterMap_cons_none hnone]
      · rw [hids, List.filterMap_cons_none hnone]
      · rw [hlast, List.filter_cons_of_neg (by simp [htracked])]
    | true =>
      obtain ⟨r, hr, hid, hhandle⟩ := handleEvent_of_tracked hrecord htracked htoken progress hseen
      have hfind : progress.collection.find r.eventId = none :=
        Collection.find_eq_none_iff.mpr (hid ▸ hfresh)
      have hdocs' := Collection.docs_insertIfAbsent hfind
      -- the events that follow have other tokens
      have hothers : ∀ e' ∈ page, ∃ token', e'.pagingToken = some token' ∧
          token' ∉ progress.seen ++ [token] ∧
          token' ∉ (progress.collection.insertIfAbsent r).docs.map (·.eventId) := by
        intro e' he'
        obtain ⟨token', htoken', hseen', hfresh'⟩ := htokens e' he'
        have hne : token' ≠ token := by
          rintro rfl
          exact hnot (List.mem_map.mpr ⟨e', he', htoken'.trans htoken.symm⟩)
        refine ⟨token', htoken', by simp [hseen', hne], ?_⟩
        rw [hdocs', List.map_append, List.map_singleton, hid]
        simpa [hne] using hfresh'
      obtain ⟨progress', he, hdocs, hids, hlast⟩ := @ih ⟨progress.collection.insertIfAbsent r,
        progress.seen ++ [token], progress.newIds ++ [token], some token⟩ hdecodes hothers hdistinct
      refine ⟨progress', by rw [handleEvents, hhandle]; exact he, ?_, ?_, ?_⟩
      · rw [hdocs, List.filterMap_cons_some hr, hdocs', List.append_assoc, List.singleton_append]
      · rw [hids, List.filterMap_cons_some hr, List.map_cons, hid, List.append_assoc,
          List.singleton_append]
      · rw [hlast, List.filter_cons_of_pos (by simpa using htracked), List.getLast?_cons]
        cases hl : (page.filter tracked).getLast? with
        | none => simp [htoken]
        | some e' =>
          have he' := (List.mem_filter.mp (List.mem_of_getLast? hl)).1
          obtain ⟨token', htoken', -⟩ := htokens e' he'
          simp [htoken']

end Page

/-! ## Where the indexer is -/

open Pages

/-- The indexer has recorded the tracked events among those that are consumed, and will be served
the rest. -/
structure At (cfg : Config) (history : List RpcEvent) (db : Db) (consumed rest : List RpcEvent) :
    Prop where
  docs : db.complianceAudit.docs = consumed.filterMap (trackedRecord cfg)
  remaining : requested history (request cfg db.cursor).startLedger
    (request cfg db.cursor).cursor = rest
  sub : (consumed ++ rest).Sublist history
  suffix : rest <:+ history
  seen : ∀ id ∈ (db.cursor.map (·.processedEventIds)).getD [],
    id ∈ db.complianceAudit.docs.map (·.eventId)

/-- The token that the cursor holds. -/
def Db.token (db : Db) : Option String := db.cursor.bind (·.pagingToken)

section At

variable {cfg} {history : List RpcEvent} {latest : ℕ → ℕ} {clients : ℕ → SorobanClient} {db : Db}
  {consumed rest : List RpcEvent} {n : ℕ}

theorem at_empty : At cfg history .empty [] history :=
  ⟨rfl, rfl, List.Sublist.refl _, List.suffix_refl _, by simp [Db.empty]⟩

/-- The ids of the records are tokens of the events. -/
theorem mem_eventIds (hwf : WellFormed cfg history) {events : List RpcEvent}
    (hsub : events ⊆ history) {id : String}
    (hid : id ∈ (events.filterMap (trackedRecord cfg)).map (·.eventId)) :
    ∃ e ∈ events, e.pagingToken = some id := by
  obtain ⟨r, hr, rfl⟩ := List.mem_map.mp hid
  obtain ⟨e, he, hrecord⟩ := List.mem_filterMap.mp hr
  obtain ⟨token, htoken, -⟩ := hwf.tokens e (hsub he)
  obtain ⟨record, hdecodes⟩ := hwf.decodes e (hsub he)
  rcases trackedRecord_spec hdecodes htoken with ⟨-, hnone⟩ | ⟨r', -, hr', heq⟩
  · rw [hnone] at hrecord
    cases hrecord
  · obtain rfl := Option.some.inj (hr'.symm.trans hrecord)
    exact ⟨e, he, heq ▸ htoken⟩

/-- **One batch** from where the indexer is. -/
theorem At.batch (hwf : WellFormed cfg history) (hserves : Serves history latest clients)
    (hat : At cfg history db consumed rest) (n : ℕ) :
    ∃ ids, (∀ id ∈ ids, id ∈
        ((consumed ++ rest.take eventLimit).filterMap (trackedRecord cfg)).map (·.eventId)) ∧
      (processComplianceIndexerBatch cfg (clients n) db).1.complianceAudit.docs =
        (consumed ++ rest.take eventLimit).filterMap (trackedRecord cfg) ∧
      (processComplianceIndexerBatch cfg (clients n) db).1.cursor = some ⟨
        (((rest.take eventLimit).filter tracked).getLast?.bind (·.pagingToken)).or db.token,
        latest n, ids⟩ := by
  obtain ⟨response, hclient, hevents, hlatest⟩ := hserves.getEvents n (request cfg db.cursor)
  rw [hat.remaining] at hevents
  have hpage : response.events = rest.take eventLimit := hevents
  have hsub : consumed ++ rest.take eventLimit ⊆ history := by
    intro e he
    refine hat.sub.subset (List.mem_append.mpr ?_)
    exact (List.mem_append.mp he).imp_right List.mem_of_mem_take
  have hpagesub : rest.take eventLimit ⊆ history :=
    fun e he => hsub (List.mem_append_right _ he)
  -- the events of the page are not recorded yet
  have hfresh : ∀ e ∈ rest.take eventLimit, ∃ token, e.pagingToken = some token ∧
      token ∉ (db.cursor.map (·.processedEventIds)).getD [] ∧
      token ∉ db.complianceAudit.docs.map (·.eventId) := by
    intro e he
    obtain ⟨token, htoken, -⟩ := hwf.tokens e (hpagesub he)
    have hnot : token ∉ db.complianceAudit.docs.map (·.eventId) := by
      intro hmem
      rw [hat.docs] at hmem
      obtain ⟨e', he', htoken'⟩ := mem_eventIds hwf
        (fun x hx => hsub (List.mem_append_left _ hx)) hmem
      have hdistinct := hwf.distinct.sublist (hat.sub.map (·.pagingToken))
      rw [List.map_append] at hdistinct
      obtain ⟨-, -, hdisjoint⟩ := List.nodup_append.mp hdistinct
      exact hdisjoint _ (List.mem_map_of_mem he') _
        (List.mem_map_of_mem (List.mem_of_mem_take he)) (htoken'.trans htoken.symm)
    exact ⟨token, htoken, fun hmem => hnot (hat.seen token hmem), hnot⟩
  have hdistinct : ((rest.take eventLimit).map (·.pagingToken)).Nodup :=
    hwf.distinct.sublist (((List.take_sublist _ _).trans hat.suffix.sublist).map _)
  obtain ⟨progress, he, hdocs, hids, hlast⟩ := handleEvents_of_page
    ⟨db.complianceAudit, (db.cursor.map (·.processedEventIds)).getD [], [],
      db.cursor.bind (·.pagingToken)⟩ (fun e he => hwf.decodes e (hpagesub he)) hfresh hdistinct
  have hbatch : (processComplianceIndexerBatch cfg (clients n) db).1 =
      ⟨progress.collection, some ⟨progress.lastToken, latest n,
        pushEventIds ((db.cursor.map (·.processedEventIds)).getD []) progress.newIds⟩⟩ := by
    unfold processComplianceIndexerBatch
    rw [hclient]
    dsimp only
    rw [hpage, he]
    dsimp only
    rw [hlatest, Option.getD_some]
  rw [hbatch]
  refine ⟨_, fun id hid => ?_, ?_, by rw [hlast]; rfl⟩
  · rw [List.filterMap_append, List.map_append]
    rcases TreasuryIndexer.mem_pushEventIds hid with hold | hnew
    · exact List.mem_append_left _ (hat.docs ▸ hat.seen id hold)
    · rw [hids] at hnew
      exact List.mem_append_right _ (by simpa using hnew)
  · rw [hdocs, List.filterMap_append, ← hat.docs]

/-- A page with a tracked event is consumed up to the last one. -/
theorem At.consume (hwf : WellFormed cfg history) (hserves : Serves history latest clients)
    (hat : At cfg history db consumed rest) (n : ℕ)
    (hpage : ∃ e ∈ rest.take eventLimit, tracked e = true) :
    ∃ consumed', consumed' ++ resume tracked eventLimit rest = consumed ++ rest ∧
      At cfg history (processComplianceIndexerBatch cfg (clients n) db).1 consumed'
        (resume tracked eventLimit rest) ∧
      ∃ token, (processComplianceIndexerBatch cfg (clients n) db).1.token = some token ∧
        token ≠ "" := by
  obtain ⟨pre, e, gap, htake, he, hgap, hrest⟩ := resume_split hpage
  obtain ⟨ids, hids, hdocs, hcursor⟩ := hat.batch hwf hserves n
  obtain ⟨skipped, hskipped⟩ := hat.suffix
  have hhistory : history = (skipped ++ pre) ++ e :: resume tracked eventLimit rest := by
    rw [← hskipped, List.append_assoc, ← hrest]
  obtain ⟨token, htoken, hne⟩ := hwf.tokens e (hhistory ▸ by simp)
  have hlast : ((rest.take eventLimit).filter tracked).getLast? = some e := by
    have hgap' : gap.filter tracked = [] := List.filter_eq_nil_iff.mpr (by simpa using hgap)
    rw [htake, List.filter_append, List.filter_cons_of_pos he, hgap', List.getLast?_append]
    rfl
  rw [hlast, Option.bind_some, htoken, Option.some_or] at hcursor
  -- the rest of the page has no records
  have hnone : gap.filterMap (trackedRecord cfg) = [] := by
    apply List.filterMap_eq_nil_iff.mpr
    intro b hb
    have hmem : b ∈ rest.take eventLimit := by simp [htake, hb]
    obtain ⟨record, hdecodes⟩ := hwf.decodes b (hat.suffix.subset (List.mem_of_mem_take hmem))
    exact (handleEvent_of_untracked hdecodes (hgap b hb) ⟨.empty, [], [], none⟩).1
  have hrecords : (consumed ++ rest.take eventLimit).filterMap (trackedRecord cfg) =
      (consumed ++ (pre ++ [e])).filterMap (trackedRecord cfg) := by
    rw [htake, List.append_cons]
    simp only [List.filterMap_append, hnone, List.append_nil]
  have hsplit : consumed ++ (pre ++ [e]) ++ resume tracked eventLimit rest = consumed ++ rest := by
    conv_rhs => rw [hrest]
    simp
  refine ⟨consumed ++ (pre ++ [e]), hsplit, ⟨hdocs.trans hrecords, ?_, ?_, ?_, ?_⟩, token, ?_, hne⟩
  · have hreq : (request cfg (processComplianceIndexerBatch cfg (clients n) db).1.cursor).cursor =
        some token := by
      simp [request, hcursor, Option.filter, hne]
    rw [hreq]
    exact requested_token hwf.distinct hhistory htoken _
  · rw [hsplit]
    exact hat.sub
  · exact ⟨_, by rw [hhistory, List.append_cons]⟩
  · intro id hid
    rw [hcursor] at hid
    rw [hdocs]
    exact hids id (by simpa using hid)
  · simp [Db.token, hcursor]

/-- A page without one changes the cursor's ledger and nothing else. -/
theorem At.stay (hwf : WellFormed cfg history) (hserves : Serves history latest clients)
    (hat : At cfg history db consumed rest) (n : ℕ)
    (hpage : ∀ e ∈ rest.take eventLimit, tracked e = false) :
    (processComplianceIndexerBatch cfg (clients n) db).1.complianceAudit.docs =
        db.complianceAudit.docs ∧
      ∃ ids, (∀ id ∈ ids, id ∈ db.complianceAudit.docs.map (·.eventId)) ∧
        (processComplianceIndexerBatch cfg (clients n) db).1.cursor =
          some ⟨db.token, latest n, ids⟩ := by
  obtain ⟨ids, hids, hdocs, hcursor⟩ := hat.batch hwf hserves n
  have hnone : (rest.take eventLimit).filterMap (trackedRecord cfg) = [] := by
    apply List.filterMap_eq_nil_iff.mpr
    intro b hb
    obtain ⟨record, hdecodes⟩ := hwf.decodes b (hat.suffix.subset (List.mem_of_mem_take hb))
    exact (handleEvent_of_untracked hdecodes (hpage b hb) ⟨.empty, [], [], none⟩).1
  rw [List.filterMap_append, hnone, List.append_nil, ← hat.docs] at hdocs hids
  rw [List.filter_eq_nil_iff.mpr (by simpa using hpage)] at hcursor
  exact ⟨hdocs, ids, hids, by simpa using hcursor⟩

/-- With a token the indexer goes on after the last tracked event of the page. -/
theorem At.next (hwf : WellFormed cfg history) (hserves : Serves history latest clients)
    (hat : At cfg history db consumed rest) (n : ℕ)
    (hon : (∃ token, db.token = some token ∧ token ≠ "") ∨
      ∃ e ∈ rest.take eventLimit, tracked e = true) :
    ∃ consumed', consumed' ++ resume tracked eventLimit rest = consumed ++ rest ∧
      At cfg history (processComplianceIndexerBatch cfg (clients n) db).1 consumed'
        (resume tracked eventLimit rest) ∧
      ∃ token, (processComplianceIndexerBatch cfg (clients n) db).1.token = some token ∧
        token ≠ "" := by
  by_cases hpage : ∃ e ∈ rest.take eventLimit, tracked e = true
  · exact hat.consume hwf hserves n hpage
  · obtain ⟨token, htoken, hne⟩ := hon.resolve_right hpage
    have hnone : ∀ e ∈ rest.take eventLimit, tracked e = false := fun e he => by
      simpa using fun ht => hpage ⟨e, he, ht⟩
    obtain ⟨hdocs, ids, hids, hcursor⟩ := hat.stay hwf hserves n hnone
    rw [resume_eq_self hnone]
    refine ⟨consumed, rfl, ⟨hdocs.trans hat.docs, ?_, hat.sub, hat.suffix, ?_⟩, token, ?_, hne⟩
    · rw [← hat.remaining]
      -- the same token is asked for, and the ledger does not count
      have hreq : (request cfg db.cursor).cursor = some token := by
        have htoken' : db.cursor.bind (·.pagingToken) = some token := htoken
        simp [request, htoken', Option.filter, hne]
      have hreq' : (request cfg (some ⟨db.token, latest n, ids⟩)).cursor = some token := by
        simp [request, htoken, Option.filter, hne]
      rw [hcursor]
      simp only [requested, hreq, hreq']
    · intro id hid
      rw [hcursor] at hid
      rw [hdocs]
      exact hids id (by simpa using hid)
    · rw [Db.token, hcursor]
      exact htoken

/-- Without a token the indexer goes on from the latest ledger. -/
theorem At.restart (hwf : WellFormed cfg history) (hserves : Serves history latest clients)
    (hat : At cfg history db [] rest) (n : ℕ) (htoken : db.token = none)
    (hpage : ∀ e ∈ rest.take eventLimit, tracked e = false) :
    At cfg history (processComplianceIndexerBatch cfg (clients n) db).1 []
        (history.filter (latest n ≤ ·.ledger)) ∧
      (processComplianceIndexerBatch cfg (clients n) db).1.token = none := by
  obtain ⟨hdocs, ids, hids, hcursor⟩ := hat.stay hwf hserves n hpage
  refine ⟨⟨hdocs.trans hat.docs, ?_, ?_, ?_, ?_⟩, by rw [Db.token, hcursor]; exact htoken⟩
  · rw [hcursor, htoken]
    rcases Nat.eq_zero_or_pos (latest n) with hzero | hpos
    · simp [requested, request, Option.filter, hzero]
    · simp [requested, request, Option.filter, hpos]
  · exact List.filter_sublist
  · exact suffix_filter hwf.ordered (latest n)
  · intro id hid
    rw [hcursor] at hid
    rw [hdocs]
    exact hids id (by simpa using hid)

/-- **From where it gets on**, the indexer reads the rest by pages. -/
theorem At.iterate (hwf : WellFormed cfg history) (hserves : Serves history latest clients)
    {m : ℕ} (hat : At cfg history (afterBatches cfg clients m) consumed rest)
    (hpage : ∃ e ∈ rest.take eventLimit, tracked e = true) (k : ℕ) :
    ∃ consumed', consumed' ++ (resume tracked eventLimit)^[k] rest = consumed ++ rest ∧
      At cfg history (afterBatches cfg clients (m + k)) consumed'
        ((resume tracked eventLimit)^[k] rest) ∧
      (k ≠ 0 → ∃ token, (afterBatches cfg clients (m + k)).token = some token ∧ token ≠ "") := by
  -- the first page has a tracked event; from then on there is a token
  induction k with
  | zero => exact ⟨consumed, rfl, hat, fun h => absurd rfl h⟩
  | succ k ih =>
    obtain ⟨consumed', hsplit, hat', htoken⟩ := ih
    rw [Function.iterate_succ_apply', ← Nat.add_assoc]
    obtain ⟨consumed'', hsplit', hat'', htoken'⟩ := hat'.next hwf hserves (m + k) (by
      rcases Nat.eq_zero_or_pos k with rfl | hk
      · exact Or.inr hpage
      · exact Or.inl (htoken (by omega)))
    exact ⟨consumed'', hsplit'.trans hsplit, hat'', fun _ => htoken'⟩

end At

/-! ## Completeness -/

/-- The event's record is in the audit collection. -/
def Recorded (cfg : Config) (event : RpcEvent) (db : Db) : Prop :=
  ∃ record, recordOf cfg event = .ok (some record) ∧ record ∈ db.complianceAudit.docs

/-- After some number of batches every tracked event of the history is recorded. -/
def Complete (cfg : Config) (history : List RpcEvent) (clients : ℕ → SorobanClient) : Prop :=
  ∃ n, ∀ e ∈ history, tracked e = true → Recorded cfg e (afterBatches cfg clients n)

/-- No event is recorded twice. -/
def NeverTwice (cfg : Config) (history : List RpcEvent) (clients : ℕ → SorobanClient) : Prop :=
  ∀ n, ∀ e ∈ history, ((afterBatches cfg clients n).complianceAudit.docs.countP
    fun record => some record.eventId = e.pagingToken) ≤ 1

/-- No tracked event comes after a page of untracked ones. Where the history begins with such a page,
this is so from the ledger on that is the latest when the indexer starts, and no tracked event comes
before that ledger. -/
def NoUntrackedPage (history : List RpcEvent) (latestLedger : ℕ) : Prop :=
  Gapless tracked eventLimit history ∨
    (∀ e ∈ history.take eventLimit, tracked e = false) ∧
      (∀ e ∈ history, tracked e = true → latestLedger ≤ e.ledger) ∧
      Gapless tracked eventLimit (history.filter (latestLedger ≤ ·.ledger))

section Complete

variable {cfg} {history : List RpcEvent} {latest : ℕ → ℕ} {clients : ℕ → SorobanClient} {db : Db}
  {consumed rest : List RpcEvent}

theorem neverTwice (hwf : WellFormed cfg history) : NeverTwice cfg history clients := by
  intro n e he
  obtain ⟨token, htoken, -⟩ := hwf.tokens e he
  simp only [htoken, Option.some.injEq]
  -- the event's id is its token, and ids are unique in the collection
  cases hfind : (afterBatches cfg clients n).complianceAudit.find token with
  | none =>
    rw [List.countP_eq_zero.mpr fun r hr => ?_]
    · exact Nat.zero_le 1
    · have hnot := Collection.find_eq_none_iff.mp hfind
      simpa using fun heq : r.eventId = token => hnot (heq ▸ List.mem_map_of_mem hr)
  | some r => exact (Collection.count_eq_one hfind).le

/-- What is recorded is what has been consumed. -/
theorem At.recorded_iff (hwf : WellFormed cfg history) (hat : At cfg history db consumed rest)
    {e : RpcEvent} (he : e ∈ history) (htracked : tracked e = true) :
    Recorded cfg e db ↔ e ∈ consumed := by
  obtain ⟨token, htoken, -⟩ := hwf.tokens e he
  obtain ⟨record, hdecodes⟩ := hwf.decodes e he
  obtain ⟨r, -, hr, hid⟩ := (trackedRecord_spec hdecodes htoken).resolve_left
    (fun h => by simp [h.1] at htracked)
  obtain rfl : record = some r := by simpa [trackedRecord, hdecodes] using hr
  constructor
  · rintro ⟨r', hr', hmem⟩
    obtain rfl : r = r' := by simpa using hdecodes.symm.trans hr'
    rw [hat.docs] at hmem
    have hsub : consumed ⊆ history := fun x hx => hat.sub.subset (List.mem_append_left _ hx)
    obtain ⟨e', he', htoken'⟩ := mem_eventIds hwf hsub (List.mem_map_of_mem hmem)
    -- the event with the record's token is this one
    obtain rfl := List.inj_on_of_nodup_map hwf.distinct (hsub he') he (by rw [htoken', htoken, hid])
    exact he'
  · intro hmem
    refine ⟨r, hdecodes, ?_⟩
    rw [hat.docs]
    exact List.mem_filterMap.mpr ⟨e, hmem, hr⟩

/-- Everything is recorded where all tracked events are among those read, and none is left. -/
theorem At.allRecorded_iff (hwf : WellFormed cfg history) (hat : At cfg history db consumed rest)
    {events : List RpcEvent} (hsplit : consumed ++ rest = events) :
    (∀ e ∈ history, tracked e = true → Recorded cfg e db) ↔
      (∀ e ∈ history, tracked e = true → e ∈ events) ∧ ∀ e ∈ rest, tracked e = false := by
  subst hsplit
  constructor
  · intro h
    refine ⟨fun e he htracked => List.mem_append_left _
      ((hat.recorded_iff hwf he htracked).mp (h e he htracked)), fun e he => ?_⟩
    by_contra htracked
    have hmem : e ∈ history := hat.suffix.subset he
    have hconsumed := (hat.recorded_iff hwf hmem (by simpa using htracked)).mp
      (h e hmem (by simpa using htracked))
    -- no event is both consumed and left
    have hdistinct := (hwf.distinct.of_map _).sublist hat.sub
    exact (List.nodup_append.mp hdistinct).2.2 e hconsumed e he rfl
  · rintro ⟨hall, hnone⟩ e he htracked
    apply (hat.recorded_iff hwf he htracked).mpr
    rcases List.mem_append.mp (hall e he htracked) with hmem | hmem
    · exact hmem
    · simp [hnone e hmem] at htracked

/-- The first page has a tracked event. -/
theorem complete_of_page (hwf : WellFormed cfg history) (hserves : Serves history latest clients)
    (hpage : ∃ e ∈ history.take eventLimit, tracked e = true) :
    Complete cfg history clients ↔ Gapless tracked eventLimit history := by
  rw [gapless_iff_exhausted]
  apply exists_congr
  intro n
  obtain ⟨consumed, hsplit, hat, -⟩ := At.iterate (m := 0) hwf hserves at_empty hpage n
  rw [Nat.zero_add] at hat
  rw [hat.allRecorded_iff hwf hsplit]
  exact ⟨fun h => h.2, fun h => ⟨fun e he _ => he, h⟩⟩

theorem mem_from_ledger {ledger : ℕ} :
    (∀ e ∈ history, tracked e = true → e ∈ history.filter (ledger ≤ ·.ledger)) ↔
      ∀ e ∈ history, tracked e = true → ledger ≤ e.ledger := by
  refine forall₂_congr fun e he => imp_congr_right fun _ => ?_
  simp [List.mem_filter, he]

/-- The first page has none, and that from the latest ledger has one. -/
theorem complete_of_restart (hwf : WellFormed cfg history)
    (hserves : Serves history latest clients)
    (hnone : ∀ e ∈ history.take eventLimit, tracked e = false)
    (hpage : ∃ e ∈ (history.filter (latest 0 ≤ ·.ledger)).take eventLimit, tracked e = true) :
    Complete cfg history clients ↔ (∀ e ∈ history, tracked e = true → latest 0 ≤ e.ledger) ∧
      Gapless tracked eventLimit (history.filter (latest 0 ≤ ·.ledger)) := by
  obtain ⟨hat₁, -⟩ := At.restart hwf hserves at_empty 0 rfl hnone
  have hafter : ∀ k, (∀ e ∈ history, tracked e = true →
      Recorded cfg e (afterBatches cfg clients (1 + k))) ↔
      (∀ e ∈ history, tracked e = true → latest 0 ≤ e.ledger) ∧
        ∀ e ∈ (resume tracked eventLimit)^[k] (history.filter (latest 0 ≤ ·.ledger)),
          tracked e = false := by
    intro k
    -- the first batch has read nothing, and the pages begin at the latest ledger
    obtain ⟨consumed, hsplit, hat, -⟩ := At.iterate (m := 1) hwf hserves hat₁ hpage k
    rw [hat.allRecorded_iff hwf hsplit, List.nil_append, mem_from_ledger]
  rw [gapless_iff_exhausted]
  constructor
  · rintro ⟨n, hn⟩
    cases n with
    | zero =>
      -- nothing is recorded before the first batch
      obtain ⟨e, he, htracked⟩ := hpage
      have hmem : e ∈ history := (List.mem_filter.mp (List.mem_of_mem_take he)).1
      obtain ⟨record, -, hdocs⟩ := hn e hmem htracked
      cases hdocs
    | succ k =>
      rw [Nat.add_comm] at hn
      obtain ⟨hall, hk⟩ := (hafter k).mp hn
      exact ⟨hall, k, hk⟩
  · rintro ⟨hall, k, hk⟩
    exact ⟨1 + k, (hafter k).mpr ⟨hall, hk⟩⟩

/-- Neither page has one: nothing is ever recorded. -/
theorem complete_of_none (hwf : WellFormed cfg history) (hserves : Serves history latest clients)
    (hnone : ∀ e ∈ history.take eventLimit, tracked e = false)
    (hpage : ∀ e ∈ (history.filter (latest 0 ≤ ·.ledger)).take eventLimit, tracked e = false) :
    Complete cfg history clients ↔ ∀ e ∈ history, tracked e = false := by
  have hpages : ∀ n, ∀ e ∈ (history.filter (latest n ≤ ·.ledger)).take eventLimit,
      tracked e = false := by
    intro n
    rcases (hserves.monotone (Nat.zero_le n)).eq_or_lt with heq | hlt
    · rwa [← heq]
    · -- the history has no events as late as that
      have hempty : history.filter (latest n ≤ ·.ledger) = [] :=
        List.filter_eq_nil_iff.mpr fun e he => by
          simpa using (hserves.reached 0 e he).trans_lt hlt
      simp [hempty]
  have hat : ∀ n, At cfg history (afterBatches cfg clients (n + 1)) []
      (history.filter (latest n ≤ ·.ledger)) ∧ (afterBatches cfg clients (n + 1)).token = none := by
    intro n
    induction n with
    | zero => exact At.restart hwf hserves at_empty 0 rfl hnone
    | succ n ih => exact At.restart hwf hserves ih.1 (n + 1) ih.2 (hpages n)
  constructor
  · rintro ⟨n, hn⟩ e he
    by_contra htracked
    obtain ⟨record, -, hdocs⟩ := hn e he (by simpa using htracked)
    cases n with
    | zero => cases hdocs
    | succ n =>
      rw [(hat n).1.docs] at hdocs
      cases hdocs
  · exact fun h => ⟨0, fun e he htracked => by simp [h e he] at htracked⟩

end Complete

/-- **Completeness.** Every tracked event is recorded after some number of batches, and none twice,
exactly where no tracked event comes after a page of untracked ones. -/
theorem complete_iff {cfg : Config} {history : List RpcEvent} {latest : ℕ → ℕ}
    {clients : ℕ → SorobanClient} (hwf : WellFormed cfg history)
    (hserves : Serves history latest clients) :
    (Complete cfg history clients ∧ NeverTwice cfg history clients) ↔
      NoUntrackedPage history (latest 0) := by
  rw [and_iff_left (neverTwice hwf), NoUntrackedPage]
  by_cases hpage : ∃ e ∈ history.take eventLimit, tracked e = true
  · rw [complete_of_page hwf hserves hpage, or_iff_left]
    rintro ⟨hnone, -⟩
    obtain ⟨e, he, htracked⟩ := hpage
    simp [hnone e he] at htracked
  · have hnone : ∀ e ∈ history.take eventLimit, tracked e = false := fun e he => by
      simpa using fun htracked => hpage ⟨e, he, htracked⟩
    rw [gapless_iff_none hnone]
    by_cases hlater : ∃ e ∈ (history.filter (latest 0 ≤ ·.ledger)).take eventLimit,
        tracked e = true
    · rw [complete_of_restart hwf hserves hnone hlater, and_iff_right hnone, or_iff_right]
      -- the page from the latest ledger has a tracked event of the history
      obtain ⟨e, he, htracked⟩ := hlater
      intro hall
      simp [hall e (List.mem_filter.mp (List.mem_of_mem_take he)).1] at htracked
    · have hnone' : ∀ e ∈ (history.filter (latest 0 ≤ ·.ledger)).take eventLimit,
          tracked e = false := fun e he => by
        simpa using fun htracked => hlater ⟨e, he, htracked⟩
      rw [complete_of_none hwf hserves hnone hnone', gapless_iff_none hnone', or_iff_left_of_imp]
      rintro ⟨-, hall, hfilter⟩ e he
      by_contra htracked
      have hmem := hall e he (by simpa using htracked)
      exact htracked (hfilter e (List.mem_filter.mpr ⟨he, by simpa using hmem⟩))

/-! ## A page of pauses -/

namespace Example

/-- The token of the event in a ledger. -/
def token (ledger : ℕ) : String := "0000000" ++ toString (4294967296 * ledger) ++ "-0000000001"

theorem token_injective {ledger ledger' : ℕ} (h : token ledger = token ledger') :
    ledger = ledger' := by
  have hrepr : Nat.repr (4294967296 * ledger) = Nat.repr (4294967296 * ledger') := by
    simpa [token] using h
  have hdigits := congrArg (fun s => Nat.ofDigitChars 10 s.toList 0) hrepr
  simp only [Nat.toList_repr, Nat.ofDigitChars_ten_toDigits] at hdigits
  omega

/-- The contract is paused and unpaused over and over. -/
def pauseEvent (i : ℕ) : RpcEvent where
  id := none
  pagingToken := some (token (100 + i))
  ledger := 100 + i
  ledgerClosedAt := none
  txHash := none
  topic := [.symbol (if i % 2 = 0 then "contract_paused" else "contract_unpaused")]
  value := .void

/-- Then an address is cleared. -/
def clearEvent : RpcEvent where
  id := none
  pagingToken := some (token 200)
  ledger := 200
  ledgerClosedAt := none
  txHash := none
  topic := [.symbol "address_cleared"]
  value := .vec [.address (.account 1), .symbol "Cleared", .void]

def pauses (count : ℕ) : List RpcEvent := (List.range count).map pauseEvent ++ [clearEvent]

def config : Config where
  contractId := "CDLZFC3SYJYDZT7K67VZ75HPJVIEUVNIXF47ZG2FB2RMQQVU2HHGCYSC"
  eventStatus _ _ := .ok (some .cleared)

/-- A server that returns the pages of a history. -/
def server (history : List RpcEvent) (latestLedger : ℕ) : SorobanClient := fun req =>
  some ⟨(requested history req.startLedger req.cursor).take req.limit, none, some latestLedger⟩

theorem pauseEvent_spec (i : ℕ) :
    tracked (pauseEvent i) = false ∧ recordOf config (pauseEvent i) = .ok none := by
  unfold pauseEvent
  split <;> exact ⟨rfl, rfl⟩

theorem wellFormed_pauses {count : ℕ} (hcount : count ≤ 100) :
    WellFormed config (pauses count) := by
  refine ⟨⟨fun e he => ?_, ?_, ?_⟩, fun e he => ?_⟩
  · rcases List.mem_append.mp he with he | he
    · obtain ⟨i, -, rfl⟩ := List.mem_map.mp he
      exact ⟨_, rfl, by simp [token]⟩
    · obtain rfl := List.mem_singleton.mp he
      exact ⟨_, rfl, by decide⟩
  · rw [pauses, List.map_append, List.map_map]
    refine List.nodup_append.mpr ⟨List.nodup_range.map fun i j h => ?_, List.nodup_singleton _,
      fun t ht t' ht' heq => ?_⟩
    · have hledger := token_injective (Option.some.inj h)
      omega
    · obtain ⟨i, hi, rfl⟩ := List.mem_map.mp ht
      obtain rfl := List.mem_singleton.mp ht'
      have hledger := token_injective (Option.some.inj heq)
      have hlt := List.mem_range.mp hi
      omega
  · refine List.pairwise_append.mpr ⟨?_, List.pairwise_singleton _ _, fun e he e' he' => ?_⟩
    · exact List.pairwise_map.mpr (List.pairwise_lt_range.imp fun h => by simp [pauseEvent]; omega)
    · obtain ⟨i, hi, rfl⟩ := List.mem_map.mp he
      obtain rfl := List.mem_singleton.mp he'
      have hlt := List.mem_range.mp hi
      simp only [pauseEvent, clearEvent]
      omega
  · rcases List.mem_append.mp he with he | he
    · obtain ⟨i, -, rfl⟩ := List.mem_map.mp he
      exact ⟨none, (pauseEvent_spec i).2⟩
    · obtain rfl := List.mem_singleton.mp he
      exact ⟨_, rfl⟩

theorem serves_server {history : List RpcEvent} {latestLedger : ℕ}
    (h : ∀ e ∈ history, e.ledger ≤ latestLedger) :
    Serves history (fun _ => latestLedger) fun _ => server history latestLedger :=
  ⟨fun _ _ => ⟨_, rfl, rfl, rfl⟩, fun _ => h, monotone_const⟩

end Example

open Example in
/-- A clearing after 100 pauses is never recorded. -/
theorem not_complete_pauses : ¬ ∀ (cfg : Config) (history : List RpcEvent) (latest : ℕ → ℕ)
    (clients : ℕ → SorobanClient), WellFormed cfg history → Serves history latest clients →
    Complete cfg history clients ∧ NeverTwice cfg history clients := by
  intro h
  have hwf : WellFormed config (pauses 100) := wellFormed_pauses le_rfl
  have hserves : Serves (pauses 100) (fun _ => 201) fun _ => server (pauses 100) 201 := by
    apply serves_server
    intro e he
    rcases List.mem_append.mp he with he | he
    · obtain ⟨i, hi, rfl⟩ := List.mem_map.mp he
      have hlt := List.mem_range.mp hi
      simp only [pauseEvent]
      omega
    · obtain rfl := List.mem_singleton.mp he
      decide
  have hnone : ∀ e ∈ (pauses 100).take eventLimit, tracked e = false := by
    intro e he
    rw [pauses, List.take_append_of_le_length (by simp [eventLimit])] at he
    obtain ⟨i, -, rfl⟩ := List.mem_map.mp (List.mem_of_mem_take he)
    exact (pauseEvent_spec i).1
  have hcomplete := (h config (pauses 100) _ _ hwf hserves).1
  rw [complete_of_none hwf hserves hnone (by decide +kernel)] at hcomplete
  exact absurd (hcomplete clearEvent (by simp [pauses])) (by decide)

open Example in
/-- A clearing after one pause is recorded. -/
theorem complete_iff_onePause :
    (Complete config (pauses 1) (fun _ => server (pauses 1) 201) ∧
      NeverTwice config (pauses 1) (fun _ => server (pauses 1) 201)) ↔
      NoUntrackedPage (pauses 1) 201 :=
  complete_iff (wellFormed_pauses (by decide)) (serves_server (by decide) :
      Serves (pauses 1) (fun _ => 201) fun _ => server (pauses 1) 201)

end Offchain.ComplianceIndexer
