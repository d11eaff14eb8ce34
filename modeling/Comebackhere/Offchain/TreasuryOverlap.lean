import Comebackhere.Library.Exclusive
import Comebackhere.Offchain.EventPages
import Comebackhere.Offchain.TreasuryIndexer
import Mathlib.Data.Fintype.Basic
import Mathlib.Data.List.Flatten

/-!
# Batches that overlap

The timer starts a batch every few seconds, whether the one before it has ended or not. Two batches
that are under way load the same cursor and fetch the same events, and each handles them: the
handlers and the webhooks happen twice, and the slower one may set the cursor back. While a batch
loads the cursor only when no other is under way, every event is handled once.

## Main definitions

* `Effect`, `effects`: the handler of an event, and its webhook
* `Watched`: the world, with what has been done for the events so far
* `ExactlyOnce`: every event is handled once, and the cursor does not move backwards
* `Orderly`: no batch begins while another is under way, and no page ends one with an error

## Main results

* `along_handleEvents`: a batch by itself handles the events of a page once
* `exactlyOnce_of_orderly`: orderly batches handle every event once
-/

namespace Offchain.TreasuryIndexer

open Soroban Process Machine

/-! ## What is done for an event -/

inductive Effect
  | proposed (settlementId : ℕ) (token : String) (amount : UInt64) (merchant txHash : String)
  | approved (settlementId : ℕ) (signer : String) (newWeight : UInt64)
  | executed (settlementId : ℕ) (txHash : String)
  | webhook (eventId : String)

/-- The handler of a tracked event. -/
def Change.effect (settlementId : ℕ) (txHash : String) : Change → Effect
  | .proposed token amount merchant => .proposed settlementId token amount merchant txHash
  | .approved signer newWeight => .approved settlementId signer newWeight
  | .executed => .executed settlementId txHash

/-- The handler of a tracked event, and its webhook where there is a URL. -/
def Change.effects (cfg : Config) (header : Header) (txHash : String) (change : Change) :
    List Effect :=
  change.effect header.settlementId txHash ::
    if cfg.notifies then [.webhook header.eventId] else []

/-- What should be done for an event. -/
def effects (cfg : Config) (event : RpcEvent) : List Effect :=
  match readHeader event with
  | .ok (some header) =>
    match readChange event.value header.eventType with
    | .ok change => change.effects cfg header (event.txHash.getD "")
    | .error _ => []
  | _ => []

/-- What an action does for an event. -/
def Action.effects {β : Type} : Action β → List Effect
  | .processSettlementProposed settlementId token amount merchant txHash =>
    [.proposed settlementId token amount merchant txHash]
  | .processSettlementApproved settlementId signer newWeight =>
    [.approved settlementId signer newWeight]
  | .processSettlementExecuted settlementId txHash => [.executed settlementId txHash]
  | .dispatchWebhook eventId _ => [.webhook eventId]
  | .loadCursor | .getLatestLedger | .getEvents _ _ | .findSettlement _ | .saveCursor _ _ _ => []

/-- An event that does not end the batch with an error. -/
def readable (event : RpcEvent) : Bool :=
  match readHeader event with
  | .ok (some header) => (readChange event.value header.eventType).isOk
  | .ok none => true
  | .error _ => false

/-! ## The world that is watched -/

/-- The world, the effects in the order in which they happened, the cursors in the order in which
they were saved, and the ledger from which the first page was fetched. -/
structure Watched where
  world : World
  performed : List Effect
  saved : List Cursor
  start : Option ℕ

def Watched.empty : Watched := ⟨.empty, [], [], none⟩

/-- What the server answers, from the history of the contract's events, when it knows the ledgers up
to the latest; `none` where the request fails. -/
def answerTo {β : Type} (history : List RpcEvent) (latestLedger : Option ℕ) : Action β → Answer
  | .getLatestLedger => { sequence := latestLedger.getD 0 }
  | .getEvents startLedger cursor =>
    { response := latestLedger.map fun latest =>
        { events := ((requested history (some startLedger) cursor).filter
            (·.ledger ≤ latest)).take eventLimit
          cursor := none
          latestLedger := some latest } }
  | _ => {}

/-- What an action does to the watched world. -/
def watch {β : Type} (history : List RpcEvent) (o : Action β) (latestLedger : Option ℕ)
    (w : Watched) : β × Watched :=
  let r := execute o (answerTo history latestLedger o) w.world
  (r.1, {
    world := r.2
    performed := w.performed ++ o.effects
    saved := match o with
      | .saveCursor _ _ _ => w.saved ++ r.2.db.cursor.toList
      | _ => w.saved
    start := match o with
      | .getEvents startLedger _ => w.start.or (latestLedger.map fun _ => startLedger)
      | _ => w.start })

/-- The batches of a timer. The latest ledger grows, and is not before the one asked for; the pages
are as `mayFetch` allows. No batch crashes. -/
def timer (history : List RpcEvent) (mayFetch : List RpcEvent → Prop) :
    System Action (Option ℕ) Watched where
  exec o latestLedger w := watch history o latestLedger w
  legal o latestLedger w :=
    match o with
    | .getLatestLedger => latestLedger.isSome = true
    | .getEvents startLedger _ => (∀ latest ∈ latestLedger, startLedger ≤ latest ∧
        ∀ cursor ∈ w.world.db.cursor, cursor.lastLedger ≤ latest) ∧
        mayFetch (answerTo history latestLedger o).events
    | _ => True
  crashes _ := False

/-- A tick of the timer. -/
def tick (cfg : Config) : Batch Unit := do
  let _ ← processIndexerBatch cfg

/-- The action with which a batch begins. -/
def begins {β : Type} : Action β → Prop
  | .loadCursor => True
  | _ => False

/-! ## Exactly once -/

/-- The place of a token in the history. -/
def place (history : List RpcEvent) (token : String) : ℕ :=
  (history.map (·.pagingToken)).idxOf (some token)

/-- A cursor is not behind an earlier one. -/
structure Cursor.Forward (history : List RpcEvent) (earlier later : Cursor) : Prop where
  ledger : earlier.lastLedger ≤ later.lastLedger
  token : ∀ token ∈ earlier.pagingToken, ∃ token' ∈ later.pagingToken,
    place history token ≤ place history token'

/-- The events from a ledger on that a cursor has passed. -/
def passed (history : List RpcEvent) (start : ℕ) (cursor : Cursor) : List RpcEvent :=
  let events := history.filter (start ≤ ·.ledger)
  match cursor.pagingToken with
  | some token => events.take (place events token + 1)
  | none => events.filter (·.ledger < cursor.lastLedger)

/-- No event's handler or webhook happens twice; both have happened for every event that the saved
cursor has passed since the indexer started; and the saved cursor does not move backwards. -/
structure ExactlyOnce (cfg : Config) (history : List RpcEvent) (w : Watched) : Prop where
  atMostOnce : w.performed.Subperm (history.flatMap (effects cfg))
  atLeastOnce : ∀ start ∈ w.start, ∀ cursor ∈ w.world.db.cursor,
    ((passed history start cursor).flatMap (effects cfg)).Subperm w.performed
  forward : w.saved.Pairwise (Cursor.Forward history)

/-- A page that is fetched has no event that ends the batch with an error. -/
def Readable {P : Type} (history : List RpcEvent) (s : State P Action Watched) :
    Input P (Option ℕ) → Prop
  | .tick p latestLedger => s.Next p fun o =>
      ∀ event ∈ (answerTo history latestLedger o).events, readable event = true
  | .crash _ => True

/-- A batch begins only when no other is under way, and fetches only what it can read. -/
def Orderly {P : Type} (history : List RpcEvent) (s : State P Action Watched)
    (i : Input P (Option ℕ)) : Prop :=
  System.Alone begins s i ∧ Readable history s i

section Decidable

variable (history : List RpcEvent) (β : Type)

instance (o : Action β) (latestLedger : Option ℕ) (w : Watched) :
    Decidable ((timer history fun _ => True).legal o latestLedger w) :=
  match o with
  | .getLatestLedger => inferInstanceAs (Decidable (latestLedger.isSome = true))
  | .getEvents startLedger _ => inferInstanceAs (Decidable ((∀ latest ∈ latestLedger,
      startLedger ≤ latest ∧ ∀ cursor ∈ w.world.db.cursor, cursor.lastLedger ≤ latest) ∧ True))
  | .loadCursor | .processSettlementProposed .. | .processSettlementApproved ..
  | .processSettlementExecuted .. | .findSettlement _ | .dispatchWebhook .. | .saveCursor .. =>
    isTrue trivial

instance (o : Action β) : Decidable ((timer history fun _ => True).crashes o) :=
  inferInstanceAs (Decidable False)

instance (o : Action β) : Decidable (begins o) :=
  match o with
  | .loadCursor => isTrue trivial
  | .getLatestLedger | .getEvents _ _ | .processSettlementProposed ..
  | .processSettlementApproved .. | .processSettlementExecuted .. | .findSettlement _
  | .dispatchWebhook .. | .saveCursor .. => isFalse id

variable {P : Type} (s : State P Action Watched)

instance : ∀ i : Input P (Option ℕ), Decidable (Readable history s i)
  | .tick p latestLedger => inferInstanceAs (Decidable (s.Next p fun o =>
      ∀ event ∈ (answerTo history latestLedger o).events, readable event = true))
  | .crash _ => isTrue trivial

instance [Fintype P] [DecidableEq P] (i : Input P (Option ℕ)) : Decidable (Orderly history s i) :=
  inferInstanceAs (Decidable (System.Alone begins s i ∧ Readable history s i))

end Decidable

/-! ## The loop by itself -/

/-- The cursor is as it was, the saved ones, and the start. -/
structure Watched.Kept (w w' : Watched) : Prop where
  cursor : w'.world.db.cursor = w.world.db.cursor
  saved : w'.saved = w.saved
  start : w'.start = w.start

theorem Watched.Kept.refl (w : Watched) : w.Kept w := ⟨rfl, rfl, rfl⟩

theorem Watched.Kept.trans {w w' w'' : Watched} (h : w.Kept w') (h' : w'.Kept w'') : w.Kept w'' :=
  ⟨h'.cursor.trans h.cursor, h'.saved.trans h.saved, h'.start.trans h.start⟩

/-- The actions with which an event is handled. -/
def Action.handles {β : Type} : Action β → Bool
  | .processSettlementProposed .. | .processSettlementApproved .. | .processSettlementExecuted ..
  | .findSettlement _ | .dispatchWebhook .. => true
  | .loadCursor | .getLatestLedger | .getEvents _ _ | .saveCursor _ _ _ => false

section Loop

variable {cfg : Config} {history : List RpcEvent} {mayFetch : List RpcEvent → Prop}
  {Inv : Watched → Prop} {w : Watched}

theorem kept_watch (history : List RpcEvent) {β : Type} {o : Action β} (ho : o.handles = true)
    (latestLedger : Option ℕ) :
    w.Kept (watch history o latestLedger w).2 ∧
      (watch history o latestLedger w).2.performed = w.performed ++ o.effects := by
  refine ⟨?_, rfl⟩
  cases o <;> first | exact ⟨rfl, rfl, rfl⟩ | cases ho

/-- The rule of an action with which an event is handled. -/
theorem along_handles {α β : Type} {o : Action β} {k : β → Batch α} {Q : α → Watched → Prop}
    (ho : o.handles = true)
    (h : ∀ w', w.Kept w' → w'.performed = w.performed ++ o.effects → Inv w' ∧
      ∀ b, (k b).Along (timer history mayFetch) begins Inv Q w') :
    (Prog.act o k).Along (timer history mayFetch) begins Inv Q w := by
  -- none of these begins a batch
  refine ⟨fun hbegins => ?_, fun latestLedger _ => ?_⟩
  · cases o <;> first | exact hbegins | cases ho
  · obtain ⟨hkept, hperformed⟩ := kept_watch (w := w) history ho latestLedger
    obtain ⟨hinv, hk⟩ := h _ hkept hperformed
    exact ⟨hinv, hk _⟩

theorem along_notify {eventId : String} {webhook : Webhook} {Q : Unit → Watched → Prop}
    (hyes : cfg.notifies = true → ∀ w', w.Kept w' →
      w'.performed = w.performed ++ [.webhook eventId] → Inv w' ∧ Q () w')
    (hno : cfg.notifies = false → Q () w) :
    (notify cfg eventId webhook).Along (timer history mayFetch) begins Inv Q w := by
  unfold notify
  cases hnotifies : cfg.notifies with
  | false => exact hno hnotifies
  | true =>
    apply along_handles rfl
    intro w' hkept hperformed
    obtain ⟨hinv, hQ⟩ := hyes hnotifies w' hkept hperformed
    exact ⟨hinv, fun _ => hQ⟩

/-- The handler of an event and its webhook, one after the other. -/
theorem along_applyChange {header : Header} {txHash : String} {change : Change}
    (hinv : ∀ w' l, w.Kept w' → l <+: change.effects cfg header txHash →
      w'.performed = w.performed ++ l → Inv w') :
    (applyChange cfg header txHash change).Along (timer history mayFetch) begins Inv
      (fun _ w' => w.Kept w' ∧
        w'.performed = w.performed ++ change.effects cfg header txHash) w := by
  -- after the handler: what is left is the webhook, perhaps with a look at the record
  have hfirst : ∀ w', w.Kept w' →
      w'.performed = w.performed ++ [change.effect header.settlementId txHash] → Inv w' :=
    fun w' hkept hperformed => hinv w' _ hkept ⟨_, rfl⟩ hperformed
  have hlast : cfg.notifies = true → ∀ w' w'', w.Kept w' →
      w'.performed = w.performed ++ [change.effect header.settlementId txHash] → w'.Kept w'' →
      w''.performed = w'.performed ++ [.webhook header.eventId] → Inv w'' ∧ w.Kept w'' ∧
        w''.performed = w.performed ++ change.effects cfg header txHash := by
    intro hnotifies w' w'' hkept hperformed hkept' hperformed'
    have hall : w''.performed = w.performed ++ change.effects cfg header txHash := by
      rw [hperformed', hperformed, List.append_assoc]
      simp [Change.effects, hnotifies]
    exact ⟨hinv w'' _ (hkept.trans hkept') List.prefix_rfl hall, hkept.trans hkept', hall⟩
  have hnone : cfg.notifies = false → ∀ w', w.Kept w' →
      w'.performed = w.performed ++ [change.effect header.settlementId txHash] → w.Kept w' ∧
        w'.performed = w.performed ++ change.effects cfg header txHash := by
    intro hnotifies w' hkept hperformed
    exact ⟨hkept, by simpa [Change.effects, hnotifies] using hperformed⟩
  cases change with
  | proposed token amount merchant =>
    refine along_handles rfl fun w' hkept hperformed => ⟨hfirst w' hkept hperformed, fun _ => ?_⟩
    exact along_notify (fun h w'' hkept' => hlast h w' w'' hkept hperformed hkept')
      fun h => hnone h w' hkept hperformed
  -- the record is looked up between the handler and the webhook
  | approved signer newWeight =>
    refine along_handles rfl fun w' hkept hperformed => ⟨hfirst w' hkept hperformed, fun _ => ?_⟩
    apply along_handles rfl
    intro w'' hkept' hperformed'
    have hkept'' := hkept.trans hkept'
    have hperformed'' := hperformed'.trans ((List.append_nil _).trans hperformed)
    refine ⟨hfirst w'' hkept'' hperformed'', fun _ => ?_⟩
    exact along_notify (fun h w₃ hkept₃ => hlast h w'' w₃ hkept'' hperformed'' hkept₃)
      fun h => hnone h w'' hkept'' hperformed''
  | executed =>
    refine along_handles rfl fun w' hkept hperformed => ⟨hfirst w' hkept hperformed, fun _ => ?_⟩
    apply along_handles rfl
    intro w'' hkept' hperformed'
    have hkept'' := hkept.trans hkept'
    have hperformed'' := hperformed'.trans ((List.append_nil _).trans hperformed)
    refine ⟨hfirst w'' hkept'' hperformed'', fun _ => ?_⟩
    split
    · next hnotifies =>
      apply along_handles rfl
      intro w₃ hkept₃ hperformed₃
      have hkept₃ := hkept''.trans hkept₃
      have hperformed₃ := hperformed₃.trans ((List.append_nil _).trans hperformed'')
      refine ⟨hfirst w₃ hkept₃ hperformed₃, fun _ => ?_⟩
      apply along_handles rfl
      intro w₄ hkept₄ hperformed₄
      obtain ⟨hinv₄, hQ⟩ := hlast hnotifies w₃ w₄ hkept₃ hperformed₃ hkept₄ hperformed₄
      exact ⟨hinv₄, fun _ => hQ⟩
    · next hnotifies => exact hnone (by simpa using hnotifies) w'' hkept'' hperformed''

/-- The id of a tracked event is its token. -/
theorem eventId_of_readHeader {event : RpcEvent} {header : Header} {token : String}
    (hheader : readHeader event = .ok (some header)) (htoken : event.pagingToken = some token)
    (hne : token ≠ "") : header.eventId = token := by
  unfold readHeader at hheader
  obtain ⟨name, -, hheader⟩ := Checked.bind_eq_ok.mp hheader
  split at hheader
  · simp at hheader
  · obtain ⟨settlementId, -, hheader⟩ := Checked.bind_eq_ok.mp hheader
    obtain rfl : header = _ := by simpa using hheader
    rw [htoken]
    exact buildEventId_of_token hne _ _ _

/-- **An event by itself** is handled once, unless it is known. -/
theorem along_handleEvent {processedIds : List String} {event : RpcEvent} {token : String}
    (hreadable : readable event = true) (htoken : event.pagingToken = some token) (hne : token ≠ "")
    (hnew : token ∉ processedIds)
    (hinv : ∀ w' l, w.Kept w' → l <+: effects cfg event → w'.performed = w.performed ++ l → Inv w') :
    (handleEvent cfg processedIds event).Along (timer history mayFetch) begins Inv
      (fun r w' => w.Kept w' ∧ w'.performed = w.performed ++ effects cfg event ∧
        ∃ applied, r = .ok applied ∧ ∀ id ∈ applied, id = token) w := by
  unfold readable at hreadable
  unfold handleEvent
  split at hreadable
  · next header hheader =>
    have hid := eventId_of_readHeader hheader htoken hne
    rw [hheader]
    dsimp only
    rw [hid, if_neg hnew]
    cases hchange : readChange event.value header.eventType with
    | error err => simp [hchange, Except.isOk, Except.toBool] at hreadable
    | ok change =>
      have heffects : effects cfg event = change.effects cfg header (event.txHash.getD "") := by
        simp [effects, hheader, hchange]
      dsimp only
      rw [heffects] at hinv ⊢
      refine Prog.along_bind (Prog.along_mono (along_applyChange hinv) ?_)
      rintro - w' ⟨hkept, hperformed⟩
      exact ⟨hkept, hperformed, some token, by rw [← hid], by simp⟩
  · next hheader =>
    rw [hheader]
    exact ⟨.refl w, by simp [effects, hheader], none, rfl, by simp⟩
  · cases hreadable

/-- **A page by itself** is handled once, event by event. -/
theorem along_handleEvents {processedIds : List String} {events : List RpcEvent}
    (hreadable : ∀ e ∈ events, readable e = true)
    (htokens : ∀ e ∈ events, ∃ token, e.pagingToken = some token ∧ token ≠ "" ∧
      token ∉ processedIds)
    (hdistinct : (events.map (·.pagingToken)).Nodup)
    (hinv : ∀ w' l, w.Kept w' → l <+: events.flatMap (effects cfg) →
      w'.performed = w.performed ++ l → Inv w') :
    (handleEvents cfg processedIds events).Along (timer history mayFetch) begins Inv
      (fun r w' => w.Kept w' ∧ w'.performed = w.performed ++ events.flatMap (effects cfg) ∧
        ∃ ids, r = .ok ids ∧ ∀ id ∈ ids, ∃ e ∈ events, e.pagingToken = some id) w := by
  induction events generalizing processedIds w with
  | nil => exact ⟨.refl w, by simp, [], rfl, by simp⟩
  | cons e events ih =>
    obtain ⟨hread, hreadable⟩ := List.forall_mem_cons.mp hreadable
    obtain ⟨⟨token, htoken, hne, hnew⟩, htokens⟩ := List.forall_mem_cons.mp htokens
    obtain ⟨hnot, hdistinct⟩ := List.nodup_cons.mp hdistinct
    rw [List.flatMap_cons] at hinv ⊢
    rw [handleEvents]
    refine Prog.along_bind (Prog.along_mono (along_handleEvent hread htoken hne hnew ?_) ?_)
    · exact fun w' l hkept hl => hinv w' l hkept (hl.trans (List.prefix_append _ _))
    -- the first event is handled, and its id is known to the rest of the loop
    rintro r w' ⟨hkept, hperformed, applied, rfl, happlied⟩
    dsimp only
    -- the rest of the page has other tokens
    have htokens' : ∀ e' ∈ events, ∃ token', e'.pagingToken = some token' ∧ token' ≠ "" ∧
        token' ∉ processedIds ++ applied.toList := by
      intro e' he'
      obtain ⟨token', htoken', hne', hnew'⟩ := htokens e' he'
      refine ⟨token', htoken', hne', fun hmem => ?_⟩
      rcases List.mem_append.mp hmem with hmem | hmem
      · exact hnew' hmem
      · obtain rfl := happlied token' (by simpa using hmem)
        exact hnot (List.mem_map.mpr ⟨e', he', htoken'.trans htoken.symm⟩)
    refine Prog.along_bind (Prog.along_mono (ih hreadable htokens' hdistinct ?_) ?_)
    · intro w'' l hkept' hl hperformed'
      refine hinv w'' (effects cfg e ++ l) (hkept.trans hkept')
        ((List.prefix_append_right_inj _).mpr hl) ?_
      rw [hperformed', hperformed, List.append_assoc]
    rintro r w'' ⟨hkept', hperformed', ids, rfl, hids⟩
    refine ⟨hkept.trans hkept', by rw [hperformed', hperformed, List.append_assoc], _, rfl, ?_⟩
    intro id hid
    rcases List.mem_append.mp hid with hid | hid
    · obtain rfl := happlied id (by simpa using hid)
      exact ⟨e, List.mem_cons_self .., htoken⟩
    · obtain ⟨e', he', hid⟩ := hids id hid
      exact ⟨e', List.mem_cons_of_mem _ he', hid⟩

end Loop

/-! ## Between batches -/

/-- The cursor has passed the events that are consumed since the start, and only them. -/
structure Synced (history : List RpcEvent) (w : Watched) (start : ℕ) (cursor : Option Cursor)
    (consumed rest : List RpcEvent) : Prop where
  started : ∀ a ∈ w.start, a = start
  stored : w.world.db.cursor = cursor
  fresh : cursor = none → consumed = []
  split : history.filter (start ≤ ·.ledger) = consumed ++ rest
  token : (consumed = [] ∧
      ∀ c ∈ cursor, c.pagingToken = none ∧ ∀ e ∈ rest, c.lastLedger ≤ e.ledger) ∨
    ∃ pre e token, consumed = pre ++ [e] ∧ e.pagingToken = some token ∧
      ∀ c ∈ cursor, c.pagingToken = some token
  ledger : ∀ c ∈ cursor, start ≤ c.lastLedger ∧ 0 < c.lastLedger
  seen : ∀ c ∈ cursor, ∀ id ∈ c.processedEventIds, ∃ e ∈ consumed, e.pagingToken = some id
  saved : w.saved.Pairwise (Cursor.Forward history)
  current : ∀ c ∈ w.saved, ∃ c' ∈ cursor, c.Forward history c'

/-- No batch is under way: what has been done is what had to be done for the events consumed. -/
def Idle (cfg : Config) (history : List RpcEvent) (w : Watched) : Prop :=
  ∃ start cursor consumed rest, Synced history w start cursor consumed rest ∧
    w.performed = consumed.flatMap (effects cfg) ∧ (cursor = none ↔ w.start = none)

section Between

variable {cfg : Config} {history : List RpcEvent} {w w' : Watched} {start : ℕ}
  {cursor : Option Cursor} {consumed page rest : List RpcEvent}

theorem Synced.keep (hs : Synced history w start cursor consumed rest) (hkept : w.Kept w') :
    Synced history w' start cursor consumed rest := by
  refine { hs with
    started := ?_, stored := hkept.cursor.trans hs.stored, saved := ?_, current := ?_ }
  · rw [hkept.start]
    exact hs.started
  · rw [hkept.saved]
    exact hs.saved
  · rw [hkept.saved]
    exact hs.current

/-- The place of the last of some events. -/
theorem place_append (hdistinct : (history.map (·.pagingToken)).Nodup) (pre post : List RpcEvent)
    {e : RpcEvent} {token : String} (he : history = pre ++ e :: post)
    (htoken : e.pagingToken = some token) : place history token = pre.length := by
  rw [he, List.map_append, List.map_cons] at hdistinct
  obtain ⟨-, -, hdisjoint⟩ := List.nodup_append.mp hdistinct
  have hnot : some token ∉ pre.map (·.pagingToken) := fun hmem =>
    hdisjoint _ hmem _ (List.mem_cons_self ..) htoken.symm
  rw [place, he, List.map_append, List.map_cons, List.idxOf_append_of_notMem hnot, htoken,
    List.idxOf_cons_self, List.length_map, Nat.add_zero]

theorem Synced.distinct (hseq : Sequenced history)
    (hs : Synced history w start cursor consumed rest) :
    ((consumed ++ rest).map (·.pagingToken)).Nodup := by
  rw [← hs.split]
  exact hseq.distinct.sublist (List.filter_sublist.map _)

/-- The events that the saved cursor has passed are those consumed. -/
theorem Synced.passed_eq (hseq : Sequenced history)
    (hs : Synced history w start cursor consumed rest) {c : Cursor} (hc : c ∈ cursor) :
    passed history start c = consumed := by
  unfold passed
  dsimp only
  rcases hs.token with ⟨rfl, hnone⟩ | ⟨pre, e, token, rfl, htoken, hsome⟩
  · obtain ⟨hnone, hrest⟩ := hnone c hc
    rw [hnone]
    dsimp only
    rw [hs.split, List.nil_append]
    exact List.filter_eq_nil_iff.mpr fun e he => by simpa using hrest e he
  · rw [hsome c hc]
    dsimp only
    have hsplit : history.filter (start ≤ ·.ledger) = pre ++ e :: rest := by
      rw [hs.split, ← List.append_cons]
    have hdistinct := hs.distinct hseq
    rw [← hs.split] at hdistinct
    rw [place_append hdistinct _ _ hsplit htoken, hs.split]
    exact List.take_left' (by simp)

/-- **Exactly once**, while the effects of the events that follow are under way. -/
theorem Synced.exactlyOnce (hseq : Sequenced history)
    (hs : Synced history w start cursor consumed rest)
    (hdone : consumed.flatMap (effects cfg) <+: w.performed)
    (hscope : w.performed <+: (consumed ++ rest).flatMap (effects cfg)) :
    ExactlyOnce cfg history w := by
  refine ⟨?_, fun a ha c hc => ?_, hs.saved⟩
  · rw [← hs.split] at hscope
    exact (hscope.sublist.trans (List.filter_sublist.flatMap _)).subperm
  · obtain rfl := hs.started a ha
    rw [hs.passed_eq hseq (hs.stored ▸ hc)]
    exact hdone.sublist.subperm

/-- Within a page that follows: a part of its effects has happened. -/
theorem Synced.exactlyOnce_page (hseq : Sequenced history)
    (hs : Synced history w start cursor consumed (page ++ rest)) {l : List Effect}
    (hl : l <+: page.flatMap (effects cfg))
    (hperformed : w.performed = consumed.flatMap (effects cfg) ++ l) :
    ExactlyOnce cfg history w := by
  refine hs.exactlyOnce hseq ?_ ?_
  · rw [hperformed]
    exact List.prefix_append _ _
  · rw [hperformed, List.flatMap_append, List.flatMap_append]
    exact (List.prefix_append_right_inj _).mpr (hl.trans (List.prefix_append _ _))

theorem Idle.exactlyOnce (hseq : Sequenced history) (hidle : Idle cfg history w) :
    ExactlyOnce cfg history w := by
  obtain ⟨start, cursor, consumed, rest, hs, hperformed, -⟩ := hidle
  have hs : Synced history w start cursor consumed ([] ++ rest) := hs
  apply hs.exactlyOnce_page hseq List.nil_prefix
  rw [hperformed, List.append_nil]

theorem Idle.pos (hidle : Idle cfg history w) {c : Cursor} (hc : c ∈ w.world.db.cursor) :
    0 < c.lastLedger := by
  obtain ⟨start, cursor, consumed, rest, hs, -⟩ := hidle
  exact (hs.ledger c (hs.stored ▸ hc)).2

theorem idle_empty : Idle cfg history .empty := by
  refine ⟨0, none, [], history.filter (0 ≤ ·.ledger), ?_, rfl, by simp [Watched.empty]⟩
  refine ⟨?_, rfl, fun _ => rfl, rfl, Or.inl ⟨rfl, ?_⟩, ?_, ?_, List.Pairwise.nil, ?_⟩ <;>
    simp [Watched.empty]

/-- What is fetched begins the rest. -/
theorem prefix_page (hseq : Sequenced history) (hs : Synced history w start cursor consumed rest)
    (latest : ℕ) : (rest.filter (·.ledger ≤ latest)).take eventLimit <+: rest := by
  have hordered : rest.Pairwise (·.ledger ≤ ·.ledger) := by
    have hsub : rest.Sublist history := by
      refine List.Sublist.trans ?_ (List.filter_sublist (p := fun e => decide (start ≤ e.ledger)))
      rw [hs.split]
      exact List.sublist_append_right ..
    exact hseq.ordered.sublist hsub
  exact (List.take_prefix _ _).trans (prefix_filter hordered latest)

/-- What is requested with the cursor is what follows the events consumed. -/
theorem Synced.requested_rest (hseq : Sequenced history) {c : Cursor} {startLedger : ℕ}
    (hs : Synced history w start (some c) consumed rest) (hc : startLedger = c.lastLedger) :
    requested history (some startLedger) (c.pagingToken.filter (· ≠ "")) = rest := by
  rcases hs.token with ⟨rfl, hnone⟩ | ⟨pre, e, token, rfl, htoken, hsome⟩
  · -- no event is consumed: they are all after the ledger of the cursor
    obtain ⟨hnone, hrest⟩ := hnone c rfl
    have hsplit := hs.split
    rw [List.nil_append] at hsplit
    rw [hnone, Option.filter_none, ← hsplit, hc]
    apply List.filter_congr
    intro e he
    rw [decide_eq_decide]
    refine ⟨(hs.ledger c rfl).1.trans, fun hle => hrest e ?_⟩
    rw [← hsplit]
    exact List.mem_filter.mpr ⟨he, by simpa using hle⟩
  · obtain ⟨before, hbefore⟩ := suffix_filter hseq.ordered start
    have hsplit : history = (before ++ pre) ++ e :: rest := by
      rw [← hbefore, hs.split]
      simp
    obtain ⟨token', htoken', hne⟩ := hseq.tokens e (by rw [hsplit]; simp)
    obtain rfl : token = token' := by simpa [htoken] using htoken'
    rw [hsome c rfl, Option.filter_some_pos (by simpa using hne)]
    exact requested_token hseq.distinct hsplit htoken _

/-- **A page** fetched between batches begins with the events that follow those consumed. -/
theorem Idle.fetch (hseq : Sequenced history) (hidle : Idle cfg history w) {startLedger : ℕ}
    (hcursor : ∀ c ∈ w.world.db.cursor, startLedger = c.lastLedger) :
    ∃ start consumed rest,
      requested history (some startLedger)
        ((w.world.db.cursor.bind (·.pagingToken)).filter (· ≠ "")) = rest ∧
      Synced history { w with start := w.start.or (some startLedger) } start w.world.db.cursor
        consumed rest ∧
      w.performed = consumed.flatMap (effects cfg) ∧
      w.start.or (some startLedger) = some start ∧ start ≤ startLedger := by
  obtain ⟨start, cursor, consumed, rest, hs, hperformed, hstart⟩ := hidle
  cases cursor with
  | none =>
    -- the first page: the start is chosen now
    have hnone := hstart.mp rfl
    obtain rfl := hs.fresh rfl
    have hsaved : w.saved = [] := by
      apply List.eq_nil_iff_forall_not_mem.mpr
      intro c hmem
      obtain ⟨c', hc', -⟩ := hs.current c hmem
      cases hc'
    have hdb : w.world.db.cursor = none := hs.stored
    refine ⟨startLedger, [], history.filter (startLedger ≤ ·.ledger), by simp [hdb, requested], ?_,
      hperformed, by simp [hnone], le_rfl⟩
    rw [hdb]
    refine ⟨?_, hdb, fun _ => rfl, rfl, Or.inl ⟨rfl, ?_⟩, ?_, ?_, hs.saved, ?_⟩ <;>
      simp [hnone, hsaved]
  | some c =>
    have hdb : w.world.db.cursor = some c := hs.stored
    obtain ⟨a, ha⟩ : ∃ a, w.start = some a := by
      rw [← Option.ne_none_iff_exists']
      exact fun hnone => nomatch hstart.mpr hnone
    obtain rfl := hs.started a ha
    refine ⟨a, consumed, rest, ?_, ?_, hperformed, by simp [ha], ?_⟩
    · rw [hdb, Option.bind_some]
      exact hs.requested_rest hseq (hcursor c hdb)
    · rw [hdb, ha]
      exact { hs with started := fun b hb => (Option.some.inj hb).symm }
    · rw [hcursor c hdb]
      exact (hs.ledger c rfl).1

theorem Cursor.Forward.refl (history : List RpcEvent) (c : Cursor) : c.Forward history c :=
  ⟨le_rfl, fun token htoken => ⟨token, htoken, le_rfl⟩⟩

theorem Cursor.Forward.trans {c c' c'' : Cursor} (h : c.Forward history c')
    (h' : c'.Forward history c'') : c.Forward history c'' := by
  refine ⟨h.ledger.trans h'.ledger, fun token htoken => ?_⟩
  obtain ⟨token', htoken', hle⟩ := h.token token htoken
  obtain ⟨token'', htoken'', hle'⟩ := h'.token token' htoken'
  exact ⟨token'', htoken'', hle.trans hle'⟩

/-- The token of the last event of a page is the one the cursor gets. -/
theorem lastPagingToken_append (cursor : Option Cursor) (pre : List RpcEvent) {e : RpcEvent}
    {token : String} (htoken : e.pagingToken = some token) :
    lastPagingToken cursor (pre ++ [e]) = some token := by
  simp [lastPagingToken, htoken]

/-- The token of the cursor that is saved after a page is the one of the last event consumed. -/
theorem Synced.token_page (hseq : Sequenced history)
    (hs : Synced history w start cursor consumed (page ++ rest)) {latest : ℕ}
    (hempty : page = [] → ∀ e ∈ rest, latest ≤ e.ledger) :
    (consumed ++ page = [] ∧ lastPagingToken cursor page = none ∧ ∀ e ∈ rest, latest ≤ e.ledger) ∨
      ∃ pre e token, consumed ++ page = pre ++ [e] ∧ e.pagingToken = some token ∧
        lastPagingToken cursor page = some token := by
  rcases List.eq_nil_or_concat' page with rfl | ⟨pre, e, rfl⟩
  · -- the token stays
    rw [List.append_nil]
    rcases hs.token with ⟨rfl, hnone⟩ | ⟨pre, e, token, rfl, htoken, hsome⟩
    · refine Or.inl ⟨rfl, ?_, hempty rfl⟩
      cases cursor with
      | none => rfl
      | some c => exact (hnone c rfl).1
    · refine Or.inr ⟨pre, e, token, rfl, htoken, ?_⟩
      cases cursor with
      | none => exact absurd (hs.fresh rfl) (by simp)
      | some c => exact hsome c rfl
  · have he : e ∈ history.filter (start ≤ ·.ledger) := by
      rw [hs.split]
      simp
    obtain ⟨token, htoken, -⟩ := hseq.tokens e (List.mem_of_mem_filter he)
    exact Or.inr ⟨consumed ++ pre, e, token, by simp, htoken,
      lastPagingToken_append cursor pre htoken⟩

/-- The cursor that is saved after a page is not behind the one before. -/
theorem Synced.forward_page (hseq : Sequenced history)
    (hs : Synced history w start cursor consumed (page ++ rest)) {latest : ℕ}
    (hempty : page = [] → ∀ e ∈ rest, latest ≤ e.ledger) {c : Cursor} (hc : c ∈ cursor)
    (hle : c.lastLedger ≤ latest) (ids : List String) :
    c.Forward history ⟨lastPagingToken cursor page, latest, ids⟩ := by
  refine ⟨hle, fun token ht => ?_⟩
  obtain ⟨before, hbefore⟩ := suffix_filter hseq.ordered start
  have hhistory : history = before ++ ((consumed ++ page) ++ rest) := by
    rw [← hbefore, hs.split, List.append_assoc]
  rcases hs.token with ⟨rfl, hnone⟩ | ⟨pre, e, token', rfl, htoken, hsome⟩
  · rw [(hnone c hc).1] at ht
    cases ht
  -- both tokens are of events in the history, the later one not before the other
  · obtain rfl : token' = token := by simpa [hsome c hc] using ht
    rcases hs.token_page hseq hempty with ⟨hnil, -⟩ | ⟨pre', e', token', hlast, htoken', hsome'⟩
    · simp at hnil
    · refine ⟨token', hsome', ?_⟩
      have hplace := place_append hseq.distinct (before ++ pre) (page ++ rest)
        (by rw [hhistory]; simp) htoken
      have hplace' := place_append hseq.distinct (before ++ pre') rest
        (by rw [hhistory, hlast]; simp) htoken'
      have hlength := congrArg List.length hlast
      simp only [List.length_append, List.length_cons, List.length_nil] at hplace hplace' hlength
      omega

/-- **The cursor** that is saved after a page has passed the page too. -/
theorem Synced.save (hseq : Sequenced history)
    (hs : Synced history w start cursor consumed (page ++ rest)) {latest : ℕ} {ids : List String}
    (hempty : page = [] → ∀ e ∈ rest, latest ≤ e.ledger) (hlatest : start ≤ latest ∧ 0 < latest)
    (hcursor : ∀ c ∈ cursor, c.lastLedger ≤ latest)
    (hids : ∀ id ∈ ids, ∃ e ∈ page, e.pagingToken = some id) (i : Option ℕ) :
    ∃ c, Synced history
      (watch history (.saveCursor (lastPagingToken cursor page) latest ids) i w).2 start (some c)
      (consumed ++ page) rest := by
  set c : Cursor :=
    ⟨lastPagingToken cursor page, latest, pushEventIds w.world.remembered ids⟩ with hc
  have hforward : ∀ c' ∈ cursor, c'.Forward history c := fun c' hc' =>
    hs.forward_page hseq hempty hc' (hcursor c' hc') _
  -- the token, the ledger, the ids, and the cursors saved so far
  refine ⟨c, hs.started, rfl, nofun, by rw [hs.split, List.append_assoc], ?_, ?_, ?_, ?_, ?_⟩
  · rcases hs.token_page hseq hempty with ⟨hnil, hnone, hle⟩ | ⟨pre, e, token, hlast, htoken, hsome⟩
    · exact Or.inl ⟨hnil, by simpa [hc] using ⟨hnone, hle⟩⟩
    · exact Or.inr ⟨pre, e, token, hlast, htoken, by simpa [hc] using hsome⟩
  · simpa [hc] using hlatest
  · intro c' hc' id hid
    obtain rfl := Option.some.inj hc'
    rcases mem_pushEventIds hid with hid | hid
    · rw [World.remembered, hs.stored] at hid
      cases cursor with
      | none => cases hid
      | some c' =>
        obtain ⟨e, he, hid⟩ := hs.seen c' rfl id hid
        exact ⟨e, List.mem_append_left _ he, hid⟩
    · obtain ⟨e, he, hid⟩ := hids id hid
      exact ⟨e, List.mem_append_right _ he, hid⟩
  · refine List.pairwise_append.mpr ⟨hs.saved, List.pairwise_singleton _ _, fun c' hc' d hd => ?_⟩
    obtain rfl := List.mem_singleton.mp hd
    obtain ⟨c'', hc'', hle⟩ := hs.current c' hc'
    exact hle.trans (hforward c'' hc'')
  · intro c' hc'
    refine ⟨c, rfl, ?_⟩
    rcases List.mem_append.mp hc' with hc' | hc'
    · obtain ⟨c'', hc'', hle⟩ := hs.current c' hc'
      exact hle.trans (hforward c'' hc'')
    · obtain rfl := List.mem_singleton.mp hc'
      exact .refl history c

end Between

/-! ## A batch by itself -/

section Tick

variable {cfg : Config} {history : List RpcEvent} {mayFetch : List RpcEvent → Prop}
  {Inv : Watched → Prop} {w : Watched}

/-- The rule of the ledger to start from: the one of the cursor, else one that is chosen. -/
theorem along_startLedger {lastLedger : ℕ} {Q : ℕ → Watched → Prop} (hinv : Inv w)
    (h : ∀ start, 0 < start → (0 < lastLedger → start = lastLedger) → Q start w) :
    (startLedger lastLedger).Along (timer history mayFetch) begins Inv Q w := by
  unfold startLedger
  split
  · next hpos => exact h lastLedger hpos fun _ => rfl
  · next hpos =>
    have hsame : ∀ i, (watch history (.getLatestLedger) i w).2 = w := by
      intro i
      simp [watch, execute, Action.effects]
    refine ⟨id, fun i _ => ?_⟩
    have hQ := h (max 1 (i.getD 0 - 100)) (by omega) fun hlast => absurd hlast hpos
    exact ⟨(hsame i).symm ▸ hinv, (hsame i).symm ▸ hQ⟩

/-- What a page does to the watched world: only the start may be new. -/
theorem watch_getEvents {startLedger : ℕ} {cursor : Option String} {latest : ℕ} :
    watch history (.getEvents startLedger cursor) (some latest) w =
      (some { events := ((requested history (some startLedger) cursor).filter
                (·.ledger ≤ latest)).take eventLimit
              cursor := none, latestLedger := some latest },
        { w with start := w.start.or (some startLedger) }) := by
  simp [watch, execute, answerTo, Action.effects]

theorem watch_getEvents_none {startLedger : ℕ} {cursor : Option String} :
    watch history (.getEvents startLedger cursor) none w = (none, w) := by
  simp [watch, execute, answerTo, Action.effects]

variable {start latest : ℕ} {cursor : Option Cursor} {consumed page rest : List RpcEvent}

/-- The tokens of a page that follows what is consumed are new. -/
theorem Synced.page_tokens (hseq : Sequenced history)
    (hs : Synced history w start cursor consumed (page ++ rest)) :
    (∀ e ∈ page, ∃ token, e.pagingToken = some token ∧ token ≠ "" ∧
      token ∉ (cursor.map (·.processedEventIds)).getD []) ∧
      (page.map (·.pagingToken)).Nodup := by
  have hdistinct := hs.distinct hseq
  rw [List.map_append, List.map_append] at hdistinct
  obtain ⟨-, hpage, hdisjoint⟩ := List.nodup_append.mp hdistinct
  refine ⟨fun e he => ?_, (List.nodup_append.mp hpage).1⟩
  have hmem : e ∈ history.filter (start ≤ ·.ledger) := by
    rw [hs.split]
    simp [he]
  obtain ⟨token, htoken, hne⟩ := hseq.tokens e (List.mem_of_mem_filter hmem)
  refine ⟨token, htoken, hne, fun hseen => ?_⟩
  cases cursor with
  | none => cases hseen
  | some c =>
    obtain ⟨e', he', hid⟩ := hs.seen c rfl token hseen
    exact hdisjoint _ (List.mem_map_of_mem he') _
      (List.mem_append_left _ (List.mem_map_of_mem he)) (hid.trans htoken.symm)

/-- **A page by itself**, up to the saved cursor. -/
theorem along_page (hseq : Sequenced history)
    (hs : Synced history w start cursor consumed (page ++ rest))
    (hperformed : w.performed = consumed.flatMap (effects cfg)) (hstart : w.start = some start)
    (hreadable : ∀ e ∈ page, readable e = true)
    (hempty : page = [] → ∀ e ∈ rest, latest ≤ e.ledger) (hlatest : start ≤ latest ∧ 0 < latest)
    (hcursor : ∀ c ∈ cursor, c.lastLedger ≤ latest) :
    (do
      match ← handleEvents cfg ((cursor.map (·.processedEventIds)).getD []) page with
      | .error _ => return none
      | .ok newEventIds =>
        Prog.perform (.saveCursor (lastPagingToken cursor page) latest newEventIds)
        return some newEventIds.length : Batch (Option ℕ)).Along (timer history mayFetch) begins
      (ExactlyOnce cfg history) (fun _ => Idle cfg history) w := by
  obtain ⟨htokens, hdistinct⟩ := hs.page_tokens hseq
  refine Prog.along_bind (Prog.along_mono (along_handleEvents hreadable htokens hdistinct ?_) ?_)
  · -- within the page: a part of its effects has happened
    intro w' l hkept hl hperformed'
    rw [hperformed] at hperformed'
    exact (hs.keep hkept).exactlyOnce_page hseq hl hperformed'
  · rintro r w' ⟨hkept, hperformed', ids, rfl, hids⟩
    dsimp only
    refine ⟨id, fun i _ => ?_⟩
    obtain ⟨c, hs'⟩ := (hs.keep hkept).save hseq hempty hlatest hcursor hids i
    have hidle : Idle cfg history
        (watch history (.saveCursor (lastPagingToken cursor page) latest ids) i w').2 := by
      refine ⟨start, some c, consumed ++ page, rest, hs', ?_, ?_⟩
      · rw [List.flatMap_append, ← hperformed, ← hperformed']
        exact List.append_nil _
      · have hsome : w'.start = some start := hkept.start.trans hstart
        simp [watch, hsome]
    exact ⟨hidle.exactlyOnce hseq, hidle⟩

/-- **A batch by itself** handles the events of its page once, and saves the cursor behind them. -/
theorem tick_sequential (hseq : Sequenced history) :
    (timer history fun page => ∀ e ∈ page, readable e = true).Sequential begins (Idle cfg history)
      (ExactlyOnce cfg history) (tick cfg) := by
  unfold tick processIndexerBatch
  simp only [Prog.perform_bind, Prog.act_bind]
  refine ⟨trivial, fun w i hidle _ => ?_⟩
  have hload : (timer history fun page => ∀ e ∈ page, readable e = true).exec .loadCursor i w =
      (w.world.db.cursor, w) := by
    simp [timer, watch, execute, Action.effects]
  rw [hload]
  refine ⟨hidle.exactlyOnce hseq, ?_⟩
  refine Prog.along_bind (Prog.along_bind (along_startLedger (hidle.exactlyOnce hseq) ?_))
  intro startLedger hpos hstart
  refine Prog.along_mono (Q := fun _ => Idle cfg history) ?_ fun _ _ h => h
  refine ⟨id, fun latestLedger hlegal => ?_⟩
  cases latestLedger with
  | none =>
    -- the request fails
    have hget : (timer history fun page => ∀ e ∈ page, readable e = true).exec
        (.getEvents startLedger ((w.world.db.cursor.bind (·.pagingToken)).filter (· ≠ ""))) none w =
          (none, w) := watch_getEvents_none
    rw [hget]
    exact ⟨hidle.exactlyOnce hseq, hidle⟩
  | some latest =>
    obtain ⟨hlatest, hreadable⟩ := hlegal
    obtain ⟨hlatest, hcursor⟩ := hlatest latest rfl
    -- with a cursor the batch starts from its ledger
    have hfrom : ∀ c ∈ w.world.db.cursor, startLedger = c.lastLedger := by
      intro c hc
      rw [Option.mem_def.mp hc] at hstart
      exact hstart (hidle.pos hc)
    obtain ⟨start, consumed, rest, hrequested, hs, hperformed, hsome, hle⟩ :=
      hidle.fetch hseq hfrom
    have hget : (timer history fun page => ∀ e ∈ page, readable e = true).exec
        (.getEvents startLedger ((w.world.db.cursor.bind (·.pagingToken)).filter (· ≠ "")))
        (some latest) w = (some _, _) := watch_getEvents
    rw [hrequested] at hget
    rw [hget]
    obtain ⟨rest', hrest⟩ := prefix_page hseq hs latest
    have hreadable : ∀ e ∈ (rest.filter (·.ledger ≤ latest)).take eventLimit, readable e = true := by
      rw [← hrequested]
      exact hreadable
    -- an empty page: what follows is later than the latest ledger
    have hempty : (rest.filter (·.ledger ≤ latest)).take eventLimit = [] →
        ∀ e ∈ rest', latest ≤ e.ledger := by
      intro hnil e he
      rw [hnil, List.nil_append] at hrest
      have hnone : rest.filter (·.ledger ≤ latest) = [] := by
        simpa [eventLimit] using List.take_eq_nil_iff.mp hnil
      have hlater := List.filter_eq_nil_iff.mp hnone e (hrest ▸ he)
      simpa using (not_le.mp (by simpa using hlater)).le
    rw [← hrest] at hs
    refine ⟨hs.exactlyOnce_page hseq List.nil_prefix ?_, ?_⟩
    · rw [List.append_nil]
      exact hperformed
    · exact along_page hseq hs hperformed hsome hreadable hempty
        ⟨hle.trans hlatest, hpos.trans_le hlatest⟩ hcursor

end Tick

section Orderly

variable {P : Type}

/-- An input with a page that can be read is permitted where only such pages are. -/
theorem permits_of_readable {history : List RpcEvent} {s : State P Action Watched}
    {i : Input P (Option ℕ)} (hpermits : (timer history fun _ => True).Permits s i)
    (hreadable : Readable history s i) :
    (timer history fun page => ∀ e ∈ page, readable e = true).Permits s i := by
  cases i with
  | crash p => exact hpermits
  | tick p latestLedger =>
    cases hp : s.prog p with
    | done a => simp [System.Permits, State.Next, hp]
    | act o k =>
      have hlegal := (System.permits_tick_of_act hp).mp hpermits
      have hpage := (State.next_iff_of_act hp).mp hreadable
      apply (System.permits_tick_of_act hp).mpr
      cases o with
      | getEvents startLedger cursor => exact ⟨hlegal.1, hpage⟩
      | _ => exact hlegal

/-- **Orderly batches** handle every event once, and the cursor does not move backwards. -/
theorem exactlyOnce_of_orderly [DecidableEq P] (cfg : Config) {history : List RpcEvent}
    (hseq : Sequenced history) {is : List (Input P (Option ℕ))}
    (hlegal : Each ((timer history fun _ => True).step (tick cfg))
      (fun _ => (timer history fun _ => True).Permits) ⟨fun _ => .done (), .empty⟩ is)
    (horderly : Each ((timer history fun _ => True).step (tick cfg)) (fun _ => Orderly history)
      ⟨fun _ => .done (), .empty⟩ is) :
    Always ((timer history fun _ => True).step (tick cfg))
      (fun _ s => ExactlyOnce cfg history s.shared) ⟨fun _ => .done (), .empty⟩ is := by
  refine System.invariant_of_alone (S := timer history fun page => ∀ e ∈ page, readable e = true)
    (tick_sequential hseq) (fun _ => id) idle_empty (idle_empty.exactlyOnce hseq) ?_
  intro pre i hpre
  obtain ⟨halone, hreadable⟩ := horderly pre i hpre
  exact ⟨permits_of_readable (hlegal pre i hpre) hreadable, halone⟩

end Orderly

/-! ## Two ticks at once -/

namespace Example

def config : Config := ⟨some "https://merchant.example/hooks"⟩

/-- The proposal of a settlement. -/
def proposal : RpcEvent where
  id := none
  pagingToken := some "120-1"
  ledger := 120
  ledgerClosedAt := none
  txHash := some "tx"
  topic := [.symbol "settlement_proposed"]
  value := .vec [.u64 1, .address (.contract 2), .u64 500, .address (.account 3)]

/-- The ticks act in this order, with the latest ledger 200. -/
def inputs (ps : List (Fin 2)) : List (Input (Fin 2) (Option ℕ)) := ps.map (.tick · (some 200))

end Example

open Example in
/-- Two ticks load the cursor before either saves it: the proposal is handled twice. -/
theorem not_exactlyOnce : ¬ ∀ (cfg : Config) (history : List RpcEvent)
    (is : List (Input (Fin 2) (Option ℕ))), Sequenced history →
    Each ((timer history fun _ => True).step (tick cfg))
      (fun _ => (timer history fun _ => True).Permits) ⟨fun _ => .done (), .empty⟩ is →
    Always ((timer history fun _ => True).step (tick cfg))
      (fun _ s => ExactlyOnce cfg history s.shared) ⟨fun _ => .done (), .empty⟩ is := by
  intro h
  have hseq : Sequenced [proposal] := by
    refine ⟨?_, ?_, ?_⟩ <;> simp [proposal]
  have hafter := (h config [proposal] (inputs [0, 1, 0, 1, 0, 1, 0, 1, 0, 1, 0, 1]) hseq
    (by decide)).at_end
  have hlength := hafter.atMostOnce.length_le
  exact absurd hlength (by decide)

open Example in
/-- Two ticks in turn: the second finds nothing new. -/
theorem exactlyOnce_inTurn : Always ((timer [proposal] fun _ => True).step (tick config))
    (fun _ s => ExactlyOnce config [proposal] s.shared) ⟨fun _ => .done (), .empty⟩
    (inputs [0, 0, 0, 0, 0, 0, 0, 1, 1, 1, 1]) := by
  refine exactlyOnce_of_orderly config ?_ (by decide) (by decide)
  refine ⟨?_, ?_, ?_⟩ <;> simp [proposal]

end Offchain.TreasuryIndexer
