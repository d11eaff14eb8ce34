import Comebackhere.Http.Express
import Comebackhere.Offchain.InvoiceLog

/-!
# Gaps in the retention of the server

A server keeps the ledgers of a window only. Asked for events outside it, it answers with an error
whose text names the window. The indexer then records the ledgers it has missed, and goes on at the
oldest ledger of the window; so it does too when it is ahead of the server and has missed nothing.

## Main definitions

* `parseRetentionError`: the window in the text of an error
* `Missing`: a ledger is recorded as missing
* `Covered`: exactly the missing ledgers are recorded, and the cursor does not go back

## Main results

* `rpcError_of_message`: the oldest ledger is read from the error's text
* `skipGap_ensures`: a gap is recorded before the cursor is moved past it
* `covered_iff`: gaps are covered exactly from the resume points before the window
-/

namespace Offchain

open Process Decimal
open Http (isSpace)

/-! ## The text of the error -/

/-- What the client throws: a text, or an object with a message of its own or in an `error`. -/
inductive RpcThrown
  | text (message : String)
  | object (message : Option String) (error : Option String)

def RpcThrown.message : RpcThrown → String
  | .text message => message
  | .object message error => (message.or error).getD ""

structure RetentionWindow where
  oldestLedger : Option ℕ
  latestLedger : Option ℕ

/-- `words` stand at the start of a text, in letters of either case. -/
def startsWith (words : String) (text : List Char) : Bool :=
  words.toList.isPrefixOf (text.map Char.toLower)

/-- `/words/i.test(text)` -/
def containsWords (text : List Char) (words : String) : Bool := text.tails.any (startsWith words)

/-- The digits of `/words:?\s*(\d+)/i` at the start of a text. -/
def numberAt (words : String) (text : List Char) : Option ℕ :=
  if startsWith words text then
    let rest := text.drop words.length
    let rest := if rest.head? = some ':' then rest.tail else rest
    let digits := (rest.dropWhile isSpace).takeWhile Char.isDigit
    if digits = [] then none else some (number (value digits))
  else none

/-- `Number(text.match(/words:?\s*(\d+)/i)[1])` -/
def numberAfter (words : String) (text : List Char) : Option ℕ :=
  text.tails.findSome? (numberAt words)

def retentionPhrases : List String :=
  ["oldest ledger", "out of retention", "out of the retention", "ledger range", "before the oldest"]

/-- The window is none if the error is not one of retention. -/
def parseRetentionError (err : RpcThrown) : Option RetentionWindow :=
  let text := err.message.toList
  if retentionPhrases.any (containsWords text) then
    some ⟨numberAfter "oldest ledger" text, numberAfter "latest ledger" text⟩
  else none

/-- The error that the poll finds. -/
def RpcThrown.rpcError (err : RpcThrown) : RpcError :=
  match parseRetentionError err with
  | some window => .retention window.oldestLedger
  | none => .other

/-- The text with which a server says what it has. -/
def retentionMessage (oldest latest : UInt32) : String :=
  "startLedger must be between the " ++ ("oldest ledger" ++ (": " ++ (toString oldest.toNat ++
    (" and the latest ledger: " ++ toString latest.toNat ++ " for this rpc instance."))))

/-- The answer of a server on which the request for events throws. -/
def thrown (err : RpcThrown) : Answer where
  error := some err.rpcError

/-- Letters that the words do not start with are skipped. -/
theorem numberAfter_append {words : String} (before : List Char) {text : List Char}
    (h : ∀ c ∈ before, words.toList.head? ≠ some c.toLower) (hne : words.toList ≠ []) :
    numberAfter words (before ++ text) = numberAfter words text := by
  induction before with
  | nil => rfl
  | cons c before ih =>
    have hstart : startsWith words (c :: (before ++ text)) = false := by
      obtain ⟨first, rest, hwords⟩ := List.exists_cons_of_ne_nil hne
      have hc := h c (by simp)
      rw [hwords, List.head?_cons, ne_eq, Option.some.injEq] at hc
      simp [startsWith, hwords, List.isPrefixOf, hc]
    rw [List.cons_append, numberAfter, List.tails_cons, List.findSome?_cons,
      show numberAt words (c :: (before ++ text)) = none by simp [numberAt, hstart]]
    exact ih fun d hd => h d (List.mem_cons_of_mem c hd)

theorem numberAfter_of_numberAt {words : String} {text : List Char} {n : ℕ}
    (h : numberAt words text = some n) : numberAfter words text = some n := by
  cases text <;> simp [numberAfter, h]

/-- The words, a colon, a blank and digits. -/
theorem numberAt_eq {words : String} (before : List Char) {digits rest : List Char}
    (hbefore : before.map Char.toLower = words.toList) (hdigits : Digits digits)
    (hne : digits ≠ []) (hrest : rest.takeWhile Char.isDigit = []) :
    numberAt words (before ++ (": ".toList ++ (digits ++ rest))) =
      some (number (value digits)) := by
  have hlen : before.length = words.length := by
    rw [← String.length_toList, ← hbefore, List.length_map]
  have hstart : startsWith words (before ++ (": ".toList ++ (digits ++ rest))) = true := by
    rw [startsWith, List.isPrefixOf_iff_prefix, List.map_append, hbefore]
    exact List.prefix_append _ _
  have hdrop : (digits ++ rest).dropWhile isSpace = digits ++ rest := by
    obtain ⟨d, ds, rfl⟩ := List.exists_cons_of_ne_nil hne
    have hd := Http.isSpace_eq_false (hdigits d (by simp))
    rw [List.cons_append, List.dropWhile_cons_of_neg (by simp [hd])]
  have htake : (digits ++ rest).takeWhile Char.isDigit = digits := by
    rw [List.takeWhile_append_of_pos hdigits, hrest, List.append_nil]
  have hspace : isSpace ' ' = true := by decide
  have hcolon : ": ".toList = [':', ' '] := by simp
  rw [hcolon, List.cons_append, List.cons_append, List.nil_append] at hstart ⊢
  simp [numberAt, hstart, ← hlen, hspace, hdrop, htake, hne]

/-- Words that a number follows are in the text. -/
theorem containsWords_of_numberAfter {words : String} {text : List Char} {n : ℕ}
    (h : numberAfter words text = some n) : containsWords text words = true := by
  obtain ⟨tail, htail, hn⟩ := List.exists_of_findSome?_eq_some h
  refine List.any_eq_true.mpr ⟨tail, htail, ?_⟩
  by_contra hstart
  simp [numberAt, hstart] at hn

theorem oldestLedger_message (oldest latest : UInt32) :
    numberAfter "oldest ledger" (retentionMessage oldest latest).toList = some oldest.toNat := by
  have hlt : oldest.toNat < 2 ^ 53 := by
    have := oldest.toNat_lt
    omega
  unfold retentionMessage
  simp only [String.toList_append, Nat.toString_eq_repr, Nat.toList_repr]
  -- no letter of the words before it is the first of "oldest ledger"
  refine (numberAfter_append "startLedger must be between the ".toList ?_ ?_).trans ?_
  · simp
  · simp
  apply numberAfter_of_numberAt
  refine (numberAt_eq "oldest ledger".toList ?_ digits_toDigits
    Nat.toDigits_ne_nil ?_).trans ?_
  · simp
  · simp
  · rw [value_toDigits, number_of_lt hlt]

/-- **The oldest ledger is read from the error's text.** -/
theorem rpcError_of_message {err : RpcThrown} {oldest latest : UInt32}
    (h : err.message = retentionMessage oldest latest) :
    err.rpcError = .retention (some oldest.toNat) := by
  have holdest := oldestLedger_message oldest latest
  have hphrase : retentionPhrases.any
      (containsWords (retentionMessage oldest latest).toList) = true :=
    List.any_eq_true.mpr ⟨"oldest ledger", by simp [retentionPhrases],
      containsWords_of_numberAfter holdest⟩
  simp [RpcThrown.rpcError, parseRetentionError, h, hphrase, holdest]

/-! ## What is recorded -/

/-- A ledger is recorded as missing. -/
def Missing (db : Db) (ledger : ℕ) : Prop :=
  ∃ gap ∈ db.indexerGaps.docs, gap.fromLedger ≤ ledger ∧ (ledger : ℤ) ≤ gap.toLedger

/-- The cursor is at `start` or later, and the ledgers from `start` to `oldest` are recorded. -/
structure Skipped (start oldest : ℕ) (db : Db) : Prop where
  recorded : ∀ ledger, start ≤ ledger → ledger < oldest → Missing db ledger
  cursor : ∃ cursor, db.cursor = some cursor ∧ start ≤ cursor.lastLedger

/-- What a poll that resumes at `start`, on a server that has the ledgers from `oldest`, leaves of
the database `db`, also if it crashes before it has `ended`. -/
structure Covered (saved : IndexerCursor) (start oldest : ℕ) (db db' : Db) (ended : Prop) : Prop where
  /-- Nothing else is recorded as missing. -/
  missing : ∀ ledger, Missing db' ledger → Missing db ledger ∨ start ≤ ledger ∧ ledger < oldest
  /-- There is no new record if nothing is missing. -/
  none_missing : oldest ≤ start → db'.indexerGaps = db.indexerGaps
  cursor : db'.cursor = some saved ∨ Skipped start oldest db'
  ended : ended → Skipped start oldest db'

theorem missing_insert {gaps : Collection IndexerGapRecord (ℕ × ℤ) fun gap =>
      (gap.fromLedger, gap.toLedger)} {db : Db} {gap : IndexerGapRecord} {ledger : ℕ}
    (hgaps : gaps = db.indexerGaps.insertIfAbsent gap) :
    (∃ gap ∈ gaps.docs, gap.fromLedger ≤ ledger ∧ (ledger : ℤ) ≤ gap.toLedger) ↔
      Missing db ledger ∨ gap.fromLedger ≤ ledger ∧ (ledger : ℤ) ≤ gap.toLedger := by
  subst hgaps
  unfold Missing
  cases hfind : db.indexerGaps.find (gap.fromLedger, gap.toLedger) with
  | none =>
    rw [Collection.docs_insertIfAbsent hfind]
    simp only [List.mem_append, List.mem_singleton, or_and_right, exists_or, exists_eq_left]
  | some old =>
    -- the range is recorded already
    have hmem := Collection.mem_of_find hfind
    have hkey := Collection.key_of_find hfind
    rw [Prod.mk.injEq] at hkey
    rw [Collection.insertIfAbsent_of_find (hfind ▸ Option.some_ne_none _), iff_self_or]
    exact fun h => ⟨old, hmem, hkey.1 ▸ h.1, hkey.2 ▸ h.2⟩

/-! ## The poll -/

/-- The actions that leave the gaps and the cursor. -/
def Action.OfEvents {β : Type} : Action β → Prop
  | .saveMongoCursor _ _ | .recordRetentionGap _ _ _ => False
  | _ => True

theorem execute_ofEvents {rpc : Rpc} {β : Type} {o : Action β} (ho : o.OfEvents) (answer : Answer)
    (w : World) : (execute rpc o answer w).2.db.indexerGaps = w.db.indexerGaps ∧
      (execute rpc o answer w).2.db.cursor = w.db.cursor := by
  cases o <;> first | exact ⟨rfl, rfl⟩ | exact ho.elim

theorem recordTransition_acts (eventId : String) (pagingToken : Option String)
    (transition : InvoiceStateTransition) :
    (recordTransition eventId pagingToken transition).Acts Action.OfEvents := by
  refine Prog.Acts.bind ⟨trivial, fun _ => trivial⟩ fun written => ?_
  obtain ⟨⟨⟩⟩ | before := written
  · trivial
  · dsimp only
    split
    · trivial
    · refine Prog.Acts.bind ?_ fun _ => ⟨trivial, fun _ => ⟨trivial, fun _ => trivial⟩⟩
      unfold applyStatus
      split
      · exact ⟨trivial, fun _ => trivial⟩
      · trivial

theorem handleEvents_acts (contractId : String) (events : List RpcEvent) :
    (handleEvents contractId events).Acts Action.OfEvents := by
  induction events with
  | nil => trivial
  | cons event events ih =>
    refine Prog.Acts.bind ?_ fun _ => Prog.Acts.bind ih fun _ => trivial
    unfold handleEvent
    split
    · trivial
    · dsimp only
      split
      · exact recordTransition_acts _ _ _
      · exact ⟨trivial, fun _ => trivial⟩

/-- The gaps are `gaps`, and the cursor is at `oldest` or later. -/
def Resumed (gaps : Collection IndexerGapRecord (ℕ × ℤ) fun gap => (gap.fromLedger, gap.toLedger))
    (oldest : ℕ) (w : World) : Prop :=
  w.db.indexerGaps = gaps ∧ ∃ cursor, w.db.cursor = some cursor ∧ oldest ≤ cursor.lastLedger

section Ensures

variable {rpc : Rpc} {w : World} {gaps : Collection IndexerGapRecord (ℕ × ℤ) fun gap =>
  (gap.fromLedger, gap.toLedger)} {oldest : ℕ}

theorem le_nextCursor {response : EventsResponse}
    (h : ∀ event ∈ response.events, oldest ≤ event.ledger) :
    oldest ≤ (nextCursor oldest response).lastLedger := by
  unfold nextCursor
  split
  · next last hlast => exact h last (List.mem_of_getLast? hlast)
  · exact le_max_left _ _

/-- The page from `oldest` on does not take the cursor back. -/
theorem handlePage_ensures (cfg : Config) {response : EventsResponse} (hw : Resumed gaps oldest w)
    (h : ∀ event ∈ response.events, oldest ≤ event.ledger) :
    (indexer rpc).Ensures (Resumed gaps oldest) (fun _ _ => True) (handlePage cfg oldest response)
      w := by
  have hevents : (indexer rpc).Ensures (Resumed gaps oldest) (fun _ _ => True)
      (handleEvents cfg.contractId response.events) w := by
    refine System.ensures_of_acts (fun _ o answer w ho hw => ?_) (handleEvents_acts _ _) hw
    obtain ⟨hgaps, hcursor⟩ := @execute_ofEvents rpc _ _ ho answer w
    exact ⟨hgaps.trans hw.1, hcursor.symm ▸ hw.2⟩
  refine (hevents.mono (fun _ hw => hw) fun _ w hw _ => ?_).bind
  exact System.ensures_act hw fun _ => ⟨⟨hw.1, _, rfl, le_nextCursor h⟩, trivial⟩

/-- The second request for events, at the oldest ledger. -/
theorem getEvents_ensures (cfg : Config) (hw : Resumed gaps oldest w) :
    (indexer rpc).Ensures (Resumed gaps oldest) (fun _ _ => True)
      (.act (.getEvents (.startLedger oldest)) fun
        | .ok response => some <$> handlePage cfg oldest response
        | .error _ => .done none) w := by
  refine System.ensures_act hw fun answer => ?_
  simp only [indexer, execute]
  cases herror : answer.error with
  | some error => exact ⟨hw, trivial⟩
  | none =>
    refine System.Ensures.bind (f := fun applied => .done (some applied)) ?_
    refine (handlePage_ensures cfg hw fun event hevent => ?_).mono (fun _ hw => hw)
      fun _ w hw _ => ⟨hw, trivial⟩
    exact Rpc.le_ledger_of_mem_drop (List.mem_of_mem_take hevent)

/-- The gap that is recorded. -/
def gapRecord (cfg : Config) (start oldest : ℕ) : IndexerGapRecord :=
  ⟨cfg.contractId, start, oldest - 1, max 0 (oldest - 1 - start + 1 : ℤ)⟩

variable {cfg : Config} {saved : IndexerCursor} {start : ℕ} {db' : Db}

theorem covered_insert
    (h : start < oldest ∨ start = oldest ∧ w.db.indexerGaps.find (oldest, oldest - 1) ≠ none)
    (hgaps : db'.indexerGaps = w.db.indexerGaps.insertIfAbsent (gapRecord cfg start oldest))
    (hcursor : db'.cursor = some saved ∨
      ∃ cursor, db'.cursor = some cursor ∧ oldest ≤ cursor.lastLedger) :
    Covered saved start oldest w.db db' False ∧
      ∀ ledger, start ≤ ledger → ledger < oldest → Missing db' ledger := by
  have hmissing (ledger : ℕ) : Missing db' ledger ↔
      Missing w.db ledger ∨ start ≤ ledger ∧ ledger < oldest := by
    refine (missing_insert hgaps).trans (or_congr_right (and_congr_right fun _ => ?_))
    show (ledger : ℤ) ≤ oldest - 1 ↔ _
    omega
  have hrecorded (ledger : ℕ) (hstart : start ≤ ledger) (hlt : ledger < oldest) :
      Missing db' ledger := (hmissing ledger).mpr (Or.inr ⟨hstart, hlt⟩)
  refine ⟨⟨fun ledger => (hmissing ledger).mp, fun hle => ?_, ?_, False.elim⟩, hrecorded⟩
  · -- the range is empty, and recorded already
    obtain hlt | ⟨rfl, hfind⟩ := h
    · omega
    · rw [hgaps]
      exact Collection.insertIfAbsent_of_find hfind
  · refine hcursor.imp_right fun ⟨cursor, hcursor, hle⟩ => ⟨hrecorded, cursor, hcursor, ?_⟩
    omega

/-- **A gap is recorded before the cursor is moved past it.** -/
theorem skipGap_ensures {resume : Resume} {saved : IndexerCursor}
    (hcursor : w.db.cursor = some saved) (hstart : gapStart resume saved.lastLedger = start)
    (h : start < oldest ∨ start = oldest ∧ w.db.indexerGaps.find (oldest, oldest - 1) ≠ none) :
    (indexer rpc).Ensures (fun w' => Covered saved start oldest w.db w'.db False)
      (fun _ w' => Skipped start oldest w'.db) (skipGap cfg resume saved.lastLedger oldest) w := by
  have hle : start ≤ oldest := by omega
  subst hstart
  refine System.ensures_act ?_ fun answer => ?_
  · exact ⟨fun ledger hledger => Or.inl hledger, fun _ => rfl, Or.inl hcursor, False.elim⟩
  set w₁ := ((indexer rpc).exec _ answer w).2 with hw₁
  have hgaps : w₁.db.indexerGaps = w.db.indexerGaps.insertIfAbsent (gapRecord cfg _ oldest) := rfl
  refine System.ensures_act (covered_insert h hgaps (Or.inl hcursor)).1 fun answer' => ?_
  set w₂ := ((indexer rpc).exec _ answer' w₁).2 with hw₂
  have hw : Resumed w₁.db.indexerGaps oldest w₂ := ⟨rfl, ⟨none, oldest⟩, rfl, le_rfl⟩
  have hcovered (w' : World) (hw' : Resumed w₁.db.indexerGaps oldest w') :
      Covered saved _ oldest w.db w'.db False ∧ _ :=
    covered_insert h (hw'.1.trans hgaps) (Or.inr hw'.2)
  refine (getEvents_ensures cfg hw).mono (fun w' hw' => (hcovered w' hw').1) fun _ w' hw' _ => ?_
  obtain ⟨cursor, hcursor', hle'⟩ := hw'.2
  exact ⟨(hcovered w' hw').2, cursor, hcursor', hle.trans hle'⟩

end Ensures

variable {rpc : Rpc} {w : World} {cfg : Config} {saved : IndexerCursor} {resume : Resume}
  {err : RpcThrown} {oldest latest : UInt32}

/-- The poll after an error that names the window. -/
theorem feed_pollOnce (hcursor : w.db.cursor = some saved)
    (hsaved : savedResume (some saved) = some resume)
    (herr : err.message = retentionMessage oldest latest) (load : Answer) (rest : List Answer) :
    (indexer rpc).feed (load :: thrown err :: rest) (pollOnce cfg) w =
      (indexer rpc).feed rest (skipGap cfg resume saved.lastLedger oldest.toNat) w := by
  have hresume : resumeFrom cfg (some saved) = .done resume := by
    apply resumeFrom_of_some
    rw [resumePoint, hsaved, Option.some_or]
  rw [pollOnce, Prog.perform_bind, System.feed]
  simp only [indexer, execute, hcursor, hresume, Option.map_some, Option.getD_some, thrown,
    rpcError_of_message herr, Prog.done_bind, Prog.perform_bind, System.feed]

theorem gapStart_of_saved (h : savedResume (some saved) = some resume)
    (hmoved : saved = ⟨none, oldest.toNat⟩) :
    gapStart resume saved.lastLedger = oldest.toNat := by
  subst hmoved
  unfold savedResume at h
  simp only [Option.bind_some, Option.filter_none, Option.map_some, Option.getD_some] at h
  split at h
  · obtain rfl := Option.some.inj h
    rfl
  · cases h

/-- **Gaps in the retention**: for a stored cursor with a resume point and a window that the server
names, a poll covers the gap, whether it ends or crashes, exactly if the resume point is before the
window. At the window's first ledger the poll writes a record of no ledgers, unless it is there
already, and past it the poll also takes the cursor back. -/
theorem covered_iff (rpc : Rpc) (cfg : Config) (hcursor : w.db.cursor = some saved)
    (hsaved : savedResume (some saved) = some resume)
    (herr : err.message = retentionMessage oldest latest) :
    (∀ load rest,
      let polled := (indexer rpc).feed (load :: thrown err :: rest) (pollOnce cfg) w
      Covered saved (gapStart resume saved.lastLedger) oldest.toNat w.db polled.2.db
        polled.1.isSome) ↔
      gapStart resume saved.lastLedger < oldest.toNat ∨
        gapStart resume saved.lastLedger = oldest.toNat ∧
          w.db.indexerGaps.find (oldest.toNat, oldest.toNat - 1) ≠ none := by
  simp only [feed_pollOnce hcursor hsaved herr]
  constructor
  · intro h
    -- the poll crashes when it has recorded the range and moved the cursor
    have hcovered := h {} [{}, {}]
    set w' := ((indexer rpc).feed [{}, {}]
      (skipGap cfg resume saved.lastLedger oldest.toNat) w).2
    have hgaps : w'.db.indexerGaps = w.db.indexerGaps.insertIfAbsent
      (gapRecord cfg (gapStart resume saved.lastLedger) oldest.toNat) := rfl
    have hcursor' : w'.db.cursor = some ⟨none, oldest.toNat⟩ := rfl
    rcases Nat.lt_or_ge (gapStart resume saved.lastLedger) oldest.toNat with hlt | hge
    · exact Or.inl hlt
    have heq : gapStart resume saved.lastLedger = oldest.toNat := by
      obtain hsame | ⟨-, moved, hmoved, hle⟩ := hcovered.cursor
      · exact gapStart_of_saved hsaved (Option.some.inj (hsame.symm.trans hcursor'))
      · obtain rfl := Option.some.inj (hcursor'.symm.trans hmoved)
        exact Nat.le_antisymm hle hge
    refine Or.inr ⟨heq, fun hfind => ?_⟩
    have hkept := hcovered.none_missing hge
    rw [hgaps, heq] at hkept
    have hdocs := congrArg (fun gaps => gaps.docs.length) hkept
    rw [Collection.docs_insertIfAbsent hfind] at hdocs
    simp at hdocs
  · intro h load rest
    obtain ⟨hcovered, hended⟩ := (skipGap_ensures hcursor rfl h).feed rest
    refine ⟨hcovered.missing, hcovered.none_missing, hcovered.cursor, fun hsome => ?_⟩
    obtain ⟨applied, happlied⟩ := Option.isSome_iff_exists.mp hsome
    exact hended applied happlied

/-- A server without events. -/
def emptyRpc : Rpc := ⟨[], fun _ => 0, by simp, by simp, by simp, by simp, by simp⟩

/-- A database with nothing but a cursor at a ledger. -/
def worldAt (ledger : ℕ) : World := ⟨⟨.empty, .empty, .empty, some ⟨none, ledger⟩⟩, []⟩

/-- The error of a server that has the ledgers from 1200 to 9800. -/
def windowError : RpcThrown :=
  .text ("startLedger must be between the oldest ledger: 1200 " ++
    "and the latest ledger: 9800 for this rpc instance.")

/-- Behind the window, the ledgers from 1000 to 1199 are recorded. -/
theorem covered_behind :
    let polled := (indexer emptyRpc).feed ({} :: thrown windowError :: [{}, {}])
      (pollOnce ⟨"invoice", none⟩) (worldAt 1000)
    Covered ⟨none, 1000⟩ 1000 1200 (worldAt 1000).db polled.2.db polled.1.isSome :=
  (covered_iff emptyRpc ⟨"invoice", none⟩
    (show (worldAt 1000).db.cursor = some ⟨none, 1000⟩ from rfl)
    (show savedResume (some ⟨none, 1000⟩) = some (.startLedger 1000) by decide)
    (show windowError.message = retentionMessage 1200 9800 by decide)).mpr
    (Or.inl (by decide)) {} [{}, {}]

/-- Ahead of the server, a gap of no ledgers is recorded and the cursor taken back. -/
theorem not_covered_ahead : ¬ ∀ load rest,
    let polled := (indexer emptyRpc).feed (load :: thrown windowError :: rest)
      (pollOnce ⟨"invoice", none⟩) (worldAt 12000)
    Covered ⟨none, 12000⟩ 12000 1200 (worldAt 12000).db polled.2.db polled.1.isSome := by
  intro h
  have hkept := (h {} [{}]).none_missing (by decide)
  have herr : windowError.message = retentionMessage 1200 9800 := by decide
  rw [feed_pollOnce rfl rfl herr] at hkept
  have hdocs := congrArg (fun gaps => gaps.docs.length) hkept
  exact absurd hdocs (by decide)

end Offchain
