import Comebackhere.Http.SettlementExecution
import Comebackhere.Library.Run
import Comebackhere.Offchain.TreasuryIndexer

/-!
# The hash of the executing transaction

A settlement record has the hash of the transaction that executed the settlement. The route that
executes settlements and the indexer both write it. The route has no hash when it finds the
settlement executed already, or executed by a transaction whose result it did not get, and then
writes an empty one; so does the indexer for an event without a transaction. Requests and batches
run next to each other, and each of them may be given up at any moment.

## Main definitions

* `Job`, `State`, `step`: the requests and batches in progress, and the database
* `Hashed`: a settlement record has a hash
* `FoundExecuted`: a request has read the settlement as executed
* `Spares`: an input leaves no record without the hash it has

## Main results

* `txHash_eq_empty_iff`: the route has no hash exactly if it read the settlement as executed
* `hashed_step_iff`: what one input does to the records that have a hash
* `hashes_kept_iff`: no hash is lost in exactly the runs whose inputs spare them
-/

namespace Http.Settlements

open Soroban Offchain Process Machine
open Prog (perform)

variable {P : Type} {D : Deployment}

/-! ## Requests and batches -/

/-- What a process of the backend is doing: nothing, a request to execute a settlement, with the
answers it got from the server, or a batch of the indexer. -/
inductive Job (D : Deployment) : Type 1
  | idle
  | request (body : ExecuteSettlementBody) (answers : List (Answer D))
  | batch (prog : TreasuryIndexer.Batch Unit)

structure State (P : Type) (D : Deployment) : Type 1 where
  jobs : P → Job D
  world : TreasuryIndexer.World

/-- The configuration of the route and of the indexer. -/
structure Configs where
  route : Config
  indexer : TreasuryIndexer.Config

/-- A request arrives, gets the next answer, or stores its result; a batch is started, or performs
its next action; a process gives up. -/
inductive Input (P : Type) (D : Deployment)
  | request (p : P) (body : ExecuteSettlementBody)
  | respond (p : P) (answer : Answer D)
  | store (p : P)
  | batch (p : P)
  | index (p : P) (answer : TreasuryIndexer.Answer)
  | giveUp (p : P)

/-- A request with the answers it got: its result, once it has one, and the calls it made. -/
def answered (cfg : Config) (body : ExecuteSettlementBody) (answers : List (Answer D)) :
    Option (Except Thrown ExecutionResult) × Calls D :=
  (server D cfg).feed answers (executeSettlementWithBalanceCheck cfg body) []

theorem id_executed (txHash : String) (record : TreasuryIndexer.SettlementRecord) :
    { record with status := .executed, executedTxHash := some txHash }.id = record.id := rfl

/-- `updateOne` of the route: it inserts no record. -/
def markExecuted (settlements : Collection TreasuryIndexer.SettlementRecord ℕ (·.id))
    (settlementId : ℕ) (txHash : String) :
    Collection TreasuryIndexer.SettlementRecord ℕ (·.id) :=
  settlements.updateOne settlementId
    (fun record => { record with status := .executed, executedTxHash := some txHash })
    (id_executed txHash)

/-- A batch, whose number of events is not looked at. -/
def batchProgram (cfg : TreasuryIndexer.Config) : TreasuryIndexer.Batch Unit := do
  let _ ← TreasuryIndexer.processIndexerBatch cfg
  return ()

namespace State

variable [DecidableEq P]

def setJob (s : State P D) (p : P) (job : Job D) : State P D :=
  { s with jobs := Function.update s.jobs p job }

/-- The database after the route has stored a result. -/
def storeResult (s : State P D) (settlementId : UInt64) (result : ExecutionResult) : State P D :=
  { s with world.db.settlements :=
      markExecuted s.world.db.settlements settlementId.toNat result.txHash }

end State

/-- One input. An input for a process that does something else changes nothing. -/
def step [DecidableEq P] (cfg : Configs) (s : State P D) : Input P D → State P D
  | .request p body =>
    match s.jobs p with
    | .idle => s.setJob p (.request body [])
    | .request _ _ | .batch _ => s
  | .respond p answer =>
    match s.jobs p with
    | .request body answers => s.setJob p (.request body (answers ++ [answer]))
    | .idle | .batch _ => s
  | .store p =>
    match s.jobs p with
    | .request body answers =>
      match (answered cfg.route body answers).1 with
      | some (.ok result) => (s.storeResult body.settlementId result).setJob p .idle
      | some (.error _) => s.setJob p .idle
      | none => s
    | .idle | .batch _ => s
  | .batch p =>
    match s.jobs p with
    | .idle => s.setJob p (.batch (batchProgram cfg.indexer))
    | .request _ _ | .batch _ => s
  | .index p answer =>
    match s.jobs p with
    | .batch (.done _) => s.setJob p .idle
    | .batch (.act o k) =>
      { s with world := (TreasuryIndexer.execute o answer s.world).2 }.setJob p
        (.batch (k (TreasuryIndexer.execute o answer s.world).1))
    | .idle | .request _ _ => s
  | .giveUp p => s.setJob p .idle

/-! ## Hashes -/

/-- The record of a settlement has a hash that is not empty. -/
def Hashed (settlementId : ℕ) (w : TreasuryIndexer.World) : Prop :=
  ∃ record, w.db.settlements.find settlementId = some record ∧
    ∃ hash, record.executedTxHash = some hash ∧ hash ≠ ""

/-- One of the calls read the settlement as executed. -/
def FoundExecuted (settlementId : UInt64) (calls : Calls D) : Prop :=
  ∃ call ∈ calls, call.1 = .settlement settlementId ∧
    ∃ settlement, getOnChainSettlement call.2 settlementId = .ok settlement ∧
      settlement.status = "Executed"

/-- An event without a transaction is not applied to a record that has a hash. -/
def SparesHash (w : TreasuryIndexer.World) {β : Type} : TreasuryIndexer.Action β → Prop
  | .processSettlementExecuted settlementId txHash => txHash = "" → ¬ Hashed settlementId w
  | _ => True

/-- A request that returns after it found the settlement executed does not store its result in a
record that has a hash, and neither does the indexer apply an event without a transaction. -/
def Spares (cfg : Configs) (s : State P D) : Input P D → Prop
  | .store p => ∀ body answers result calls, s.jobs p = .request body answers →
      answered cfg.route body answers = (some (.ok result), calls) →
      FoundExecuted body.settlementId calls → ¬ Hashed body.settlementId.toNat s.world
  | .index p _ => ∀ (β : Type) (o : TreasuryIndexer.Action β) k,
      s.jobs p = .batch (.act o k) → SparesHash s.world o
  | _ => True

/-! ## The hash of a request -/

section Request

variable {cfg : Config} {body : ExecuteSettlementBody} {calls : Calls D}

theorem foundExecuted_cons {settlementId : UInt64} {call : Call × Answer D} :
    FoundExecuted settlementId (call :: calls) ↔
      (call.1 = .settlement settlementId ∧
        ∃ settlement, getOnChainSettlement call.2 settlementId = .ok settlement ∧
          settlement.status = "Executed") ∨ FoundExecuted settlementId calls := by
  simp [FoundExecuted]

/-- A result has no hash exactly if one of the calls read the settlement as executed. -/
def HashTells (settlementId : UInt64) (result : Except Thrown ExecutionResult) (calls : Calls D) :
    Prop :=
  ∀ r, result = .ok r → (r.txHash = "" ↔ FoundExecuted settlementId calls)

theorem submitExecution_tells (settlement : OnChainSettlement) (balance : ℤ)
    (h : ¬ FoundExecuted body.settlementId calls) :
    (server D cfg).Ensures (fun _ => True) (HashTells body.settlementId)
      (submitExecution cfg body settlement balance) calls := by
  refine submitExecution_ensures (fun _ _ _ => ⟨fun _ => trivial, fun _ => trivial⟩) trivial
    (fun _ => trivial) (fun answer r hok => ?_) fun answer answer' answer'' r hempty hread => ?_
  · simp [foundExecuted_cons, h, hash_ne_empty hok]
  · simp [foundExecuted_cons, hempty, hread]

theorem executeSettlement_tells :
    (server D cfg).Ensures (fun _ => True) (HashTells body.settlementId)
      (executeSettlementWithBalanceCheck cfg body) [] := by
  rw [executeSettlementWithBalanceCheck, Prog.perform_bind]
  refine System.ensures_act trivial fun answer => ?_
  cases hread : getOnChainSettlement answer body.settlementId with
  | error err =>
    simp only [server, execute, hread]
    exact ⟨trivial, fun r hr => by cases hr⟩
  | ok settlement =>
    simp only [server, execute, hread]
    split_ifs with hexecuted hpending
    · refine ⟨trivial, fun r hr => ?_⟩
      obtain rfl := Except.ok.inj hr
      simp [foundExecuted_cons, hread, hexecuted]
    · exact ⟨trivial, fun r hr => by cases hr⟩
    · rw [Prog.perform_bind]
      refine System.ensures_act trivial fun answer' => ?_
      split
      · exact ⟨trivial, fun r hr => by cases hr⟩
      · split_ifs
        · exact ⟨trivial, fun r hr => by cases hr⟩
        · apply submitExecution_tells
          simp [execute, FoundExecuted, hread, hexecuted]

/-- **A result has no hash exactly if the request read the settlement as executed.** -/
theorem txHash_eq_empty_iff {answers : List (Answer D)} {result : ExecutionResult}
    (h : answered cfg body answers = (some (.ok result), calls)) :
    result.txHash = "" ↔ FoundExecuted body.settlementId calls := by
  have hensures : (server D cfg).Ensures (fun _ => True) (HashTells body.settlementId)
      (executeSettlementWithBalanceCheck cfg body) [] := executeSettlement_tells
  have htells := hensures.feed answers
  have hcalls : ((server D cfg).feed answers (executeSettlementWithBalanceCheck cfg body) []).2 =
      calls := congrArg Prod.snd h
  rw [hcalls] at htells
  exact htells.2 _ (congrArg Prod.fst h) result rfl

end Request

/-! ## What the writes do to the hashes -/

section Writes

variable {settlementId id : ℕ} {w : TreasuryIndexer.World}

/-- The route writes its hash to the record, if there is one. -/
theorem hashed_markExecuted {txHash : String} :
    Hashed id { w with db.settlements := markExecuted w.db.settlements settlementId txHash } ↔
      if id = settlementId then txHash ≠ "" ∧ w.db.settlements.find id ≠ none
      else Hashed id w := by
  simp only [Hashed, markExecuted, Collection.find_updateOne]
  split_ifs with h
  · cases w.db.settlements.find id <;> simp
  · rfl

/-- An update of a record, or its insertion, that keeps the hash. -/
theorem hashed_upsert {record : TreasuryIndexer.SettlementRecord}
    {f : TreasuryIndexer.SettlementRecord → TreasuryIndexer.SettlementRecord}
    {hf : ∀ record, (f record).id = record.id}
    (hkeeps : ∀ record, (f record).executedTxHash = record.executedTxHash) (h : Hashed id w) :
    Hashed id { w with db.settlements := w.db.settlements.upsert record f hf } := by
  obtain ⟨old, hold, hash, hhash, hne⟩ := h
  simp only [Hashed, Collection.find_upsert, hold, Option.map_some, Option.getD_some]
  split_ifs
  · exact ⟨f old, rfl, hash, (hkeeps old).trans hhash, hne⟩
  · exact ⟨old, rfl, hash, hhash, hne⟩

/-- The indexer writes the hash of an event for an executed settlement. -/
theorem hashed_upsertExecuted {txHash : String} :
    Hashed id { w with db.settlements :=
        TreasuryIndexer.upsertExecuted w.db.settlements settlementId txHash } ↔
      if id = settlementId then txHash ≠ "" else Hashed id w := by
  simp only [Hashed, TreasuryIndexer.upsertExecuted, Collection.find_upsert]
  split_ifs with h
  · cases w.db.settlements.find id <;> simp
  · rfl

/-- **The indexer loses no hash** in exactly the actions that spare the hashes. -/
theorem hashed_execute_iff {β : Type} (o : TreasuryIndexer.Action β)
    (answer : TreasuryIndexer.Answer) :
    (∀ id, Hashed id w → Hashed id (TreasuryIndexer.execute o answer w).2) ↔ SparesHash w o := by
  cases o with
  | processSettlementProposed settlementId token amount merchant txHash =>
    exact iff_of_true (fun id h => hashed_upsert (fun _ => rfl) h) trivial
  | processSettlementApproved settlementId signer newWeight =>
    exact iff_of_true (fun id h => hashed_upsert (fun _ => rfl) h) trivial
  | processSettlementExecuted settlementId txHash =>
    simp only [TreasuryIndexer.execute, hashed_upsertExecuted, SparesHash]
    constructor
    · rintro h rfl hhashed
      simpa using h settlementId hhashed
    · intro h id hhashed
      split_ifs with hid
      · exact fun hempty => h hempty (hid ▸ hhashed)
      · exact hhashed
  | loadCursor | getLatestLedger | getEvents _ _ | findSettlement _ | dispatchWebhook _ _
  | saveCursor _ _ _ => exact iff_of_true (fun _ h => h) trivial

end Writes

/-! ## Runs -/

variable {cfg : Configs} {s : State P D}

@[simp] theorem State.world_setJob [DecidableEq P] (s : State P D) (p : P) (job : Job D) :
    (s.setJob p job).world = s.world := rfl

/-- What the route stores loses no hash exactly if the request did not find the settlement executed,
or the record has no hash. -/
theorem hashed_store_iff {body : ExecuteSettlementBody} {answers : List (Answer D)}
    {result : ExecutionResult} {calls : Calls D}
    (h : answered cfg.route body answers = (some (.ok result), calls)) :
    (∀ id, Hashed id s.world → Hashed id (s.storeResult body.settlementId result).world) ↔
      (FoundExecuted body.settlementId calls → ¬ Hashed body.settlementId.toNat s.world) := by
  rw [← txHash_eq_empty_iff h]
  simp only [State.storeResult, hashed_markExecuted]
  constructor
  · intro hkept hempty hhashed
    simpa [hempty] using hkept _ hhashed
  · intro hspares id hhashed
    split_ifs with hid
    · refine ⟨fun hempty => hspares hempty (hid ▸ hhashed), ?_⟩
      obtain ⟨record, hrecord, -⟩ := hhashed
      simp [hrecord]
    · exact hhashed

theorem spares_store_iff {p : P} {body : ExecuteSettlementBody} {answers : List (Answer D)}
    (hjob : s.jobs p = .request body answers) : Spares cfg s (.store p) ↔
      ∀ result calls, answered cfg.route body answers = (some (.ok result), calls) →
        FoundExecuted body.settlementId calls → ¬ Hashed body.settlementId.toNat s.world := by
  refine ⟨fun h result calls => h body answers result calls hjob,
    fun h body' answers' result calls hjob' => ?_⟩
  cases hjob.symm.trans hjob'
  exact h result calls

theorem spares_index_iff {p : P} {answer : TreasuryIndexer.Answer} {β : Type}
    {o : TreasuryIndexer.Action β} {k : β → TreasuryIndexer.Batch Unit}
    (hjob : s.jobs p = .batch (.act o k)) :
    Spares cfg s (.index p answer) ↔ SparesHash s.world o := by
  refine ⟨fun h => h _ o k hjob, fun h β' o' k' hjob' => ?_⟩
  cases hjob.symm.trans hjob'
  exact h

/-- **One input** loses no hash exactly if it spares them. -/
theorem hashed_step_iff [DecidableEq P] {i : Input P D} :
    (∀ id, Hashed id s.world → Hashed id (step cfg s i).world) ↔ Spares cfg s i := by
  cases i with
  | store p =>
    cases hjob : s.jobs p with
    | idle | batch prog => simp [step, Spares, hjob]
    | request body answers =>
      rw [spares_store_iff hjob]
      simp only [step, hjob]
      rcases hanswered : answered cfg.route body answers with ⟨_ | err | result, calls⟩
      · simp
      · simp
      · simp [hashed_store_iff hanswered]
  | index p answer =>
    cases hjob : s.jobs p with
    | idle | request body answers => simp [step, Spares, hjob]
    | batch prog =>
      cases prog with
      | done a => simp [step, Spares, hjob]
      | act o k =>
        rw [spares_index_iff hjob]
        simp only [step, hjob]
        exact hashed_execute_iff o answer
  | request p body | batch p =>
    refine iff_of_true (fun id h => ?_) trivial
    simp only [step]
    split <;> exact h
  | respond p answer =>
    refine iff_of_true (fun id h => ?_) trivial
    simp only [step]
    split <;> exact h
  | giveUp p => exact iff_of_true (fun _ h => h) trivial

/-- No hash that a record has had is lost. -/
def HashesKept (h : List (State P D × Input P D)) (s : State P D) : Prop :=
  ∀ id, ∀ t ∈ h, Hashed id t.1.world → Hashed id s.world

/-- **No hash is lost** in exactly the runs in which every input spares the hashes, from any
database and whatever is in progress at the start. -/
theorem hashes_kept_iff [DecidableEq P] (cfg : Configs) (s : State P D) (is : List (Input P D)) :
    Always (step cfg) HashesKept s is ↔ Each (step cfg) (fun _ => Spares cfg) s is := by
  apply always_iff_each (I := HashesKept)
  · simp [HashesKept]
  · exact fun h t hkept => hkept
  · intro h t i hkept hspares id t' ht' hhashed
    apply hashed_step_iff.mpr hspares
    rcases List.mem_append.mp ht' with ht' | ht'
    · exact hkept id t' ht' hhashed
    · obtain rfl := List.mem_singleton.mp ht'
      exact hhashed
  · intro h t i _ hkept
    exact hashed_step_iff.mp fun id hhashed => hkept id (t, i) (by simp) hhashed

/-! ## A repeated request -/

/-- The settlement is executed. -/
def executedAnswer : Answer balances where
  chain := Treasury.setSettlement usdcOnly.chain 7
    ⟨.contract 1, 500, .account 3, .executed, 1, .account 1, 100⟩
  timestamp := 60
  overflowChecks := true
  failure := none
  hash := ⟨"cd34", by decide⟩

/-- The record of the settlement, which is not executed yet. -/
def proposedRecord : State Unit balances where
  jobs _ := .idle
  world :=
    ⟨⟨Collection.insertIfAbsent .empty ⟨7, "", "500", "", [], 1, .pending, none, some "aa", none⟩,
      none⟩, []⟩

/-- A request executes the settlement, and the same request comes again. -/
def repeated : List (Input Unit balances) :=
  [.request () ⟨7, none⟩, .respond () usdcOnly, .respond () usdcOnly, .respond () usdcOnly,
    .store (), .request () ⟨7, none⟩, .respond () executedAnswer, .store ()]

/-- The repeated request writes an empty hash. -/
theorem not_kept_repeated : ¬ ∀ (P : Type) (D : Deployment) (_ : DecidableEq P) (cfg : Configs)
    (s : State P D) (is : List (Input P D)), Always (step cfg) HashesKept s is := by
  intro h
  have hkept := (h Unit balances inferInstance ⟨usdcConfig, ⟨none⟩⟩ proposedRecord repeated).at_end 7
  have hfirst : Hashed 7
      (run (step ⟨usdcConfig, ⟨none⟩⟩) proposedRecord (repeated.take 5)).world :=
    ⟨_, rfl, "ab12", rfl, by decide⟩
  have hmem : (run (step ⟨usdcConfig, ⟨none⟩⟩) proposedRecord (repeated.take 5),
      Input.request () ⟨7, none⟩) ∈ transitions (step ⟨usdcConfig, ⟨none⟩⟩) proposedRecord repeated :=
    (mem_transitions_iff _).mpr
      ⟨repeated.take 5, ⟨[.respond () executedAnswer, .store ()], rfl⟩, rfl⟩
  obtain ⟨record, hrecord, hash, hhash, hne⟩ := hkept _ hmem hfirst
  have hlast : (run (step ⟨usdcConfig, ⟨none⟩⟩) proposedRecord repeated).world.db.settlements.find 7
      = some ⟨7, "", "500", "", [], 1, .executed, none, some "aa", some ""⟩ := rfl
  obtain rfl := Option.some.inj (hlast.symm.trans hrecord)
  exact hne (Option.some.inj hhash).symm

end Http.Settlements
