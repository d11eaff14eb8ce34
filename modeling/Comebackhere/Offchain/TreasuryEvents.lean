import Comebackhere.Offchain.TreasuryReplay
import Comebackhere.Treasury.Effect

/-!
# From the treasury contract to its indexer

The indexer waits for the events of proposals, approvals and executions. The treasury contract
publishes none of them: the events it does publish are skipped, and no settlement record is ever
written.

## Main definitions

* `Skipped`: an event that the indexer does not track
* `Mirrors`: the settlement records have the status and the weight of the stored settlements
* `Follows`: the records mirror the contract once all its events are processed

## Main results

* `skipped_of_ok`: every published event is skipped
* `settlements_run`: batches of the contract's events write no settlement record
* `follows_iff`: the records follow the contract in the runs without proposals
-/

namespace Offchain.TreasuryIndexer

open Soroban Checked Machine Treasury

variable {D : Deployment} {e : Env} {w w' : Treasury.State D} {c : Call} {v : Val}

/-! ## The published events -/

/-- The name of the event is its first topic, and is not tracked. -/
def Skipped (event : Event) : Prop :=
  ∃ name topics, event.topics = .symbol name :: topics ∧ trackedEvent name = none

theorem skipped_symbol {name : Symbol} {topics : List Val} {data : Val}
    (h : trackedEvent name = none) : Skipped ⟨.symbol name :: topics, data⟩ :=
  ⟨name, topics, rfl, h⟩

theorem spendWindow_events {token : Address} {amount : UInt64}
    (h : spendWindow e w token amount = .ok w') : w'.events = w.events := by
  rcases spendWindow_eq_ok.mp h with ⟨-, rfl⟩ | ⟨limit, newSpent, -, -, -, rfl⟩
  · rfl
  · rfl

/-- **Every entry point** publishes events that are skipped. -/
theorem skipped_of_ok (h : Treasury.invoke e w c = .ok (w', v)) : Publishes Skipped w w' := by
  cases c with
  | upgrade newWasmHash =>
    obtain ⟨⟨-, -, rfl⟩, rfl⟩ := by
      simpa only [Treasury.invoke, unitResult_eq_ok, upgrade_eq_ok] using h
    exact publishes_publish rfl (skipped_symbol rfl)
  | transferAdmin admin newAdmin =>
    obtain ⟨⟨-, -, rfl⟩, rfl⟩ := by
      simpa only [Treasury.invoke, unitResult_eq_ok, transferAdmin_eq_ok] using h
    exact publishes_publish rfl (skipped_symbol rfl)
  | acceptAdmin newAdmin =>
    obtain ⟨⟨-, -, -, rfl⟩, rfl⟩ := by
      simpa only [Treasury.invoke, unitResult_eq_ok, acceptAdmin_eq_ok] using h
    exact publishes_publish rfl (skipped_symbol rfl)
  | initializeContract signers threshold admin =>
    obtain ⟨⟨-, -, rfl⟩, rfl⟩ := by
      simpa only [Treasury.invoke, unitResult_eq_ok, initializeContract_eq_ok] using h
    exact publishes_of_eq rfl
  | setSigner admin signer weight =>
    obtain ⟨⟨-, -, rfl⟩, rfl⟩ := by
      simpa only [Treasury.invoke, unitResult_eq_ok, setSigner_eq_ok] using h
    exact publishes_of_eq rfl
  | rotateSigner admin oldSigner newSigner newWeight =>
    obtain ⟨⟨-, -, -, -, rfl⟩, rfl⟩ := by
      simpa only [Treasury.invoke, unitResult_eq_ok, rotateSigner_eq_ok] using h
    exact publishes_publish rfl (skipped_symbol rfl)
  | proposeSettlement signer token amount merchant =>
    simp only [Treasury.invoke, bind_eq_ok, pure_eq_ok, Prod.mk.injEq] at h
    obtain ⟨⟨w₁, id⟩, h, rfl, rfl⟩ := h
    obtain ⟨-, -, -, -, expiresAt, nextId, -, -, rfl⟩ := proposeSettlement_eq_ok.mp h
    exact publishes_of_eq rfl
  | cancelSettlement caller id =>
    obtain ⟨⟨-, -, x, -, -, a, -, -, rfl⟩, rfl⟩ := by
      simpa only [Treasury.invoke, unitResult_eq_ok, cancelSettlement_eq_ok] using h
    exact publishes_publish rfl (skipped_symbol rfl)
  | approveSettlement signer id =>
    obtain ⟨⟨-, -, x, -, -, -, n, -, rfl⟩, rfl⟩ := by
      simpa only [Treasury.invoke, unitResult_eq_ok, approveSettlement_eq_ok] using h
    exact publishes_of_eq rfl
  | executeSettlement signer id token =>
    obtain ⟨⟨-, -, x, -, -, -, -, rfl⟩, rfl⟩ := by
      simpa only [Treasury.invoke, unitResult_eq_ok, executeSettlement_eq_ok] using h
    exact publishes_of_eq rfl
  | pause admin =>
    obtain ⟨⟨-, rfl⟩, rfl⟩ := by
      simpa only [Treasury.invoke, unitResult_eq_ok, pause_eq_ok] using h
    exact publishes_publish rfl (skipped_symbol rfl)
  | unpause admin =>
    obtain ⟨⟨-, rfl⟩, rfl⟩ := by
      simpa only [Treasury.invoke, unitResult_eq_ok, unpause_eq_ok] using h
    exact publishes_publish rfl (skipped_symbol rfl)
  | setSettlementTtl admin ttlSeconds =>
    obtain ⟨⟨-, -, -, rfl⟩, rfl⟩ := by
      simpa only [Treasury.invoke, unitResult_eq_ok, setSettlementTtl_eq_ok] using h
    exact publishes_of_eq rfl
  | updateThreshold admin newThreshold =>
    obtain ⟨⟨-, -, -, total, -, -, rfl⟩, rfl⟩ := by
      simpa only [Treasury.invoke, unitResult_eq_ok, updateThreshold_eq_ok] using h
    exact publishes_publish rfl (skipped_symbol rfl)
  | raiseDispute signer id reason =>
    obtain ⟨⟨-, -, x, -, -, rfl⟩, rfl⟩ := by
      simpa only [Treasury.invoke, unitResult_eq_ok, raiseDispute_eq_ok] using h
    exact publishes_of_eq rfl
  | resolveDispute signer id inFavor =>
    obtain ⟨⟨-, -, x, -, -, rfl⟩, rfl⟩ := by
      simpa only [Treasury.invoke, unitResult_eq_ok, resolveDispute_eq_ok] using h
    exact publishes_publish rfl (skipped_symbol rfl)
  | updateSettlementMerchant merchantCaller id newMerchant =>
    obtain ⟨⟨-, -, x, -, -, -, rfl⟩, rfl⟩ := by
      simpa only [Treasury.invoke, unitResult_eq_ok, updateSettlementMerchant_eq_ok] using h
    exact publishes_publish rfl (skipped_symbol rfl)
  | deposit source token amount =>
    obtain ⟨⟨-, -, -, l, -, rfl⟩, rfl⟩ := by
      simpa only [Treasury.invoke, unitResult_eq_ok, deposit_eq_ok] using h
    exact publishes_publish rfl (skipped_symbol rfl)
  | setDailyWithdrawLimit admin token limit =>
    obtain ⟨⟨-, -, rfl⟩, rfl⟩ := by
      simpa only [Treasury.invoke, unitResult_eq_ok, setDailyWithdrawLimit_eq_ok] using h
    exact publishes_publish rfl (skipped_symbol rfl)
  | withdraw admin token recipient amount =>
    obtain ⟨⟨-, -, w₁, l, hs, -, rfl⟩, rfl⟩ := by
      simpa only [Treasury.invoke, unitResult_eq_ok, withdraw_eq_ok] using h
    have hevents := spendWindow_events hs
    exact publishes_of_eq hevents
  | addTokenToAllowlist admin token =>
    obtain ⟨⟨-, -, rfl⟩, rfl⟩ := by
      simpa only [Treasury.invoke, unitResult_eq_ok, addTokenToAllowlist_eq_ok] using h
    exact publishes_of_eq rfl
  | removeTokenFromAllowlist admin token =>
    obtain ⟨⟨-, -, rfl⟩, rfl⟩ := by
      simpa only [Treasury.invoke, unitResult_eq_ok, removeTokenFromAllowlist_eq_ok] using h
    exact publishes_of_eq rfl

/-! ## What the indexer does with them -/

theorem readHeader_of_skipped {received : RpcEvent} {event : Event}
    (hcarries : received.Carries event) (hskipped : Skipped event) :
    readHeader received = .ok none := by
  obtain ⟨name, topics, htopics, hname⟩ := hskipped
  have hsymbol : topicSymbol received.topic 0 = .ok (some name) := by
    rw [hcarries.topic, htopics]
    rfl
  simp [readHeader, hsymbol, hname]

theorem eventIdOf_of_skipped {received : RpcEvent} {event : Event}
    (hcarries : received.Carries event) (hskipped : Skipped event) :
    eventIdOf received = none := by
  rw [eventIdOf, readHeader_of_skipped hcarries hskipped]

/-- The batches process the events of the contract, in order and each once. -/
structure Processes (answers : List Answer) (w : Treasury.State D) : Prop where
  carries : List.Forall₂ RpcEvent.Carries (answers.flatMap Answer.events) w.events
  pages : ∀ answer ∈ answers, answer.events.length ≤ eventLimit

/-- A page with one of the contract's events. -/
def pageOf (event : Event) : Answer where
  response := some ⟨[.of event], none, none⟩

/-- The events can be processed one by one. -/
theorem processes_pageOf (w : Treasury.State D) : Processes (w.events.map pageOf) w where
  carries := by
    have hevents : (w.events.map pageOf).flatMap Answer.events = w.events.map .of := by
      rw [List.flatMap_map, List.map_eq_flatMap]
      rfl
    rw [hevents]
    exact List.forall₂_map_left_iff.mpr (List.forall₂_same.mpr fun event _ => RpcEvent.of_carries event)
  pages := by
    intro answer hanswer
    obtain ⟨event, -, rfl⟩ := List.mem_map.mp hanswer
    exact Nat.le_of_ble_eq_true rfl

/-- **No settlement record is written** by batches of skipped events. -/
theorem settlements_run {cfg : Config} {answers : List Answer} (hprocesses : Processes answers w)
    (hskipped : ∀ event ∈ w.events, Skipped event) :
    (run (batch cfg) World.empty answers).db.settlements = .empty := by
  have hnone : ∀ event ∈ answers.flatMap Answer.events, eventIdOf event = none := by
    intro received hreceived
    obtain ⟨i, hlt, rfl⟩ := List.mem_iff_getElem.mp hreceived
    have hlt' : i < w.events.length := hprocesses.carries.length_eq ▸ hlt
    exact eventIdOf_of_skipped (hprocesses.carries.get hlt hlt') (hskipped _ (List.getElem_mem hlt'))
  -- an event without an id is remembered for want of one
  refine (run_of_remembered fun event hevent eventId hid => ?_).settlements
  rw [hnone event hevent] at hid
  cases hid

/-! ## Following the contract -/

/-- The settlement records have the status and the approval weight of the stored settlements. -/
def Mirrors (db : Db) (w : Treasury.State D) : Prop :=
  ∀ id : UInt64, (db.settlements.find id.toNat).map (fun r => (r.status, r.approvalWeight)) =
    (w.storage.settlement id).map fun x => (x.status, x.approvalWeight.toNat)

/-- Once the indexer has processed the events of the contract, its records mirror it. -/
def Follows (w : Treasury.State D) : Prop :=
  ∀ cfg answers, Processes answers w → Mirrors (run (batch cfg) World.empty answers).db w

theorem mirrors_empty_iff {db : Db} (h : db.settlements = .empty) :
    Mirrors db w ↔ ∀ id, w.storage.settlement id = none := by
  apply forall_congr'
  intro id
  rw [h, Collection.find_empty, Option.map_none, eq_comm, Option.map_eq_none_iff]

theorem skipped_step (hskipped : ∀ event ∈ w.events, Skipped event)
    (i : Soroban.Input D Call) : ∀ event ∈ (Treasury.step w i).events, Skipped event :=
  (publishes_step skipped_of_ok w i).all hskipped

/-- The records follow the contract exactly as long as it stores no settlement. -/
theorem follows_state_iff (hskipped : ∀ event ∈ w.events, Skipped event) :
    Follows w ↔ ∀ id, w.storage.settlement id = none := by
  constructor
  · intro hfollows
    have hprocesses := processes_pageOf w
    exact (mirrors_empty_iff (settlements_run hprocesses hskipped)).mp
      (hfollows ⟨none⟩ _ hprocesses)
  · intro hnone cfg answers hprocesses
    exact (mirrors_empty_iff (settlements_run hprocesses hskipped)).mpr hnone

/-- The input proposes no settlement. -/
def ProposesNone (t : Treasury.State D × Soroban.Input D Call) : Prop :=
  IfAccepted Treasury.invoke (fun _ c _ => ∀ signer token amount merchant,
    c ≠ .proposeSettlement signer token amount merchant) t

theorem none_of_step {i : Soroban.Input D Call} (hnone : ∀ id, w.storage.settlement id = none)
    (hproposes : ProposesNone (w, i)) :
    ∀ id, (Treasury.step w i).storage.settlement id = none := by
  intro id
  rcases step_cases w i with ⟨-, hs⟩ | ⟨e, c, v, -, ha, heff⟩
  · rw [hs, hnone]
  · have hc := (ifAccepted_iff ha).mp hproposes
    cases heff.book with
    | unchanged _ hb => rw [hb, hnone]
    | proposed => exact absurd rfl (hc _ _ _ _)
    | edited hx =>
      -- there is no settlement to edit
      simp [hnone] at hx

theorem proposesNone_of_none {i : Soroban.Input D Call}
    (hnone : ∀ id, (Treasury.step w i).storage.settlement id = none) : ProposesNone (w, i) := by
  rcases step_cases w i with ⟨hn, -⟩ | ⟨e, c, v, -, ha, heff⟩
  · exact ifAccepted_of_none hn
  · refine (ifAccepted_iff ha).mpr ?_
    rintro signer token amount merchant rfl
    cases heff.book with
    | unchanged hc _ => exact nomatch hc
    | @proposed _ _ _ _ id x _ _ _ hb => simpa [hb] using hnone id
    | edited hx hedit _ => cases hedit

/-- **The settlement records follow the contract** throughout exactly the runs without
proposals. -/
theorem follows_iff (l : D.Ledger) (wasm : WasmHash) (is : List (Soroban.Input D Call)) :
    Always Treasury.step (fun _ w => Follows w) (fresh l wasm) is ↔
      Each Treasury.step (fun _ w i => ProposesNone (w, i)) (fresh l wasm) is := by
  -- as long as the records follow there are no settlements, and all events are skipped
  refine always_iff_each (I := fun _ w => (∀ event ∈ w.events, Skipped event) ∧
    ∀ id, w.storage.settlement id = none) ⟨by simp [fresh], fun _ => rfl⟩
    (fun h w hI => (follows_state_iff hI.1).mpr hI.2) ?_ ?_ is
  · rintro h w i ⟨hskipped, hnone⟩ hproposes
    exact ⟨skipped_step hskipped i, none_of_step hnone hproposes⟩
  · rintro h w i ⟨hskipped, -⟩ hfollows
    exact proposesNone_of_none ((follows_state_iff (skipped_step hskipped i)).mp hfollows)

/-- A signer proposes a settlement. -/
def proposal : List (Soroban.Input (isolated (.contract 0)) Call) :=
  [.call ⟨{.account 0}, 0, true⟩ (.initializeContract [(.account 1, 1)] 1 (.account 0)),
    .call ⟨{.account 1}, 1, true⟩
      (.proposeSettlement (.account 1) (.contract 1) 500 (.account 3))]

/-- **The proposal is not seen**: it publishes no event, and settlement 1 gets no record. -/
theorem proposal_not_followed :
    ¬ Always Treasury.step (fun _ w => Follows w) (fresh () 0) proposal := by
  intro h
  have hfollows := h.at_end ⟨none⟩ [] ⟨.nil, by simp⟩ 1
  cases hfollows

end Offchain.TreasuryIndexer
