import Comebackhere.Offchain.InvoiceFrontier

/-!
# The calls of the hook

The hook is called for an event after the event is marked as applied. Between the two a process
has a pending call: it makes the call next, unless it crashes.

## Main definitions

* `Delivered`: the calls made and the calls pending are those of the frontier

## Main results

* `Delivered.apply`, `Delivered.call`, `Delivered.saveCursor`, `Delivered.crash`: the steps that
  change the calls or what is claimed of them
-/

namespace Offchain

variable {rpc : Rpc} {cfg : Config} {P : Type}

/-- The ids of the events that the hook was called for. -/
def World.called (w : World) : List (Option String) := w.calls.map (·.1)

/-- The hook was called for an event, or a process is about to call it. -/
def Announced (w : World) (g : Frontier P) (eventId : String) : Prop :=
  some eventId ∈ w.called ∨ ∃ p, g.pending p = some eventId

/-- **The calls are those of the frontier**: each is for an event that was applied in the run, none
is made twice, and one that a process is about to make is made by no other. Where no process can
crash before a call (`sure`), each event that was applied is called for or about to be, and each
event that a single process has saved its cursor behind is called for. -/
structure Delivered (start : Start rpc cfg) (sure : Prop) (w : World) (g : Frontier P) : Prop where
  nodup : w.called.Nodup
  calls_lt : ∀ call ∈ w.calls, ∃ j record, start.base ≤ j ∧ j < g.count ∧
    (rpc.log cfg)[j]? = some record ∧ call = (some record.eventId, record.transition)
  pending_lt : ∀ p eventId, g.pending p = some eventId → ∃ j record, start.base ≤ j ∧
    j < g.count ∧ (rpc.log cfg)[j]? = some record ∧ eventId = record.eventId
  pending_new : ∀ p eventId, g.pending p = some eventId → some eventId ∉ w.called
  pending_unique : ∀ p q eventId, g.pending p = some eventId → g.pending q = some eventId → p = q
  complete : sure → ∀ j record, start.base ≤ j → j < g.count → (rpc.log cfg)[j]? = some record →
    Announced w g record.eventId
  complete_cursor : sure → Subsingleton P → ∀ j record, start.base ≤ j →
    j < rpc.rank cfg (rpc.resumePosition cfg w.db.cursor) → (rpc.log cfg)[j]? = some record →
      some record.eventId ∈ w.called

theorem update_eq_some [DecidableEq P] {pending : P → Option String} {new : Option String}
    {p q : P} {eventId : String} (h : Function.update pending p new q = some eventId) :
    q = p ∧ new = some eventId ∨ q ≠ p ∧ pending q = some eventId := by
  by_cases hqp : q = p
  · subst hqp
    rw [Function.update_self] at h
    exact Or.inl ⟨rfl, h⟩
  · rw [Function.update_of_ne hqp] at h
    exact Or.inr ⟨hqp, h⟩

namespace Delivered

variable {start : Start rpc cfg} {sure : Prop} {w : World} {g : Frontier P}
  {record : InvoiceEventRecord} {p : P}

/-- Nothing is called for or pending at the start. -/
theorem of_start (start : Start rpc cfg) (sure : Prop) :
    Delivered start sure ⟨start.db, []⟩
      (⟨start.base, .fresh, none, fun _ => none⟩ : Frontier P) where
  nodup := List.nodup_nil
  calls_lt := by simp
  pending_lt := by simp
  pending_new := by simp
  pending_unique := by simp
  complete _ j _ hj hlt := absurd hlt (not_lt.mpr hj)
  complete_cursor _ _ j _ hj hlt := by
    have hle : rpc.rank cfg (rpc.resumePosition cfg start.db.cursor) ≤ start.base :=
      Rpc.rank_mono start.resume_le
    dsimp only at hlt
    omega

theorem called_lt (h : Delivered start sure w g) {eventId : Option String}
    (hmem : eventId ∈ w.called) : ∃ j record, start.base ≤ j ∧ j < g.count ∧
      (rpc.log cfg)[j]? = some record ∧ eventId = some record.eventId := by
  obtain ⟨call, hcall, rfl⟩ := List.mem_map.mp hmem
  obtain ⟨j, record, hj, hlt, hrecord, rfl⟩ := h.calls_lt call hcall
  exact ⟨j, record, hj, hlt, hrecord, rfl⟩

/-- The call for an event is with its transition. -/
theorem mem_calls (h : Delivered start sure w g) {j : ℕ} (hrecord : (rpc.log cfg)[j]? = some record)
    (hmem : some record.eventId ∈ w.called) :
    (some record.eventId, record.transition) ∈ w.calls := by
  obtain ⟨call, hcall, heventId⟩ := List.mem_map.mp hmem
  obtain ⟨i, record', -, -, hrecord', rfl⟩ := h.calls_lt call hcall
  have hij := Rpc.log_index_unique hrecord' hrecord (Option.some.inj heventId)
  rw [hij, hrecord] at hrecord'
  rwa [Option.some.inj hrecord']

/-- A write to other documents than the cursor. -/
theorem frame (h : Delivered start sure w g) (db : Db) (hcursor : db.cursor = w.db.cursor)
    (phase : Phase) (owner : Option P) :
    Delivered start sure { w with db } { g with phase, owner } :=
  { h with
    complete_cursor := fun hsure halone => by
      dsimp only
      rw [hcursor]
      exact h.complete_cursor hsure halone }

/-- A cursor that is not ahead of the frontier is saved by a process that has no pending call. -/
theorem saveCursor (h : Delivered start sure w g) (hp : g.pending p = none) {next : IndexerCursor}
    (hresume : rpc.rank cfg (rpc.resumePosition cfg (some next)) ≤ g.count) :
    Delivered start sure { w with db.cursor := some next } g :=
  { h with
    complete_cursor := by
      intro hsure halone j record hj hlt hrecord
      rcases h.complete hsure j record hj (hlt.trans_le hresume) hrecord with hmem | ⟨q, hq⟩
      · exact hmem
      · -- the only process saves the cursor, and it has nothing pending
        rw [halone.elim q p, hp] at hq
        cases hq }

variable [DecidableEq P]

/-- The event at the frontier is applied: its call is pending. -/
theorem apply (h : Delivered start sure w g) (hbase : start.base ≤ g.count)
    (hrecord : (rpc.log cfg)[g.count]? = some record) (hp : g.pending p = none) (db : Db)
    (hcursor : db.cursor = w.db.cursor) :
    Delivered start sure { w with db }
      ⟨g.count + 1, .fresh, none, Function.update g.pending p (some record.eventId)⟩ := by
  -- the ids called for and pending before are those of other events
  have hfresh : ∀ j record', j < g.count → (rpc.log cfg)[j]? = some record' →
      record'.eventId ≠ record.eventId := fun j record' hlt hrecord' heq =>
    hlt.ne (Rpc.log_index_unique hrecord' hrecord heq)
  have hnew : some record.eventId ∉ w.called := by
    intro hmem
    obtain ⟨j, record', -, hlt, hrecord', heq⟩ := h.called_lt hmem
    exact hfresh j record' hlt hrecord' (Option.some.inj heq).symm
  have hnewPending : ∀ q, g.pending q ≠ some record.eventId := by
    intro q hq
    obtain ⟨j, record', -, hlt, hrecord', heq⟩ := h.pending_lt q _ hq
    exact hfresh j record' hlt hrecord' heq.symm
  refine
    { nodup := h.nodup
      calls_lt := ?calls_lt
      pending_lt := ?pending_lt
      pending_new := ?pending_new
      pending_unique := ?pending_unique
      complete := ?complete
      complete_cursor := ?complete_cursor }
  case calls_lt =>
    intro call hcall
    obtain ⟨j, record', hj, hlt, hrest⟩ := h.calls_lt call hcall
    exact ⟨j, record', hj, Nat.lt_succ_of_lt hlt, hrest⟩
  case pending_lt =>
    intro q eventId hq
    rcases update_eq_some hq with ⟨-, heq⟩ | ⟨-, hq⟩
    · exact ⟨g.count, record, hbase, Nat.lt_succ_self _, hrecord, (Option.some.inj heq).symm⟩
    · obtain ⟨j, record', hj, hlt, hrest⟩ := h.pending_lt q eventId hq
      exact ⟨j, record', hj, Nat.lt_succ_of_lt hlt, hrest⟩
  case pending_new =>
    intro q eventId hq
    rcases update_eq_some hq with ⟨-, heq⟩ | ⟨-, hq⟩
    · exact heq ▸ hnew
    · exact h.pending_new q eventId hq
  case pending_unique =>
    intro q q' eventId hq hq'
    rcases update_eq_some hq with ⟨hqp, heq⟩ | ⟨-, hold⟩ <;>
      rcases update_eq_some hq' with ⟨hqp', heq'⟩ | ⟨-, hold'⟩
    · exact hqp.trans hqp'.symm
    · exact (hnewPending q' (hold'.trans heq.symm)).elim
    · exact (hnewPending q (hold.trans heq'.symm)).elim
    · exact h.pending_unique q q' eventId hold hold'
  case complete =>
    intro hsure j record' hj hlt hrecord'
    dsimp only at hlt
    rcases Nat.lt_succ_iff_lt_or_eq.mp hlt with hlt | rfl
    · -- what was pending is still, as the process had nothing pending itself
      refine (h.complete hsure j record' hj hlt hrecord').imp_right fun ⟨q, hq⟩ => ⟨q, ?_⟩
      have hqp : q ≠ p := fun heq => by simp [heq, hp] at hq
      exact (Function.update_of_ne hqp _ _).trans hq
    · obtain rfl := Synced.eq_of_count hrecord hrecord'
      exact Or.inr ⟨p, Function.update_self _ _ _⟩
  case complete_cursor =>
    dsimp only
    rw [hcursor]
    exact h.complete_cursor

/-- The pending call of a process is made. -/
theorem call (h : Delivered start sure w g) {n : ℕ} (hrecord : (rpc.log cfg)[n]? = some record)
    (hp : g.pending p = some record.eventId) :
    Delivered start sure
      { w with calls := w.calls ++ [(some record.eventId, record.transition)] }
      { g with pending := Function.update g.pending p none } := by
  have hcalled : ({ w with calls := w.calls ++ [(some record.eventId, record.transition)] } :
      World).called = w.called ++ [some record.eventId] := by simp [World.called]
  -- what is pending afterwards was pending before, of another process
  have hother : ∀ q eventId, Function.update g.pending p none q = some eventId →
      q ≠ p ∧ g.pending q = some eventId := by
    intro q eventId hq
    rcases update_eq_some hq with ⟨-, heq⟩ | hq
    · cases heq
    · exact hq
  refine
    { nodup := ?nodup
      calls_lt := ?calls_lt
      pending_lt := fun q eventId hq => h.pending_lt q eventId (hother q eventId hq).2
      pending_new := ?pending_new
      pending_unique := fun q q' eventId hq hq' =>
        h.pending_unique q q' eventId (hother q eventId hq).2 (hother q' eventId hq').2
      complete := ?complete
      complete_cursor := ?complete_cursor }
  case nodup =>
    rw [hcalled, List.nodup_append]
    refine ⟨h.nodup, List.nodup_singleton _, fun a ha b hb heq => ?_⟩
    obtain rfl := List.mem_singleton.mp hb
    exact h.pending_new p record.eventId hp (heq ▸ ha)
  case calls_lt =>
    intro call hcall
    rcases List.mem_append.mp hcall with hcall | hcall
    · exact h.calls_lt call hcall
    · obtain ⟨j, record', hj, hlt, hrecord', heq⟩ := h.pending_lt p record.eventId hp
      have hjn := Rpc.log_index_unique hrecord' hrecord heq.symm
      exact ⟨j, record, hj, hlt, hjn ▸ hrecord, List.mem_singleton.mp hcall⟩
  case pending_new =>
    intro q eventId hq hmem
    obtain ⟨hqp, hq⟩ := hother q eventId hq
    rw [hcalled, List.mem_append, List.mem_singleton] at hmem
    rcases hmem with hmem | heq
    · exact h.pending_new q eventId hq hmem
    · exact hqp (h.pending_unique q p eventId hq (hp.trans heq.symm))
  case complete =>
    intro hsure j record' hj hlt hrecord'
    unfold Announced
    rw [hcalled, List.mem_append, List.mem_singleton]
    rcases h.complete hsure j record' hj hlt hrecord' with hmem | ⟨q, hq⟩
    · exact Or.inl (Or.inl hmem)
    · -- the event was pending of the process that makes the call, or stays pending
      by_cases hqp : q = p
      · subst hqp
        exact Or.inl (Or.inr (hq.symm.trans hp))
      · exact Or.inr ⟨q, (Function.update_of_ne hqp _ _).trans hq⟩
  case complete_cursor =>
    intro hsure halone j record' hj hlt hrecord'
    rw [hcalled]
    exact List.mem_append_left _ (h.complete_cursor hsure halone j record' hj hlt hrecord')

/-- A process crashes, and a call it was about to make is lost. -/
theorem crash (h : Delivered start sure w g) (hp : g.pending p = none ∨ ¬ sure)
    (owner : Option P) :
    Delivered start sure w { g with owner, pending := Function.update g.pending p none } := by
  have hother : ∀ q eventId, Function.update g.pending p none q = some eventId →
      g.pending q = some eventId := by
    intro q eventId hq
    rcases update_eq_some hq with ⟨-, heq⟩ | ⟨-, hq⟩
    · cases heq
    · exact hq
  exact
    { h with
      pending_lt := fun q eventId hq => h.pending_lt q eventId (hother q eventId hq)
      pending_new := fun q eventId hq => h.pending_new q eventId (hother q eventId hq)
      pending_unique := fun q q' eventId hq hq' =>
        h.pending_unique q q' eventId (hother q eventId hq) (hother q' eventId hq')
      complete := by
        intro hsure
        have hnone := hp.resolve_right (not_not.mpr hsure)
        rw [← hnone, Function.update_eq_self]
        exact h.complete hsure }

end Delivered

end Offchain
