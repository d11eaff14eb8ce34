import Comebackhere.Invoice.Accepted

/-!
# Sweeps of expired invoices

Anybody may call `batch_expire`, with any ids, any number of times. A batch that is too long, or
that names an id without an invoice, is refused as a whole; the others expire what is due at their
times. What a series of batches leaves depends only on the ids and the times of the batches that
fit.

## Main definitions

* `Fits`: the batch is accepted while the contract is not paused
* `swept`: the ids that a series of batches finds due
* `SameButExpired`: the world after some invoices have expired

## Main results

* `SameButExpired.batch`: one more batch
* `sweeps`: what a series of batches leaves, however its ids are spread over the batches
-/

namespace Invoicing

open Soroban Checked Machine

variable {D : Deployment} {e : Env} {w w' : State D} {ids ids' : List UInt64} {id : UInt64}
  {b : UInt64 → Option Invoice} {x : Invoice} {batches batches' : List (Env × List UInt64)}

/-- The event of an expired invoice. -/
def expiredEvent (id : UInt64) : Event := ⟨[.symbol "invoice_expired"], .u64 id⟩

/-- The batch is no longer than the bound, and its ids name invoices. -/
def Fits (b : UInt64 → Option Invoice) (ids : List UInt64) : Prop :=
  ids.length ≤ maxBatchSize ∧ ∀ id ∈ ids, b id ≠ none

instance (b : UInt64 → Option Invoice) (ids : List UInt64) : Decidable (Fits b ids) :=
  have : Decidable (∀ id ∈ ids, b id ≠ none) := List.decidableBAll _ ids
  inferInstanceAs (Decidable (_ ∧ _))

/-- The ids that a series of batches, each at its own time, finds due. -/
def swept (b : UInt64 → Option Invoice) (batches : List (Env × List UInt64)) : List UInt64 :=
  (batches.filter fun p => Fits b p.2).flatMap fun p => p.2.filter (due p.1 b)

/-- The calls of a series of batches. -/
def calls (batches : List (Env × List UInt64)) : List (Input D Call) :=
  batches.map fun p => .call p.1 (.batchExpire p.2)

/-- The invoices in `ids` are expired, with one event for each, and the rest of the world is the
same. -/
structure SameButExpired (ids : List UInt64) (w w' : State D) : Prop where
  storage : w'.storage = { w.storage with invoice := relabel w.storage.invoice ids .expired }
  ledger : w'.ledger = w.ledger
  wasm : w'.wasm = w.wasm
  events : ∃ published : List UInt64, published.Nodup ∧ (∀ id, id ∈ published ↔ id ∈ ids) ∧
    w'.events = w.events ++ published.map expiredEvent

/-! ## Expired invoices -/

theorem relabel_congr {status : InvoiceStatus} (h : ∀ id, id ∈ ids' ↔ id ∈ ids) :
    relabel b ids' status = relabel b ids status := by
  ext1 id
  simp only [relabel, h id]

theorem relabel_append {status : InvoiceStatus} :
    relabel (relabel b ids status) ids' status = relabel b (ids ++ ids') status := by
  ext1 id
  by_cases hid : id ∈ ids <;> by_cases hid' : id ∈ ids' <;>
    simp [relabel, hid, hid', Function.comp_def]

/-- An invoice that has expired is no longer due, and the others are due as before. -/
theorem due_relabel (e : Env) (b : UInt64 → Option Invoice) (ids : List UInt64) (id : UInt64) :
    due e (relabel b ids .expired) id = (decide (id ∉ ids) && due e b id) := by
  by_cases hid : id ∈ ids
  · cases hb : b id <;> simp [due, relabel, hid, hb]
  · simp [due, relabel, hid]

theorem fits_relabel (b : UInt64 → Option Invoice) (ids batch : List UInt64) :
    Fits (relabel b ids .expired) batch ↔ Fits b batch := by
  simp only [Fits, ne_eq, relabel_eq_none_iff]

theorem sameButExpired_nil (w : State D) : SameButExpired [] w w :=
  ⟨by simp, rfl, rfl, [], List.nodup_nil, fun _ => Iff.rfl, by simp⟩

/-- Only which invoices have expired matters. -/
theorem SameButExpired.congr (h : SameButExpired ids w w') (hids : ∀ id, id ∈ ids' ↔ id ∈ ids) :
    SameButExpired ids' w w' := by
  obtain ⟨published, hnodup, hmem, hevents⟩ := h.events
  refine ⟨?_, h.ledger, h.wasm, published, hnodup, fun id => ?_, hevents⟩
  · rw [relabel_congr hids]
    exact h.storage
  · rw [hmem, hids]

/-- Another invoice expires. -/
theorem SameButExpired.snoc (h : SameButExpired ids w w') (hid : id ∉ ids)
    (hx : w'.storage.invoice id = some x) : SameButExpired (ids ++ [id]) w
      (invoiceExpired (storeInvoice w' id { x with status := .expired }) id) where
  storage := by
    have hs : (storeInvoice w' id { x with status := .expired }).storage =
        { w'.storage with invoice := relabel w'.storage.invoice [id] .expired } := by
      rw [← update_eq_relabel hx]
      rfl
    apply hs.trans
    rw [h.storage, relabel_append]
  ledger := h.ledger
  wasm := h.wasm
  events := by
    obtain ⟨published, hnodup, hmem, hevents⟩ := h.events
    refine ⟨published ++ [id], ?_, fun id' => ?_, ?_⟩
    · apply hnodup.append (List.nodup_singleton id)
      simpa [hmem] using hid
    · simp [hmem]
    · show w'.events ++ [expiredEvent id] = _
      rw [hevents, List.map_append, List.append_assoc, List.map_singleton]

/-! ## Batches -/

/-- One round of the loop expires the invoice, if it was due at the start and has not expired
since. -/
theorem SameButExpired.round (h : SameButExpired ids w w') (e : Env) (id : UInt64) :
    SameButExpired (ids ++ [id].filter (due e w.storage.invoice)) w (expireDue e w' id) := by
  have hdue : due e w'.storage.invoice id = (decide (id ∉ ids) && due e w.storage.invoice id) := by
    rw [h.storage]
    exact due_relabel e w.storage.invoice ids id
  by_cases hnow : due e w'.storage.invoice id = true
  · obtain ⟨hid, hstart⟩ := by simpa [hdue] using hnow
    obtain ⟨x, hx, hcond⟩ := by simpa [due, Option.any_eq_true] using hnow
    rw [List.filter_cons_of_pos hstart, List.filter_nil]
    unfold expireDue
    rw [hx]
    show SameButExpired _ w (if x.status = .pending ∧ x.expiresAt ≤ e.timestamp then _ else w')
    rw [if_pos hcond]
    exact h.snoc hid hx
  · -- nothing is left to do: it was not due at the start, or has expired already
    have hsame : expireDue e w' id = w' := by
      unfold expireDue
      cases hx : w'.storage.invoice id with
      | none => rfl
      | some x => exact if_neg (by simpa [due, hx] using hnow)
    rw [hsame]
    apply h.congr
    intro id'
    rw [hdue] at hnow
    by_cases hstart : due e w.storage.invoice id = true
    · have hid : id ∈ ids := by simpa [hstart] using hnow
      rw [List.filter_cons_of_pos hstart, List.filter_nil, List.mem_append, List.mem_singleton]
      exact ⟨fun hor => hor.elim (fun h => h) fun heq => heq ▸ hid, Or.inl⟩
    · rw [List.filter_cons_of_neg hstart, List.filter_nil, List.append_nil]

theorem SameButExpired.rounds (h : SameButExpired ids w w') (e : Env) (batch : List UInt64) :
    SameButExpired (ids ++ batch.filter (due e w.storage.invoice)) w
      (batch.foldl (expireDue e) w') := by
  induction batch generalizing ids w' with
  | nil => simpa using h
  | cons id batch ih =>
    have hround := ih (h.round e id)
    rwa [List.append_assoc, ← List.filter_append] at hround

/-- A batch is accepted when it fits, whatever has expired so far. -/
theorem SameButExpired.ok_iff (h : SameButExpired ids w w') (hpaused : isPaused w.storage = false)
    (e : Env) (batch : List UInt64) :
    (∃ w₁, batchExpire e w' batch = .ok w₁) ↔ Fits w.storage.invoice batch := by
  have hpaused' : isPaused w'.storage = false := by
    rw [h.storage]
    exact hpaused
  simp only [batchExpire_eq_ok, hpaused', true_and, exists_and_left, exists_eq, and_true]
  rw [h.storage]
  exact fits_relabel _ _ _

/-- **One more batch** expires what it finds due when it fits, and nothing otherwise. -/
theorem SameButExpired.batch (h : SameButExpired ids w w') (hpaused : isPaused w.storage = false)
    (e : Env) (batch : List UInt64) :
    SameButExpired (ids ++ swept w.storage.invoice [(e, batch)]) w
      (step w' (.call e (.batchExpire batch))) := by
  by_cases hfits : Fits w.storage.invoice batch
  · obtain ⟨w₁, hok⟩ := (h.ok_iff hpaused e batch).mpr hfits
    rw [step_of_ok rfl hok]
    obtain ⟨-, -, -, rfl⟩ := batchExpire_eq_ok.mp hok
    simpa [swept, hfits] using h.rounds e batch
  · rw [step_of_not_ok rfl ((h.ok_iff hpaused e batch).not.mpr hfits)]
    simpa [swept, hfits] using h

theorem swept_cons (b : UInt64 → Option Invoice) (p : Env × List UInt64)
    (batches : List (Env × List UInt64)) :
    swept b (p :: batches) = swept b [p] ++ swept b batches := by
  by_cases hfits : Fits b p.2 <;> simp [swept, hfits]

/-- A series of batches, after some invoices have expired. -/
theorem SameButExpired.series (h : SameButExpired ids w w') (hpaused : isPaused w.storage = false)
    (batches : List (Env × List UInt64)) :
    SameButExpired (ids ++ swept w.storage.invoice batches) w (run step w' (calls batches)) := by
  induction batches generalizing ids w' with
  | nil => simpa [swept, calls] using h
  | cons p batches ih =>
    have hrest := ih (h.batch hpaused p.1 p.2)
    rwa [List.append_assoc, ← swept_cons] at hrest

/-- **Sweeps**: while the contract is not paused, a series of batches at any times, with any ids in
any order and any number of times, expires exactly the invoices that one of the batches that fit
finds due at its time, publishes one event for each of them, and changes nothing else. Another
series that finds the same invoices due leaves the same storage. -/
theorem sweeps (w : State D) (hpaused : isPaused w.storage = false)
    (batches : List (Env × List UInt64)) :
    SameButExpired (swept w.storage.invoice batches) w (run step w (calls batches)) ∧
    ∀ batches', (∀ id, id ∈ swept w.storage.invoice batches' ↔
        id ∈ swept w.storage.invoice batches) →
      (run step w (calls batches')).storage = (run step w (calls batches)).storage := by
  have hseries : ∀ batches, SameButExpired (swept w.storage.invoice batches) w
      (run step w (calls batches)) := fun batches => by
    simpa using (sameButExpired_nil w).series hpaused batches
  refine ⟨hseries batches, fun batches' hsame => ?_⟩
  rw [(hseries batches').storage, (hseries batches).storage, relabel_congr hsame]

/-- Two invoices that expire at times 10 and 20. -/
def twoExpiring : State (isolated (.contract 0)) :=
  let invoice (id expiresAt : UInt64) : Invoice :=
    { id, merchant := .account 1, customer := .account 2, amount := 10000000,
      token := .contract 1, status := .pending, createdAt := 1, expiresAt, reference := none }
  ⟨{ Storage.empty with
      invoice := fun id => if id = 1 then some (invoice 1 10) else
        if id = 2 then some (invoice 2 20) else none
      invoiceCount := some 2 }, (), [], 0⟩

/-- At time 15 the first expires, named twice in a batch with the second; a batch with an unknown id
is refused although the second is due by then. -/
theorem twoExpiring_sweeps : SameButExpired [1, 1] twoExpiring
    (run step twoExpiring (calls [(⟨∅, 15, true⟩, [1, 2, 1]), (⟨∅, 25, true⟩, [2, 3])])) := by
  have hswept := (sweeps twoExpiring rfl
    [(⟨∅, 15, true⟩, [1, 2, 1]), (⟨∅, 25, true⟩, [2, 3])]).1
  apply hswept.congr
  intro id
  have heq : swept twoExpiring.storage.invoice
      [(⟨∅, 15, true⟩, [1, 2, 1]), (⟨∅, 25, true⟩, [2, 3])] = [1, 1] := by
    decide
  rw [heq]

end Invoicing
