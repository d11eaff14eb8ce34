import Comebackhere.Invoice.Accepted

/-!
# Batches of payments

`mark_paids` checks and stores one invoice after another, so a later check runs on what the earlier
ones have stored. The batch is accepted when every invoice of it could be paid at the start, and
none comes twice; the order does not matter.

## Main definitions

* `SameButPaid`: the world after the invoices of a batch are paid

## Main results

* `markPaids_batch`: which batches are accepted, what they leave, and that the order is irrelevant
-/

namespace Invoicing

open Soroban Checked

variable {D : Deployment} {e : Env} {w w' : State D} {ids ids' : List UInt64}

/-- The event of a paid invoice. -/
def paidEvent (id : UInt64) : Event := ⟨[.symbol "invoice_paid"], .u64 id⟩

/-- The invoices in `ids` are paid and the rest of the world is the same; the payments are
published in some order. -/
structure SameButPaid (ids : List UInt64) (w w' : State D) : Prop where
  storage : w'.storage = { w.storage with invoice := relabel w.storage.invoice ids .paid }
  ledger : w'.ledger = w.ledger
  wasm : w'.wasm = w.wasm
  events : ∃ published, published.Perm (ids.map paidEvent) ∧ w'.events = w.events ++ published

/-- A batch in another order leaves the same world. -/
theorem SameButPaid.perm (h : SameButPaid ids w w') (hp : ids'.Perm ids) :
    SameButPaid ids' w w' := by
  obtain ⟨published, hpublished, hevents⟩ := h.events
  refine ⟨?_, h.ledger, h.wasm, published, hpublished.trans (hp.symm.map paidEvent), hevents⟩
  have hsame : relabel w.storage.invoice ids' .paid = relabel w.storage.invoice ids .paid := by
    funext id
    simp only [relabel, hp.mem_iff]
  rw [h.storage, hsame]

theorem setPaid_wasm (w : State D) (id : UInt64) : (setPaid w id).wasm = w.wasm := by
  unfold setPaid
  split <;> rfl

theorem foldl_setPaid_wasm (ids : List UInt64) (w : State D) :
    (ids.foldl setPaid w).wasm = w.wasm := by
  induction ids generalizing w with
  | nil => rfl
  | cons id ids ih => rw [List.foldl_cons, ih, setPaid_wasm]

theorem setPaid_events {id : UInt64} (hid : w.storage.invoice id ≠ none) :
    (setPaid w id).events = w.events ++ [paidEvent id] := by
  obtain ⟨x, hx⟩ := Option.ne_none_iff_exists'.mp hid
  rw [setPaid, hx]
  rfl

/-- The payments are published in the order of the batch. -/
theorem foldl_setPaid_events (hids : ∀ id ∈ ids, w.storage.invoice id ≠ none) :
    (ids.foldl setPaid w).events = w.events ++ ids.map paidEvent := by
  induction ids generalizing w with
  | nil => simp
  | cons id ids ih =>
    have hrest : ∀ id' ∈ ids, (setPaid w id).storage.invoice id' ≠ none := by
      intro id' hid'
      rw [setPaid_storage, ne_eq, relabel_eq_none_iff]
      exact hids id' (List.mem_cons_of_mem _ hid')
    rw [List.foldl_cons, ih hrest, setPaid_events (hids id List.mem_cons_self), List.map_cons,
      List.append_assoc, List.singleton_append]

/-- **An accepted batch** pays its invoices, and does nothing else. -/
theorem sameButPaid_of_ok (h : markPaids e w ids = .ok w') : SameButPaid ids w w' := by
  obtain ⟨-, -, -, hpay, rfl⟩ := markPaids_eq_ok.mp h
  obtain ⟨hstorage, hledger⟩ := foldl_setPaid ids w
  refine ⟨hstorage, hledger, foldl_setPaid_wasm ids w, _, List.Perm.refl _,
    foldl_setPaid_events fun id hid => ?_⟩
  obtain ⟨x, hx, -⟩ := hpay id hid
  simp [hx]

/-- The batches that are accepted are accepted in every order. -/
theorem markPaids_ok_perm (hp : ids'.Perm ids) :
    (∃ w', markPaids e w ids' = .ok w') ↔ ∃ w', markPaids e w ids = .ok w' := by
  simp only [markPaids_eq_ok, exists_and_left, exists_eq, and_true]
  rw [hp.length_eq, hp.nodup_iff]
  simp only [hp.mem_iff]

/-- **Holds**: while the contract is not paused, a batch is accepted exactly when it is no longer
than the bound and its ids are distinct and name payable invoices. An accepted batch pays exactly
its invoices and changes nothing else, a refused one changes nothing, and in every order the
verdict and the world that is left are the same. -/
theorem markPaids_batch (e : Env) (w : State D) (ids : List UInt64)
    (hpaused : isPaused w.storage = false) :
    ((∃ w', markPaids e w ids = .ok w') ↔
      ids.length ≤ maxBatchSize ∧ ids.Nodup ∧ ∀ id ∈ ids, Payable e w id) ∧
    ((∃ w', markPaids e w ids = .ok w') →
      SameButPaid ids w (step w (.call e (.markPaids ids)))) ∧
    ((¬ ∃ w', markPaids e w ids = .ok w') → step w (.call e (.markPaids ids)) = w) ∧
    ∀ ids', ids'.Perm ids →
      ((∃ w', markPaids e w ids' = .ok w') ↔ ∃ w', markPaids e w ids = .ok w') ∧
      ((∃ w', markPaids e w ids = .ok w') →
        SameButPaid ids w (step w (.call e (.markPaids ids')))) ∧
      ((¬ ∃ w', markPaids e w ids = .ok w') → step w (.call e (.markPaids ids')) = w) := by
  have hpaid : ∀ ids, (∃ w', markPaids e w ids = .ok w') →
      SameButPaid ids w (step w (.call e (.markPaids ids))) := by
    rintro ids ⟨w', h⟩
    rw [step_of_ok rfl h]
    exact sameButPaid_of_ok h
  have hrefused : ∀ ids, (¬ ∃ w', markPaids e w ids = .ok w') →
      step w (.call e (.markPaids ids)) = w := fun ids hnone => step_of_not_ok rfl hnone
  refine ⟨?_, hpaid ids, hrefused ids, fun ids' hp => ⟨markPaids_ok_perm hp, fun hok => ?_,
    fun hnone => hrefused ids' ((markPaids_ok_perm hp).not.mpr hnone)⟩⟩
  · simp only [markPaids_eq_ok, hpaused, exists_and_left, exists_eq, and_true, true_and]
  · exact (hpaid ids' ((markPaids_ok_perm hp).mpr hok)).perm hp.symm

/-- Two pending invoices of one merchant. -/
def twoPending : State (isolated (.contract 0)) :=
  let invoice (id : UInt64) : Invoice :=
    { id, merchant := .account 1, customer := .account 2, amount := 10000000,
      token := .contract 1, status := .pending, createdAt := 1, expiresAt := 100,
      reference := none }
  ⟨{ Storage.empty with
      invoice := fun id => if id = 1 ∨ id = 2 then some (invoice id) else none
      invoiceCount := some 2 }, (), [], 0⟩

/-- They are paid in one batch, in either order; a batch that names one of them twice changes
nothing. -/
theorem twoPending_batch :
    SameButPaid [2, 1] twoPending (step twoPending (.call ⟨∅, 5, true⟩ (.markPaids [1, 2]))) ∧
    step twoPending (.call ⟨∅, 5, true⟩ (.markPaids [1, 1])) = twoPending := by
  have hpayable : ∀ id ∈ [(2 : UInt64), 1], Payable ⟨∅, 5, true⟩ twoPending id := by
    intro id hid
    have hid : id = 1 ∨ id = 2 := by simpa [or_comm] using hid
    have hdue : (5 : UInt64) < 100 := by decide
    exact ⟨_, if_pos hid, ⟨rfl, hdue⟩, fun _ hc => nomatch hc⟩
  obtain ⟨hiff, -, -, hperm⟩ := markPaids_batch ⟨∅, 5, true⟩ twoPending [2, 1] rfl
  obtain ⟨-, hpaid, -⟩ := hperm [1, 2] (List.Perm.swap _ _ _)
  obtain ⟨hiff', -, hrefused, -⟩ := markPaids_batch ⟨∅, 5, true⟩ twoPending [1, 1] rfl
  refine ⟨hpaid (hiff.mpr ⟨by decide, by decide, hpayable⟩), hrefused fun hok => ?_⟩
  exact absurd (hiff'.mp hok).2.1 (by decide)

end Invoicing
