import Comebackhere.Invoice.Effect

/-!
# The lifecycle of an invoice

After an invoice is created its status moves along five edges, under the clock of the invocation,
and nothing else of it changes. The invoices are numbered by a counter that starts at 0 when it was
never stored and is set to 0 by `initialize`, so an invoice created before the initialization can
be overwritten by one created after it.

## Main definitions

* `Moves`: the edges of the lifecycle
* `Lives`: one input moves stored invoices along these edges, and keeps them otherwise
* `Lifecycle`: every input so far did, and what was stored once is stored still
* `TakesFreeId`: the invocation writes no new invoice over another

## Main results

* `lifecycle_iff`: the lifecycle holds throughout the runs that take free ids
-/

namespace Invoicing

open Soroban Checked Machine

variable {D : Deployment} {e : Env} {w : State D} {i : Input D Call} {h : History D} {c : Call}
  {v : Val}

/-- The statuses that are never left. -/
def InvoiceStatus.terminal : InvoiceStatus → Bool
  | .expired | .cancelled | .released => true
  | .pending | .paid | .refundRequested => false

/-- The status of an invoice moves at the time `now`. -/
inductive Moves (now : UInt64) (x : Invoice) : InvoiceStatus → Prop
  | pay (hpending : x.status = .pending) (hdue : now < x.expiresAt) : Moves now x .paid
  | expire (hpending : x.status = .pending) (hdue : x.expiresAt ≤ now) : Moves now x .expired
  | cancel (hpending : x.status = .pending) : Moves now x .cancelled
  | refund (hpaid : x.status = .paid) : Moves now x .refundRequested
  | release (hrefund : x.status = .refundRequested) : Moves now x .released

theorem Moves.not_terminal {now : UInt64} {x : Invoice} {status : InvoiceStatus}
    (hm : Moves now x status) : x.status.terminal = false := by
  cases hm with
  | pay hs _ | expire hs _ | cancel hs | refund hs | release hs => rw [hs]; rfl

theorem Moves.ne_pending {now : UInt64} {x : Invoice} {status : InvoiceStatus}
    (hm : Moves now x status) : status ≠ .pending := by
  cases hm <;> simp

theorem Edge.moves {x : Invoice} {status : InvoiceStatus} (hedge : Edge e x c status) :
    Moves e.timestamp x status := by
  cases hedge with
  | markPaid hpending hdue => exact .pay hpending hdue
  | cancel hpending _ => exact .cancel hpending
  | cancelPaid hpaid _ | refund hpaid => exact .refund hpaid
  | release hrefund => exact .release hrefund

/-- An input leaves every stored invoice stored, with all its terms, and moves its status at most
along an edge. -/
def Lives (w : State D) (i : Input D Call) : Prop :=
  ∀ id x, w.storage.invoice id = some x →
    ∃ status, (step w i).storage.invoice id = some { x with status } ∧
      (status = x.status ∨ ∃ e c, i = .call e c ∧ Moves e.timestamp x status)

/-- Every input so far moved the stored invoices along the edges, and what was stored then is
stored still: with the same terms, and with the same status if that was terminal. -/
structure Lifecycle (h : History D) (w : State D) : Prop where
  lives : ∀ t ∈ h, Lives t.1 t.2
  kept : ∀ t ∈ h, ∀ id x, t.1.storage.invoice id = some x →
    ∃ status, w.storage.invoice id = some { x with status } ∧
      (x.status.terminal = true → status = x.status)

/-- An invoice that `create_invoice` stores finds its id free, or holding the very same invoice. -/
def TakesFreeId (e : Env) (s : Storage) : Call → Prop
  | .createInvoice merchant customer amount token expiresAt _ reference =>
    ∀ x, s.invoice (s.invoiceCount.getD 0 + 1) = some x →
      x = { id := s.invoiceCount.getD 0 + 1, merchant, customer, amount, token, status := .pending,
            createdAt := e.timestamp, expiresAt, reference }
  | _ => True

/-! ## One input -/

theorem lives_of_same (hb : (step w i).storage.invoice = w.storage.invoice) : Lives w i :=
  fun id x hx => ⟨x.status, by rw [hb, hx], Or.inl rfl⟩

/-- Giving one status to invoices that may move to it. -/
theorem lives_of_relabel {ids : List UInt64} {status : InvoiceStatus} (hi : i = .call e c)
    (hb : (step w i).storage.invoice = relabel w.storage.invoice ids status)
    (hmoves : ∀ id ∈ ids, ∀ x, w.storage.invoice id = some x → Moves e.timestamp x status) :
    Lives w i := by
  intro id x hx
  by_cases hid : id ∈ ids
  · exact ⟨status, by simp [hb, relabel, hid, hx], Or.inr ⟨e, c, hi, hmoves id hid x hx⟩⟩
  · exact ⟨x.status, by simp [hb, relabel, hid, hx], Or.inl rfl⟩

/-- **One accepted entry point** that takes no occupied id keeps the lifecycle. -/
theorem Effect.lives (heff : Effect e w (step w i) c v) (hi : i = .call e c)
    (hfree : TakesFreeId e w.storage c) : Lives w i := by
  cases heff with
  | config _ hb _ | disputed hb _ => exact lives_of_same hb
  | created hcount _ hx hb _ =>
    obtain rfl := add_eq_of_checkedAdd hcount
    intro id y hy
    by_cases hid : id = w.storage.invoiceCount.getD 0 + 1
    · -- the id is not free, so the invoice is written over itself
      have hsame := hfree y (hid ▸ hy)
      exact ⟨y.status, by simp [hb, hid, hx, hsame], Or.inl rfl⟩
    · exact ⟨y.status, by rw [hb, Function.update_of_ne hid, hy], Or.inl rfl⟩
  | moved _ hedge hb _ =>
    apply lives_of_relabel hi hb
    intro id hid x hx
    obtain ⟨y, hy, hedge⟩ := hedge id hid
    obtain rfl := Option.some.inj (hx.symm.trans hy)
    exact hedge.moves
  | expired hb _ =>
    apply lives_of_relabel hi hb
    intro id hid x hx
    have hdue := (List.mem_filter.mp hid).2
    obtain ⟨hpending, hexpired⟩ : x.status = .pending ∧ x.expiresAt ≤ e.timestamp := by
      simpa [due, hx] using hdue
    exact .expire hpending hexpired
  | paid hx hpending hdue _ hb _ =>
    apply lives_of_relabel hi hb
    intro id hid y hy
    obtain rfl := List.mem_singleton.mp hid
    obtain rfl := Option.some.inj (hx.symm.trans hy)
    exact .pay hpending hdue

/-- An accepted entry point that keeps the lifecycle takes no occupied id. -/
theorem Effect.takesFreeId (heff : Effect e w (step w i) c v) (hlives : Lives w i) :
    TakesFreeId e w.storage c := by
  cases heff with
  | created hcount _ hx hb _ =>
    obtain rfl := add_eq_of_checkedAdd hcount
    intro y hy
    obtain ⟨status, hstatus, hmove⟩ := hlives _ y hy
    -- what is stored now is the new invoice, which is pending: no edge leads there
    rw [hb, Function.update_self, hx, Option.some.injEq] at hstatus
    have hpending : status = .pending := (congrArg Invoice.status hstatus).symm
    rcases hmove with rfl | ⟨_, _, -, hmove⟩
    · exact hstatus.symm
    · exact absurd hpending hmove.ne_pending
  | config hc _ _ | moved hc _ _ _ =>
    cases c <;> trivial
  | _ => trivial

/-! ## Runs -/

/-- The lifecycle continues with an input that keeps it. -/
theorem Lifecycle.snoc (hI : Lifecycle h w) (hlives : Lives w i) :
    Lifecycle (h ++ [(w, i)]) (step w i) := by
  -- a status that moves was not terminal
  have hnow : ∀ id x, w.storage.invoice id = some x →
      ∃ status, (step w i).storage.invoice id = some { x with status } ∧
        (x.status.terminal = true → status = x.status) := by
    intro id x hx
    obtain ⟨status, hstatus, hmove⟩ := hlives id x hx
    refine ⟨status, hstatus, fun hterminal => ?_⟩
    rcases hmove with hs | ⟨_, _, -, hmove⟩
    · exact hs
    · exact absurd hterminal (by simp [hmove.not_terminal])
  constructor
  · intro t ht
    rcases List.mem_append.mp ht with ht | ht
    · exact hI.lives t ht
    · obtain rfl := List.mem_singleton.mp ht
      exact hlives
  · intro t ht id x hx
    rcases List.mem_append.mp ht with ht | ht
    · obtain ⟨status, hstatus, hkept⟩ := hI.kept t ht id x hx
      obtain ⟨status', hstatus', hkept'⟩ := hnow id _ hstatus
      refine ⟨status', hstatus', fun hterminal => ?_⟩
      obtain rfl := hkept hterminal
      exact hkept' hterminal
    · obtain rfl := List.mem_singleton.mp ht
      exact hnow id x hx

/-- **The lifecycle**: from a fresh deployment, it holds throughout exactly the runs in which no
accepted `create_invoice` writes over another invoice. -/
theorem lifecycle_iff (l : D.Ledger) (wasm : WasmHash) (is : List (Input D Call)) :
    Always step Lifecycle (fresh l wasm) is ↔
      Each step (fun _ w i => IfAccepted invoke (fun e c _ => TakesFreeId e w.storage c) (w, i))
        (fresh l wasm) is := by
  refine always_iff_each (I := Lifecycle) ⟨by simp, by simp⟩ (fun h w hI => hI) ?_ ?_ is
  · intro h w i hI hC
    rcases step_cases w i with ⟨-, hs⟩ | ⟨e, c, v, hi, ha, heff⟩
    · exact hI.snoc (lives_of_same (by rw [hs]))
    · exact hI.snoc (heff.lives hi ((ifAccepted_iff ha).mp hC))
  · intro h w i _ hP
    rcases step_cases w i with ⟨hn, -⟩ | ⟨e, c, v, -, ha, heff⟩
    · exact ifAccepted_of_none hn
    · have hlives := hP.lives (w, i) (by simp)
      exact (ifAccepted_iff ha).mpr (heff.takesFreeId hlives)

/-- Account 1 creates an invoice and it is marked as paid before account 0 initializes the
contract; the invoice account 3 creates then takes its id. -/
def overwritten : List (Input (isolated (.contract 0)) Call) :=
  [.call ⟨{.account 1}, 1, true⟩
      (.createInvoice (.account 1) (.account 2) 10000000 (.contract 1) 100 1 none),
    .call ⟨∅, 2, true⟩ (.markPaids [1]),
    .call ⟨{.account 0}, 3, true⟩ (.initializeContract (.account 0)),
    .call ⟨{.account 3}, 4, true⟩
      (.createInvoice (.account 3) (.account 4) 20000000 (.contract 1) 200 1 none)]

/-- The paid invoice of account 1 has become a pending one of account 3. -/
theorem overwritten_not_lifecycle : ¬ Always step Lifecycle (fresh () 0) overwritten := by
  intro h
  -- the state before the last input, in which invoice 1 is paid
  let w := run step (fresh () 0) (overwritten.take 3)
  have hmem : (w, overwritten[3]) ∈ transitions step (fresh () 0) overwritten :=
    (mem_transitions_iff step).mpr ⟨overwritten.take 3, by simp [overwritten], rfl⟩
  obtain ⟨status, hstatus, -⟩ := h.at_end.kept _ hmem 1
    { id := 1, merchant := .account 1, customer := .account 2, amount := 10000000,
      token := .contract 1, status := .paid, createdAt := 1, expiresAt := 100, reference := none }
    (by decide)
  have hmerchant :
      ((run step (fresh () 0) overwritten).storage.invoice 1).map Invoice.merchant =
        some (.account 1) := by
    rw [hstatus]
    rfl
  exact absurd hmerchant (by decide)

end Invoicing
