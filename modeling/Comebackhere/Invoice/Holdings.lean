import Comebackhere.Invoice.Escrow

/-!
# What the invoice contract holds

The contract has tokens transferred to it by `pay_invoice`, and has none transferred anywhere else:
neither a release nor a refund nor an upgrade pays anybody. Whatever is called, it holds all that
was ever paid to it.

## Main definitions

* `paidIn token t`: what an input has transferred to the contract
* `deposits token h`: what the inputs of a history have transferred to it

## Main results

* `held_step`: one input adds what it pays in
* `funds_stay`: the balance is what was paid in, and never goes down
-/

namespace Invoicing

open Soroban Checked Machine

variable {D : Deployment} {e : Env} {w w' : State D} {i : Input D Call} {h : History D} {c : Call}
  {v : Val} {token : Address}

/-- What an input has transferred to the contract in the token: the amount of the invoice it pays,
unless the contract is the payer itself. -/
def paidIn (token : Address) (t : State D × Input D Call) : ℤ :=
  match accepted invoke t with
  | some (_, .payInvoice payer id, _) =>
    match t.1.storage.invoice id with
    | some x => if x.token = token ∧ payer ≠ D.self then x.amount else 0
    | none => 0
  | _ => 0

def deposits (token : Address) (h : History D) : ℤ :=
  h.foldl (fun total t => total + paidIn token t) 0

@[simp] theorem deposits_nil : deposits token ([] : History D) = 0 := rfl

@[simp] theorem deposits_snoc (t : State D × Input D Call) :
    deposits token (h ++ [t]) = deposits token h + paidIn token t := by
  simp [deposits]

theorem paidIn_of_not_accepted (hn : accepted invoke (w, i) = none) :
    paidIn token (w, i) = 0 := by
  simp [paidIn, hn]

/-- Only payments pay in. -/
theorem paidIn_of_accepted (ha : accepted invoke (w, i) = some (e, c, v))
    (hc : ∀ payer id, c ≠ .payInvoice payer id) : paidIn token (w, i) = 0 := by
  simp only [paidIn, ha]
  split
  · next payer id _ he =>
    obtain ⟨rfl, rfl, rfl⟩ := by simpa using he
    exact absurd rfl (hc payer id)
  · rfl

/-- **One input** adds to the balance what it pays in. -/
theorem held_step (T : StandardToken D token) (hquiet : T.Quiet w i) :
    T.held (step w i) = T.held w + paidIn token (w, i) := by
  rcases step_cases w i with ⟨hn, -⟩ | ⟨e, c, v, -, ha, heff⟩
  · rw [paidIn_of_not_accepted hn, T.held_step_of_not_accepted hquiet hn, add_zero]
  -- the entry points that call no other contract leave the ledger
  have hsame : (step w i).ledger = w.ledger → (∀ payer id, c ≠ .payInvoice payer id) →
      T.held (step w i) = T.held w + paidIn token (w, i) := by
    intro hledger hc
    rw [paidIn_of_accepted ha hc, add_zero]
    simp only [StandardToken.held, hledger]
  cases heff with
  | config hc _ hledger => exact hsame hledger fun payer id he => by simp [he, Call.isConfig] at hc
  | created _ _ _ _ hledger => exact hsame hledger fun payer id he => by simp at he
  | moved hc _ _ hledger =>
    exact hsame hledger fun payer id he => by simp [he, Call.movesStatus] at hc
  | expired _ hledger => exact hsame hledger fun payer id he => by simp at he
  | paid hx _ _ _ _ hcall =>
    have htransfer := T.held_of_transfer_in hcall
    simp only [StandardToken.held, paidIn, ha, hx]
    exact htransfer
  | disputed _ hcall =>
    rw [paidIn_of_accepted ha fun payer id he => by simp at he, add_zero]
    exact T.others _ _ _ _ _ _ _ (fun _ => by decide) hcall

/-- Nobody pays a negative amount. -/
theorem paidIn_nonneg (hI : Recorded h w) : 0 ≤ paidIn token (w, i) := by
  unfold paidIn
  split
  · split
    · next x hx =>
      split
      · exact (hI.amount_pos hx).le
      · exact le_refl _
    · exact le_refl _
  · exact le_refl _

theorem recorded_run (l : D.Ledger) (wasm : WasmHash) (is : List (Input D Call)) :
    Recorded (transitions step (fresh l wasm) is) (run step (fresh l wasm) is) := by
  induction is using List.reverseRecOn with
  | nil => exact recorded_fresh l wasm
  | append_singleton is i ih =>
    rw [transitions_snoc, run_snoc]
    exact recorded_step ih

/-- **The funds stay.** In every run from a fresh deployment in which nobody else changes the
balance of the contract, by any callers and for every token, what the contract holds is what it held
at first and all that was paid in through `pay_invoice`; it holds no less at any later point. After
an upgrade the run goes on with the same code. -/
theorem funds_stay (T : StandardToken D token) (l : D.Ledger) (wasm : WasmHash)
    (is : List (Input D Call))
    (hquiet : Each step (fun _ w i => T.Quiet w i) (fresh l wasm) is) :
    T.held (run step (fresh l wasm) is) =
        T.balance l D.self + deposits token (transitions step (fresh l wasm) is) ∧
      ∀ pre, pre <+: is →
        T.held (run step (fresh l wasm) pre) ≤ T.held (run step (fresh l wasm) is) := by
  induction is using List.reverseRecOn with
  | nil =>
    refine ⟨(add_zero _).symm, fun pre hpre => ?_⟩
    rw [List.prefix_nil.mp hpre]
  | append_singleton is i ih =>
    obtain ⟨hquiet, hi⟩ := each_snoc.mp hquiet
    obtain ⟨hheld, hle⟩ := ih hquiet
    have hstep := held_step T hi
    have hpaid : 0 ≤ paidIn token (run step (fresh l wasm) is, i) :=
      paidIn_nonneg (recorded_run l wasm is)
    rw [transitions_snoc, run_snoc, deposits_snoc, hstep]
    refine ⟨by rw [hheld, add_assoc], fun pre hpre => ?_⟩
    rcases List.prefix_concat_iff.mp hpre with rfl | hpre
    · rw [run_snoc, hstep]
    · exact (hle pre hpre).trans (Int.le_add_of_nonneg_right hpaid)

/-- An invoice that is paid, refunded and released leaves its amount with the contract. -/
theorem releaseWithoutTransfer_funds_stay :
    (standardToken (.contract 0) (.contract 1)).held
        (run step (fresh customerFunds 0) releaseWithoutTransfer) =
      customerFunds (.contract 0) +
        deposits (.contract 1) (transitions step (fresh customerFunds 0) releaseWithoutTransfer) ∧
    ∀ pre, pre <+: releaseWithoutTransfer →
      (standardToken (.contract 0) (.contract 1)).held (run step (fresh customerFunds 0) pre) ≤
        (standardToken (.contract 0) (.contract 1)).held
          (run step (fresh customerFunds 0) releaseWithoutTransfer) :=
  funds_stay (standardToken (.contract 0) (.contract 1)) customerFunds 0 releaseWithoutTransfer
    (by decide)

end Invoicing
