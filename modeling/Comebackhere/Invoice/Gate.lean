import Comebackhere.Compliance.Contract
import Comebackhere.Invoice.Effect

/-!
# The compliance gate of the invoice contract

An invoice becomes paid through `mark_paids`, which asks the compliance contract about the merchant
and the customer, or through `pay_invoice`, which asks it about the payer only.

## Main definitions

* `ComplianceHost`: a deployment in which an address runs the compliance contract
* `Gated`: an invoice becomes paid only while its merchant and the paying side are allowed
* `PaysAllowedMerchant`: `pay_invoice` is for an invoice of a merchant who is allowed

## Main results

* `ComplianceHost.allowed_iff`: what is asked there is the view `is_allowed` of that contract
* `gated_iff`: payments are gated in the runs that pay merchants who are allowed
-/

namespace Invoicing

open Soroban Checked Machine

variable {D : Deployment} {e : Env} {w : State D} {i : Input D Call} {c : Call} {v : Val}

/-! ## The compliance contract -/

/-- The address `compliance` runs the compliance contract: the rest of the ledger holds its storage
and answers `is_allowed` from it. -/
structure ComplianceHost (D : Deployment) (compliance : Address) where
  storage : D.Ledger → Compliance.Storage
  answers : ∀ e l addr, D.query e l compliance "is_allowed" [.address addr] =
    some (.bool (Compliance.isAllowed e (storage l) addr))

/-- The invoice contract is told that an address is allowed exactly if the compliance contract has
it allowed at that moment. -/
theorem ComplianceHost.allowed_iff {compliance : Address} (H : ComplianceHost D compliance)
    {addr : Address} :
    Allowed e w compliance addr ↔ Compliance.isAllowed e (H.storage w.ledger) addr = true := by
  simp [Allowed, H.answers]

/-! ## The gate -/

/-- The side that pays: the payer of `pay_invoice`, the customer otherwise. -/
def payingSide : Call → Invoice → Address
  | .payInvoice payer _, _ => payer
  | _, x => x.customer

/-- An invoice becomes paid only while the compliance contract, when one is configured, allows its
merchant and the paying side. -/
def Gated (w : State D) (i : Input D Call) : Prop :=
  ∀ id x x', w.storage.invoice id = some x → (step w i).storage.invoice id = some x' →
    x.status ≠ .paid → x'.status = .paid →
    ∃ e c, i = .call e c ∧ ∀ compliance, w.storage.complianceContract = some compliance →
      Allowed e w compliance x.merchant ∧ Allowed e w compliance (payingSide c x)

/-- The invoice that `pay_invoice` names, under a configured compliance contract, is one of a
merchant who is allowed. -/
def PaysAllowedMerchant (e : Env) (w : State D) : Call → Prop
  | .payInvoice _ id => ∀ x, w.storage.invoice id = some x →
      ∀ compliance, w.storage.complianceContract = some compliance →
        Allowed e w compliance x.merchant
  | _ => True

/-- **The two payment paths**: an invoice that becomes paid is in a batch of `mark_paids`, or is
the one of `pay_invoice`. -/
theorem Effect.paid_cases (heff : Effect e w (step w i) c v) {id : UInt64} {x x' : Invoice}
    (hx : w.storage.invoice id = some x) (hx' : (step w i).storage.invoice id = some x')
    (hnot : x.status ≠ .paid) (hpaid : x'.status = .paid) :
    (∃ ids, c = .markPaids ids ∧ id ∈ ids) ∨ ∃ payer, c = .payInvoice payer id := by
  -- an invoice that stays as it is does not become paid
  have hstays : (step w i).storage.invoice id ≠ w.storage.invoice id := by
    intro hsame
    obtain rfl := Option.some.inj (hx'.symm.trans (hsame.trans hx))
    exact hnot hpaid
  cases heff with
  | config _ hb _ | disputed hb _ => exact absurd (congrFun hb id) hstays
  | @created _ _ _ _ _ _ count _ y _ _ hy hb _ =>
    by_cases hid : id = count
    · rw [hb, hid, Function.update_self, Option.some.injEq] at hx'
      rw [← hx', hy] at hpaid
      exact absurd hpaid (by simp)
    · exact absurd (by rw [hb, Function.update_of_ne hid]) hstays
  | @moved c _ status _ hedge hb _ =>
    by_cases hid : id ∈ c.ids
    · obtain ⟨y, -, hedge⟩ := hedge id hid
      obtain rfl : status = .paid := by
        have hy : some { x with status } = some x' := by simpa [hb, relabel, hid, hx] using hx'
        rw [← hpaid, ← Option.some.inj hy]
      cases hedge with
      | markPaid => exact Or.inl ⟨_, rfl, hid⟩
    · exact absurd (by simp [hb, relabel, hid]) hstays
  | @expired ids _ hb _ =>
    by_cases hid : id ∈ ids.filter (due e w.storage.invoice)
    · have hy : some { x with status := .expired } = some x' := by
        rw [← hx', hb, relabel, if_pos hid, hx]
        rfl
      rw [← Option.some.inj hy] at hpaid
      exact absurd hpaid (by simp)
    · exact absurd (by rw [hb, relabel, if_neg hid]) hstays
  | @paid payer id' _ _ _ _ _ hb _ =>
    by_cases hid : id = id'
    · exact Or.inr ⟨payer, by rw [hid]⟩
    · exact absurd (by simp [hb, relabel, hid]) hstays

/-- **One accepted entry point** is gated exactly if it pays a merchant who is allowed. -/
theorem gated_iff_of_accepted (ha : accepted invoke (w, i) = some (e, c, v)) :
    Gated w i ↔ PaysAllowedMerchant e w c := by
  obtain ⟨hi, hok⟩ := invoke_of_accepted ha
  have heff := effect_of_ok hok
  constructor
  · intro hgated
    cases c with
    | payInvoice payer id =>
      intro x hx compliance hcompliance
      cases heff with
      | paid hy hpending _ _ hb _ =>
        obtain rfl := Option.some.inj (hx.symm.trans hy)
        have hpaid : (step w i).storage.invoice id = some { x with status := .paid } := by
          simp [hb, relabel, hx]
        obtain ⟨e', c', hi', hallowed⟩ := hgated id x _ hx hpaid (by simp [hpending]) rfl
        obtain ⟨rfl, rfl⟩ : e = e' ∧ .payInvoice payer id = c' := by simpa [hi] using hi'
        exact (hallowed compliance hcompliance).1
      | config hc | moved hc => exact absurd hc Bool.false_ne_true
    | _ => trivial
  · intro hmerchant id x x' hx hx' hnot hpaid
    refine ⟨e, c, hi, fun compliance hcompliance => ?_⟩
    rcases heff.paid_cases hx hx' hnot hpaid with ⟨ids, rfl, hid⟩ | ⟨payer, rfl⟩
    · -- `mark_paids` asked about both parties of every invoice of the batch
      simp only [invoke, unitResult_eq_ok, markPaids_eq_ok] at hok
      obtain ⟨⟨-, -, -, hpay, -⟩, -⟩ := hok
      obtain ⟨y, hy, -, hallowed⟩ := hpay id hid
      obtain rfl := Option.some.inj (hx.symm.trans hy)
      exact hallowed compliance hcompliance
    · -- `pay_invoice` asked about the payer
      simp only [invoke, unitResult_eq_ok, payInvoice_eq_ok] at hok
      obtain ⟨⟨-, -, y, -, -, hallowed, -⟩, -⟩ := hok
      exact ⟨hmerchant x hx compliance hcompliance, hallowed compliance hcompliance⟩

/-- An input that is not accepted pays no invoice. -/
theorem gated_of_not_accepted (hn : accepted invoke (w, i) = none) : Gated w i := by
  intro id x x' hx hx' hnot hpaid
  rw [storage_of_not_accepted hn, hx, Option.some.injEq] at hx'
  exact absurd (hx' ▸ hpaid) hnot

/-- **The compliance gate**: from a fresh deployment, every payment of a run is gated exactly if
every accepted `pay_invoice` of the run pays a merchant who is allowed. -/
theorem gated_iff (l : D.Ledger) (wasm : WasmHash) (is : List (Input D Call)) :
    Each step (fun _ => Gated) (fresh l wasm) is ↔
      Each step (fun _ w i => IfAccepted invoke (fun e c _ => PaysAllowedMerchant e w c) (w, i))
        (fresh l wasm) is := by
  refine each_iff_each (I := fun _ _ => True) trivial (fun _ _ _ _ _ => trivial) ?_ is
  intro _ w i _
  rcases step_cases w i with ⟨hn, -⟩ | ⟨e, c, v, -, ha, -⟩
  · exact iff_of_true (gated_of_not_accepted hn) (ifAccepted_of_none hn)
  · rw [gated_iff_of_accepted ha, ifAccepted_iff ha]

/-! ## A merchant who is blocked -/

/-- A ledger with the compliance contract at one address, and tokens that accept every transfer. -/
def withCompliance (self compliance : Address) : Deployment where
  self := self
  Ledger := Compliance.Storage
  call _ l _ _ _ := some (l, .void)
  query e l contract f args :=
    match args with
    | [.address addr] =>
      if contract = compliance ∧ f = "is_allowed" then
        some (.bool (Compliance.isAllowed e l addr))
      else none
    | _ => none

def withComplianceHost (self compliance : Address) :
    ComplianceHost (withCompliance self compliance) compliance where
  storage l := l
  answers e l addr := by simp [withCompliance]

/-- The storage of the compliance contract after account 9 allowed the accounts 1, 2 and 3. -/
def allThreeAllowed : Compliance.Storage :=
  (run Compliance.step (Compliance.fresh (D := isolated (.contract 5)) () 0)
    [.call ⟨∅, 0, true⟩ (.initializeContract (.account 9)),
      .call ⟨{.account 9}, 0, true⟩ (.allowAddress (.account 9) (.account 1)),
      .call ⟨{.account 9}, 0, true⟩ (.allowAddress (.account 9) (.account 2)),
      .call ⟨{.account 9}, 0, true⟩ (.allowAddress (.account 9) (.account 3))]).storage

/-- Account 9 blocks account 1. -/
def merchantBlocked : Compliance.Storage :=
  (Compliance.step (D := isolated (.contract 5)) ⟨allThreeAllowed, (), [], 0⟩
    (.call ⟨{.account 9}, 5, true⟩ (.blockAddress (.account 9) (.account 1)))).storage

/-- The merchant, account 1, is blocked after the invoice is created and before it is paid by
account 3. -/
def paidBlockedMerchant : List (Input (withCompliance (.contract 0) (.contract 5)) Call) :=
  [.call ⟨{.account 0}, 0, true⟩ (.initializeContract (.account 0)),
    .call ⟨{.account 0}, 1, true⟩ (.setCompliance (.account 0) (.contract 5)),
    .call ⟨{.account 1}, 2, true⟩
      (.createInvoice (.account 1) (.account 2) 10000000 (.contract 1) 100 1 none),
    .outside merchantBlocked,
    .call ⟨{.account 3}, 6, true⟩ (.payInvoice (.account 3) 1)]

theorem paidBlockedMerchant_not_gated :
    ¬ Each step (fun _ => Gated) (fresh allThreeAllowed 0) paidBlockedMerchant := by
  intro h
  let w := run step (fresh allThreeAllowed 0) (paidBlockedMerchant.take 4)
  let x : Invoice :=
    { id := 1, merchant := .account 1, customer := .account 2, amount := 10000000,
      token := .contract 1, status := .pending, createdAt := 2, expiresAt := 100,
      reference := none }
  have hx : w.storage.invoice 1 = some x := by decide
  have hpaid : (step w paidBlockedMerchant[4]).storage.invoice 1 =
      some { x with status := .paid } := by decide
  obtain ⟨e, c, hi, hallowed⟩ := h (paidBlockedMerchant.take 4) paidBlockedMerchant[4]
    (by simp [paidBlockedMerchant]) 1 x _ hx hpaid (by decide) rfl
  obtain ⟨rfl, rfl⟩ : (⟨{.account 3}, 6, true⟩ : Env) = e ∧
      Call.payInvoice (.account 3) 1 = c := by simpa [paidBlockedMerchant] using hi
  have hmerchant := (hallowed (.contract 5) (by decide)).1
  rw [(withComplianceHost _ _).allowed_iff] at hmerchant
  exact absurd hmerchant (by decide)

end Invoicing
