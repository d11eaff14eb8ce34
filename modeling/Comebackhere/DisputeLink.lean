import Comebackhere.Invoice.Accepted
import Comebackhere.Treasury.Accepted

/-!
# Disputes across the invoice contract and the treasury

`raise_dispute` of the invoice contract lets both parties of an invoice through, and calls
`raise_dispute` of the treasury with a settlement of the caller's choice. The treasury lets through
the merchant of the settlement, whatever the settlement's status is.

## Main definitions

* `linked`: the deployment of the invoice contract on a ledger with the treasury
* `JointInput`, `jointStep`: the joint runs of the two contracts
* `DisputeLinked`: a dispute of an invoice holds a pending settlement of the invoice's merchant
* `PartiesCanHold`: both parties of an invoice can hold such a settlement

## Main results

* `disputeLinked_iff`, `partiesCanHold_iff`: when they hold, of one input and of one state
* `disputeLink_iff`: when they hold, of a joint run
-/

namespace Contracts

open Soroban Checked Machine

/-! ## The joint runs -/

/-- The treasury's `raise_dispute`, called by another contract. It is the only function of the
treasury that the invoice contract calls. -/
def treasuryCall {T : Deployment} (e : Env) (w : Treasury.State T) (f : Symbol)
    (args : List Val) : Option (Treasury.State T × Val) :=
  match f, args with
  | "raise_dispute", [.address signer, .u64 settlementId, .u32 reason] =>
    match Treasury.raiseDispute e w signer settlementId reason with
    | .ok w' => some (w', .void)
    | .error _ => none
  | _, _ => none

/-- Where the invoice contract is deployed: its rest of the ledger is the treasury, with the
treasury's own. -/
def linked (T : Deployment) (own : Address) : Deployment where
  self := own
  Ledger := Treasury.State T
  call e w contract f args :=
    if contract = T.self then treasuryCall e w f args
    else (T.call e w.ledger contract f args).map fun r => ({ w with ledger := r.1 }, r.2)
  query e w contract f args :=
    if contract = T.self then none else T.query e w.ledger contract f args

variable {T : Deployment} {own : Address}

/-- Both contracts, with the rest of the ledger. -/
abbrev Joint (T : Deployment) (own : Address) := Invoicing.State (linked T own)

/-- An invocation of one of the two contracts, or a change of the rest of the ledger. -/
inductive JointInput (T : Deployment)
  | invoice (e : Env) (c : Invoicing.Call)
  | treasury (e : Env) (c : Treasury.Call)
  | outside (l : T.Ledger)

/-- The treasury of the joint state. -/
abbrev treasuryOf (w : Joint T own) : Treasury.State T := w.ledger

/-- One input of a joint run. -/
def jointStep (w : Joint T own) : JointInput T → Joint T own
  | .invoice e c => Invoicing.step w (.call e c)
  | .treasury e c => { w with ledger := Treasury.step (treasuryOf w) (.call e c) }
  | .outside l => { w with ledger := { treasuryOf w with ledger := l } }

/-- Both contracts have just been deployed. -/
def jointFresh (own : Address) (l : T.Ledger) (wasm : WasmHash) : Joint T own :=
  Invoicing.fresh (D := linked T own) (Treasury.fresh l wasm) wasm

/-- An input raises a dispute on an invoice, and is accepted. -/
structure Raises (w : Joint T own) (i : JointInput T) (e : Env) (id settlementId : UInt64)
    (claimant : Address) (reason : UInt32) (w' : Joint T own) : Prop where
  input : i = .invoice e (.raiseDispute id settlementId claimant reason)
  accepted : Invoicing.raiseDispute e w id settlementId claimant reason = .ok w'

/-- Every dispute that is raised on an invoice puts a settlement of the invoice's merchant on hold
that was pending. -/
def DisputeLinked (w : Joint T own) (i : JointInput T) : Prop :=
  ∀ e id settlementId claimant reason w', Raises w i e id settlementId claimant reason w' →
    ∃ x y, w.storage.invoice id = some x ∧
      (treasuryOf w).storage.settlement settlementId = some y ∧
      y.merchant = x.merchant ∧ y.status = .pending ∧
      (treasuryOf w').storage.settlement settlementId = some { y with status := .onHold }

/-- The treasury is the configured one, and neither contract is paused. -/
structure Ready (w : Joint T own) : Prop where
  treasury : w.storage.treasuryContract = some T.self
  invoice : Invoicing.isPaused w.storage = false
  unpaused : Treasury.isPaused (treasuryOf w).storage = false

/-- At every time, the address can put the settlement on hold by one dispute on an invoice that it
authorises. -/
def CanHold (w : Joint T own) (a : Address) (settlementId : UInt64) : Prop :=
  ∀ (now : UInt64) (checks : Bool), ∃ id claimant reason,
    ((treasuryOf (jointStep w (.invoice ⟨{a}, now, checks⟩
      (.raiseDispute id settlementId claimant reason)))).storage.settlement settlementId).map
        Treasury.Settlement.status = some .onHold

/-- Either party of a stored invoice can put every pending settlement of the invoice's merchant on
hold. -/
def PartiesCanHold (w : Joint T own) : Prop :=
  Ready w → ∀ id x settlementId y, w.storage.invoice id = some x →
    (treasuryOf w).storage.settlement settlementId = some y → y.status = .pending →
    y.merchant = x.merchant → ∀ a, (a = x.merchant ∨ a = x.customer) → CanHold w a settlementId

/-- What the two contracts must check: the dispute goes to the treasury, the claimant is the
invoice's merchant, and the settlement is pending. -/
def MerchantDisputes (w : Joint T own) (i : JointInput T) : Prop :=
  ∀ e id settlementId claimant reason w', Raises w i e id settlementId claimant reason w' →
    w.storage.treasuryContract = some T.self ∧
    (∀ x, w.storage.invoice id = some x → claimant = x.merchant) ∧
    ∀ y, (treasuryOf w).storage.settlement settlementId = some y → y.status = .pending

/-- A merchant with a pending settlement is the customer of each of its invoices. -/
def MerchantsOnly (w : Joint T own) : Prop :=
  Ready w → ∀ id x settlementId y, w.storage.invoice id = some x →
    (treasuryOf w).storage.settlement settlementId = some y → y.status = .pending →
    y.merchant = x.merchant → x.customer = x.merchant

/-! ## One dispute -/

variable {w w' : Joint T own} {i : JointInput T} {e : Env} {id settlementId : UInt64}
  {claimant a : Address} {reason : UInt32}

theorem treasuryCall_eq_some {t t' : Treasury.State T} {v : Val} :
    treasuryCall e t "raise_dispute" [.address claimant, .u64 settlementId, .u32 reason] =
        some (t', v) ↔
      Treasury.raiseDispute e t claimant settlementId reason = .ok t' ∧ v = .void := by
  simp only [treasuryCall]
  cases h : Treasury.raiseDispute e t claimant settlementId reason <;> simp [eq_comm]

/-- **An accepted dispute** has the treasury accept it for the claimant, or leaves the treasury's
storage alone. -/
theorem raiseDispute_cases
    (h : Invoicing.raiseDispute e w id settlementId claimant reason = .ok w') :
    claimant ∈ e.auths ∧ (∃ x, w.storage.invoice id = some x) ∧
      ((w.storage.treasuryContract = some T.self ∧
          ∃ y, (treasuryOf w).storage.settlement settlementId = some y ∧ claimant = y.merchant ∧
            (treasuryOf w').storage.settlement settlementId = some { y with status := .onHold }) ∨
        (w.storage.treasuryContract ≠ some T.self ∧
          (treasuryOf w').storage = (treasuryOf w).storage)) := by
  obtain ⟨-, hauth, x, hx, -, treasury, l, ht, hcall, rfl⟩ := Invoicing.raiseDispute_eq_ok.mp h
  refine ⟨hauth, ⟨x, hx⟩, ?_⟩
  simp only [linked] at hcall
  split at hcall
  · next he =>
    obtain ⟨hok, -⟩ := treasuryCall_eq_some.mp hcall
    obtain ⟨-, -, y, hy, hclaimant, rfl⟩ := Treasury.raiseDispute_eq_ok.mp hok
    refine Or.inl ⟨he ▸ ht, y, hy, hclaimant, ?_⟩
    exact Function.update_self _ _ _
  · next hne =>
    obtain ⟨r, -, hr⟩ := Option.map_eq_some_iff.mp hcall
    obtain ⟨rfl, -⟩ := Prod.mk.inj hr
    refine Or.inr ⟨fun hself => hne ?_, rfl⟩
    exact Option.some.inj (ht.symm.trans hself)

/-- **One input**: a dispute is linked exactly when both contracts' missing checks pass. -/
theorem disputeLinked_iff : DisputeLinked w i ↔ MerchantDisputes w i := by
  constructor
  · intro hP e id settlementId claimant reason w' hr
    obtain ⟨x, y, hx, hy, hmerchant, hpending, hheld⟩ := hP e id settlementId claimant reason w' hr
    obtain ⟨-, -, ⟨ht, y', hy', hclaimant, -⟩ | ⟨-, hs⟩⟩ := raiseDispute_cases hr.accepted
    · obtain rfl := Option.some.inj (hy.symm.trans hy')
      refine ⟨ht, fun x' hx' => ?_, fun y' hy' => ?_⟩
      · obtain rfl := Option.some.inj (hx.symm.trans hx')
        exact hclaimant.trans hmerchant
      · obtain rfl := Option.some.inj (hy.symm.trans hy')
        exact hpending
    · -- another contract was called, and the settlement is pending still
      rw [hs, hy, Option.some.injEq] at hheld
      exact absurd (hpending.symm.trans (congrArg Treasury.Settlement.status hheld)) (by simp)
  · intro hC e id settlementId claimant reason w' hr
    obtain ⟨ht, hmerchant, hpending⟩ := hC e id settlementId claimant reason w' hr
    obtain ⟨-, ⟨x, hx⟩, ⟨-, y, hy, hclaimant, hheld⟩ | ⟨hne, -⟩⟩ := raiseDispute_cases hr.accepted
    · exact ⟨x, y, hx, hy, hclaimant.symm.trans (hmerchant x hx), hpending y hy, hheld⟩
    · exact absurd ht hne

/-! ## One state -/

/-- The merchant of a settlement can put it on hold, with any invoice of its own. -/
theorem canHold_merchant {x : Invoicing.Invoice} {y : Treasury.Settlement} (hready : Ready w)
    (hx : w.storage.invoice id = some x)
    (hy : (treasuryOf w).storage.settlement settlementId = some y)
    (hmerchant : y.merchant = x.merchant) : CanHold w x.merchant settlementId := by
  intro now checks
  let e : Env := ⟨{x.merchant}, now, checks⟩
  have hauth : x.merchant ∈ e.auths := Finset.mem_singleton_self _
  have hok : Treasury.raiseDispute e (treasuryOf w) x.merchant settlementId 0 =
      .ok (Treasury.setSettlement (treasuryOf w) settlementId { y with status := .onHold }) :=
    Treasury.raiseDispute_eq_ok.mpr ⟨hready.unpaused, hauth, y, hy, hmerchant.symm, rfl⟩
  have hcall : (linked T own).call e w.ledger T.self "raise_dispute"
      [.address x.merchant, .u64 settlementId, .u32 0] = some (_, .void) :=
    (if_pos rfl).trans (treasuryCall_eq_some.mpr ⟨hok, rfl⟩)
  have hraise : Invoicing.raiseDispute e w id settlementId x.merchant 0 = .ok _ :=
    Invoicing.raiseDispute_eq_ok.mpr ⟨hready.invoice, hauth, x, hx, Or.inl rfl, T.self, _,
      hready.treasury, hcall, rfl⟩
  refine ⟨id, x.merchant, 0, ?_⟩
  rw [jointStep, Invoicing.step_of_ok rfl hraise]
  simp [treasuryOf, Treasury.setSettlement]

/-- Nobody else can. -/
theorem merchant_of_canHold {y : Treasury.Settlement} (h : CanHold w a settlementId)
    (hy : (treasuryOf w).storage.settlement settlementId = some y)
    (hpending : y.status = .pending) :
    a = y.merchant := by
  obtain ⟨id, claimant, reason, hheld⟩ := h 0 true
  -- the call is accepted, as the settlement is no longer pending
  have hsame : ¬ treasuryOf (jointStep w (.invoice ⟨{a}, 0, true⟩
      (.raiseDispute id settlementId claimant reason))) = treasuryOf w := by
    intro he
    rw [he, hy, Option.map_some, hpending] at hheld
    exact absurd hheld (by decide)
  cases hraise : Invoicing.raiseDispute ⟨{a}, 0, true⟩ w id settlementId claimant reason with
  | error err =>
    have hnone : ¬ ∃ w', Invoicing.raiseDispute ⟨{a}, 0, true⟩ w id settlementId claimant reason =
        .ok w' := by simp [hraise]
    exact absurd (congrArg treasuryOf (Invoicing.step_of_not_ok rfl hnone)) hsame
  | ok w' =>
    rw [jointStep, Invoicing.step_of_ok rfl hraise] at hheld
    obtain ⟨hauth, -, ⟨-, y', hy', hclaimant, -⟩ | ⟨-, hs⟩⟩ := raiseDispute_cases hraise
    · obtain rfl := Option.some.inj (hy.symm.trans hy')
      exact (Finset.mem_singleton.mp hauth).symm.trans hclaimant
    · rw [hs, hy, Option.map_some, hpending] at hheld
      exact absurd hheld (by decide)

/-- **One state**: both parties can hold the settlements exactly when they are one. -/
theorem partiesCanHold_iff : PartiesCanHold w ↔ MerchantsOnly w := by
  constructor
  · intro hP hready id x settlementId y hx hy hpending hmerchant
    have hhold := hP hready id x settlementId y hx hy hpending hmerchant x.customer (Or.inr rfl)
    exact (merchant_of_canHold hhold hy hpending).trans hmerchant
  · intro hC hready id x settlementId y hx hy hpending hmerchant a ha
    have hcustomer := hC hready id x settlementId y hx hy hpending hmerchant
    obtain rfl : a = x.merchant := ha.elim (fun h => h) fun h => h.trans hcustomer
    exact canHold_merchant hready hx hy hmerchant

/-! ## Joint runs -/

/-- **Holds**: in a joint run, every dispute on an invoice holds a pending settlement of the
invoice's merchant, and both parties can always hold them, exactly when every accepted dispute is
raised by the invoice's merchant, at the treasury and on a pending settlement, and no merchant
with a pending settlement has an invoice of another customer. -/
theorem disputeLink_iff (own : Address) (l : T.Ledger) (wasm : WasmHash)
    (is : List (JointInput T)) :
    (Each jointStep (fun _ => DisputeLinked) (jointFresh own l wasm) is ∧
        Always jointStep (fun _ => PartiesCanHold) (jointFresh own l wasm) is) ↔
      Each jointStep (fun _ => MerchantDisputes) (jointFresh own l wasm) is ∧
        Always jointStep (fun _ => MerchantsOnly) (jointFresh own l wasm) is := by
  apply and_congr
  · exact forall₃_congr fun _ _ _ => disputeLinked_iff
  · exact forall₂_congr fun _ _ => partiesCanHold_iff

/-- Account 1 creates an invoice for account 2, and account 3 proposes two settlements for account
1 and executes the first. Then account 1 raises a dispute on the invoice, with that settlement. -/
def crossedDisputes : List (JointInput (isolated (.contract 2))) :=
  [.invoice ⟨{.account 0}, 0, true⟩ (.initializeContract (.account 0)),
    .invoice ⟨{.account 0}, 0, true⟩ (.setTreasury (.account 0) (.contract 2)),
    .treasury ⟨{.account 0}, 0, true⟩ (.initializeContract [(.account 3, 1)] 1 (.account 0)),
    .invoice ⟨{.account 1}, 1, true⟩
      (.createInvoice (.account 1) (.account 2) 10000000 (.contract 4) 100 1 none),
    .treasury ⟨{.account 3}, 2, true⟩
      (.proposeSettlement (.account 3) (.contract 4) 500 (.account 1)),
    .treasury ⟨{.account 3}, 3, true⟩
      (.proposeSettlement (.account 3) (.contract 4) 700 (.account 1)),
    .treasury ⟨{.account 3}, 4, true⟩ (.approveSettlement (.account 3) 1),
    .treasury ⟨{.account 3}, 5, true⟩ (.executeSettlement (.account 3) 1 (.contract 4)),
    .invoice ⟨{.account 1}, 6, true⟩ (.raiseDispute 1 1 (.account 1) 7)]

/-- The executed settlement goes on hold, and account 2 cannot hold the pending one. -/
theorem crossedDisputes_not_linked :
    ¬ Each jointStep (fun _ => DisputeLinked) (jointFresh (.contract 1) () 0) crossedDisputes ∧
    ¬ Always jointStep (fun _ => PartiesCanHold) (jointFresh (.contract 1) () 0)
      crossedDisputes := by
  constructor
  · intro h
    have hlast := h (crossedDisputes.take 8) _ List.prefix_rfl
    obtain ⟨w', hw'⟩ : ∃ w', Invoicing.raiseDispute ⟨{.account 1}, 6, true⟩
        (run jointStep (jointFresh (.contract 1) () 0) (crossedDisputes.take 8))
          1 1 (.account 1) 7 = .ok w' := ⟨_, rfl⟩
    obtain ⟨-, -, hpending⟩ := disputeLinked_iff.mp hlast _ 1 1 (.account 1) 7 w' ⟨rfl, hw'⟩
    exact absurd (hpending _ rfl) (by decide)
  · intro h
    have hcustomer := partiesCanHold_iff.mp h.at_end ⟨rfl, rfl, rfl⟩ 1 _ 2 _ rfl rfl rfl rfl
    exact absurd hcustomer (by decide)

end Contracts
