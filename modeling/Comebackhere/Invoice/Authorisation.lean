import Comebackhere.Invoice.Accepted

/-!
# Authorisation of the invoice contract

Every entry point but `batch_expire` is reserved for someone. Some ask the host whether that
address authorised the invocation; the others compare an argument with the stored address, or, as
`mark_paids`, nothing at all.

## Main definitions

* `Authorised`: the address an entry point is reserved for authorised the invocation
* `Guarded`: an invocation that changes something is authorised so
* `Unauthenticated`: the invocations that change something without any `require_auth`

## Main results

* `guarded_iff`: an invocation is guarded exactly if it is not one of these, or is authorised
-/

namespace Invoicing

open Soroban Checked

variable {D : Deployment} {e : Env} {w w' : State D} {c : Call} {v : Val}

/-- The address an entry point is reserved for authorised the invocation: the stored admin, the
nominee, the merchant or the customer. After the first, `initialize` is for nobody. -/
def Authorised (e : Env) (s : Storage) : Call → Prop
  | .upgrade _ | .transferAdmin _ _ | .setTreasury _ _ | .setCompliance _ _ | .pause _
  | .unpause _ | .setGraceWindow _ _ | .markPaids _ => ∃ admin ∈ e.auths, s.admin = some admin
  | .acceptAdmin _ => ∃ nominee ∈ e.auths, s.pendingAdmin = some nominee
  | .initializeContract _ => False
  | .createInvoice merchant _ _ _ _ _ _ => merchant ∈ e.auths
  | .payInvoice payer _ => payer ∈ e.auths
  | .cancelInvoiced id _ | .raiseDispute id _ _ _ =>
    ∃ x, s.invoice id = some x ∧ (x.merchant ∈ e.auths ∨ x.customer ∈ e.auths)
  | .requestRefund id _ => ∃ x, s.invoice id = some x ∧ x.customer ∈ e.auths
  | .releaseEscrow id _ => ∃ x, s.invoice id = some x ∧ x.merchant ∈ e.auths
  | .batchExpire _ => True

/-- The contract's storage, its code, or the storage of another contract is changed. -/
def Changed (w w' : State D) : Prop :=
  w'.storage ≠ w.storage ∨ w'.wasm ≠ w.wasm ∨ w'.ledger ≠ w.ledger

/-- After the first `initialize`, an invocation that changes something is authorised by the
address the entry point is reserved for. -/
def Guarded (e : Env) (w : State D) (c : Call) : Prop :=
  w.storage.admin ≠ none → ∀ w' v, invoke e w c = .ok (w', v) → Changed w w' →
    Authorised e w.storage c

/-- The entry points that ask the host for an authorisation, or need none. -/
def Call.asksAuth : Call → Bool
  | .setTreasury _ _ | .setCompliance _ _ | .pause _ | .unpause _ | .setGraceWindow _ _
  | .markPaids _ | .requestRefund _ _ | .releaseEscrow _ _ => false
  | _ => true

/-- The invocations that change the storage and ask the host for no authorisation: an address that
equals the stored one is enough, and for `mark_paids` not even that is asked. -/
def Unauthenticated (e : Env) (w : State D) : Call → Prop
  | .setTreasury caller treasury =>
    isPaused w.storage = false ∧ w.storage.admin = some caller ∧
      w.storage.treasuryContract ≠ some treasury
  | .setCompliance caller compliance =>
    isPaused w.storage = false ∧ w.storage.admin = some caller ∧
      w.storage.complianceContract ≠ some compliance
  | .pause caller => w.storage.admin = some caller ∧ w.storage.paused ≠ some true
  | .unpause caller => w.storage.admin = some caller ∧ w.storage.paused ≠ some false
  | .setGraceWindow caller window =>
    isPaused w.storage = false ∧ w.storage.admin = some caller ∧ window ≤ maxGraceWindow ∧
      w.storage.graceWindow ≠ some window
  | .markPaids ids =>
    isPaused w.storage = false ∧ ids ≠ [] ∧ ids.length ≤ maxBatchSize ∧ ids.Nodup ∧
      ∀ id ∈ ids, Payable e w id
  | .requestRefund id caller =>
    isPaused w.storage = false ∧
      ∃ x, w.storage.invoice id = some x ∧ caller = x.customer ∧ x.status = .paid
  | .releaseEscrow id caller =>
    isPaused w.storage = false ∧
      ∃ x, w.storage.invoice id = some x ∧ caller = x.merchant ∧ x.status = .refundRequested ∧
        ∃ graceWindow releaseAt, w.storage.graceWindow = some graceWindow ∧
          checkedAdd x.createdAt graceWindow = some releaseAt ∧ releaseAt ≤ e.timestamp
  | _ => False

/-! ## Entry points that ask the host -/

/-- **An accepted entry point that asks the host is authorised**, after the first `initialize`. -/
theorem authorised_of_asksAuth (hc : c.asksAuth = true) (hadmin : w.storage.admin ≠ none)
    (h : invoke e w c = .ok (w', v)) : Authorised e w.storage c := by
  cases c with
  | upgrade newWasmHash =>
    simp only [invoke, unitResult_eq_ok, upgrade_eq_ok] at h
    obtain ⟨⟨⟨admin, ha, hauth⟩, -⟩, -⟩ := h
    exact ⟨admin, hauth, ha⟩
  | transferAdmin caller newAdmin =>
    simp only [invoke, unitResult_eq_ok, transferAdmin_eq_ok] at h
    exact ⟨caller, h.1.2.1, h.1.2.2.1⟩
  | acceptAdmin newAdmin =>
    simp only [invoke, unitResult_eq_ok, acceptAdmin_eq_ok] at h
    exact ⟨newAdmin, h.1.2.1, h.1.2.2.1⟩
  | initializeContract admin =>
    simp only [invoke, unitResult_eq_ok, initializeContract_eq_ok] at h
    exact absurd h.1.1 hadmin
  | createInvoice merchant customer amount token expiresAt nonce reference =>
    simp only [invoke, bind_eq_ok] at h
    obtain ⟨⟨w₁, count⟩, h, -⟩ := h
    exact (createInvoice_eq_ok.mp h).2.1
  | payInvoice payer id =>
    simp only [invoke, unitResult_eq_ok, payInvoice_eq_ok] at h
    exact h.1.2.1
  | cancelInvoiced id caller =>
    simp only [invoke, unitResult_eq_ok, cancelInvoiced_eq_ok] at h
    obtain ⟨⟨-, hauth, x, hx, rfl | rfl, -⟩, -⟩ := h
    · exact ⟨x, hx, Or.inl hauth⟩
    · exact ⟨x, hx, Or.inr hauth⟩
  | raiseDispute id settlementId claimant reason =>
    simp only [invoke, unitResult_eq_ok, raiseDispute_eq_ok] at h
    obtain ⟨⟨-, hauth, x, hx, rfl | rfl, -⟩, -⟩ := h
    · exact ⟨x, hx, Or.inl hauth⟩
    · exact ⟨x, hx, Or.inr hauth⟩
  | batchExpire ids => trivial
  | _ => exact absurd hc Bool.false_ne_true

/-! ## Entry points that do not -/

theorem changed_iff_storage (hwasm : w'.wasm = w.wasm) (hledger : w'.ledger = w.ledger) :
    Changed w w' ↔ w'.storage ≠ w.storage := by
  simp [Changed, hwasm, hledger]

/-- Giving an invoice another status changes the stored invoices. -/
theorem relabel_ne {b : UInt64 → Option Invoice} {ids : List UInt64} {status : InvoiceStatus}
    {id : UInt64} {x : Invoice} (hid : id ∈ ids) (hx : b id = some x) (hs : x.status ≠ status) :
    relabel b ids status ≠ b := by
  intro he
  have hid' := congrFun he id
  simp only [relabel, hid, if_true, hx, Option.map_some, Option.some.injEq] at hid'
  exact hs (congrArg Invoice.status hid').symm

theorem changed_of_relabel {ids : List UInt64} {status : InvoiceStatus} {id : UInt64} {x : Invoice}
    (hid : id ∈ ids) (hx : w.storage.invoice id = some x) (hs : x.status ≠ status)
    (hw : w'.storage.invoice = relabel w.storage.invoice ids status) : Changed w w' :=
  Or.inl fun he => relabel_ne hid hx hs (hw.symm.trans (congrArg Storage.invoice he))

/-- Writing one field of the storage changes something unless the field has that value. -/
theorem changed_put_iff {α : Type} (field : Storage → α) (put : Storage → α → Storage) {a : α}
    (hs : w'.storage = put w.storage a) (hwasm : w'.wasm = w.wasm) (hledger : w'.ledger = w.ledger)
    (hfield : field (put w.storage a) = a) (hput : put w.storage (field w.storage) = w.storage) :
    Changed w w' ↔ field w.storage ≠ a := by
  rw [changed_iff_storage hwasm hledger, hs]
  refine not_congr ⟨fun h => ?_, fun h => ?_⟩
  · rw [← hfield, h]
  · rw [← h, hput]

/-- An entry point that is accepted under `G` and then leaves `w₁`. -/
theorem exists_changed_unit_iff {r : Result (State D)} {G : Prop} {w₁ : State D}
    (h : ∀ w', r = .ok w' ↔ G ∧ w' = w₁) :
    (∃ w' v, unitResult r = .ok (w', v) ∧ Changed w w') ↔ G ∧ Changed w w₁ := by
  simp only [unitResult_eq_ok, h]
  constructor
  · rintro ⟨_, _, ⟨⟨hG, rfl⟩, -⟩, hw⟩
    exact ⟨hG, hw⟩
  · rintro ⟨hG, hw⟩
    exact ⟨w₁, _, ⟨⟨hG, rfl⟩, rfl⟩, hw⟩

/-- **The changes that no authorisation is asked for.** -/
theorem exists_changed_iff (hc : c.asksAuth = false) :
    (∃ w' v, invoke e w c = .ok (w', v) ∧ Changed w w') ↔ Unauthenticated e w c := by
  cases c with
  | setTreasury caller treasury =>
    refine (exists_changed_unit_iff fun w' => setTreasury_eq_ok.trans and_assoc.symm).trans ?_
    exact and_assoc.trans (and_congr_right fun _ => and_congr_right fun _ => changed_put_iff
      Storage.treasuryContract (fun s a => { s with treasuryContract := a }) rfl rfl rfl rfl rfl)
  | setCompliance caller compliance =>
    refine (exists_changed_unit_iff fun w' => setCompliance_eq_ok.trans and_assoc.symm).trans ?_
    exact and_assoc.trans (and_congr_right fun _ => and_congr_right fun _ => changed_put_iff
      Storage.complianceContract (fun s a => { s with complianceContract := a }) rfl rfl rfl rfl
      rfl)
  | pause caller =>
    refine (exists_changed_unit_iff fun w' => pause_eq_ok).trans (and_congr_right fun _ => ?_)
    exact changed_put_iff Storage.paused (fun s a => { s with paused := a }) rfl rfl rfl rfl rfl
  | unpause caller =>
    refine (exists_changed_unit_iff fun w' => unpause_eq_ok).trans (and_congr_right fun _ => ?_)
    exact changed_put_iff Storage.paused (fun s a => { s with paused := a }) rfl rfl rfl rfl rfl
  | setGraceWindow caller window =>
    have hok : ∀ w', setGraceWindow w caller window = .ok w' ↔ (isPaused w.storage = false ∧
        w.storage.admin = some caller ∧ window ≤ maxGraceWindow) ∧ w' = _ :=
      fun w' => by rw [setGraceWindow_eq_ok, and_assoc, and_assoc]
    apply (exists_changed_unit_iff hok).trans
    rw [and_assoc, and_assoc]
    refine and_congr_right fun _ => and_congr_right fun _ => and_congr_right fun _ => ?_
    exact changed_put_iff Storage.graceWindow (fun s a => { s with graceWindow := a }) rfl rfl rfl
      rfl rfl
  | markPaids ids =>
    have hok : ∀ w', markPaids e w ids = .ok w' ↔ (isPaused w.storage = false ∧
        ids.length ≤ maxBatchSize ∧ ids.Nodup ∧ ∀ id ∈ ids, Payable e w id) ∧ w' = _ :=
      fun w' => by rw [markPaids_eq_ok, and_assoc, and_assoc, and_assoc]
    refine (exists_changed_unit_iff hok).trans ⟨?_, ?_⟩
    · rintro ⟨⟨hp, hlen, hnodup, hpay⟩, hw⟩
      -- the empty batch is accepted, and changes nothing
      refine ⟨hp, ?_, hlen, hnodup, hpay⟩
      rintro rfl
      simp [Changed] at hw
    · rintro ⟨hp, hne, hlen, hnodup, hpay⟩
      refine ⟨⟨hp, hlen, hnodup, hpay⟩, ?_⟩
      obtain ⟨id, hid⟩ := List.exists_mem_of_ne_nil ids hne
      obtain ⟨x, hx, ⟨hpending, -⟩, -⟩ := hpay id hid
      have hpaid : (ids.foldl setPaid w).storage.invoice = relabel w.storage.invoice ids .paid := by
        rw [(foldl_setPaid ids w).1]
      exact changed_of_relabel hid hx (by simp [hpending]) hpaid
  | requestRefund id caller =>
    simp only [invoke, unitResult_eq_ok, requestRefund_eq_ok, Unauthenticated]
    constructor
    · rintro ⟨_, _, ⟨⟨hp, x, hx, hcaller, hpaid, -⟩, -⟩, -⟩
      exact ⟨hp, x, hx, hcaller, hpaid⟩
    · rintro ⟨hp, x, hx, hcaller, hpaid⟩
      refine ⟨_, _, ⟨⟨hp, x, hx, hcaller, hpaid, rfl⟩, rfl⟩, ?_⟩
      exact changed_of_relabel List.mem_cons_self hx (by simp [hpaid]) (update_eq_relabel hx)
  | releaseEscrow id caller =>
    simp only [invoke, unitResult_eq_ok, releaseEscrow_eq_ok, Unauthenticated]
    constructor
    · rintro ⟨_, _, ⟨⟨hp, x, hx, hcaller, hrefund, hdue, -⟩, -⟩, -⟩
      exact ⟨hp, x, hx, hcaller, hrefund, hdue⟩
    · rintro ⟨hp, x, hx, hcaller, hrefund, hdue⟩
      refine ⟨_, _, ⟨⟨hp, x, hx, hcaller, hrefund, hdue, rfl⟩, rfl⟩, ?_⟩
      exact changed_of_relabel List.mem_cons_self hx (by simp [hrefund]) (update_eq_relabel hx)
  | _ => exact absurd hc.symm Bool.false_ne_true

/-- **Authorisation**: an invocation is guarded exactly if it is none of those that change
something unauthenticated, or is authorised by the address it is reserved for. -/
theorem guarded_iff (e : Env) (w : State D) (c : Call) :
    Guarded e w c ↔
      (w.storage.admin ≠ none → Unauthenticated e w c → Authorised e w.storage c) := by
  apply forall_congr'
  intro hadmin
  cases hc : c.asksAuth with
  | true =>
    -- both sides hold: these entry points are authorised, and none of them is unauthenticated
    refine iff_of_true (fun w' v h _ => authorised_of_asksAuth hc hadmin h) fun hun => ?_
    cases c <;> first | exact absurd hc Bool.false_ne_true | exact hun.elim
  | false =>
    rw [← exists_changed_iff hc]
    constructor
    · rintro h ⟨w', v, hok, hw⟩
      exact h w' v hok hw
    · exact fun h w' v hok hw => h ⟨w', v, hok, hw⟩

/-- The world after `initialize` by account 0. -/
def initialised : State (isolated (.contract 0)) :=
  step (fresh () 0) (.call ⟨∅, 0, true⟩ (.initializeContract (.account 0)))

/-- Nobody authorises the invocation, and the contract is paused: the caller is named, not
authenticated. -/
theorem pauseByAnyone_not_guarded : ¬ Guarded ⟨∅, 1, true⟩ initialised (.pause (.account 0)) := by
  intro h
  have hchanged : Changed initialised
      (step initialised (.call ⟨∅, 1, true⟩ (.pause (.account 0)))) :=
    Or.inl fun hs => absurd (congrArg Storage.paused hs) (by decide)
  obtain ⟨admin, hadmin, -⟩ := h (by decide) _ _ rfl hchanged
  exact absurd hadmin (Finset.notMem_empty admin)

end Invoicing
