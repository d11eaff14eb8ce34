import Comebackhere.Treasury.Accepted

/-!
# The effects of the treasury's entry points

The invariants of the treasury speak of its admin, its signers and threshold, its settlements and
the rest of the ledger. `Effect` says once what an accepted entry point does to these, and every
invariant is a case analysis on it.

## Main definitions

* `SameCore`: agreement on the part of the storage the invariants speak of
* `Edit`: what an entry point does to a stored settlement
* `Effect`: what an accepted entry point does to the storage and the rest of the ledger
* `BookEffect`: what it does to the stored settlements

## Main results

* `effect_of_ok`: every accepted entry point has one of these effects
* `step_cases`: an input is not accepted and leaves the storage, or has one of these effects
-/

namespace Treasury

open Soroban Checked

variable {D : Deployment}

/-- A history of the treasury. -/
abbrev History (D : Deployment) := List (State D × Input D Call)

/-- The entry points that change the admin's settings, or the Wasm, and nothing else. -/
def Call.isConfig : Call → Bool
  | .upgrade _ | .pause _ | .unpause _ | .setSettlementTtl _ _ | .setDailyWithdrawLimit _ _ _
  | .addTokenToAllowlist _ _ | .removeTokenFromAllowlist _ _ => true
  | _ => false

/-- The entry points that write a settlement. -/
def Call.writesSettlement : Call → Bool
  | .proposeSettlement _ _ _ _ | .cancelSettlement _ _ | .approveSettlement _ _
  | .executeSettlement _ _ _ | .raiseDispute _ _ _ | .resolveDispute _ _ _
  | .updateSettlementMerchant _ _ _ => true
  | _ => false

theorem Call.writesSettlement_of_isConfig {c : Call} (h : c.isConfig = true) :
    c.writesSettlement = false := by
  cases c <;> first | rfl | exact absurd h Bool.false_ne_true

/-- The storages agree on the admin, the signers, the threshold and the settlements. -/
structure SameCore (s s' : Storage) : Prop where
  admin : s'.admin = s.admin
  pendingAdmin : s'.pendingAdmin = s.pendingAdmin
  signer : s'.signer = s.signer
  signerList : s'.signerList = s.signerList
  settlement : s'.settlement = s.settlement
  nextSettlementId : s'.nextSettlementId = s.nextSettlementId
  threshold : s'.threshold = s.threshold

theorem SameCore.refl (s : Storage) : SameCore s s := ⟨rfl, rfl, rfl, rfl, rfl, rfl, rfl⟩

/-- What an accepted entry point does to the settlement it names. -/
inductive Edit (e : Env) (s : Storage) : Call → UInt64 → Settlement → Settlement → Prop
  | cancel {caller admin : Address} {id : UInt64} {x : Settlement} (hauth : caller ∈ e.auths)
      (hpending : x.status = .pending) (hadmin : s.admin = some admin)
      (hcaller : caller = x.proposer ∨ caller = admin) :
      Edit e s (.cancelSettlement caller id) id x { x with status := .cancelled }
  | approve {signer : Address} {id approvalWeight : UInt64} {x : Settlement}
      (hpending : x.status = .pending)
      (hweight : approvalWeight.toNat = x.approvalWeight.toNat + (s.weight signer).toNat) :
      Edit e s (.approveSettlement signer id) id x { x with approvalWeight }
  | execute {signer token : Address} {id : UInt64} {x : Settlement} (hpending : x.status = .pending)
      (hquorum : getThreshold s ≤ x.approvalWeight) :
      Edit e s (.executeSettlement signer id token) id x { x with status := .executed }
  | raise {signer : Address} {id : UInt64} {reason : UInt32} {x : Settlement}
      (hmerchant : signer = x.merchant) :
      Edit e s (.raiseDispute signer id reason) id x { x with status := .onHold }
  | resolve {signer : Address} {id : UInt64} {inFavor : Bool} {x : Settlement}
      (hhold : x.status = .onHold) :
      Edit e s (.resolveDispute signer id inFavor) id x
        { x with status := if inFavor then .pending else .cancelled }
  | updateMerchant {newMerchant : Address} {id : UInt64} {x : Settlement}
      (hpending : x.status = .pending) :
      Edit e s (.updateSettlementMerchant x.merchant id newMerchant) id x
        { x with merchant := newMerchant }

/-- What an accepted entry point does to the storage and to the rest of the ledger. -/
inductive Effect (e : Env) (w : State D) : Call → State D → Val → Prop
  | config {c : Call} {w' : State D} {v : Val} (hc : c.isConfig = true)
      (hadmin : ∃ a ∈ e.auths, w.storage.admin = some a)
      (hcore : SameCore w.storage w'.storage) (hledger : w'.ledger = w.ledger) : Effect e w c w' v
  | transferAdmin {admin newAdmin : Address} {w' : State D} (hauth : admin ∈ e.auths)
      (hadmin : w.storage.admin = some admin)
      (hw : w'.storage = { w.storage with pendingAdmin := some newAdmin })
      (hledger : w'.ledger = w.ledger) : Effect e w (.transferAdmin admin newAdmin) w' .void
  | acceptAdmin {newAdmin : Address} {w' : State D} (hauth : newAdmin ∈ e.auths)
      (hpending : w.storage.pendingAdmin = some newAdmin)
      (hw : w'.storage = { w.storage with admin := some newAdmin, pendingAdmin := none })
      (hledger : w'.ledger = w.ledger) : Effect e w (.acceptAdmin newAdmin) w' .void
  | initialized {signers : List (Address × UInt64)} {threshold : UInt64} {admin : Address}
      {w' : State D} (hauth : admin ∈ e.auths) (hvalid : ValidRegistry signers threshold)
      (hw : w'.storage = { w.storage with
        admin := some admin
        threshold := some threshold
        paused := some false
        nextSettlementId := some 1
        signer := storeWeights w.storage.signer signers
        signerList := some (signers.map Prod.fst) })
      (hledger : w'.ledger = w.ledger) :
      Effect e w (.initializeContract signers threshold admin) w' .void
  | setSigner {admin signer : Address} {weight : UInt64} {w' : State D} (hauth : admin ∈ e.auths)
      (hadmin : w.storage.admin = some admin)
      (hw : w'.storage = { w.storage with
        signer := Function.update w.storage.signer signer (some weight)
        signerList :=
          if signer ∈ w.storage.signerList.getD [] then w.storage.signerList
          else some (w.storage.signerList.getD [] ++ [signer]) })
      (hledger : w'.ledger = w.ledger) : Effect e w (.setSigner admin signer weight) w' .void
  | rotateSigner {admin oldSigner newSigner : Address} {newWeight : UInt64} {w' : State D}
      (hauth : admin ∈ e.auths) (hadmin : w.storage.admin = some admin)
      (hold : w.storage.weight oldSigner ≠ 0)
      (hnew : newSigner = oldSigner ∨ w.storage.weight newSigner = 0)
      (hw : w'.storage = { w.storage with
        signer := Function.update (Function.update w.storage.signer oldSigner none)
          newSigner (some newWeight)
        signerList :=
          some (rotatedList (w.storage.signerList.getD []) oldSigner newSigner) })
      (hledger : w'.ledger = w.ledger) :
      Effect e w (.rotateSigner admin oldSigner newSigner newWeight) w' .void
  | updateThreshold {admin : Address} {newThreshold : UInt32} {total : UInt64} {w' : State D}
      (hauth : admin ∈ e.auths) (hadmin : w.storage.admin = some admin)
      (hne : newThreshold ≠ 0) (htotal : totalSignerWeight e w.storage = .ok total)
      (hle : newThreshold.toUInt64 ≤ total)
      (hw : w'.storage = { w.storage with threshold := some newThreshold.toUInt64 })
      (hledger : w'.ledger = w.ledger) : Effect e w (.updateThreshold admin newThreshold) w' .void
  | proposed {signer token merchant : Address} {amount id expiresAt nextId : UInt64}
      {w' : State D} (hid : id = w.storage.nextSettlementId.getD 1)
      (hnext : plainAdd (ε := TreasuryError) e id 1 = .ok nextId)
      (hw : w'.storage = { w.storage with
        settlement := Function.update w.storage.settlement id (some
          { token, amount, merchant, status := .pending, approvalWeight := 0, proposer := signer,
            expiresAt })
        nextSettlementId := some nextId })
      (hledger : w'.ledger = w.ledger) :
      Effect e w (.proposeSettlement signer token amount merchant) w' (.u64 id)
  | edited {c : Call} {id : UInt64} {x x' : Settlement} {w' : State D}
      (hx : w.storage.settlement id = some x) (hedit : Edit e w.storage c id x x')
      (hw : w'.storage = { w.storage with
        settlement := Function.update w.storage.settlement id (some x') })
      (hledger : w'.ledger = w.ledger) : Effect e w c w' .void
  | deposited {source token : Address} {amount : UInt64} {w' : State D}
      (hauth : source ∈ e.auths) (hcore : SameCore w.storage w'.storage)
      (hcall : D.call e w.ledger token "transfer"
        [.address source, .address D.self, .i128 amount.toNat] = some (w'.ledger, .void)) :
      Effect e w (.deposit source token amount) w' .void
  | withdrawn {admin token recipient : Address} {amount : UInt64} {w' : State D}
      (hauth : admin ∈ e.auths) (hadmin : w.storage.admin = some admin)
      (hcore : SameCore w.storage w'.storage)
      (hcall : D.call e w.ledger token "transfer"
        [.address D.self, .address recipient, .i128 amount.toNat] = some (w'.ledger, .void)) :
      Effect e w (.withdraw admin token recipient amount) w' .void

variable {e : Env} {w w' : State D} {c : Call} {v : Val}

/-- The withdrawal check leaves the core and the rest of the ledger alone. -/
theorem spendWindow_core {token : Address} {amount : UInt64}
    (h : spendWindow e w token amount = .ok w') :
    SameCore w.storage w'.storage ∧ w'.ledger = w.ledger := by
  rcases spendWindow_eq_ok.mp h with ⟨-, rfl⟩ | ⟨limit, newSpent, -, -, -, rfl⟩
  · exact ⟨.refl _, rfl⟩
  · exact ⟨⟨rfl, rfl, rfl, rfl, rfl, rfl, rfl⟩, rfl⟩

/-- **Every accepted entry point has one of the effects.** -/
theorem effect_of_ok (h : invoke e w c = .ok (w', v)) : Effect e w c w' v := by
  cases c with
  | upgrade newWasmHash =>
    obtain ⟨⟨⟨a, ha, hauth⟩, -, rfl⟩, rfl⟩ := by
      simpa only [invoke, unitResult_eq_ok, upgrade_eq_ok] using h
    exact .config rfl ⟨a, hauth, ha⟩ (.refl _) rfl
  | transferAdmin admin newAdmin =>
    obtain ⟨⟨-, ⟨hauth, ha⟩, rfl⟩, rfl⟩ := by
      simpa only [invoke, unitResult_eq_ok, transferAdmin_eq_ok] using h
    exact .transferAdmin hauth ha rfl rfl
  | acceptAdmin newAdmin =>
    obtain ⟨⟨-, hauth, hp, rfl⟩, rfl⟩ := by
      simpa only [invoke, unitResult_eq_ok, acceptAdmin_eq_ok] using h
    exact .acceptAdmin hauth hp rfl rfl
  | initializeContract signers threshold admin =>
    obtain ⟨⟨hauth, hv, rfl⟩, rfl⟩ := by
      simpa only [invoke, unitResult_eq_ok, initializeContract_eq_ok] using h
    exact .initialized hauth hv rfl rfl
  | setSigner admin signer weight =>
    obtain ⟨⟨-, ⟨hauth, ha⟩, rfl⟩, rfl⟩ := by
      simpa only [invoke, unitResult_eq_ok, setSigner_eq_ok] using h
    exact .setSigner hauth ha rfl rfl
  | rotateSigner admin oldSigner newSigner newWeight =>
    obtain ⟨⟨-, ⟨hauth, ha⟩, ho, hn, rfl⟩, rfl⟩ := by
      simpa only [invoke, unitResult_eq_ok, rotateSigner_eq_ok] using h
    exact .rotateSigner hauth ha ho hn rfl rfl
  | proposeSettlement signer token amount merchant =>
    simp only [invoke, bind_eq_ok, pure_eq_ok, Prod.mk.injEq] at h
    obtain ⟨⟨w₁, id⟩, h, rfl, rfl⟩ := h
    obtain ⟨-, -, -, hid, expiresAt, nextId, -, hn, rfl⟩ := proposeSettlement_eq_ok.mp h
    exact .proposed hid hn rfl rfl
  | cancelSettlement caller id =>
    obtain ⟨⟨-, hauth, x, hx, hp, a, ha, hc, rfl⟩, rfl⟩ := by
      simpa only [invoke, unitResult_eq_ok, cancelSettlement_eq_ok] using h
    exact .edited hx (.cancel hauth hp ha hc) rfl rfl
  | approveSettlement signer id =>
    obtain ⟨⟨-, -, x, hx, hp, -, n, hn, rfl⟩, rfl⟩ := by
      simpa only [invoke, unitResult_eq_ok, approveSettlement_eq_ok] using h
    exact .edited hx (.approve hp (checkedAdd_eq_some.mp hn).2) rfl rfl
  | executeSettlement signer id token =>
    obtain ⟨⟨-, -, x, hx, hp, -, hq, rfl⟩, rfl⟩ := by
      simpa only [invoke, unitResult_eq_ok, executeSettlement_eq_ok] using h
    exact .edited hx (.execute hp hq) rfl rfl
  | pause admin =>
    obtain ⟨⟨⟨hauth, ha⟩, rfl⟩, rfl⟩ := by
      simpa only [invoke, unitResult_eq_ok, pause_eq_ok] using h
    exact .config rfl ⟨admin, hauth, ha⟩ ⟨rfl, rfl, rfl, rfl, rfl, rfl, rfl⟩ rfl
  | unpause admin =>
    obtain ⟨⟨⟨hauth, ha⟩, rfl⟩, rfl⟩ := by
      simpa only [invoke, unitResult_eq_ok, unpause_eq_ok] using h
    exact .config rfl ⟨admin, hauth, ha⟩ ⟨rfl, rfl, rfl, rfl, rfl, rfl, rfl⟩ rfl
  | setSettlementTtl admin ttlSeconds =>
    obtain ⟨⟨-, ⟨hauth, ha⟩, -, rfl⟩, rfl⟩ := by
      simpa only [invoke, unitResult_eq_ok, setSettlementTtl_eq_ok] using h
    exact .config rfl ⟨admin, hauth, ha⟩ ⟨rfl, rfl, rfl, rfl, rfl, rfl, rfl⟩ rfl
  | updateThreshold admin newThreshold =>
    obtain ⟨⟨-, ⟨hauth, ha⟩, hne, total, ht, hle, rfl⟩, rfl⟩ := by
      simpa only [invoke, unitResult_eq_ok, updateThreshold_eq_ok] using h
    exact .updateThreshold hauth ha hne ht hle rfl rfl
  | raiseDispute signer id reason =>
    obtain ⟨⟨-, -, x, hx, hm, rfl⟩, rfl⟩ := by
      simpa only [invoke, unitResult_eq_ok, raiseDispute_eq_ok] using h
    exact .edited hx (.raise hm) rfl rfl
  | resolveDispute signer id inFavor =>
    obtain ⟨⟨-, -, x, hx, hh, rfl⟩, rfl⟩ := by
      simpa only [invoke, unitResult_eq_ok, resolveDispute_eq_ok] using h
    exact .edited hx (.resolve hh) rfl rfl
  | updateSettlementMerchant merchantCaller id newMerchant =>
    obtain ⟨⟨-, -, x, hx, hp, rfl, rfl⟩, rfl⟩ := by
      simpa only [invoke, unitResult_eq_ok, updateSettlementMerchant_eq_ok] using h
    exact .edited hx (.updateMerchant hp) rfl rfl
  | deposit source token amount =>
    obtain ⟨⟨-, -, hauth, l, hl, rfl⟩, rfl⟩ := by
      simpa only [invoke, unitResult_eq_ok, deposit_eq_ok] using h
    exact .deposited hauth (.refl _) hl
  | setDailyWithdrawLimit admin token limit =>
    obtain ⟨⟨-, ⟨hauth, ha⟩, rfl⟩, rfl⟩ := by
      simpa only [invoke, unitResult_eq_ok, setDailyWithdrawLimit_eq_ok] using h
    exact .config rfl ⟨admin, hauth, ha⟩ ⟨rfl, rfl, rfl, rfl, rfl, rfl, rfl⟩ rfl
  | withdraw admin token recipient amount =>
    obtain ⟨⟨-, ⟨hauth, ha⟩, w₁, l, hs, hl, rfl⟩, rfl⟩ := by
      simpa only [invoke, unitResult_eq_ok, withdraw_eq_ok] using h
    obtain ⟨hcore, hledger⟩ := spendWindow_core hs
    exact .withdrawn hauth ha hcore (hledger ▸ hl)
  | addTokenToAllowlist admin token =>
    obtain ⟨⟨-, ⟨hauth, ha⟩, rfl⟩, rfl⟩ := by
      simpa only [invoke, unitResult_eq_ok, addTokenToAllowlist_eq_ok] using h
    exact .config rfl ⟨admin, hauth, ha⟩ ⟨rfl, rfl, rfl, rfl, rfl, rfl, rfl⟩ rfl
  | removeTokenFromAllowlist admin token =>
    obtain ⟨⟨-, ⟨hauth, ha⟩, rfl⟩, rfl⟩ := by
      simpa only [invoke, unitResult_eq_ok, removeTokenFromAllowlist_eq_ok] using h
    exact .config rfl ⟨admin, hauth, ha⟩ ⟨rfl, rfl, rfl, rfl, rfl, rfl, rfl⟩ rfl

/-- An input of a run is not accepted and leaves the storage, or is an accepted invocation with
one of the effects. -/
theorem step_cases (w : State D) (i : Input D Call) :
    (accepted invoke (w, i) = none ∧ (step w i).storage = w.storage) ∨
    ∃ e c v, i = .call e c ∧ accepted invoke (w, i) = some (e, c, v) ∧
      Effect e w c (step w i) v := by
  cases h : accepted invoke (w, i) with
  | none => exact Or.inl ⟨rfl, storage_of_not_accepted h⟩
  | some r =>
    obtain ⟨e, c, v⟩ := r
    obtain ⟨hi, ho⟩ := invoke_of_accepted h
    exact Or.inr ⟨e, c, v, hi, rfl, effect_of_ok ho⟩

/-! ## The stored settlements -/

/-- What an accepted entry point does to the stored settlements, `book'` afterwards. -/
inductive BookEffect (e : Env) (s : Storage) (book' : UInt64 → Option Settlement) :
    Call → Val → Prop
  | unchanged {c : Call} {v : Val} (hc : c.writesSettlement = false) (hb : book' = s.settlement) :
      BookEffect e s book' c v
  | proposed {signer token merchant : Address} {amount id : UInt64} {x : Settlement}
      (hid : id = s.nextSettlementId.getD 1) (hpending : x.status = .pending)
      (hweight : x.approvalWeight = 0)
      (hb : book' = Function.update s.settlement id (some x)) :
      BookEffect e s book' (.proposeSettlement signer token amount merchant) (.u64 id)
  | edited {c : Call} {v : Val} {id : UInt64} {x x' : Settlement} (hx : s.settlement id = some x)
      (hedit : Edit e s c id x x') (hb : book' = Function.update s.settlement id (some x')) :
      BookEffect e s book' c v

theorem Effect.book (h : Effect e w c w' v) :
    BookEffect e w.storage w'.storage.settlement c v := by
  cases h with
  | config hc _ hcore _ =>
    exact .unchanged (Call.writesSettlement_of_isConfig hc) hcore.settlement
  | transferAdmin _ _ hw _ => exact .unchanged rfl (by rw [hw])
  | acceptAdmin _ _ hw _ => exact .unchanged rfl (by rw [hw])
  | initialized _ _ hw _ => exact .unchanged rfl (by rw [hw])
  | setSigner _ _ hw _ => exact .unchanged rfl (by rw [hw])
  | rotateSigner _ _ _ _ hw _ => exact .unchanged rfl (by rw [hw])
  | updateThreshold _ _ _ _ _ hw _ => exact .unchanged rfl (by rw [hw])
  | proposed hid _ hw _ => exact .proposed hid rfl rfl (by rw [hw])
  | edited hx hedit hw _ => exact .edited hx hedit (by rw [hw])
  | deposited _ hcore _ => exact .unchanged rfl hcore.settlement
  | withdrawn _ _ hcore _ => exact .unchanged rfl hcore.settlement

end Treasury
