import Comebackhere.Treasury.Contract
import Mathlib.Algebra.Ring.Nat

/-!
# Accepted invocations of the treasury

For each entry point: the invocations the contract accepts, and the world an accepted one leaves.
Every later module reads an entry point through its lemma here.
-/

namespace Treasury

open Soroban Checked

variable {D : Deployment} {e : Env} {w w' : State D} {v : Val}

@[simp] theorem checkNotPaused_eq_ok {s : Storage} {u : Unit} :
    checkNotPaused s = .ok u ↔ isPaused s = false := by
  simp [checkNotPaused]

@[simp] theorem checkAdmin_eq_ok {s : Storage} {admin : Address} {u : Unit} :
    checkAdmin e s admin = .ok u ↔ admin ∈ e.auths ∧ s.admin = some admin := by
  simp [checkAdmin]

@[simp] theorem getSettlementInternal_eq_ok {s : Storage} {id : UInt64} {settlement : Settlement} :
    getSettlementInternal s id = .ok settlement ↔ s.settlement id = some settlement := by
  simp [getSettlementInternal]

@[simp] theorem unitResult_eq_ok {r : Result (State D)} :
    unitResult r = .ok (w', v) ↔ r = .ok w' ∧ v = .void := by
  simp [unitResult]

@[simp] theorem setSettlement_storage {id : UInt64} {settlement : Settlement} :
    (setSettlement w id settlement).storage = { w.storage with
      settlement := Function.update w.storage.settlement id (some settlement) } := rfl

@[simp] theorem setSettlement_ledger {id : UInt64} {settlement : Settlement} :
    (setSettlement w id settlement).ledger = w.ledger := rfl

/-! ## Administration -/

theorem upgrade_eq_ok {newWasmHash : WasmHash} :
    upgrade e w newWasmHash = .ok w' ↔
      (∃ admin, w.storage.admin = some admin ∧ admin ∈ e.auths) ∧
      upgradeBlocked w.storage = false ∧
      w' = { w with wasm := newWasmHash }.publish [.symbol "upgraded"] (.bytesN newWasmHash) := by
  simp only [upgrade, bind_eq_ok, orFail_eq_ok, checkAdmin_eq_ok, ensure_eq_ok, pure_eq_ok]
  constructor
  · rintro ⟨admin, ha, -, ⟨hauth, -⟩, -, hb, rfl⟩
    exact ⟨⟨admin, ha, hauth⟩, hb, rfl⟩
  · rintro ⟨⟨admin, ha, hauth⟩, hb, rfl⟩
    exact ⟨admin, ha, (), ⟨hauth, ha⟩, (), hb, rfl⟩

theorem transferAdmin_eq_ok {admin newAdmin : Address} :
    transferAdmin e w admin newAdmin = .ok w' ↔
      isPaused w.storage = false ∧ (admin ∈ e.auths ∧ w.storage.admin = some admin) ∧
      w' = { w with storage.pendingAdmin := some newAdmin }.publish
        [.symbol "admin_transfer_initiated"] (.vec [.address admin, .address newAdmin]) := by
  simp [transferAdmin]

theorem acceptAdmin_eq_ok {newAdmin : Address} :
    acceptAdmin e w newAdmin = .ok w' ↔
      isPaused w.storage = false ∧ newAdmin ∈ e.auths ∧ w.storage.pendingAdmin = some newAdmin ∧
      w' = { w with storage.admin := some newAdmin, storage.pendingAdmin := none }.publish
        [.symbol "admin_transfer_accepted"] (.address newAdmin) := by
  simp [acceptAdmin]

/-- The first loop of `initialize` succeeds on distinct signers whose weights fit, and returns
their sum. -/
theorem sumWeights_eq_ok {signers : List (Address × UInt64)} {seen : List Address}
    {total sum : UInt64} :
    sumWeights signers seen total = .ok sum ↔
      (signers.map Prod.fst).Nodup ∧ (∀ p ∈ signers, p.1 ∉ seen) ∧
      sum.toNat = total.toNat + (signers.map fun p => p.2.toNat).sum := by
  induction signers generalizing seen total with
  | nil => simp [sumWeights, ← UInt64.toNat_inj]
  | cons p signers ih =>
    obtain ⟨signer, weight⟩ := p
    simp only [sumWeights, bind_eq_ok, ensure_eq_ok, orFail_eq_ok, checkedAdd_eq_some, ih,
      List.map_cons, List.nodup_cons, List.sum_cons, List.mem_append, List.mem_cons,
      List.not_mem_nil, or_false, List.mem_map]
    constructor
    · rintro ⟨-, hseen, total', ⟨-, ht⟩, hnd, hfresh, hsum⟩
      refine ⟨⟨?_, hnd⟩, ?_, by omega⟩
      · rintro ⟨q, hq, rfl⟩
        exact hfresh q hq (Or.inr rfl)
      · rintro q (rfl | hq)
        · exact hseen
        · exact fun h => hfresh q hq (Or.inl h)
    · rintro ⟨⟨hnew, hnd⟩, hfresh, hsum⟩
      have hlt := sum.toNat_lt
      refine ⟨(), hfresh _ (Or.inl rfl), UInt64.ofNat (total.toNat + weight.toNat), ?_, hnd,
        fun q hq h => ?_, ?_⟩
      · rw [UInt64.toNat_ofNat_of_lt' (by simp [UInt64.size]; omega)]
        exact ⟨by omega, rfl⟩
      · rcases h with h | h
        · exact hfresh q (Or.inr hq) h
        · exact hnew ⟨q, hq, h⟩
      · rw [UInt64.toNat_ofNat_of_lt' (by simp [UInt64.size]; omega)]
        omega

/-- The registry `initialize` accepts: distinct signers whose weights fit and reach the
threshold. -/
structure ValidRegistry (signers : List (Address × UInt64)) (threshold : UInt64) : Prop where
  nodup : (signers.map Prod.fst).Nodup
  fits : (signers.map fun p => p.2.toNat).sum < 2 ^ 64
  reaches : threshold.toNat ≤ (signers.map fun p => p.2.toNat).sum

theorem initializeContract_eq_ok {signers : List (Address × UInt64)} {threshold : UInt64}
    {admin : Address} :
    initializeContract e w signers threshold admin = .ok w' ↔
      admin ∈ e.auths ∧ ValidRegistry signers threshold ∧
      w' = { w with
        storage.admin := some admin
        storage.threshold := some threshold
        storage.paused := some false
        storage.nextSettlementId := some 1
        storage.signer := storeWeights w.storage.signer signers
        storage.signerList := some (signers.map Prod.fst) } := by
  simp only [initializeContract, bind_eq_ok, requireAuth_eq_ok, sumWeights_eq_ok, ensure_eq_ok,
    pure_eq_ok, UInt64.le_iff_toNat_le]
  constructor
  · rintro ⟨-, hauth, sum, ⟨hnd, -, hsum⟩, -, hle, rfl⟩
    have hlt := sum.toNat_lt
    simp only [UInt64.toNat_zero, Nat.zero_add] at hsum
    exact ⟨hauth, ⟨hnd, by omega, by omega⟩, rfl⟩
  · rintro ⟨hauth, hv, rfl⟩
    have hfits : UInt64.toNat (UInt64.ofNat (signers.map fun p => p.2.toNat).sum) =
        (signers.map fun p => p.2.toNat).sum :=
      UInt64.toNat_ofNat_of_lt' (by simpa [UInt64.size] using hv.fits)
    exact ⟨(), hauth, UInt64.ofNat (signers.map fun p => p.2.toNat).sum,
      ⟨hv.nodup, by simp, by simp [hfits]⟩, (), by rw [hfits]; exact hv.reaches, rfl⟩

theorem pause_eq_ok {admin : Address} :
    pause e w admin = .ok w' ↔
      (admin ∈ e.auths ∧ w.storage.admin = some admin) ∧
      w' = { w with storage.paused := some true }.publish [.symbol "contract_paused"] .void := by
  simp [pause]

theorem unpause_eq_ok {admin : Address} :
    unpause e w admin = .ok w' ↔
      (admin ∈ e.auths ∧ w.storage.admin = some admin) ∧
      w' = { w with storage.paused := some false }.publish
        [.symbol "contract_unpaused"] .void := by
  simp [unpause]

theorem setSettlementTtl_eq_ok {admin : Address} {ttlSeconds : UInt64} :
    setSettlementTtl e w admin ttlSeconds = .ok w' ↔
      isPaused w.storage = false ∧ (admin ∈ e.auths ∧ w.storage.admin = some admin) ∧
      ttlSeconds ≠ 0 ∧ w' = { w with storage.settlementTtl := some ttlSeconds } := by
  simp [setSettlementTtl]

/-! ## Signers and the threshold -/

theorem setSigner_eq_ok {admin signer : Address} {weight : UInt64} :
    setSigner e w admin signer weight = .ok w' ↔
      isPaused w.storage = false ∧ (admin ∈ e.auths ∧ w.storage.admin = some admin) ∧
      w' = { w with
        storage.signer := Function.update w.storage.signer signer (some weight)
        storage.signerList :=
          if signer ∈ w.storage.signerList.getD [] then w.storage.signerList
          else some (w.storage.signerList.getD [] ++ [signer]) } := by
  simp [setSigner]

theorem rotateSigner_eq_ok {admin oldSigner newSigner : Address} {newWeight : UInt64} :
    rotateSigner e w admin oldSigner newSigner newWeight = .ok w' ↔
      isPaused w.storage = false ∧ (admin ∈ e.auths ∧ w.storage.admin = some admin) ∧
      w.storage.weight oldSigner ≠ 0 ∧
      (newSigner = oldSigner ∨ w.storage.weight newSigner = 0) ∧
      w' = { w with
        storage.signer := Function.update (Function.update w.storage.signer oldSigner none)
          newSigner (some newWeight)
        storage.signerList :=
          some (rotatedList (w.storage.signerList.getD []) oldSigner newSigner) }.publish
        [.symbol "signer_rotated"]
        (.vec [.address oldSigner, .address newSigner, .u64 (w.storage.weight oldSigner),
          .u64 newWeight]) := by
  simp [rotateSigner]

theorem updateThreshold_eq_ok {admin : Address} {newThreshold : UInt32} :
    updateThreshold e w admin newThreshold = .ok w' ↔
      isPaused w.storage = false ∧ (admin ∈ e.auths ∧ w.storage.admin = some admin) ∧
      newThreshold ≠ 0 ∧
      ∃ total, totalSignerWeight e w.storage = .ok total ∧ newThreshold.toUInt64 ≤ total ∧
        w' = { w with storage.threshold := some newThreshold.toUInt64 }.publish
          [.symbol "threshold_updated"]
          (.vec [.u64 (getThreshold w.storage), .u64 newThreshold.toUInt64]) := by
  simp [updateThreshold, and_assoc]

/-! ## Settlements -/

theorem proposeSettlement_eq_ok {signer token merchant : Address} {amount id : UInt64} :
    proposeSettlement e w signer token amount merchant = .ok (w', id) ↔
      (w.storage.tokenAllowlist.getD [] = [] ∨ token ∈ w.storage.tokenAllowlist.getD []) ∧
      isPaused w.storage = false ∧ signer ∈ e.auths ∧ id = w.storage.nextSettlementId.getD 1 ∧
      ∃ expiresAt nextId, checkedAdd e.timestamp (getSettlementTtl w.storage) = some expiresAt ∧
        plainAdd (ε := TreasuryError) e id 1 = .ok nextId ∧
        w' = { setSettlement w id
            { token, amount, merchant, status := .pending, approvalWeight := 0,
              proposer := signer, expiresAt } with
          storage.nextSettlementId := some nextId } := by
  simp only [proposeSettlement, bind_eq_ok, ensure_eq_ok, checkNotPaused_eq_ok,
    requireAuth_eq_ok, orFail_eq_ok, pure_eq_ok, Prod.mk.injEq]
  constructor
  · rintro ⟨-, ha, -, hp, -, hs, x, hx, n, hn, rfl, rfl⟩
    exact ⟨ha, hp, hs, rfl, x, n, hx, hn, rfl⟩
  · rintro ⟨ha, hp, hs, rfl, x, n, hx, hn, rfl⟩
    exact ⟨(), ha, (), hp, (), hs, x, hx, n, hn, rfl, rfl⟩

theorem cancelSettlement_eq_ok {caller : Address} {id : UInt64} :
    cancelSettlement e w caller id = .ok w' ↔
      isPaused w.storage = false ∧ caller ∈ e.auths ∧
      ∃ settlement, w.storage.settlement id = some settlement ∧ settlement.status = .pending ∧
        ∃ admin, w.storage.admin = some admin ∧
          (caller = settlement.proposer ∨ caller = admin) ∧
          w' = (setSettlement w id { settlement with status := .cancelled }).publish
            [.symbol "settlement_cancelled"]
            (.vec [.u64 id, .address caller, .vec [.symbol "Cancelled"]]) := by
  simp [cancelSettlement]

theorem approveSettlement_eq_ok {signer : Address} {id : UInt64} :
    approveSettlement e w signer id = .ok w' ↔
      isPaused w.storage = false ∧ signer ∈ e.auths ∧
      ∃ settlement, w.storage.settlement id = some settlement ∧ settlement.status = .pending ∧
        e.timestamp < settlement.expiresAt ∧
        ∃ approvalWeight,
          checkedAdd settlement.approvalWeight (w.storage.weight signer) = some approvalWeight ∧
          w' = setSettlement w id { settlement with approvalWeight } := by
  simp [approveSettlement]

theorem executeSettlement_eq_ok {signer tokenContract : Address} {id : UInt64} :
    executeSettlement e w signer id tokenContract = .ok w' ↔
      isPaused w.storage = false ∧ signer ∈ e.auths ∧
      ∃ settlement, w.storage.settlement id = some settlement ∧ settlement.status = .pending ∧
        e.timestamp < settlement.expiresAt ∧
        getThreshold w.storage ≤ settlement.approvalWeight ∧
        w' = setSettlement w id { settlement with status := .executed } := by
  simp [executeSettlement]

theorem raiseDispute_eq_ok {signer : Address} {id : UInt64} {reason : UInt32} :
    raiseDispute e w signer id reason = .ok w' ↔
      isPaused w.storage = false ∧ signer ∈ e.auths ∧
      ∃ settlement, w.storage.settlement id = some settlement ∧ signer = settlement.merchant ∧
        w' = setSettlement w id { settlement with status := .onHold } := by
  simp [raiseDispute]

theorem resolveDispute_eq_ok {signer : Address} {id : UInt64} {resolveInFavor : Bool} :
    resolveDispute e w signer id resolveInFavor = .ok w' ↔
      isPaused w.storage = false ∧ signer ∈ e.auths ∧
      ∃ settlement, w.storage.settlement id = some settlement ∧ settlement.status = .onHold ∧
        w' = (setSettlement w id { settlement with
            status := if resolveInFavor then .pending else .cancelled }).publish
          [.symbol "dispute_resolved"]
          (.vec [.u64 id, .bool resolveInFavor, .u64 settlement.approvalWeight]) := by
  simp [resolveDispute]

theorem updateSettlementMerchant_eq_ok {merchantCaller newMerchant : Address} {id : UInt64} :
    updateSettlementMerchant e w merchantCaller id newMerchant = .ok w' ↔
      isPaused w.storage = false ∧ merchantCaller ∈ e.auths ∧
      ∃ settlement, w.storage.settlement id = some settlement ∧ settlement.status = .pending ∧
        settlement.merchant = merchantCaller ∧
        w' = (setSettlement w id { settlement with merchant := newMerchant }).publish
          [.symbol "merchant_updated", .u64 id]
          (.vec [.address settlement.merchant, .address newMerchant]) := by
  simp [updateSettlementMerchant]

/-! ## Funds -/

theorem transferToken_eq_ok {token source recipient : Address} {amount : UInt64} :
    transferToken e w token source recipient amount = .ok w' ↔
      ∃ l, D.call e w.ledger token "transfer"
          [.address source, .address recipient, .i128 amount.toNat] = some (l, .void) ∧
        w' = { w with ledger := l } := by
  simp [transferToken]

theorem deposit_eq_ok {source token : Address} {amount : UInt64} :
    deposit e w source token amount = .ok w' ↔
      token ∈ w.storage.tokenAllowlist.getD [] ∧ isPaused w.storage = false ∧
      source ∈ e.auths ∧
      ∃ l, D.call e w.ledger token "transfer"
          [.address source, .address D.self, .i128 amount.toNat] = some (l, .void) ∧
        w' = { w with ledger := l }.publish [.symbol "deposit"]
          (.vec [.address token, .address source, .u64 amount]) := by
  have hne : (¬ (w.storage.tokenAllowlist.getD [] = [] ∨ token ∉ w.storage.tokenAllowlist.getD []))
      ↔ token ∈ w.storage.tokenAllowlist.getD [] := by
    cases w.storage.tokenAllowlist.getD [] <;> simp [or_iff_not_imp_left]
  simp only [deposit, bind_eq_ok, ensure_eq_ok, hne, checkNotPaused_eq_ok, requireAuth_eq_ok,
    transferToken_eq_ok, pure_eq_ok]
  constructor
  · rintro ⟨-, ha, -, hp, -, hs, -, ⟨l, hl, rfl⟩, rfl⟩
    exact ⟨ha, hp, hs, l, hl, rfl⟩
  · rintro ⟨ha, hp, hs, l, hl, rfl⟩
    exact ⟨(), ha, (), hp, (), hs, _, ⟨l, hl, rfl⟩, rfl⟩

theorem setDailyWithdrawLimit_eq_ok {admin token : Address} {limit : UInt64} :
    setDailyWithdrawLimit e w admin token limit = .ok w' ↔
      isPaused w.storage = false ∧ (admin ∈ e.auths ∧ w.storage.admin = some admin) ∧
      w' = { w with
        storage.dailyWithdrawLimit := Function.update w.storage.dailyWithdrawLimit token
          (if limit = 0 then none else some limit)
        storage.withdrawWindow :=
          if limit = 0 then Function.update w.storage.withdrawWindow token none
          else w.storage.withdrawWindow }.publish
        [.symbol "daily_withdraw_limit_set"] (.vec [.address token, .u64 limit]) := by
  by_cases h : limit = 0 <;> simp [setDailyWithdrawLimit, h]

/-- The withdrawal check writes the token's window and nothing else. -/
theorem spendWindow_eq_ok {token : Address} {amount : UInt64} :
    spendWindow e w token amount = .ok w' ↔
      (w.storage.dailyWithdrawLimit token = none ∧ w' = w) ∨
      ∃ limit newSpent, w.storage.dailyWithdrawLimit token = some limit ∧
        checkedAdd (currentWindow (w.storage.withdrawWindow token) e.timestamp).spent amount =
          some newSpent ∧ newSpent ≤ limit ∧
        w' = { w with
          storage.withdrawWindow := Function.update w.storage.withdrawWindow token
            (some ⟨(currentWindow (w.storage.withdrawWindow token) e.timestamp).windowStart,
              newSpent⟩) } := by
  cases h : w.storage.dailyWithdrawLimit token with
  | none => simp [spendWindow, h]
  | some limit => simp [spendWindow, h]

theorem withdraw_eq_ok {admin token recipient : Address} {amount : UInt64} :
    withdraw e w admin token recipient amount = .ok w' ↔
      isPaused w.storage = false ∧ (admin ∈ e.auths ∧ w.storage.admin = some admin) ∧
      ∃ w₁ l, spendWindow e w token amount = .ok w₁ ∧
        D.call e w₁.ledger token "transfer"
          [.address D.self, .address recipient, .i128 amount.toNat] = some (l, .void) ∧
        w' = { w₁ with ledger := l } := by
  simp [withdraw, transferToken]

theorem addTokenToAllowlist_eq_ok {admin token : Address} :
    addTokenToAllowlist e w admin token = .ok w' ↔
      isPaused w.storage = false ∧ (admin ∈ e.auths ∧ w.storage.admin = some admin) ∧
      w' = { w with
        storage.tokenAllowlist := some
          (if token ∈ w.storage.tokenAllowlist.getD [] then w.storage.tokenAllowlist.getD []
          else w.storage.tokenAllowlist.getD [] ++ [token]) } := by
  simp [addTokenToAllowlist]

theorem removeTokenFromAllowlist_eq_ok {admin token : Address} :
    removeTokenFromAllowlist e w admin token = .ok w' ↔
      isPaused w.storage = false ∧ (admin ∈ e.auths ∧ w.storage.admin = some admin) ∧
      w' = { w with
        storage.tokenAllowlist :=
          some ((w.storage.tokenAllowlist.getD []).filter (· ≠ token)) } := by
  simp [removeTokenFromAllowlist]

end Treasury
