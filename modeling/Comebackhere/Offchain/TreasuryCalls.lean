import Comebackhere.Offchain.ClientCalls
import Comebackhere.Treasury.Accepted

/-!
# The calls that the clients make of the treasury

The Express backend approves and executes settlements and sets the threshold, as one signer. The
treasury page of the frontend deposits and withdraws amounts of another type than the contract
takes, and the page of the allowed tokens calls functions that the contract does not have.

## Main definitions

* `treasuryCall`: the entry points that the host calls
* `TreasuryClient`: the calls of the backend and of the frontend
* `Proceeds x x'`: what becomes of a settlement

## Main results

* `treasuryCall_operation`: what the calls of the clients are converted to
* `treasury_onlyApproved`: what becomes of the treasury where only the clients call
-/

namespace Offchain

open Soroban Checked Machine

/-! ## Entry points -/

def asBool : ScVal → Option Bool
  | .bool b => some b
  | _ => none

def asPair {α β : Type} (first : ScVal → Option α) (second : ScVal → Option β) :
    ScVal → Option (α × β)
  | .vec [v, w] => return (← first v, ← second w)
  | _ => none

/-- The entry point of the treasury that the host calls, with its arguments. -/
def treasuryCall (op : Operation) : Option Treasury.Call :=
  match op.function, op.args with
  | "upgrade", [hash] => return .upgrade (← asBytesN hash)
  | "transfer_admin", [admin, newAdmin] =>
    return .transferAdmin (← asAddress admin) (← asAddress newAdmin)
  | "accept_admin", [newAdmin] => return .acceptAdmin (← asAddress newAdmin)
  | "initialize", [signers, threshold, admin] =>
    return .initializeContract (← asVec (asPair asAddress asU64) signers) (← asU64 threshold)
      (← asAddress admin)
  | "set_signer", [admin, signer, weight] =>
    return .setSigner (← asAddress admin) (← asAddress signer) (← asU64 weight)
  | "rotate_signer", [admin, oldSigner, newSigner, newWeight] =>
    return .rotateSigner (← asAddress admin) (← asAddress oldSigner) (← asAddress newSigner)
      (← asU64 newWeight)
  | "propose_settlement", [signer, token, amount, merchant] =>
    return .proposeSettlement (← asAddress signer) (← asAddress token) (← asU64 amount)
      (← asAddress merchant)
  | "cancel_settlement", [caller, id] =>
    return .cancelSettlement (← asAddress caller) (← asU64 id)
  | "approve_settlement", [signer, id] =>
    return .approveSettlement (← asAddress signer) (← asU64 id)
  | "execute_settlement", [signer, id, tokenContract] =>
    return .executeSettlement (← asAddress signer) (← asU64 id) (← asAddress tokenContract)
  | "pause", [admin] => return .pause (← asAddress admin)
  | "unpause", [admin] => return .unpause (← asAddress admin)
  | "set_settlement_ttl", [admin, ttlSeconds] =>
    return .setSettlementTtl (← asAddress admin) (← asU64 ttlSeconds)
  | "update_threshold", [admin, newThreshold] =>
    return .updateThreshold (← asAddress admin) (← asU32 newThreshold)
  | "raise_dispute", [signer, id, reason] =>
    return .raiseDispute (← asAddress signer) (← asU64 id) (← asU32 reason)
  | "resolve_dispute", [signer, id, resolveInFavor] =>
    return .resolveDispute (← asAddress signer) (← asU64 id) (← asBool resolveInFavor)
  | "update_settlement_merchant", [merchantCaller, id, newMerchant] =>
    return .updateSettlementMerchant (← asAddress merchantCaller) (← asU64 id)
      (← asAddress newMerchant)
  | "deposit", [source, token, amount] =>
    return .deposit (← asAddress source) (← asAddress token) (← asU64 amount)
  | "set_daily_withdraw_limit", [admin, token, limit] =>
    return .setDailyWithdrawLimit (← asAddress admin) (← asAddress token) (← asU64 limit)
  | "withdraw", [admin, token, recipient, amount] =>
    return .withdraw (← asAddress admin) (← asAddress token) (← asAddress recipient)
      (← asU64 amount)
  | "add_token_to_allowlist", [admin, token] =>
    return .addTokenToAllowlist (← asAddress admin) (← asAddress token)
  | "remove_token_from_allowlist", [admin, token] =>
    return .removeTokenFromAllowlist (← asAddress admin) (← asAddress token)
  | _, _ => none

/-- The calls of the treasury: those of the backend, and of the frontend. -/
inductive TreasuryClient
  | approveSettlement (signer : Address) (settlementId : UInt64)
  | executeSettlement (signer : Address) (settlementId : UInt64) (tokenContract : Address)
  | setThreshold (signer : Address) (threshold : UInt32)
  | deposit (walletAddress token : Address) (stroops : ℤ)
  | withdraw (walletAddress recipient token : Address) (stroops : ℤ)
  | addAllowedToken (tokenAddress : Address)
  | removeAllowedToken (tokenAddress : Address)

def TreasuryClient.operation : TreasuryClient → Operation
  | .approveSettlement signer id => ⟨"approve_settlement", [.address signer, .u64 id]⟩
  | .executeSettlement signer id tokenContract =>
    ⟨"execute_settlement", [.address signer, .u64 id, .address tokenContract]⟩
  | .setThreshold signer threshold => ⟨"update_threshold", [.address signer, .u32 threshold]⟩
  | .deposit walletAddress token stroops =>
    ⟨"deposit", [.address walletAddress, .address token, .i128 stroops]⟩
  | .withdraw walletAddress recipient token stroops =>
    ⟨"withdraw", [.address walletAddress, .address recipient, .address token, .i128 stroops]⟩
  | .addAllowedToken tokenAddress => ⟨"add_allowed_token", [.address tokenAddress]⟩
  | .removeAllowedToken tokenAddress => ⟨"remove_allowed_token", [.address tokenAddress]⟩

/-- What a call of a client is converted to: those of the frontend to nothing. -/
theorem treasuryCall_operation (k : TreasuryClient) : treasuryCall k.operation =
    match k with
    | .approveSettlement signer id => some (.approveSettlement signer id)
    | .executeSettlement signer id tokenContract =>
      some (.executeSettlement signer id tokenContract)
    | .setThreshold signer threshold => some (.updateThreshold signer threshold)
    | _ => none := by
  cases k <;> rfl

/-! ## What becomes of the treasury -/

open Treasury (Settlement Storage State totalSignerWeight getThreshold setSettlement)

variable {D : Deployment}

/-- What becomes of a settlement: while it is pending it is approved, and then executed. -/
structure Proceeds (x x' : Settlement) : Prop where
  terms : x' = { x with status := x'.status, approvalWeight := x'.approvalWeight }
  weight : x.approvalWeight ≤ x'.approvalWeight
  closed : x.status ≠ .pending → x' = x
  status : x'.status = x.status ∨ x'.status = .executed

theorem Proceeds.refl (x : Settlement) : Proceeds x x :=
  ⟨rfl, UInt64.le_refl _, fun _ => rfl, Or.inl rfl⟩

theorem Proceeds.trans {x y z : Settlement} (h : Proceeds x y) (h' : Proceeds y z) :
    Proceeds x z where
  terms := by
    rw [h'.terms, h.terms]
  weight := UInt64.le_trans h.weight h'.weight
  closed hx := by
    have hy := h.closed hx
    rw [← hy] at hx
    exact (h'.closed hx).trans hy
  status := by
    rcases h'.status with hz | hz
    · exact hz ▸ h.status
    · exact Or.inr hz

/-- Nothing but the settlements and the threshold changes: settlements proceed, none is made or
taken away, and a threshold that is set can be reached by the signers. -/
structure OnlyApproved (s s' : Storage) : Prop where
  storage : s' = { s with settlement := s'.settlement, threshold := s'.threshold }
  absent : ∀ id, s.settlement id = none → s'.settlement id = none
  proceeds : ∀ id x, s.settlement id = some x → ∃ x', s'.settlement id = some x' ∧ Proceeds x x'
  threshold : s'.threshold = s.threshold ∨ ∃ e threshold total,
    s'.threshold = some threshold ∧ threshold ≠ 0 ∧ totalSignerWeight e s = .ok total ∧
      threshold ≤ total

section OnlyApproved

variable {e : Env} {w w' : State D} {s s' s'' : Storage} {v : Val} {id : UInt64} {x x' : Settlement}

theorem OnlyApproved.refl (s : Storage) : OnlyApproved s s :=
  ⟨rfl, fun _ h => h, fun _ x h => ⟨x, h, .refl x⟩, Or.inl rfl⟩

theorem totalSignerWeight_congr (hs : s' = { s with
    settlement := s'.settlement, threshold := s'.threshold }) (e : Env) :
    totalSignerWeight e s' = totalSignerWeight e s := by
  rw [hs]
  rfl

theorem OnlyApproved.trans (h : OnlyApproved s s') (h' : OnlyApproved s' s'') :
    OnlyApproved s s'' where
  storage := by
    rw [h'.storage, h.storage]
  absent id hid := h'.absent id (h.absent id hid)
  proceeds id x hx := by
    obtain ⟨x', hx', hproceeds⟩ := h.proceeds id x hx
    obtain ⟨x'', hx'', hproceeds'⟩ := h'.proceeds id x' hx'
    exact ⟨x'', hx'', hproceeds.trans hproceeds'⟩
  threshold := by
    rcases h'.threshold with he | ⟨e, threshold, total, hset, hne, htotal, hle⟩
    · rw [he]
      exact h.threshold
    · rw [totalSignerWeight_congr h.storage] at htotal
      exact Or.inr ⟨e, threshold, total, hset, hne, htotal, hle⟩

/-- One settlement proceeds. -/
theorem onlyApproved_setSettlement (hx : w.storage.settlement id = some x)
    (hproceeds : Proceeds x x') : OnlyApproved w.storage (setSettlement w id x').storage where
  storage := rfl
  absent id' hid' := by
    have hne : id' ≠ id := by
      rintro rfl
      rw [hx] at hid'
      cases hid'
    show Function.update w.storage.settlement id (some x') id' = none
    rw [Function.update_of_ne hne]
    exact hid'
  proceeds id' y hy := by
    by_cases hid : id' = id
    · subst hid
      obtain rfl := Option.some.inj (hx.symm.trans hy)
      exact ⟨x', Function.update_self .., hproceeds⟩
    · refine ⟨y, ?_, .refl y⟩
      show Function.update w.storage.settlement id (some x') id' = some y
      rw [Function.update_of_ne hid]
      exact hy
  threshold := Or.inl rfl

/-- **A call of a client** approves or executes a settlement or sets the threshold, and moves no
token. -/
theorem onlyApproved_of_ok {k : TreasuryClient} {c : Treasury.Call}
    (hc : treasuryCall k.operation = some c) (h : Treasury.invoke e w c = .ok (w', v)) :
    OnlyApproved w.storage w'.storage ∧ w'.ledger = w.ledger := by
  rw [treasuryCall_operation] at hc
  cases k with
  | approveSettlement signer id =>
    obtain rfl := Option.some.inj hc
    obtain ⟨⟨-, -, x, hx, hpending, -, weight, hweight, rfl⟩, -⟩ := by
      simpa only [Treasury.invoke, Treasury.unitResult_eq_ok, Treasury.approveSettlement_eq_ok]
        using h
    have hle : x.approvalWeight ≤ weight := by
      rw [UInt64.le_iff_toNat_le, (checkedAdd_eq_some.mp hweight).2]
      exact Nat.le_add_right _ _
    exact ⟨onlyApproved_setSettlement hx
      ⟨rfl, hle, fun hclosed => absurd hpending hclosed, Or.inl rfl⟩, rfl⟩
  | executeSettlement signer id tokenContract =>
    obtain rfl := Option.some.inj hc
    obtain ⟨⟨-, -, x, hx, hpending, -, -, rfl⟩, -⟩ := by
      simpa only [Treasury.invoke, Treasury.unitResult_eq_ok, Treasury.executeSettlement_eq_ok]
        using h
    exact ⟨onlyApproved_setSettlement hx
      ⟨rfl, UInt64.le_refl _, fun hclosed => absurd hpending hclosed, Or.inr rfl⟩, rfl⟩
  | setThreshold signer threshold =>
    obtain rfl := Option.some.inj hc
    obtain ⟨⟨-, -, hne, total, htotal, hle, rfl⟩, -⟩ := by
      simpa only [Treasury.invoke, Treasury.unitResult_eq_ok, Treasury.updateThreshold_eq_ok]
        using h
    have hne' : threshold.toUInt64 ≠ 0 := by
      intro hzero
      apply hne
      apply UInt32.toNat_inj.mp
      have := congrArg UInt64.toNat hzero
      simpa using this
    exact ⟨⟨rfl, fun _ hid => hid, fun _ x hx => ⟨x, hx, .refl x⟩,
      Or.inr ⟨e, threshold.toUInt64, total, rfl, hne', htotal, hle⟩⟩, rfl⟩
  | deposit | withdraw | addAllowedToken | removeAllowedToken => cases hc

end OnlyApproved

/-- The rest of the ledger as it was last changed from outside. -/
def lastOutside {K : Type} (l : D.Ledger) (is : List ((Env × K) ⊕ D.Ledger)) : D.Ledger :=
  (is.filterMap Sum.getRight?).getLast?.getD l

/-- **Where only the clients call**, no settlement is proposed, cancelled or put on hold, and none
that is not pending changes; the signers, the admin, the limits and the allowed tokens stay, a
threshold that is set can be reached; and no token is moved. -/
theorem treasury_onlyApproved (w : State D) (is : List ((Env × TreasuryClient) ⊕ D.Ledger)) :
    OnlyApproved w.storage (run (clientStep Treasury.invoke treasuryCall
        TreasuryClient.operation) w (is.map clientsOnly)).storage ∧
      (run (clientStep Treasury.invoke treasuryCall TreasuryClient.operation) w
        (is.map clientsOnly)).ledger = lastOutside w.ledger is := by
  induction is using List.reverseRecOn with
  | nil => exact ⟨.refl _, rfl⟩
  | append_singleton is i ih =>
    rw [List.map_append, List.map_singleton, run_snoc]
    revert ih
    generalize run (clientStep Treasury.invoke treasuryCall TreasuryClient.operation) w
      (is.map clientsOnly) = w₁
    rintro ⟨happroved, hledger⟩
    cases i with
    | inr l => exact ⟨happroved, by simp [clientsOnly, clientStep, Soroban.step, lastOutside]⟩
    | inl call =>
      obtain ⟨e, k⟩ := call
      have hlast : lastOutside w.ledger (is ++ [.inl (e, k)]) = w₁.ledger := by
        rw [hledger]
        simp [lastOutside]
      rw [hlast, clientsOnly, clientStep]
      split
      · exact ⟨happroved, rfl⟩
      · next c hc =>
        rw [Soroban.step]
        split
        · next hinvoke =>
          obtain ⟨hstep, hsame⟩ := onlyApproved_of_ok hc hinvoke
          exact ⟨happroved.trans hstep, hsame⟩
        · exact ⟨happroved, rfl⟩

end Offchain
