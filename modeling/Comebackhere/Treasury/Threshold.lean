import Comebackhere.Treasury.Signers

/-!
# Reachability of the threshold

The threshold is compared with the weight of the signers when it is set, by `initialize` and by
`update_threshold`. The weights can change afterwards: `set_signer` and `rotate_signer` do not
look at the threshold, and `initialize` accepts a threshold of zero.

## Main definitions

* `ThresholdMet w`: the threshold is positive and no higher than the weight of the signers, who can
  approve any fresh settlement up to it
* `KeepsQuorum`: the invocation sets a positive threshold, or takes no weight the threshold needs

## Main results

* `run_approveAll`: the approvals of all signers add up on a fresh settlement
* `thresholdMet_iff`: the threshold is met throughout the runs that keep the quorum
-/

namespace Treasury

open Soroban Checked Machine

variable {D : Deployment} {e : Env} {w : State D} {i : Input D Call} {h : History D} {s : Storage}

/-! ## Approvals of all signers -/

/-- The signers approve one after the other. -/
def approveAll (now : UInt64) (id : UInt64) (signers : List Address) : List (Input D Call) :=
  signers.map fun signer => .call ⟨{signer}, now, true⟩ (.approveSettlement signer id)

/-- A settlement that can be approved. -/
structure Approvable (w : State D) (now : UInt64) (id : UInt64) (x : Settlement) : Prop where
  stored : w.storage.settlement id = some x
  pending : x.status = .pending
  unexpired : now < x.expiresAt
  unpaused : isPaused w.storage = false

theorem Approvable.step_eq {now id : UInt64} {x : Settlement} (hx : Approvable w now id x)
    {signer : Address}
    (hfits : x.approvalWeight.toNat + (w.storage.weight signer).toNat < 2 ^ 64) :
    step w (.call ⟨{signer}, now, true⟩ (.approveSettlement signer id)) =
      setSettlement w id
        { x with approvalWeight := x.approvalWeight + w.storage.weight signer } := by
  refine (accepted_of_invoke (v := .void) ?_).2
  rw [invoke, unitResult_eq_ok, approveSettlement_eq_ok]
  refine ⟨⟨hx.unpaused, by simp, x, hx.stored, hx.pending, hx.unexpired, _, ?_, rfl⟩, rfl⟩
  exact if_pos hfits

/-- **The approvals of signers add up** on a settlement that can be approved, while they fit. -/
theorem run_approveAll {now id : UInt64} {x : Settlement} (signers : List Address)
    (hx : Approvable w now id x)
    (hfits : x.approvalWeight.toNat + (signers.map fun a => (w.storage.weight a).toNat).sum
      < 2 ^ 64) :
    ∃ y, (run step w (approveAll now id signers)).storage.settlement id = some y ∧
      y.approvalWeight.toNat =
        x.approvalWeight.toNat + (signers.map fun a => (w.storage.weight a).toNat).sum := by
  induction signers generalizing w x with
  | nil => exact ⟨x, hx.stored, rfl⟩
  | cons a signers ih =>
    -- the first approval leaves a settlement that can be approved, with the weight added
    simp only [List.map_cons, List.sum_cons] at hfits ⊢
    have hadd : x.approvalWeight.toNat + (w.storage.weight a).toNat < 2 ^ 64 := by omega
    have hsum : (x.approvalWeight + w.storage.weight a).toNat =
        x.approvalWeight.toNat + (w.storage.weight a).toNat := by
      rw [UInt64.toNat_add, Nat.mod_eq_of_lt hadd]
    have hstep := hx.step_eq hadd
    obtain ⟨y, hy, hyw⟩ := ih (w := setSettlement w id
        { x with approvalWeight := x.approvalWeight + w.storage.weight a })
      ⟨Function.update_self .., hx.pending, hx.unexpired, hx.unpaused⟩
      (by rw [hsum]; simpa [Storage.weight, Nat.add_assoc] using hfits)
    refine ⟨y, ?_, ?_⟩
    · rw [approveAll, List.map_cons, run_cons, hstep]
      exact hy
    · rw [hyw, hsum, Nat.add_assoc]
      rfl

/-! ## The threshold -/

/-- The threshold is positive and no higher than the weight of the signers. -/
structure ThresholdBounds (s : Storage) : Prop where
  positive : 1 ≤ (getThreshold s).toNat
  reachable : (getThreshold s).toNat ≤ registeredWeight s

/-- The threshold is within its bounds, and the approvals of all signers, where they fit the
counter of a settlement, bring any fresh settlement up to it. -/
structure ThresholdMet (w : State D) : Prop extends ThresholdBounds w.storage where
  approvable : registeredWeight w.storage < 2 ^ 64 → ∀ now id x, Approvable w now id x →
    x.approvalWeight = 0 →
    ∃ y, (run step w (approveAll now id (w.storage.signerList.getD []))).storage.settlement id =
      some y ∧ getThreshold w.storage ≤ y.approvalWeight

theorem ThresholdBounds.met (hb : ThresholdBounds w.storage) : ThresholdMet w := by
  refine ⟨hb, fun hfits now id x hx hzero => ?_⟩
  obtain ⟨y, hy, hyw⟩ := run_approveAll (w.storage.signerList.getD []) hx
    (by simpa [hzero, registeredWeight] using hfits)
  refine ⟨y, hy, UInt64.le_iff_toNat_le.mpr ?_⟩
  rw [hyw, hzero, UInt64.toNat_zero, Nat.zero_add]
  exact hb.reachable

/-- An initialization sets a positive threshold, and a change of a signer leaves the threshold
within the weight of the signers. -/
def KeepsQuorum (s : Storage) : Call → Prop
  | .initializeContract _ threshold _ => threshold ≠ 0
  | .setSigner _ signer weight =>
    (getThreshold s).toNat + (s.weight signer).toNat ≤ registeredWeight s + weight.toNat
  | .rotateSigner _ oldSigner _ newWeight =>
    (getThreshold s).toNat + (s.weight oldSigner).toNat ≤ registeredWeight s + newWeight.toNat
  | _ => True

/-- What a run that initializes once keeps up while it keeps the quorum. -/
structure ThresholdInv (s : Storage) : Prop extends SignerInv s where
  unnominated : s.admin = none → s.pendingAdmin = none
  bounds : s.admin ≠ none → ThresholdBounds s

theorem getThreshold_congr {s' : Storage} (ht : s'.threshold = s.threshold) :
    getThreshold s' = getThreshold s := by
  rw [getThreshold, ht, getThreshold]

theorem bounds_congr {s' : Storage} (hs : s'.signer = s.signer)
    (hl : s'.signerList = s.signerList) (ht : s'.threshold = s.threshold) :
    ThresholdBounds s' ↔ ThresholdBounds s := by
  have hthreshold := getThreshold_congr ht
  have hweight : registeredWeight s' = registeredWeight s := by
    simp only [registeredWeight, Storage.weight, hs, hl]
  exact ⟨fun hb => ⟨hthreshold ▸ hb.positive, hthreshold ▸ hweight ▸ hb.reachable⟩,
    fun hb => ⟨hthreshold ▸ hb.positive, hthreshold ▸ hweight ▸ hb.reachable⟩⟩

/-- When the threshold stands and the registered weight changes by the difference of two weights,
the threshold stays within its bounds exactly if the new weight makes up for the old. -/
theorem bounds_iff_of_total {s' : Storage} {old new : ℕ} (hb : ThresholdBounds s)
    (ht : s'.threshold = s.threshold)
    (htotal : registeredWeight s' + old = registeredWeight s + new) :
    ThresholdBounds s' ↔ (getThreshold s).toNat + old ≤ registeredWeight s + new := by
  have hthreshold := getThreshold_congr ht
  constructor
  · intro hb'
    have hreach := hb'.reachable
    rw [hthreshold] at hreach
    omega
  · intro hle
    refine ⟨hthreshold ▸ hb.positive, ?_⟩
    rw [hthreshold]
    omega

/-- No admin is stored and none is nominated before the contract is initialized. -/
theorem admin_none_of_kept {s' : Storage} {c : Call} (heff : AdminEffect e s s' c)
    (hun : s.admin = none → s.pendingAdmin = none)
    (hc : ∀ signers threshold admin, c ≠ .initializeContract signers threshold admin) :
    (s'.admin = none → s'.pendingAdmin = none) ∧ (s'.admin ≠ none → s.admin ≠ none) := by
  cases heff with
  | kept _ ha hp => exact ⟨by rw [ha, hp]; exact hun, by rw [ha]; exact id⟩
  | nominated hadmin ha _ => exact ⟨by simp [ha], by simp [hadmin]⟩
  | accepted _ hpending ha _ =>
    exact ⟨by simp [ha], fun _ hn => by simp [hun hn] at hpending⟩
  | initialized _ _ => exact absurd rfl (hc _ _ _)

/-- An entry point that writes the signers or the threshold leaves an admin stored. -/
theorem Effect.admin_ne_none {w' : State D} {c : Call} {v : Val} (heff : Effect e w c w' v)
    (hc : c.writesSigners = true) : w'.storage.admin ≠ none := by
  cases heff with
  | config hconfig _ _ _ => simp [Call.writesSigners_of_isConfig hconfig] at hc
  | initialized _ _ hw _ => simp [hw]
  | setSigner _ hadmin hw _ => simp [hw, hadmin]
  | rotateSigner _ hadmin _ _ hw _ => simp [hw, hadmin]
  | updateThreshold _ hadmin _ _ _ hw _ => simp [hw, hadmin]
  | edited _ hedit _ _ => cases hedit <;> exact nomatch hc
  | _ => exact nomatch hc

/-- The first initialization puts the threshold within its bounds unless the threshold is zero: the
upper bound is checked, the lower one is not. -/
theorem bounds_of_initialized {s' : Storage} {signers : List (Address × UInt64)}
    {threshold : UInt64} (hvalid : ValidRegistry signers threshold)
    (hunset : s.signer = fun _ => none) (hs : s'.signer = storeWeights s.signer signers)
    (hl : s'.signerList = some (signers.map Prod.fst)) (ht : s'.threshold = some threshold) :
    ThresholdBounds s' ↔ threshold ≠ 0 := by
  have hR' := represents_ofList (by simpa [Function.comp_def] using hvalid.nodup) hunset hs hl
  have hthreshold : getThreshold s' = threshold := by
    rw [getThreshold, ht]
    rfl
  have hweight : registeredWeight s' = (signers.map fun p => p.2.toNat).sum := by
    rw [hR'.registeredWeight_eq, Registry.total_ofList, List.map_map]
    rfl
  constructor
  · rintro ⟨hpos, -⟩ rfl
    simp [hthreshold] at hpos
  · intro hne
    have hpos : threshold.toNat ≠ 0 := fun hz => hne (UInt64.toNat_inj.mp (by simpa using hz))
    have hreach : (getThreshold s').toNat ≤ registeredWeight s' := by
      rw [hthreshold, hweight]
      exact hvalid.reaches
    exact ⟨hthreshold ▸ Nat.one_le_iff_ne_zero.mpr hpos, hreach⟩

/-- `update_threshold` puts the threshold within its bounds. -/
theorem bounds_of_rethreshold {s' : Storage} {newThreshold : UInt32} {total : UInt64}
    (hne : newThreshold ≠ 0) (htotal : totalSignerWeight e s = .ok total)
    (hle : newThreshold.toUInt64 ≤ total) (hs : s'.signer = s.signer)
    (hl : s'.signerList = s.signerList) (ht : s'.threshold = some newThreshold.toUInt64) :
    ThresholdBounds s' := by
  have hthreshold : getThreshold s' = newThreshold.toUInt64 := by
    rw [getThreshold, ht]
    rfl
  have hweight : registeredWeight s' = registeredWeight s := by
    simp only [registeredWeight, Storage.weight, hs, hl]
  have hpos : newThreshold.toNat ≠ 0 := fun hz => hne (UInt32.toNat_inj.mp (by simpa using hz))
  -- the total may have wrapped around, but is never above the weight of the signers
  have hbelow : total.toNat ≤ registeredWeight s := by
    rw [totalSignerWeight_eq_mod htotal]
    exact Nat.mod_le _ _
  constructor
  · rw [hthreshold, UInt32.toNat_toUInt64]
    exact Nat.one_le_iff_ne_zero.mpr hpos
  · rw [hthreshold, hweight]
    exact (UInt64.le_iff_toNat_le.mp hle).trans hbelow

/-- Under the invariant, an accepted invocation leaves the threshold within its bounds exactly
when it keeps the quorum. -/
theorem bounds_step {c : Call} {v : Val} (hI : ThresholdInv w.storage)
    (heff : Effect e w c (step w i) v)
    (honce : InitializesOnce w.storage c) (hadmin : (step w i).storage.admin ≠ none) :
    ThresholdBounds (step w i).storage ↔ KeepsQuorum w.storage c := by
  obtain ⟨R, hR⟩ := hI.represented
  cases heff.onSigners with
  | kept hc hs hl ht =>
    -- the admin stored afterwards was there before, so the bounds held before
    have hw : w.storage.admin ≠ none := by
      refine (admin_none_of_kept heff.onAdmin hI.unnominated ?_).2 hadmin
      rintro signers threshold admin rfl
      exact absurd hc.symm Bool.false_ne_true
    apply iff_of_true ((bounds_congr hs hl ht).mpr (hI.bounds hw))
    cases c <;> trivial
  | initialized hvalid hs hl ht => exact bounds_of_initialized hvalid (hI.unset honce) hs hl ht
  | @assigned _ signer weight hw hs hl ht =>
    have htotal := R.total_assign signer weight.toNat
    rw [← (hR.assign hs hl).registeredWeight_eq, ← hR.registeredWeight_eq, ← hR.weight] at htotal
    exact bounds_iff_of_total (hI.bounds hw) ht htotal
  | @replaced _ oldSigner newSigner newWeight hw hnew hs hl ht =>
    -- the new signer is the old one, or has no weight that the rotation would overwrite
    have hzero : newSigner = oldSigner ∨ R.weight newSigner = 0 :=
      hnew.imp_right fun hz => by rw [← hR.weight, hz, UInt64.toNat_zero]
    have htotal := R.total_replace hzero newWeight.toNat
    rw [← (hR.replace hs hl).registeredWeight_eq, ← hR.registeredWeight_eq, ← hR.weight] at htotal
    exact bounds_iff_of_total (hI.bounds hw) ht htotal
  | rethreshold hne htotal hle hs hl ht =>
    exact iff_of_true (bounds_of_rethreshold hne htotal hle hs hl ht) trivial

theorem ThresholdInv.step_of_keeps {c : Call} {v : Val} (hI : ThresholdInv w.storage)
    (ha : accepted invoke (w, i) = some (e, c, v)) (heff : Effect e w c (step w i) v)
    (honce : InitializesOnce w.storage c) (hk : KeepsQuorum w.storage c) :
    ThresholdInv (step w i).storage := by
  refine ⟨signerInv_step hI.toSignerInv ((ifAccepted_iff ha).mpr honce), ?_,
    fun hadmin => (bounds_step hI heff honce hadmin).mpr hk⟩
  by_cases hc : ∃ signers threshold admin, c = .initializeContract signers threshold admin
  · obtain ⟨signers, threshold, admin, rfl⟩ := hc
    cases heff.onAdmin with
    | initialized ha' _ => simp [ha']
    | kept hc _ _ => exact absurd hc.symm Bool.false_ne_true
  · exact (admin_none_of_kept heff.onAdmin hI.unnominated
      fun signers threshold admin he => hc ⟨signers, threshold, admin, he⟩).1

/-- **Reachability of the threshold**: among the runs from a fresh deployment that initialize the
contract once, the threshold is met in every state after the initialization throughout exactly
those whose accepted invocations keep the quorum. -/
theorem thresholdMet_iff (l : D.Ledger) (wasm : WasmHash) (is : List (Input D Call))
    (honce : InitializedOnce (fresh l wasm) is) :
    Always step (fun _ w => w.storage.admin ≠ none → ThresholdMet w) (fresh l wasm) is ↔
      Each step (fun _ w i => IfAccepted invoke (fun _ c _ => KeepsQuorum w.storage c) (w, i))
        (fresh l wasm) is := by
  refine always_iff_each_assuming (I := fun _ w => ThresholdInv w.storage)
    ⟨signerInv_fresh l wasm, fun _ => rfl, fun hne => absurd rfl hne⟩
    (fun h w hI hne => (hI.bounds hne).met) ?_ ?_ honce
  · intro h w i hI honce hk
    rcases step_cases w i with ⟨-, hs⟩ | ⟨e, c, v, -, ha, heff⟩
    · rwa [hs]
    · exact hI.step_of_keeps ha heff ((ifAccepted_iff ha).mp honce) ((ifAccepted_iff ha).mp hk)
  · intro h w i hI honce hP
    rcases step_cases w i with ⟨hn, -⟩ | ⟨e, c, v, -, ha, heff⟩
    · exact ifAccepted_of_none hn
    · refine (ifAccepted_iff ha).mpr ?_
      -- before the initialization the bounds say nothing; there no entry point writes the signers
      by_cases hc : c.writesSigners = true
      · have hadmin := heff.admin_ne_none hc
        exact (bounds_step hI heff ((ifAccepted_iff ha).mp honce) hadmin).mp
          (hP hadmin).toThresholdBounds
      · cases c <;> trivial

/-- The only signer's weight is lowered below the threshold. -/
def loweredWeight : List (Input (isolated (.contract 0)) Call) :=
  [.call ⟨{.account 0}, 0, true⟩ (.initializeContract [(.account 1, 3)] 3 (.account 0)),
    .call ⟨{.account 0}, 1, true⟩ (.setSigner (.account 0) (.account 1) 1)]

theorem loweredWeight_not_met : InitializedOnce (fresh () 0) loweredWeight ∧
    ¬ Always step (fun _ w => w.storage.admin ≠ none → ThresholdMet w) (fresh () 0)
      loweredWeight := by
  refine ⟨by decide, fun h => ?_⟩
  exact absurd (h.at_end (by decide)).reachable (by decide)

/-- The only signer is replaced by one of more weight. -/
def raisedWeight : List (Input (isolated (.contract 0)) Call) :=
  [.call ⟨{.account 0}, 0, true⟩ (.initializeContract [(.account 1, 3)] 3 (.account 0)),
    .call ⟨{.account 0}, 1, true⟩ (.rotateSigner (.account 0) (.account 1) (.account 2) 4)]

theorem raisedWeight_met_iff :
    Always step (fun _ w => w.storage.admin ≠ none → ThresholdMet w) (fresh () 0) raisedWeight ↔
      Each step (fun _ w i => IfAccepted invoke (fun _ c _ => KeepsQuorum w.storage c) (w, i))
        (fresh () 0) raisedWeight :=
  thresholdMet_iff () 0 raisedWeight (by decide)

end Treasury
