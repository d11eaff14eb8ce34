import Comebackhere.Library.Ballot
import Comebackhere.Treasury.Effect

/-!
# Quorums of distinct signers

A settlement keeps the weight of its approvals as a running counter, and does not keep who
approved it. The approvals accepted so far are a ballot, read off the history of a run; the
counter is compared with the tally of that ballot, which counts every signer once.

## Main definitions

* `approvals id h`: the accepted approvals of a settlement, each with the weight of its signer
* `QuorumSound`: every counter is the tally of its ballot, and executions need the threshold
* `ApprovesOnce`: an approval by a signer whose approval is counted already adds no weight

## Main results

* `quorumSound_iff`: quorums are sound throughout the runs in which signers approve once
-/

namespace Treasury

open Soroban Checked Machine Ballot

variable {D : Deployment} {e : Env} {w : State D} {i : Input D Call} {h : History D}

/-- The vote of a transition for a settlement: an accepted approval, with the weight its signer
holds at that moment. -/
def approval (settlementId : UInt64) (t : State D × Input D Call) : Option (Address × ℕ) :=
  match accepted invoke t with
  | some (_, .approveSettlement signer id, _) =>
    if id = settlementId then some (signer, (t.1.storage.weight signer).toNat) else none
  | _ => none

/-- The accepted approvals of a settlement, in order. -/
def approvals (settlementId : UInt64) (h : History D) : List (Address × ℕ) :=
  h.filterMap (approval settlementId)

theorem approvals_snoc_of_not_accepted (id : UInt64) (hn : accepted invoke (w, i) = none) :
    approvals id (h ++ [(w, i)]) = approvals id h := by
  simp [approvals, approval, hn]

theorem approvals_snoc_approve {id id' : UInt64} {signer : Address} {v : Val}
    (ha : accepted invoke (w, i) = some (e, .approveSettlement signer id, v)) :
    approvals id' (h ++ [(w, i)]) = approvals id' h ++
      if id = id' then [(signer, (w.storage.weight signer).toNat)] else [] := by
  by_cases hid : id = id' <;> simp [approvals, approval, ha, hid]

theorem approvals_snoc_other {id : UInt64} {c : Call} {v : Val}
    (ha : accepted invoke (w, i) = some (e, c, v))
    (hc : ∀ signer id, c ≠ .approveSettlement signer id) :
    approvals id (h ++ [(w, i)]) = approvals id h := by
  have hnone : approval id (w, i) = none := by
    unfold approval
    rw [ha]
    cases c with
    | approveSettlement signer id => exact absurd rfl (hc signer id)
    | _ => rfl
  simp [approvals, hnone]

/-- Every stored counter is the tally of the settlement's ballot. -/
def CountersExact (h : History D) (w : State D) : Prop :=
  ∀ id settlement, w.storage.settlement id = some settlement →
    settlement.approvalWeight.toNat = tally (approvals id h)

/-- The counters are exact, and an execution the contract would accept has the weight of distinct
approvers that the stored threshold asks for. -/
structure QuorumSound (h : History D) (w : State D) : Prop where
  exact : CountersExact h w
  quorate : ∀ e signer id token w' v,
    invoke e w (.executeSettlement signer id token) = .ok (w', v) →
    (getThreshold w.storage).toNat ≤ tally (approvals id h)

/-- A signer whose approval is counted already approves again with weight zero only, and a
proposal gets no id under which approvals of positive weight are recorded. -/
def ApprovesOnce (h : History D) (w : State D) : Call → Prop
  | .approveSettlement signer id =>
    signer ∈ voters (approvals id h) → w.storage.weight signer = 0
  | .proposeSettlement _ _ _ _ =>
    ∀ signer ∈ voters (approvals (w.storage.nextSettlementId.getD 1) h),
      firstWeight (approvals (w.storage.nextSettlementId.getD 1) h) signer = 0
  | _ => True

theorem CountersExact.sound (hI : CountersExact h w) : QuorumSound h w := by
  refine ⟨hI, fun e signer id token w' v ho => ?_⟩
  obtain ⟨⟨-, -, x, hx, -, -, hq, -⟩, -⟩ := by
    simpa only [invoke, unitResult_eq_ok, executeSettlement_eq_ok] using ho
  rw [← hI id x hx]
  exact UInt64.le_iff_toNat_le.mp hq

/-- An edit that is no approval keeps the counter. -/
theorem Edit.approvalWeight_eq {s : Storage} {c : Call} {id : UInt64} {x x' : Settlement}
    (hedit : Edit e s c id x x') (hc : ∀ signer id, c ≠ .approveSettlement signer id) :
    x'.approvalWeight = x.approvalWeight := by
  cases hedit with
  | approve _ _ => exact absurd rfl (hc _ _)
  | _ => rfl

/-- Writing a settlement keeps the counters exact when the counter written is. -/
theorem countersExact_update {w' : State D} {id : UInt64} {x : Settlement}
    {t : State D × Input D Call} (hI : CountersExact h w)
    (hw : w'.storage.settlement = Function.update w.storage.settlement id (some x))
    (hothers : ∀ id', id' ≠ id → approvals id' (h ++ [t]) = approvals id' h) :
    CountersExact (h ++ [t]) w' ↔ x.approvalWeight.toNat = tally (approvals id (h ++ [t])) := by
  unfold CountersExact
  rw [hw]
  constructor
  · exact fun hI' => hI' id x (Function.update_self ..)
  · intro hx id' y hy
    by_cases hid : id' = id
    · subst hid
      obtain rfl : x = y := by simpa using hy
      exact hx
    · rw [Function.update_of_ne hid] at hy
      rw [hothers id' hid]
      exact hI id' y hy

/-- The counters stay exact through an approval exactly when it approves once. -/
theorem countersExact_approve {signer : Address} {id approvalWeight : UInt64} {x : Settlement}
    {v : Val} (hI : CountersExact h w)
    (ha : accepted invoke (w, i) = some (e, .approveSettlement signer id, v))
    (hx : w.storage.settlement id = some x)
    (hweight : approvalWeight.toNat = x.approvalWeight.toNat + (w.storage.weight signer).toNat)
    (hb : (step w i).storage.settlement =
      Function.update w.storage.settlement id (some { x with approvalWeight })) :
    CountersExact (h ++ [(w, i)]) (step w i) ↔ ApprovesOnce h w (.approveSettlement signer id) := by
  have hothers : ∀ id', id' ≠ id → approvals id' (h ++ [(w, i)]) = approvals id' h := by
    intro id' hne
    rw [approvals_snoc_approve ha, if_neg (Ne.symm hne), List.append_nil]
  rw [countersExact_update hI hb hothers, approvals_snoc_approve ha, if_pos rfl, hweight,
    hI id x hx]
  by_cases hvoter : signer ∈ voters (approvals id h)
  · -- the signer is counted already: only a weight of zero keeps the counter exact
    rw [tally_snoc_of_mem hvoter]
    simp [ApprovesOnce, hvoter, ← UInt64.toNat_inj]
  · -- a new signer adds its weight to both
    rw [tally_snoc_of_notMem hvoter]
    simp [ApprovesOnce, hvoter]

/-- The counters stay exact through an accepted invocation exactly when it approves once. -/
theorem countersExact_step {c : Call} {v : Val} (hI : CountersExact h w)
    (ha : accepted invoke (w, i) = some (e, c, v)) (heff : Effect e w c (step w i) v) :
    CountersExact (h ++ [(w, i)]) (step w i) ↔ ApprovesOnce h w c := by
  cases heff.book with
  | unchanged hc hb =>
    have hna : ∀ signer id, c ≠ .approveSettlement signer id := by
      rintro signer id rfl
      exact absurd hc (by simp [Call.writesSettlement])
    refine iff_of_true ?_ ?_
    · simpa only [CountersExact, hb, approvals_snoc_other ha hna] using hI
    · cases c <;> trivial
  | proposed hid _ hweight hb =>
    -- the new counter is zero, and so must be the tally of the ballot of that id
    rw [countersExact_update hI hb fun id' _ => approvals_snoc_other ha (by simp),
      approvals_snoc_other ha (by simp), hweight, hid]
    rw [ApprovesOnce, ← tally_eq_zero_iff, UInt64.toNat_zero, eq_comm]
  | @edited _ _ id x x' hx hedit hb =>
    by_cases hc : ∃ signer id, c = .approveSettlement signer id
    · obtain ⟨signer, id', rfl⟩ := hc
      cases hedit with
      | approve hpending hweight => exact countersExact_approve hI ha hx hweight hb
    · -- the other edits keep the counter, and are no approvals
      have hna : ∀ signer id, c ≠ .approveSettlement signer id := fun s i he => hc ⟨s, i, he⟩
      refine iff_of_true ?_ ?_
      · rw [countersExact_update hI hb fun id' _ => approvals_snoc_other ha hna,
          approvals_snoc_other ha hna, hedit.approvalWeight_eq hna]
        exact hI id x hx
      · cases hedit with
        | approve _ _ => exact absurd rfl (hna _ _)
        | _ => trivial

/-- **Quorum soundness**: from a fresh deployment, every counter is the tally of its ballot and
every execution has its quorum throughout exactly the runs whose accepted invocations approve
once. -/
theorem quorumSound_iff (l : D.Ledger) (wasm : WasmHash) (is : List (Input D Call)) :
    Always step QuorumSound (fresh l wasm) is ↔
      Each step (fun h w i => IfAccepted invoke (fun _ c _ => ApprovesOnce h w c) (w, i))
        (fresh l wasm) is := by
  refine always_iff_each (I := CountersExact) ?_ (fun h w hI => hI.sound) ?_ ?_ is
  · intro id x hx
    simp [fresh, Storage.empty] at hx
  · intro h w i hI hC
    rcases step_cases w i with ⟨hn, hs⟩ | ⟨e, c, v, -, ha, heff⟩
    · simpa only [CountersExact, hs, approvals_snoc_of_not_accepted _ hn] using hI
    · exact (countersExact_step hI ha heff).mpr ((ifAccepted_iff ha).mp hC)
  · intro h w i hI hP
    rcases step_cases w i with ⟨hn, -⟩ | ⟨e, c, v, -, ha, heff⟩
    · exact ifAccepted_of_none hn
    · exact (ifAccepted_iff ha).mpr ((countersExact_step hI ha heff).mp hP.exact)

/-- Two signers of weights 2 and 1, and a threshold of 3: the first signer proposes, and approves
twice. -/
def doubleApproval : List (Input (isolated (.contract 0)) Call) :=
  [.call ⟨{.account 0}, 0, true⟩
      (.initializeContract [(.account 1, 2), (.account 2, 1)] 3 (.account 0)),
    .call ⟨{.account 1}, 1, true⟩
      (.proposeSettlement (.account 1) (.contract 1) 500 (.account 3)),
    .call ⟨{.account 1}, 2, true⟩ (.approveSettlement (.account 1) 1),
    .call ⟨{.account 1}, 3, true⟩ (.approveSettlement (.account 1) 1)]

/-- The settlement of `doubleApproval` can then be executed, on the approval of one signer. -/
theorem doubleApproval_not_sound : ¬ Always step QuorumSound (fresh () 0) doubleApproval := by
  intro h
  have hquorum := h.at_end.quorate ⟨{.account 1}, 4, true⟩ (.account 1) 1 (.contract 1) _ _ rfl
  exact absurd hquorum (by decide)

end Treasury
