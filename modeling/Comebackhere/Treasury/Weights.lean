import Comebackhere.Treasury.Signers

/-!
# Weights that fit

The weights of the signers are 64-bit numbers that `set_signer` and `rotate_signer` take as they
are. The contract adds them up in two places: over the list of signers, and on a settlement from
one approval to the next.

## Main definitions

* `WeightsFit s`: the total fits, and every pending settlement has room for one more approval
* `Callable w`: what computes with weights neither traps nor wraps around, and is not refused
* `KeepsTotal`, `KeepsRoom`: the invocation leaves the total in 64 bits, and the room

## Main results

* `callable_iff`: the weights fit throughout the runs that keep the total and the room
-/

namespace Treasury

open Soroban Checked Machine

variable {D : Deployment} {e : Env} {w w' : State D} {i : Input D Call} {h : History D}
  {s s' : Storage} {c : Call} {v : Val}

/-! ## Weights that fit -/

/-- Every settlement that is pending has room for an approval of weight `n`. -/
def RoomFor (s : Storage) (n : ℕ) : Prop :=
  ∀ id x, s.settlement id = some x → x.status = .pending → x.approvalWeight.toNat + n < 2 ^ 64

/-- The weight of the listed signers fits 64 bits, and every pending settlement has room for an
approval by anyone. -/
structure WeightsFit (s : Storage) : Prop where
  total : registeredWeight s < 2 ^ 64
  room : ∀ a, RoomFor s (s.weight a).toNat

/-- The weights fit; the total is computed without a trap and without wrapping around; the threshold
can be set to any positive number up to it; a signer can be replaced; and a pending settlement
can be approved, with the signer's weight added. -/
structure Callable (w : State D) : Prop extends WeightsFit w.storage where
  computes : ∀ e, ∃ total, totalSignerWeight e w.storage = .ok total ∧
    total.toNat = registeredWeight w.storage
  rethresholds : ∀ e admin newThreshold, isPaused w.storage = false → admin ∈ e.auths →
    w.storage.admin = some admin → newThreshold ≠ 0 →
    newThreshold.toNat ≤ registeredWeight w.storage →
    ∃ w', updateThreshold e w admin newThreshold = .ok w'
  rotates : ∀ e admin oldSigner newSigner newWeight, isPaused w.storage = false →
    admin ∈ e.auths → w.storage.admin = some admin → w.storage.weight oldSigner ≠ 0 →
    (newSigner = oldSigner ∨ w.storage.weight newSigner = 0) →
    ∃ w', rotateSigner e w admin oldSigner newSigner newWeight = .ok w'
  approves : ∀ e signer id x, isPaused w.storage = false → signer ∈ e.auths →
    w.storage.settlement id = some x → x.status = .pending → e.timestamp < x.expiresAt →
    ∃ w' y, approveSettlement e w signer id = .ok w' ∧ w'.storage.settlement id = some y ∧
      y.approvalWeight.toNat = x.approvalWeight.toNat + (w.storage.weight signer).toNat

theorem WeightsFit.callable (hfit : WeightsFit w.storage) : Callable w where
  toWeightsFit := hfit
  computes := totalSignerWeight_of_fits hfit.total
  rethresholds := by
    intro e admin newThreshold hp hauth hadmin hne hle
    obtain ⟨total, htotal, hsum⟩ := totalSignerWeight_of_fits hfit.total e
    refine ⟨_, updateThreshold_eq_ok.mpr ⟨hp, ⟨hauth, hadmin⟩, hne, total, htotal, ?_, rfl⟩⟩
    rw [UInt64.le_iff_toNat_le, UInt32.toNat_toUInt64, hsum]
    exact hle
  rotates := by
    intro e admin oldSigner newSigner newWeight hp hauth hadmin hold hnew
    exact ⟨_, rotateSigner_eq_ok.mpr ⟨hp, ⟨hauth, hadmin⟩, hold, hnew, rfl⟩⟩
  approves := by
    intro e signer id x hp hauth hx hpending hdue
    have hfits := hfit.room signer id x hx hpending
    have hadd : checkedAdd x.approvalWeight (w.storage.weight signer) =
        some (x.approvalWeight + w.storage.weight signer) := if_pos hfits
    refine ⟨_, _, approveSettlement_eq_ok.mpr ⟨hp, hauth, x, hx, hpending, hdue, _, hadd, rfl⟩,
      Function.update_self .., ?_⟩
    exact (checkedAdd_eq_some.mp hadd).2

/-! ## What keeps them so -/

/-- The weight of the listed signers other than those excluded. -/
def weightWithout (s : Storage) (excluded : List Address) : ℕ :=
  (((s.signerList.getD []).filter (· ∉ excluded)).map fun a => (s.weight a).toNat).sum

/-- The weight that is set fits together with those of the other signers. -/
def KeepsTotal (s : Storage) : Call → Prop
  | .setSigner _ signer weight => weightWithout s [signer] + weight.toNat < 2 ^ 64
  | .rotateSigner _ oldSigner newSigner newWeight =>
    weightWithout s [oldSigner, newSigner] + newWeight.toNat < 2 ^ 64
  | _ => True

/-- Every settlement that is pending afterwards has room for an approval by anyone. -/
def KeepsRoom (s : Storage) : Call → Prop
  | .initializeContract signers _ _ => ∀ p ∈ signers, RoomFor s p.2.toNat
  | .setSigner _ _ weight => RoomFor s weight.toNat
  | .rotateSigner _ _ _ newWeight => RoomFor s newWeight.toNat
  | .approveSettlement signer id => ∀ x, s.settlement id = some x → ∀ a,
    x.approvalWeight.toNat + (s.weight signer).toNat + (s.weight a).toNat < 2 ^ 64
  | .resolveDispute _ id resolveInFavor => resolveInFavor = true →
    ∀ x, s.settlement id = some x → ∀ a, x.approvalWeight.toNat + (s.weight a).toNat < 2 ^ 64
  | _ => True

/-- An input of the run keeps the total and the room. -/
abbrev KeepsWeights (w : State D) (i : Input D Call) : Prop :=
  IfAccepted invoke (fun _ c _ => KeepsTotal w.storage c ∧ KeepsRoom w.storage c) (w, i)

/-! ### The total -/

theorem registeredWeight_eq_sum (s : Storage) :
    registeredWeight s = ((s.signerList.getD []).map (weightOf ∘ s.signer)).sum := rfl

theorem registeredWeight_assigned {signer : Address} {weight : UInt64}
    (hnd : (s.signerList.getD []).Nodup)
    (hs : s'.signer = Function.update s.signer signer (some weight))
    (hl : s'.signerList = if signer ∈ s.signerList.getD [] then s.signerList
      else some (s.signerList.getD [] ++ [signer])) :
    registeredWeight s' = weightWithout s [signer] + weight.toNat := by
  have hkeys : s'.signerList.getD [] = Registry.insertKey (s.signerList.getD []) signer := by
    rw [hl, Registry.insertKey]
    split <;> rfl
  rw [registeredWeight_eq_sum, hkeys, hs, Function.comp_update,
    Registry.sum_insertKey_update hnd]
  simp only [weightWithout, List.mem_singleton]
  rfl

theorem registeredWeight_replaced {oldSigner newSigner : Address} {newWeight : UInt64}
    (hnd : (s.signerList.getD []).Nodup)
    (hs : s'.signer =
      Function.update (Function.update s.signer oldSigner none) newSigner (some newWeight))
    (hl : s'.signerList = some (rotatedList (s.signerList.getD []) oldSigner newSigner)) :
    registeredWeight s' = weightWithout s [oldSigner, newSigner] + newWeight.toNat := by
  have hkeys : s'.signerList.getD [] =
      Registry.insertKey ((s.signerList.getD []).filter (· ≠ oldSigner)) newSigner := by
    rw [hl]
    rfl
  rw [registeredWeight_eq_sum, hkeys, hs, Function.comp_update,
    Registry.sum_insertKey_update (hnd.filter _), List.filter_filter]
  have hfilter : (s.signerList.getD []).filter
      (fun a => decide (a ≠ newSigner) && decide (a ≠ oldSigner)) =
        (s.signerList.getD []).filter (· ∉ [oldSigner, newSigner]) := by
    apply List.filter_congr
    intro a _
    by_cases ha : a = oldSigner <;> simp [ha]
  rw [hfilter, weightWithout]
  congr 2
  -- no listed signer that is left is the old one, whose weight is removed
  apply List.map_congr_left
  intro a ha
  have hne : a ≠ oldSigner := fun he => by simp [he] at ha
  rw [Function.comp_apply, Function.update_of_ne hne]
  rfl

/-- **One accepted entry point** leaves a total that fits exactly when it keeps it. -/
theorem SignerEffect.total_iff (heff : SignerEffect s s' c) (hnd : (s.signerList.getD []).Nodup)
    (hfits : registeredWeight s < 2 ^ 64) : registeredWeight s' < 2 ^ 64 ↔ KeepsTotal s c := by
  cases heff with
  | kept hc hs hl _ =>
    refine iff_of_true ?_ ?_
    · rwa [registeredWeight_eq_sum, hs, hl]
    · cases c <;> trivial
  | rethreshold _ _ _ hs hl _ =>
    exact iff_of_true (by rwa [registeredWeight_eq_sum, hs, hl]) trivial
  | @initialized signers _ _ hvalid hs hl _ =>
    -- the sum is checked, whatever weights are stored for addresses that are not listed
    refine iff_of_true ?_ trivial
    have hmap : (signers.map Prod.fst).map (weightOf ∘ storeWeights s.signer signers) =
        signers.map fun p => p.2.toNat := by
      rw [List.map_map]
      apply List.map_congr_left
      intro p hp
      have hkeys : ((signers.map fun p => (p.1, p.2.toNat)).map Prod.fst).Nodup := by
        simpa [Function.comp_def] using hvalid.nodup
      have hlast := Registry.foldl_update_of_mem hkeys (List.mem_map_of_mem hp)
        (weightOf ∘ s.signer)
      rw [Function.comp_apply, weightOf_comp_storeWeights]
      exact hlast
    rw [registeredWeight_eq_sum, hl, hs, Option.getD_some, hmap]
    exact hvalid.fits
  | assigned _ hs hl _ => rw [registeredWeight_assigned hnd hs hl, KeepsTotal]
  | replaced _ _ hs hl _ => rw [registeredWeight_replaced hnd hs hl, KeepsTotal]

/-- The list of signers names none of them twice. -/
theorem SignerEffect.nodup (heff : SignerEffect s s' c) (hnd : (s.signerList.getD []).Nodup) :
    (s'.signerList.getD []).Nodup := by
  cases heff with
  | kept _ _ hl _ | rethreshold _ _ _ _ hl _ => rwa [hl]
  | initialized hvalid _ hl _ =>
    rw [hl]
    exact hvalid.nodup
  | @assigned _ signer _ _ _ hl _ =>
    have hkeys := Registry.nodup_insertKey hnd signer
    rw [hl]
    unfold Registry.insertKey at hkeys
    split at hkeys
    · next hm => rwa [if_pos hm]
    · next hm => rwa [if_neg hm]
  | replaced _ _ _ hl _ =>
    rw [hl]
    exact Registry.nodup_insertKey (hnd.filter _) _

/-! ### The room -/

theorem weight_toNat (s : Storage) (a : Address) : (s.weight a).toNat = weightOf (s.signer a) := rfl

/-- After weights are changed, there is room when there is for the new ones. -/
theorem room_iff_of_signers (new : ℕ → Prop) (hroom : ∀ a, RoomFor s (s.weight a).toNat)
    (hb : s'.settlement = s.settlement)
    (hweight : ∀ a, (s'.weight a).toNat ≤ (s.weight a).toNat ∨ new (s'.weight a).toNat)
    (hnew : ∀ n, new n → ∃ a, (s'.weight a).toNat = n) :
    (∀ a, RoomFor s' (s'.weight a).toNat) ↔ ∀ n, new n → RoomFor s n := by
  have hsame : ∀ n, RoomFor s' n ↔ RoomFor s n := by
    intro n
    rw [RoomFor, hb, RoomFor]
  constructor
  · intro hroom' n hn
    obtain ⟨a, rfl⟩ := hnew n hn
    exact (hsame _).mp (hroom' a)
  · intro hall a
    rw [hsame]
    rcases hweight a with hle | hn
    · intro id x hx hpending
      exact (Nat.add_le_add_left hle _).trans_lt (hroom a id x hx hpending)
    · exact hall _ hn

/-- After a settlement is written, there is room when there is on that settlement. -/
theorem room_iff_of_settlement {id : UInt64} {x' : Settlement}
    (hroom : ∀ a, RoomFor s (s.weight a).toNat) (hs : s'.signer = s.signer)
    (hb : s'.settlement = Function.update s.settlement id (some x')) :
    (∀ a, RoomFor s' (s'.weight a).toNat) ↔
      (x'.status = .pending → ∀ a, x'.approvalWeight.toNat + (s.weight a).toNat < 2 ^ 64) := by
  have hsame : ∀ a, s'.weight a = s.weight a := by
    intro a
    rw [Storage.weight, hs, Storage.weight]
  constructor
  · intro hroom' hpending a
    exact hsame a ▸ hroom' a id x' (by simp [hb]) hpending
  · intro hx' a id' y hy hpending
    rw [hsame]
    by_cases hid : id' = id
    · obtain rfl : x' = y := by simpa [hb, hid] using hy
      exact hx' hpending a
    · exact hroom a id' y (by simpa [hb, Function.update_of_ne hid] using hy) hpending

/-- An edit leaves room on a settlement that is pending afterwards exactly when it keeps the
room. -/
theorem Edit.room_iff {id : UInt64} {x x' : Settlement} (hedit : Edit e s c id x x')
    (hx : s.settlement id = some x) (hroom : ∀ a, RoomFor s (s.weight a).toNat) :
    (x'.status = .pending → ∀ a, x'.approvalWeight.toNat + (s.weight a).toNat < 2 ^ 64) ↔
      KeepsRoom s c := by
  cases hedit with
  | cancel | execute | raise => exact iff_of_true (fun hp => nomatch hp) trivial
  | updateMerchant hpending =>
    exact iff_of_true (fun _ a => hroom a id x hx hpending) trivial
  | approve hpending hweight =>
    simp only [hpending, hweight, forall_const, KeepsRoom, hx, Option.some.injEq,
      forall_eq']
  | @resolve _ _ inFavor _ hhold =>
    cases inFavor with
    | false => exact iff_of_true (fun hp => nomatch hp) fun hf => nomatch hf
    | true => simp [KeepsRoom, hx]

theorem room_iff_of_initialized {signers : List (Address × UInt64)}
    (hroom : ∀ a, RoomFor s (s.weight a).toNat) (hnd : (signers.map Prod.fst).Nodup)
    (hs : s'.signer = storeWeights s.signer signers) (hb : s'.settlement = s.settlement) :
    (∀ a, RoomFor s' (s'.weight a).toNat) ↔ ∀ p ∈ signers, RoomFor s p.2.toNat := by
  have hweights : ∀ a, (s'.weight a).toNat =
      (signers.map fun p => (p.1, p.2.toNat)).foldl (fun g p => Function.update g p.1 p.2)
        (weightOf ∘ s.signer) a := by
    intro a
    rw [weight_toNat, hs, ← weightOf_comp_storeWeights, Function.comp_apply]
  have hlisted : ∀ p ∈ signers, (s'.weight p.1).toNat = p.2.toNat := by
    intro p hp
    rw [hweights]
    exact Registry.foldl_update_of_mem (by simpa [Function.comp_def] using hnd)
      (List.mem_map_of_mem hp) _
  rw [room_iff_of_signers (fun n => ∃ p ∈ signers, p.2.toNat = n) hroom hb]
  · exact ⟨fun hall p hp => hall _ ⟨p, hp, rfl⟩, fun hall n ⟨p, hp, hn⟩ => hn ▸ hall p hp⟩
  · intro a
    by_cases ha : a ∈ signers.map Prod.fst
    · obtain ⟨p, hp, rfl⟩ := List.mem_map.mp ha
      exact Or.inr ⟨p, hp, (hlisted p hp).symm⟩
    · -- the weights of addresses that are not listed stay
      refine Or.inl (le_of_eq ?_)
      rw [hweights, Registry.foldl_update_of_notMem _ _ (by simpa [Function.comp_def] using ha)]
      rfl
  · rintro n ⟨p, hp, rfl⟩
    exact ⟨p.1, hlisted p hp⟩

theorem room_iff_of_assigned {signer : Address} {weight : UInt64}
    (hroom : ∀ a, RoomFor s (s.weight a).toNat)
    (hs : s'.signer = Function.update s.signer signer (some weight))
    (hb : s'.settlement = s.settlement) :
    (∀ a, RoomFor s' (s'.weight a).toNat) ↔ RoomFor s weight.toNat := by
  have hnew : (s'.weight signer).toNat = weight.toNat := by
    rw [weight_toNat, hs, Function.update_self]
    rfl
  rw [room_iff_of_signers (· = weight.toNat) hroom hb, forall_eq]
  · intro a
    by_cases ha : a = signer
    · exact Or.inr (ha ▸ hnew)
    · refine Or.inl (le_of_eq ?_)
      rw [weight_toNat, hs, Function.update_of_ne ha, weight_toNat]
  · rintro n rfl
    exact ⟨signer, hnew⟩

theorem room_iff_of_replaced {oldSigner newSigner : Address} {newWeight : UInt64}
    (hroom : ∀ a, RoomFor s (s.weight a).toNat)
    (hs : s'.signer =
      Function.update (Function.update s.signer oldSigner none) newSigner (some newWeight))
    (hb : s'.settlement = s.settlement) :
    (∀ a, RoomFor s' (s'.weight a).toNat) ↔ RoomFor s newWeight.toNat := by
  have hnew : (s'.weight newSigner).toNat = newWeight.toNat := by
    rw [weight_toNat, hs, Function.update_self]
    rfl
  rw [room_iff_of_signers (· = newWeight.toNat) hroom hb, forall_eq]
  · intro a
    by_cases ha : a = newSigner
    · exact Or.inr (ha ▸ hnew)
    · apply Or.inl
      rw [weight_toNat, hs, Function.update_of_ne ha, weight_toNat]
      -- the old signer has no weight left
      by_cases ho : a = oldSigner <;> simp [ho, weightOf]
  · rintro n rfl
    exact ⟨newSigner, hnew⟩

/-- **One accepted entry point** leaves room exactly when it keeps it. -/
theorem Effect.room_iff (heff : Effect e w c w' v)
    (hroom : ∀ a, RoomFor w.storage (w.storage.weight a).toNat) :
    (∀ a, RoomFor w'.storage (w'.storage.weight a).toNat) ↔ KeepsRoom w.storage c := by
  have hkept : w'.storage.signer = w.storage.signer →
      w'.storage.settlement = w.storage.settlement →
      ∀ a, RoomFor w'.storage (w'.storage.weight a).toNat := by
    intro hs hb a
    rw [Storage.weight, hs, RoomFor, hb]
    exact hroom a
  cases heff with
  | config hc _ hcore _ =>
    refine iff_of_true (hkept hcore.signer hcore.settlement) ?_
    cases c <;> trivial
  | transferAdmin _ _ hw _ | acceptAdmin _ _ hw _ | updateThreshold _ _ _ _ _ hw _ =>
    exact iff_of_true (hkept (by rw [hw]) (by rw [hw])) trivial
  | deposited _ hcore _ | withdrawn _ _ hcore _ =>
    exact iff_of_true (hkept hcore.signer hcore.settlement) trivial
  | initialized _ hvalid hw _ =>
    exact room_iff_of_initialized hroom hvalid.nodup (by rw [hw]) (by rw [hw])
  | setSigner _ _ hw _ => exact room_iff_of_assigned hroom (by rw [hw]) (by rw [hw])
  | rotateSigner _ _ _ _ hw _ => exact room_iff_of_replaced hroom (by rw [hw]) (by rw [hw])
  | proposed _ _ hw _ =>
    rw [room_iff_of_settlement hroom (by rw [hw]) (by rw [hw])]
    refine iff_of_true (fun _ a => ?_) trivial
    simpa using (w.storage.weight a).toNat_lt
  | edited hx hedit hw _ =>
    rw [room_iff_of_settlement hroom (by rw [hw]) (by rw [hw]), hedit.room_iff hx hroom]

/-! ## Runs -/

/-- The weights fit, and the list of signers names none twice. -/
structure WeightInv (s : Storage) : Prop extends WeightsFit s where
  nodup : (s.signerList.getD []).Nodup

/-- **Weights that fit**: from a fresh deployment, what computes with the weights stays callable
throughout exactly the runs that keep the total and the room. -/
theorem callable_iff (l : D.Ledger) (wasm : WasmHash) (is : List (Input D Call)) :
    Always step (fun _ w => Callable w) (fresh l wasm) is ↔
      Each step (fun _ w i => KeepsWeights w i) (fresh l wasm) is := by
  apply always_iff_accepted (I := WeightInv) (K := fun s c => KeepsTotal s c ∧ KeepsRoom s c)
  · exact ⟨⟨by simp [registeredWeight, fresh, Storage.empty], by
      simp [RoomFor, fresh, Storage.empty]⟩, by simp [fresh, Storage.empty]⟩
  · exact fun _ hI => hI.callable
  · rintro e w c w' v h hI ⟨htotal, hroom⟩
    have heff := effect_of_ok h
    exact ⟨⟨(heff.onSigners.total_iff hI.nodup hI.total).mpr htotal,
      (heff.room_iff hI.room).mpr hroom⟩, heff.onSigners.nodup hI.nodup⟩
  · intro e w c w' v h hI hP
    have heff := effect_of_ok h
    exact ⟨(heff.onSigners.total_iff hI.nodup hI.total).mp hP.total,
      (heff.room_iff hI.room).mp hP.room⟩

/-- The only signer has the largest weight, and a second one is added. -/
def secondWeight : List (Input (isolated (.contract 0)) Call) :=
  [.call ⟨{.account 0}, 0, true⟩
      (.initializeContract [(.account 1, 0xFFFF_FFFF_FFFF_FFFF)] 1 (.account 0)),
    .call ⟨{.account 0}, 1, true⟩ (.setSigner (.account 0) (.account 2) 1)]

theorem secondWeight_not_callable :
    ¬ Always step (fun _ w => Callable w) (fresh () 0) secondWeight := by
  intro h
  exact absurd h.at_end.total (by decide)

end Treasury
