import Comebackhere.Library.Registry
import Comebackhere.Treasury.Admin

/-!
# The registry of signers

The weights of the signers and the list of their addresses are two storage entries, written by
`initialize`, `set_signer` and `rotate_signer`. Together they represent a `Registry`: the three
entry points refine its operations, as long as the contract is not initialized again.

## Main definitions

* `Represents R s`: the storage holds the registry `R`
* `registeredWeight s`: the weight of the listed signers
* `Coherent s`: list and weights agree, and the totals computed from them are the sum of all weights

## Main results

* `exists_represents`: along a run that initializes once, the storage holds a registry
* `coherent_of_fits`: the registry is coherent, and a rotation changes the total by the difference
  of the two weights
-/

namespace Treasury

open Soroban Checked Machine

variable {D : Deployment} {e : Env} {w : State D} {i : Input D Call} {h : History D} {s : Storage}

/-! ## Storage and registry -/

/-- The storage holds the registry `R`. -/
structure Represents (R : Registry Address) (s : Storage) : Prop where
  keys : s.signerList.getD [] = R.keys
  weight : ∀ a, (s.weight a).toNat = R.weight a

/-- The weight of the listed signers. -/
def registeredWeight (s : Storage) : ℕ :=
  ((s.signerList.getD []).map fun a => (s.weight a).toNat).sum

/-- A stored weight as a number. -/
def weightOf (o : Option UInt64) : ℕ := (o.getD 0).toNat

variable {R : Registry Address}

theorem represents_iff :
    Represents R s ↔ s.signerList.getD [] = R.keys ∧ weightOf ∘ s.signer = R.weight :=
  ⟨fun h => ⟨h.keys, funext h.weight⟩, fun h => ⟨h.1, congrFun h.2⟩⟩

theorem Represents.registeredWeight_eq (hR : Represents R s) : registeredWeight s = R.total := by
  rw [registeredWeight, hR.keys, Registry.total, funext hR.weight]

theorem Represents.registeredWeight_eq_finsum (hR : Represents R s) :
    registeredWeight s = ∑ᶠ a, (s.weight a).toNat := by
  rw [hR.registeredWeight_eq, R.total_eq_finsum, funext hR.weight]

theorem Represents.sum_getSigners (hR : Represents R s) :
    ((getSigners s).map fun p => p.2.toNat).sum = registeredWeight s := by
  rw [hR.registeredWeight_eq, ← R.sum_positive, getSigners, hR.keys]
  induction R.keys with
  | nil => rfl
  | cons a keys ih =>
    -- the contract lists a signer exactly if its weight counts
    have hpos : 0 < s.weight a ↔ 0 < R.weight a := by
      rw [UInt64.lt_iff_toNat_lt, hR.weight, UInt64.toNat_zero]
    by_cases ha : 0 < R.weight a
    · simp [hpos, ha, hR.weight a, ih]
    · simp [hpos, ha, ih]

/-! ## The total of the contract -/

/-- The total the contract computes is the weight of the listed signers, wrapped around. -/
theorem totalSignerWeight_eq_mod {total : UInt64} (ht : totalSignerWeight e s = .ok total) :
    total.toNat = registeredWeight s % 2 ^ 64 := by
  refine foldlM_inv (I := fun done c => c.toNat =
    (done.map fun a => (s.weight a).toNat).sum % 2 ^ 64) (by simp) ?_ ht
  -- each addition wraps around at most, whether or not it would have trapped
  intro done a c c' hc hadd
  obtain ⟨-, rfl⟩ := plainAdd_eq_ok.mp hadd
  rw [UInt64.toNat_add, hc]
  simp [Nat.add_mod]

/-- The contract computes the total when it fits 64 bits. -/
theorem totalSignerWeight_of_fits (hfits : registeredWeight s < 2 ^ 64) (e : Env) :
    ∃ total, totalSignerWeight e s = .ok total ∧ total.toNat = registeredWeight s := by
  -- the partial sums of the loop are below the total, so none of them overflows
  suffices ∀ (l : List Address) (c : UInt64),
      c.toNat + (l.map fun a => (s.weight a).toNat).sum < 2 ^ 64 →
      ∃ total, l.foldlM (fun total a => plainAdd (ε := TreasuryError) e total (s.weight a)) c =
        .ok total by
    obtain ⟨total, ht⟩ := this _ 0 (by simpa [registeredWeight] using hfits)
    exact ⟨total, ht, by rw [totalSignerWeight_eq_mod ht, Nat.mod_eq_of_lt hfits]⟩
  intro l
  induction l with
  | nil => exact fun c _ => ⟨c, rfl⟩
  | cons a l ih =>
    intro c hc
    simp only [List.map_cons, List.sum_cons] at hc
    have hlt : c.toNat + (s.weight a).toNat < 2 ^ 64 := by omega
    obtain ⟨total, ht⟩ := ih (c + s.weight a) (by
      rw [UInt64.toNat_add, Nat.mod_eq_of_lt hlt]
      omega)
    exact ⟨total, by
      rw [List.foldlM_cons, bind_eq_ok]
      exact ⟨_, plainAdd_eq_ok.mpr ⟨fun _ => hlt, rfl⟩, ht⟩⟩

/-! ## The operations -/

/-- The entry points that write the signers or the threshold. -/
def Call.writesSigners : Call → Bool
  | .initializeContract _ _ _ | .setSigner _ _ _ | .rotateSigner _ _ _ _
  | .updateThreshold _ _ => true
  | _ => false

theorem Call.writesSigners_of_isConfig {c : Call} (h : c.isConfig = true) :
    c.writesSigners = false := by
  cases c <;> first | rfl | exact absurd h Bool.false_ne_true

/-- What an accepted entry point does to the signers and the threshold. -/
inductive SignerEffect (s s' : Storage) : Call → Prop
  | kept {c : Call} (hc : c.writesSigners = false) (hs : s'.signer = s.signer)
      (hl : s'.signerList = s.signerList) (ht : s'.threshold = s.threshold) : SignerEffect s s' c
  | initialized {signers : List (Address × UInt64)} {threshold : UInt64} {admin : Address}
      (hvalid : ValidRegistry signers threshold) (hs : s'.signer = storeWeights s.signer signers)
      (hl : s'.signerList = some (signers.map Prod.fst)) (ht : s'.threshold = some threshold) :
      SignerEffect s s' (.initializeContract signers threshold admin)
  | assigned {admin signer : Address} {weight : UInt64} (hadmin : s.admin ≠ none)
      (hs : s'.signer = Function.update s.signer signer (some weight))
      (hl : s'.signerList = if signer ∈ s.signerList.getD [] then s.signerList
        else some (s.signerList.getD [] ++ [signer])) (ht : s'.threshold = s.threshold) :
      SignerEffect s s' (.setSigner admin signer weight)
  | replaced {admin oldSigner newSigner : Address} {newWeight : UInt64} (hadmin : s.admin ≠ none)
      (hnew : newSigner = oldSigner ∨ s.weight newSigner = 0)
      (hs : s'.signer =
        Function.update (Function.update s.signer oldSigner none) newSigner (some newWeight))
      (hl : s'.signerList = some (rotatedList (s.signerList.getD []) oldSigner newSigner))
      (ht : s'.threshold = s.threshold) :
      SignerEffect s s' (.rotateSigner admin oldSigner newSigner newWeight)
  | rethreshold {e : Env} {admin : Address} {newThreshold : UInt32} {total : UInt64}
      (hne : newThreshold ≠ 0) (htotal : totalSignerWeight e s = .ok total)
      (hle : newThreshold.toUInt64 ≤ total) (hs : s'.signer = s.signer)
      (hl : s'.signerList = s.signerList) (ht : s'.threshold = some newThreshold.toUInt64) :
      SignerEffect s s' (.updateThreshold admin newThreshold)

theorem Effect.onSigners {w' : State D} {c : Call} {v : Val} (heff : Effect e w c w' v) :
    SignerEffect w.storage w'.storage c := by
  cases heff with
  | config hc _ hcore _ =>
    exact .kept (Call.writesSigners_of_isConfig hc) hcore.signer hcore.signerList hcore.threshold
  | transferAdmin _ _ hw _ => exact .kept rfl (by rw [hw]) (by rw [hw]) (by rw [hw])
  | acceptAdmin _ _ hw _ => exact .kept rfl (by rw [hw]) (by rw [hw]) (by rw [hw])
  | initialized _ hvalid hw _ =>
    exact .initialized hvalid (by rw [hw]) (by rw [hw]) (by rw [hw])
  | setSigner _ hadmin hw _ =>
    exact .assigned (by simp [hadmin]) (by rw [hw]) (by rw [hw]) (by rw [hw])
  | rotateSigner _ hadmin _ hnew hw _ =>
    exact .replaced (by simp [hadmin]) hnew (by rw [hw]) (by rw [hw]) (by rw [hw])
  | updateThreshold _ _ hne htotal hle hw _ =>
    exact .rethreshold hne htotal hle (by rw [hw]) (by rw [hw]) (by rw [hw])
  | proposed _ _ hw _ => exact .kept rfl (by rw [hw]) (by rw [hw]) (by rw [hw])
  | edited _ hedit hw _ =>
    refine .kept ?_ (by rw [hw]) (by rw [hw]) (by rw [hw])
    cases hedit <;> rfl
  | deposited _ hcore _ => exact .kept rfl hcore.signer hcore.signerList hcore.threshold
  | withdrawn _ _ hcore _ => exact .kept rfl hcore.signer hcore.signerList hcore.threshold

/-! ## Refinement of the registry's operations -/

theorem weightOf_comp_storeWeights (signers : List (Address × UInt64))
    (f : Address → Option UInt64) : weightOf ∘ storeWeights f signers =
      (signers.map fun p => (p.1, p.2.toNat)).foldl (fun g p => Function.update g p.1 p.2)
        (weightOf ∘ f) := by
  induction signers generalizing f with
  | nil => rfl
  | cons p signers ih =>
    rw [List.map_cons, List.foldl_cons]
    -- reading weights as numbers commutes with writing one of them
    exact (ih _).trans (by rw [Function.comp_update]; rfl)

/-- `initialize` stores the registry of its list, when no weight is stored before. -/
theorem represents_ofList {s' : Storage} {signers : List (Address × UInt64)}
    (hnd : ((signers.map fun p => (p.1, p.2.toNat)).map Prod.fst).Nodup)
    (hunset : s.signer = fun _ => none) (hs : s'.signer = storeWeights s.signer signers)
    (hl : s'.signerList = some (signers.map Prod.fst)) :
    Represents (.ofList _ hnd) s' := by
  refine represents_iff.mpr ⟨by simp [hl, Registry.ofList, Function.comp_def], ?_⟩
  rw [hs, hunset, weightOf_comp_storeWeights]
  rfl

/-- `set_signer` assigns a weight. -/
theorem Represents.assign {s' : Storage} {signer : Address} {weight : UInt64}
    (hR : Represents R s) (hs : s'.signer = Function.update s.signer signer (some weight))
    (hl : s'.signerList = if signer ∈ s.signerList.getD [] then s.signerList
      else some (s.signerList.getD [] ++ [signer])) :
    Represents (R.assign signer weight.toNat) s' := by
  refine represents_iff.mpr ⟨?_, ?_⟩
  · simp only [hl, Registry.assign, Registry.insertKey, ← hR.keys]
    split <;> rfl
  · rw [hs, Function.comp_update, (represents_iff.mp hR).2]
    rfl

/-- `rotate_signer` replaces a key. -/
theorem Represents.replace {s' : Storage} {oldSigner newSigner : Address} {newWeight : UInt64}
    (hR : Represents R s)
    (hs : s'.signer =
      Function.update (Function.update s.signer oldSigner none) newSigner (some newWeight))
    (hl : s'.signerList = some (rotatedList (s.signerList.getD []) oldSigner newSigner)) :
    Represents (R.replace oldSigner newSigner newWeight.toNat) s' := by
  refine represents_iff.mpr ⟨?_, ?_⟩
  · simp only [hl, Registry.replace, Registry.insertKey, ← hR.keys]
    rfl
  · rw [hs, Function.comp_update, Function.comp_update, (represents_iff.mp hR).2]
    rfl

theorem Represents.of_eq {s' : Storage} (hR : Represents R s) (hs : s'.signer = s.signer)
    (hl : s'.signerList = s.signerList) : Represents R s' :=
  represents_iff.mpr (by rw [hs, hl]; exact represents_iff.mp hR)

/-! ## Runs that initialize once -/

/-- The contract is not initialized again. -/
def InitializesOnce (s : Storage) : Call → Prop
  | .initializeContract _ _ _ => s.admin = none
  | _ => True

instance : ∀ c, Decidable (InitializesOnce s c)
  | .initializeContract _ _ _ => inferInstanceAs (Decidable (s.admin = none))
  | .upgrade _ | .transferAdmin _ _ | .acceptAdmin _ | .setSigner _ _ _ | .rotateSigner _ _ _ _
  | .proposeSettlement _ _ _ _ | .cancelSettlement _ _ | .approveSettlement _ _
  | .executeSettlement _ _ _ | .pause _ | .unpause _ | .setSettlementTtl _ _
  | .updateThreshold _ _ | .raiseDispute _ _ _ | .resolveDispute _ _ _
  | .updateSettlementMerchant _ _ _ | .deposit _ _ _ | .setDailyWithdrawLimit _ _ _
  | .withdraw _ _ _ _ | .addTokenToAllowlist _ _ | .removeTokenFromAllowlist _ _ =>
    inferInstanceAs (Decidable True)

/-- A run in which the contract is initialized once. -/
abbrev InitializedOnce (w : State D) (is : List (Input D Call)) : Prop :=
  Each step (fun _ w i => IfAccepted invoke (fun _ c _ => InitializesOnce w.storage c) (w, i)) w is

/-- The storage holds a registry, and the weights are unset before the first initialization. -/
structure SignerInv (s : Storage) : Prop where
  represented : ∃ R, Represents R s
  unset : s.admin = none → s.signer = fun _ => none

/-- The invariant holds after an input that initializes once. -/
theorem signerInv_step (hI : SignerInv w.storage)
    (honce : IfAccepted invoke (fun _ c _ => InitializesOnce w.storage c) (w, i)) :
    SignerInv (step w i).storage := by
  rcases step_cases w i with ⟨-, hs⟩ | ⟨e, c, v, -, ha, heff⟩
  · rwa [hs]
  · obtain ⟨R, hR⟩ := hI.represented
    have hseated : w.storage.admin ≠ none → (step w i).storage.admin ≠ none := seated_step
    cases heff.onSigners with
    | kept _ hs hl _ =>
      refine ⟨⟨R, hR.of_eq hs hl⟩, fun hn => hs.trans (hI.unset ?_)⟩
      by_contra hne
      exact hseated hne hn
    | initialized hvalid hs hl _ =>
      -- the first initialization finds no weight stored; a second one would leave old weights
      have hnone : w.storage.admin = none := (ifAccepted_iff ha).mp honce
      refine ⟨⟨_, represents_ofList ?_ (hI.unset hnone) hs hl⟩, fun hn => ?_⟩
      · simpa [Function.comp_def] using hvalid.nodup
      · cases heff.onAdmin with
        | initialized ha' _ => simp [ha'] at hn
        | kept hc _ _ => exact absurd hc.symm Bool.false_ne_true
    | assigned hadmin hs hl _ => exact ⟨⟨_, hR.assign hs hl⟩, fun hn => absurd hn (hseated hadmin)⟩
    | replaced hadmin _ hs hl _ =>
      exact ⟨⟨_, hR.replace hs hl⟩, fun hn => absurd hn (hseated hadmin)⟩
    | rethreshold _ _ _ hs hl _ =>
      refine ⟨⟨R, hR.of_eq hs hl⟩, fun hn => hs.trans (hI.unset ?_)⟩
      by_contra hne
      exact hseated hne hn

theorem signerInv_fresh (l : D.Ledger) (wasm : WasmHash) :
    SignerInv (fresh l wasm : State D).storage :=
  ⟨⟨.empty, rfl, fun _ => rfl⟩, fun _ => rfl⟩

theorem signerInv_run {l : D.Ledger} {wasm : WasmHash} {is : List (Input D Call)}
    (honce : InitializedOnce (fresh l wasm) is) : SignerInv (run step (fresh l wasm) is).storage :=
  inv_of_each (I := fun _ w => SignerInv w.storage) (signerInv_fresh l wasm)
    (fun _ _ _ hI hC => signerInv_step hI hC) honce

/-- **Along a run that initializes once, the storage holds a registry.** -/
theorem exists_represents {l : D.Ledger} {wasm : WasmHash} {is : List (Input D Call)}
    (honce : InitializedOnce (fresh l wasm) is) :
    ∃ R, Represents R (run step (fresh l wasm) is).storage :=
  (signerInv_run honce).represented

/-! ## Coherence -/

/-- The list names no signer twice and names every address with a positive weight; the total the
contract computes, and the weights it returns with the signers, add up to the weights of all
addresses. -/
structure Coherent (s : Storage) : Prop where
  nodup : (s.signerList.getD []).Nodup
  covers : ∀ a, 0 < s.weight a → a ∈ s.signerList.getD []
  total : ∀ e, ∃ total, totalSignerWeight e s = .ok total ∧
    total.toNat = ∑ᶠ a, (s.weight a).toNat
  signers : ((getSigners s).map fun p => p.2.toNat).sum = ∑ᶠ a, (s.weight a).toNat

theorem Represents.coherent (hR : Represents R s) (hfits : ∑ᶠ a, (s.weight a).toNat < 2 ^ 64) :
    Coherent s := by
  rw [← hR.registeredWeight_eq_finsum] at hfits
  refine ⟨hR.keys ▸ R.nodup, fun a ha => hR.keys ▸ R.covers a ?_, fun e => ?_, ?_⟩
  · rw [← hR.weight a]
    exact Nat.pos_iff_ne_zero.mp (UInt64.lt_iff_toNat_lt.mp ha)
  · rw [← hR.registeredWeight_eq_finsum]
    exact totalSignerWeight_of_fits hfits e
  · rw [hR.sum_getSigners, hR.registeredWeight_eq_finsum]

/-- If the transition is a rotation, it changes the total the contract computes by the new weight
minus the weight of the old signer. -/
def RotatesExactly (t : State D × Input D Call) : Prop :=
  ∀ e admin oldSigner newSigner newWeight v,
    accepted invoke t = some (e, .rotateSigner admin oldSigner newSigner newWeight, v) →
    ∀ e', ∃ total total', totalSignerWeight e' t.1.storage = .ok total ∧
      totalSignerWeight e' (step t.1 t.2).storage = .ok total' ∧
      total'.toNat + (t.1.storage.weight oldSigner).toNat = total.toNat + newWeight.toNat

/-- A rotation changes the registered weight by the new weight minus the old signer's. -/
theorem registeredWeight_rotate {e : Env} {admin oldSigner newSigner : Address}
    {newWeight : UInt64} {v : Val} (hI : SignerInv w.storage)
    (ha : accepted invoke (w, i) = some (e, .rotateSigner admin oldSigner newSigner newWeight, v)) :
    registeredWeight (step w i).storage + (w.storage.weight oldSigner).toNat =
      registeredWeight w.storage + newWeight.toNat := by
  obtain ⟨R, hR⟩ := hI.represented
  cases (effect_of_ok (invoke_of_accepted ha).2).onSigners with
  | kept hc _ _ _ => exact absurd hc.symm Bool.false_ne_true
  | replaced _ hnew hs hl _ =>
    rw [(hR.replace hs hl).registeredWeight_eq, hR.registeredWeight_eq, hR.weight]
    refine R.total_replace (hnew.imp_right fun hz => ?_) _
    rw [← hR.weight, hz, UInt64.toNat_zero]

/-- **The registry of signers is coherent**, and rotations change the total exactly, along a run
that initializes once and whose weights fit 64 bits in total. -/
theorem coherent_of_fits (l : D.Ledger) (wasm : WasmHash) (is : List (Input D Call))
    (honce : InitializedOnce (fresh l wasm) is)
    (hfits : Always step (fun _ w => ∑ᶠ a, (w.storage.weight a).toNat < 2 ^ 64)
      (fresh l wasm) is) :
    Always step (fun _ w => Coherent w.storage) (fresh l wasm) is ∧
    ∀ t ∈ transitions step (fresh l wasm) is, RotatesExactly t := by
  have hcoherent : Always step (fun _ w => Coherent w.storage) (fresh l wasm) is := by
    intro pre hp
    obtain ⟨R, hR⟩ := exists_represents (honce.restrict hp)
    exact hR.coherent (hfits pre hp)
  refine ⟨hcoherent, fun t ht e admin oldSigner newSigner newWeight v ha e' => ?_⟩
  obtain ⟨u, i⟩ := t
  obtain ⟨pre, hp, hu⟩ := (mem_transitions_iff step).mp ht
  obtain rfl : u = run step (fresh l wasm) pre := hu
  have hpre : pre <+: is := (List.prefix_append _ _).trans hp
  obtain ⟨R, hR⟩ := exists_represents (honce.restrict hpre)
  obtain ⟨R', hR'⟩ := exists_represents (honce.restrict hp)
  obtain ⟨total, ht, hsum⟩ := (hcoherent pre hpre).total e'
  obtain ⟨total', ht', hsum'⟩ := (hcoherent _ hp).total e'
  rw [run_snoc] at hR' ht' hsum'
  refine ⟨total, total', ht, ht', ?_⟩
  rw [hsum, hsum', ← hR.registeredWeight_eq_finsum, ← hR'.registeredWeight_eq_finsum]
  exact registeredWeight_rotate (signerInv_run (honce.restrict hpre)) ha

/-- A signer is registered with weight zero, takes the place of another, and a third keeps its
place with a new weight. -/
def rotations : List (Input (isolated (.contract 0)) Call) :=
  [.call ⟨{.account 0}, 0, true⟩
      (.initializeContract [(.account 1, 2), (.account 2, 1)] 2 (.account 0)),
    .call ⟨{.account 0}, 1, true⟩ (.setSigner (.account 0) (.account 3) 0),
    .call ⟨{.account 0}, 2, true⟩ (.rotateSigner (.account 0) (.account 1) (.account 3) 5),
    .call ⟨{.account 0}, 3, true⟩ (.rotateSigner (.account 0) (.account 2) (.account 2) 4)]

theorem rotations_coherent :
    Always step (fun _ w => Coherent w.storage) (fresh () 0) rotations ∧
    ∀ t ∈ transitions step (fresh () 0) rotations, RotatesExactly t := by
  have honce : InitializedOnce (fresh () 0) rotations := by decide
  apply coherent_of_fits (D := isolated (.contract 0)) () 0 rotations honce
  intro pre hp
  obtain ⟨R, hR⟩ := exists_represents (honce.restrict hp)
  have hsmall : Always step (fun _ w => registeredWeight w.storage < 2 ^ 64) (fresh () 0)
    rotations := by decide
  rw [← hR.registeredWeight_eq_finsum]
  exact hsmall pre hp

end Treasury
