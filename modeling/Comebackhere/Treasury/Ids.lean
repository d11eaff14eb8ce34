import Comebackhere.Treasury.Effect

/-!
# Settlement ids

Proposals take their ids from a counter in the storage. The counter is above every id handed out
as long as nothing moves it back: `initialize` sets it to 1, and a build without overflow checks
lets it wrap around.

## Main definitions

* `proposedIds h`: the ids returned by the accepted proposals
* `FreshIds`: no id is handed out twice, nothing is overwritten, the counter is above every id
* `KeepsCounter`: the invocation does not move the counter back

## Main results

* `freshIds_iff`: ids are fresh throughout the runs that keep the counter
-/

namespace Treasury

open Soroban Checked Machine

variable {D : Deployment} {e : Env} {w : State D} {i : Input D Call} {h : History D}

/-! ## The counter -/

/-- The id the next proposal takes. -/
def nextId (s : Storage) : UInt64 := s.nextSettlementId.getD 1

/-- What an accepted entry point does to the ids that are stored and to the counter. -/
inductive IdEffect (e : Env) (s s' : Storage) : Call → Val → Prop
  | kept {c : Call} {v : Val} (hp : ∀ signer token amount merchant,
        c ≠ .proposeSettlement signer token amount merchant)
      (hi : ∀ signers threshold admin, c ≠ .initializeContract signers threshold admin)
      (hb : ∀ id, s'.settlement id = none ↔ s.settlement id = none)
      (hn : s'.nextSettlementId = s.nextSettlementId) : IdEffect e s s' c v
  | initialized {signers : List (Address × UInt64)} {threshold : UInt64} {admin : Address}
      {v : Val} (hb : s'.settlement = s.settlement) (hn : s'.nextSettlementId = some 1) :
      IdEffect e s s' (.initializeContract signers threshold admin) v
  | proposed {signer token merchant : Address} {amount : UInt64} {x : Settlement}
      (hb : s'.settlement = Function.update s.settlement (nextId s) (some x))
      (hn : s'.nextSettlementId = some (nextId s + 1)) :
      IdEffect e s s' (.proposeSettlement signer token amount merchant) (.u64 (nextId s))

theorem Effect.onIds {w' : State D} {c : Call} {v : Val} (heff : Effect e w c w' v) :
    IdEffect e w.storage w'.storage c v := by
  cases heff with
  | config hc _ hcore _ =>
    refine .kept ?_ ?_ (by simp [hcore.settlement]) hcore.nextSettlementId
    · rintro signer token amount merchant rfl
      exact absurd hc Bool.false_ne_true
    · rintro signers threshold admin rfl
      exact absurd hc Bool.false_ne_true
  | transferAdmin _ _ hw _ => exact .kept (by simp) (by simp) (by simp [hw]) (by rw [hw])
  | acceptAdmin _ _ hw _ => exact .kept (by simp) (by simp) (by simp [hw]) (by rw [hw])
  | initialized _ _ hw _ => exact .initialized (by rw [hw]) (by rw [hw])
  | setSigner _ _ hw _ => exact .kept (by simp) (by simp) (by simp [hw]) (by rw [hw])
  | rotateSigner _ _ _ _ hw _ => exact .kept (by simp) (by simp) (by simp [hw]) (by rw [hw])
  | updateThreshold _ _ _ _ _ hw _ => exact .kept (by simp) (by simp) (by simp [hw]) (by rw [hw])
  | proposed hid hnext hw _ =>
    obtain rfl := hid
    obtain ⟨-, rfl⟩ := plainAdd_eq_ok.mp hnext
    exact .proposed (by rw [hw]; rfl) (by rw [hw]; rfl)
  | @edited _ id x _ _ hx hedit hw _ =>
    refine .kept ?_ ?_ (fun id' => ?_) (by rw [hw])
    · rintro signer token amount merchant rfl
      cases hedit
    · rintro signers threshold admin rfl
      cases hedit
    · by_cases hid : id' = id
      · simp [hw, hid, hx]
      · simp [hw, Function.update_of_ne hid]
  | deposited _ hcore _ =>
    exact .kept (by simp) (by simp) (by simp [hcore.settlement]) hcore.nextSettlementId
  | withdrawn _ _ hcore _ =>
    exact .kept (by simp) (by simp) (by simp [hcore.settlement]) hcore.nextSettlementId

/-! ## Fresh ids -/

/-- The id an accepted proposal returns. -/
def proposedId (t : State D × Input D Call) : Option UInt64 :=
  match accepted invoke t with
  | some (_, .proposeSettlement _ _ _ _, .u64 id) => some id
  | _ => none

/-- The ids returned by the accepted proposals, in order. -/
def proposedIds (h : History D) : List UInt64 := h.filterMap proposedId

/-- No id was handed out twice, no proposal overwrote a settlement, and the counter is stored and
above the id of every stored settlement. -/
structure FreshIds (h : History D) (w : State D) : Prop where
  distinct : (proposedIds h).Nodup
  unwritten : ∀ t ∈ h, ∀ id, proposedId t = some id → t.1.storage.settlement id = none
  below : ∀ id, w.storage.settlement id ≠ none →
    ∃ next, w.storage.nextSettlementId = some next ∧ id < next

/-- The contract is initialized only while no settlement is stored, and the counter is not at its
last value when a proposal takes it. -/
def KeepsCounter (s : Storage) : Call → Prop
  | .initializeContract _ _ _ => ∀ id, s.settlement id = none
  | .proposeSettlement _ _ _ _ => nextId s ≠ 0xFFFF_FFFF_FFFF_FFFF
  | _ => True

/-- Fresh ids, with what carries them: ids start at 1, and the ids handed out are stored. -/
structure IdInv (h : History D) (w : State D) : Prop extends FreshIds h w where
  positive : w.storage.settlement 0 = none ∧ nextId w.storage ≠ 0
  stored : ∀ id ∈ proposedIds h, w.storage.settlement id ≠ none

theorem FreshIds.lt_nextId (hI : FreshIds h w) {id : UInt64}
    (hid : w.storage.settlement id ≠ none) : id < nextId w.storage := by
  obtain ⟨next, hn, hlt⟩ := hI.below id hid
  simpa [nextId, hn] using hlt

/-- The id a proposal takes is not stored yet. -/
theorem FreshIds.nextId_fresh (hI : FreshIds h w) :
    w.storage.settlement (nextId w.storage) = none := by
  by_contra hne
  exact absurd (hI.lt_nextId hne) (UInt64.lt_irrefl _)

/-- Proposals still overwrite nothing after one more input that does not. -/
theorem FreshIds.unwritten_snoc (hI : FreshIds h w)
    (hnew : ∀ id, proposedId (w, i) = some id → w.storage.settlement id = none) :
    ∀ t ∈ h ++ [(w, i)], ∀ id, proposedId t = some id → t.1.storage.settlement id = none := by
  intro t ht id hid
  rcases List.mem_append.mp ht with ht | ht
  · exact hI.unwritten t ht id hid
  · obtain rfl := List.mem_singleton.mp ht
    exact hnew id hid

theorem toNat_add_one {a : UInt64} (ha : a ≠ 0xFFFF_FFFF_FFFF_FFFF) :
    (a + 1).toNat = a.toNat + 1 := by
  have hlt := a.toNat_lt
  have hne : a.toNat ≠ 2 ^ 64 - 1 := fun he => ha (UInt64.toNat_inj.mp (by simpa using he))
  rw [UInt64.toNat_add, UInt64.toNat_one]
  omega

theorem proposedIds_snoc (t : State D × Input D Call) :
    proposedIds (h ++ [t]) = proposedIds h ++ (proposedId t).toList := by
  cases hp : proposedId t <;> simp [proposedIds, hp]

/-- An input that hands out no id and writes no new one keeps the invariant, when the counter stays
above the ids that are stored. -/
theorem IdInv.snoc_of_kept (hI : IdInv h w) (hp : proposedId (w, i) = none)
    (hb : ∀ id, (step w i).storage.settlement id = none ↔ w.storage.settlement id = none)
    (hn : nextId (step w i).storage ≠ 0)
    (hbelow : ∀ id, w.storage.settlement id ≠ none →
      ∃ next, (step w i).storage.nextSettlementId = some next ∧ id < next) :
    IdInv (h ++ [(w, i)]) (step w i) := by
  have hids : proposedIds (h ++ [(w, i)]) = proposedIds h := by
    rw [proposedIds_snoc, hp, Option.toList_none, List.append_nil]
  have hunwritten := hI.unwritten_snoc (i := i) fun id hid => by simp [hp] at hid
  have hstored : ∀ id ∈ proposedIds h, (step w i).storage.settlement id ≠ none :=
    fun id hid => (hb id).not.mpr (hI.stored id hid)
  exact ⟨⟨hids ▸ hI.distinct, hunwritten, fun id hid => hbelow id ((hb id).not.mp hid)⟩,
    ⟨(hb 0).mpr hI.positive.1, hn⟩, hids ▸ hstored⟩

theorem proposedId_of_ne {c : Call} {v : Val} (ha : accepted invoke (w, i) = some (e, c, v))
    (hc : ∀ signer token amount merchant, c ≠ .proposeSettlement signer token amount merchant) :
    proposedId (w, i) = none := by
  unfold proposedId
  rw [ha]
  cases c <;> first | rfl | exact absurd rfl (hc _ _ _ _)

/-- A proposal keeps the invariant when the counter does not wrap around. -/
theorem IdInv.snoc_of_proposed (hI : IdInv h w) {x : Settlement}
    (hp : proposedId (w, i) = some (nextId w.storage))
    (hb : (step w i).storage.settlement =
      Function.update w.storage.settlement (nextId w.storage) (some x))
    (hn : (step w i).storage.nextSettlementId = some (nextId w.storage + 1))
    (hC : nextId w.storage ≠ 0xFFFF_FFFF_FFFF_FFFF) : IdInv (h ++ [(w, i)]) (step w i) := by
  have hnext := toNat_add_one hC
  have hfresh := hI.nextId_fresh
  -- the new id is not stored, and those handed out are
  have hdistinct : (proposedIds h ++ [nextId w.storage]).Nodup := by
    refine List.nodup_append.mpr ⟨hI.distinct, List.nodup_singleton _, ?_⟩
    intro id hid id' hid' he
    obtain rfl := List.mem_singleton.mp hid'
    exact hI.stored id hid (he ▸ hfresh)
  have hunwritten := hI.unwritten_snoc (i := i) fun id hid => by
    obtain rfl := Option.some.inj (hp.symm.trans hid)
    exact hfresh
  -- the counter moves up by one, past the new id
  have hbelow : ∀ id, (step w i).storage.settlement id ≠ none → id < nextId w.storage + 1 := by
    intro id hid
    rw [UInt64.lt_iff_toNat_lt, hnext]
    by_cases he : id = nextId w.storage
    · exact he ▸ Nat.lt_succ_self _
    · rw [hb, Function.update_of_ne he] at hid
      exact Nat.lt_succ_of_lt (UInt64.lt_iff_toNat_lt.mp (hI.lt_nextId hid))
  have hzero : (step w i).storage.settlement 0 = none := by
    rw [hb, Function.update_of_ne hI.positive.2.symm]
    exact hI.positive.1
  have hpositive : nextId (step w i).storage ≠ 0 := by
    have hstep : nextId (step w i).storage = nextId w.storage + 1 := by rw [nextId, hn]; rfl
    rw [hstep, ne_eq, ← UInt64.toNat_inj, hnext]
    simp
  have hstored : ∀ id ∈ proposedIds h ++ [nextId w.storage],
      (step w i).storage.settlement id ≠ none := by
    intro id hid
    by_cases he : id = nextId w.storage
    · simp [hb, he]
    · rw [hb, Function.update_of_ne he]
      exact hI.stored id ((List.mem_append.mp hid).resolve_right (by simpa using he))
  have hids : proposedIds (h ++ [(w, i)]) = proposedIds h ++ [nextId w.storage] := by
    rw [proposedIds_snoc, hp, Option.toList_some]
  exact ⟨⟨hids ▸ hdistinct, hunwritten, fun id hid => ⟨_, hn, hbelow id hid⟩⟩,
    ⟨hzero, hpositive⟩, hids ▸ hstored⟩

/-- An accepted invocation that keeps the counter keeps the invariant. -/
theorem IdInv.snoc {c : Call} {v : Val} (hI : IdInv h w)
    (ha : accepted invoke (w, i) = some (e, c, v)) (heff : Effect e w c (step w i) v)
    (hC : KeepsCounter w.storage c) : IdInv (h ++ [(w, i)]) (step w i) := by
  cases heff.onIds with
  | kept hp _ hb hn =>
    refine hI.snoc_of_kept (proposedId_of_ne ha hp) hb ?_ (hn ▸ hI.below)
    simpa [nextId, hn] using hI.positive.2
  | initialized hb hn =>
    apply hI.snoc_of_kept (proposedId_of_ne ha (by simp)) (by simp [hb]) (by simp [nextId, hn])
    exact fun id hid => absurd (hC id) hid
  | proposed hb hn => exact hI.snoc_of_proposed (by simp [proposedId, ha]) hb hn hC

/-- An accepted invocation that leaves the ids fresh keeps the counter. -/
theorem IdInv.keepsCounter {c : Call} {v : Val} (hI : IdInv h w)
    (heff : Effect e w c (step w i) v) (hP : FreshIds (h ++ [(w, i)]) (step w i)) :
    KeepsCounter w.storage c := by
  cases heff.onIds with
  | kept hp hi _ _ =>
    cases c <;> first | trivial | exact absurd rfl (hp _ _ _ _) | exact absurd rfl (hi _ _ _)
  | initialized hb hn =>
    -- a stored id is at least 1, where the counter is afterwards
    intro id
    by_contra hne
    obtain ⟨next, hnext, hlt⟩ := hP.below id (hb ▸ hne)
    obtain rfl := Option.some.inj (hn.symm.trans hnext)
    obtain rfl : id = 0 := UInt64.toNat_inj.mp (by
      simpa [UInt64.lt_iff_toNat_lt] using hlt)
    exact hne hI.positive.1
  | proposed hb hn =>
    -- the counter has wrapped around to 0, below the new id
    intro hmax
    obtain ⟨next, hnext, hlt⟩ := hP.below (nextId w.storage) (by simp [hb])
    obtain rfl := Option.some.inj (hn.symm.trans hnext)
    rw [hmax] at hlt
    exact absurd hlt (by decide)

/-- **Fresh ids**: from a fresh deployment, ids are fresh throughout exactly the runs whose
accepted invocations keep the counter. -/
theorem freshIds_iff (l : D.Ledger) (wasm : WasmHash) (is : List (Input D Call)) :
    Always step FreshIds (fresh l wasm) is ↔
      Each step (fun _ w i => IfAccepted invoke (fun _ c _ => KeepsCounter w.storage c) (w, i))
        (fresh l wasm) is := by
  refine always_iff_each (I := IdInv) ?_ (fun h w hI => hI.toFreshIds) ?_ ?_ is
  · exact ⟨⟨by simp [proposedIds], by simp, by simp [fresh, Storage.empty]⟩,
      by simp [fresh, Storage.empty, nextId], by simp [proposedIds]⟩
  · intro h w i hI hC
    rcases step_cases w i with ⟨hn, hs⟩ | ⟨e, c, v, -, ha, heff⟩
    · exact hI.snoc_of_kept (by simp [proposedId, hn]) (by simp [hs])
        (by rw [hs]; exact hI.positive.2) (hs ▸ hI.below)
    · exact hI.snoc ha heff ((ifAccepted_iff ha).mp hC)
  · intro h w i hI hP
    rcases step_cases w i with ⟨hn, -⟩ | ⟨e, c, v, -, ha, heff⟩
    · exact ifAccepted_of_none hn
    · exact (ifAccepted_iff ha).mpr (hI.keepsCounter heff hP)

/-- After a second initialization the next proposal takes the id of the first settlement. -/
def reusedId : List (Input (isolated (.contract 0)) Call) :=
  [.call ⟨{.account 0}, 0, true⟩ (.initializeContract [(.account 1, 1)] 1 (.account 0)),
    .call ⟨{.account 1}, 1, true⟩
      (.proposeSettlement (.account 1) (.contract 1) 500 (.account 3)),
    .call ⟨{.account 0}, 2, true⟩ (.initializeContract [(.account 1, 1)] 1 (.account 0)),
    .call ⟨{.account 2}, 3, true⟩
      (.proposeSettlement (.account 2) (.contract 1) 700 (.account 4))]

theorem reusedId_not_fresh : ¬ Always step FreshIds (fresh () 0) reusedId := by
  intro h
  exact absurd h.at_end.distinct (by decide)

end Treasury
