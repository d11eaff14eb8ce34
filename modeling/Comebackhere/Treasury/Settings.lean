import Comebackhere.Treasury.Effect

/-!
# The settings of the treasury

The pause, the allowlist, the withdrawal limits and the lifetime of settlements are written by few
entry points. The lifetime is never zero, so no settlement expires at the time 0.

## Main definitions

* `SameSettings`: agreement on the settings
* `SettingEffect`: what an accepted entry point does to them
* `ExpiresLater`: neither the lifetime nor an expiry is zero

## Main results

* `settingEffect_of_ok`: every accepted entry point has one of these effects
* `expiresLater_run`: in every run from a fresh deployment, settlements expire later
-/

namespace Treasury

open Soroban Checked Machine

variable {D : Deployment} {e : Env} {w w' : State D} {i : Input D Call} {c : Call} {v : Val}

/-- The storages agree on the settings. -/
structure SameSettings (s s' : Storage) : Prop where
  paused : s'.paused = s.paused
  tokenAllowlist : s'.tokenAllowlist = s.tokenAllowlist
  dailyWithdrawLimit : s'.dailyWithdrawLimit = s.dailyWithdrawLimit
  withdrawWindow : s'.withdrawWindow = s.withdrawWindow
  settlementTtl : s'.settlementTtl = s.settlementTtl

/-- What an accepted entry point does to the settings. -/
inductive SettingEffect (e : Env) (w w' : State D) : Call → Prop
  | kept {c : Call} (hs : SameSettings w.storage w'.storage) : SettingEffect e w w' c
  | switched {c : Call} {paused : Bool}
      (hs : SameSettings { w.storage with paused := some paused } w'.storage) :
      SettingEffect e w w' c
  | listed {c : Call} {tokens : List Address}
      (hs : SameSettings { w.storage with tokenAllowlist := some tokens } w'.storage) :
      SettingEffect e w w' c
  | lifetime {admin : Address} {ttlSeconds : UInt64} (hne : ttlSeconds ≠ 0)
      (hs : SameSettings { w.storage with settlementTtl := some ttlSeconds } w'.storage) :
      SettingEffect e w w' (.setSettlementTtl admin ttlSeconds)
  | limited {admin token : Address} {limit : UInt64}
      (hs : SameSettings { w.storage with
        dailyWithdrawLimit := Function.update w.storage.dailyWithdrawLimit token
          (if limit = 0 then none else some limit)
        withdrawWindow :=
          if limit = 0 then Function.update w.storage.withdrawWindow token none
          else w.storage.withdrawWindow } w'.storage) :
      SettingEffect e w w' (.setDailyWithdrawLimit admin token limit)
  | spent {admin token recipient : Address} {amount : UInt64} {w₁ : State D}
      (hspend : spendWindow e w token amount = .ok w₁)
      (hs : SameSettings w₁.storage w'.storage) :
      SettingEffect e w w' (.withdraw admin token recipient amount)

/-- **Every accepted entry point has one of these effects.** -/
theorem settingEffect_of_ok (h : invoke e w c = .ok (w', v)) : SettingEffect e w w' c := by
  cases effect_of_ok h with
  | config hc _ _ _ =>
    cases c with
    | upgrade newWasmHash =>
      obtain ⟨⟨-, -, rfl⟩, -⟩ := by simpa only [invoke, unitResult_eq_ok, upgrade_eq_ok] using h
      exact .kept ⟨rfl, rfl, rfl, rfl, rfl⟩
    | pause admin =>
      obtain ⟨⟨-, rfl⟩, -⟩ := by simpa only [invoke, unitResult_eq_ok, pause_eq_ok] using h
      exact .switched ⟨rfl, rfl, rfl, rfl, rfl⟩
    | unpause admin =>
      obtain ⟨⟨-, rfl⟩, -⟩ := by simpa only [invoke, unitResult_eq_ok, unpause_eq_ok] using h
      exact .switched ⟨rfl, rfl, rfl, rfl, rfl⟩
    | setSettlementTtl admin ttlSeconds =>
      obtain ⟨⟨-, -, hne, rfl⟩, -⟩ := by
        simpa only [invoke, unitResult_eq_ok, setSettlementTtl_eq_ok] using h
      exact .lifetime hne ⟨rfl, rfl, rfl, rfl, rfl⟩
    | setDailyWithdrawLimit admin token limit =>
      obtain ⟨⟨-, -, rfl⟩, -⟩ := by
        simpa only [invoke, unitResult_eq_ok, setDailyWithdrawLimit_eq_ok] using h
      exact .limited ⟨rfl, rfl, rfl, rfl, rfl⟩
    | addTokenToAllowlist admin token =>
      obtain ⟨⟨-, -, rfl⟩, -⟩ := by
        simpa only [invoke, unitResult_eq_ok, addTokenToAllowlist_eq_ok] using h
      exact .listed ⟨rfl, rfl, rfl, rfl, rfl⟩
    | removeTokenFromAllowlist admin token =>
      obtain ⟨⟨-, -, rfl⟩, -⟩ := by
        simpa only [invoke, unitResult_eq_ok, removeTokenFromAllowlist_eq_ok] using h
      exact .listed ⟨rfl, rfl, rfl, rfl, rfl⟩
    | _ => exact absurd hc Bool.false_ne_true
  | deposited _ _ _ =>
    obtain ⟨⟨-, -, -, l, -, rfl⟩, -⟩ := by
      simpa only [invoke, unitResult_eq_ok, deposit_eq_ok] using h
    exact .kept ⟨rfl, rfl, rfl, rfl, rfl⟩
  | withdrawn _ _ _ _ =>
    obtain ⟨⟨-, -, w₁, l, hspend, -, rfl⟩, -⟩ := by
      simpa only [invoke, unitResult_eq_ok, withdraw_eq_ok] using h
    exact .spent hspend ⟨rfl, rfl, rfl, rfl, rfl⟩
  | initialized _ _ hw _ =>
    exact .switched ⟨by rw [hw], by rw [hw], by rw [hw], by rw [hw], by rw [hw]⟩
  | transferAdmin _ _ hw _ | acceptAdmin _ _ hw _ | setSigner _ _ hw _ | rotateSigner _ _ _ _ hw _
  | updateThreshold _ _ _ _ _ hw _ | proposed _ _ hw _ | edited _ _ hw _ =>
    exact .kept ⟨by rw [hw], by rw [hw], by rw [hw], by rw [hw], by rw [hw]⟩

/-! ## The lifetime of settlements -/

/-- No lifetime and no expiry of a settlement is zero. -/
structure ExpiresLater (s : Storage) : Prop where
  lifetime : getSettlementTtl s ≠ 0
  expiry : ∀ id x, s.settlement id = some x → x.expiresAt ≠ 0

theorem SettingEffect.lifetime_ne_zero (heff : SettingEffect e w w' c)
    (hI : getSettlementTtl w.storage ≠ 0) : getSettlementTtl w'.storage ≠ 0 := by
  cases heff with
  | kept hs | switched hs | listed hs | limited hs =>
    rw [getSettlementTtl, hs.settlementTtl]
    exact hI
  | lifetime hne hs =>
    rw [getSettlementTtl, hs.settlementTtl]
    exact hne
  | spent hspend hs =>
    rw [getSettlementTtl, hs.settlementTtl]
    rcases spendWindow_eq_ok.mp hspend with ⟨-, rfl⟩ | ⟨_, _, -, -, -, rfl⟩ <;> exact hI

/-- An edit of a settlement keeps its expiry. -/
theorem Edit.expiresAt_eq {s : Storage} {id : UInt64} {x x' : Settlement}
    (hedit : Edit e s c id x x') : x'.expiresAt = x.expiresAt := by
  cases hedit <;> rfl

/-- A proposal expires its lifetime later. -/
theorem expiresAt_of_proposed {signer token merchant : Address} {amount id : UInt64}
    (h : proposeSettlement e w signer token amount merchant = .ok (w', id)) :
    ∃ x, w'.storage.settlement = Function.update w.storage.settlement id (some x) ∧
      x.expiresAt.toNat = e.timestamp.toNat + (getSettlementTtl w.storage).toNat := by
  obtain ⟨-, -, -, -, expiresAt, _, hadd, -, rfl⟩ := proposeSettlement_eq_ok.mp h
  exact ⟨_, rfl, (checkedAdd_eq_some.mp hadd).2⟩

theorem expiresLater_of_ok (h : invoke e w c = .ok (w', v)) (hI : ExpiresLater w.storage) :
    ExpiresLater w'.storage := by
  refine ⟨(settingEffect_of_ok h).lifetime_ne_zero hI.lifetime, ?_⟩
  intro id x hx
  cases (effect_of_ok h).book with
  | unchanged _ hb => exact hI.expiry id x (hb ▸ hx)
  | proposed =>
    simp only [invoke, bind_eq_ok, pure_eq_ok, Prod.mk.injEq] at h
    obtain ⟨⟨w₁, id'⟩, h, rfl, -⟩ := h
    obtain ⟨y, hb, hexpires⟩ := expiresAt_of_proposed h
    by_cases hid : id = id'
    · subst hid
      obtain rfl : y = x := by simpa [hb] using hx
      intro hzero
      have hpos : (getSettlementTtl w.storage).toNat ≠ 0 := fun hz =>
        hI.lifetime (UInt64.toNat_inj.mp hz)
      rw [hzero, UInt64.toNat_zero] at hexpires
      omega
    · exact hI.expiry id x (by simpa [hb, Function.update_of_ne hid] using hx)
  | @edited _ _ id' y y' hy hedit hb =>
    by_cases hid : id = id'
    · subst hid
      obtain rfl : y' = x := by simpa [hb] using hx
      exact hedit.expiresAt_eq ▸ hI.expiry id y hy
    · exact hI.expiry id x (by simpa [hb, Function.update_of_ne hid] using hx)

theorem expiresLater_fresh (l : D.Ledger) (wasm : WasmHash) :
    ExpiresLater (fresh l wasm : State D).storage :=
  ⟨by simp [fresh, Storage.empty, getSettlementTtl, defaultSettlementTtlSeconds], by
    simp [fresh, Storage.empty]⟩

theorem expiresLater_step (hI : ExpiresLater w.storage) : ExpiresLater (step w i).storage := by
  cases ha : accepted invoke (w, i) with
  | none => rwa [storage_of_not_accepted ha]
  | some r => exact expiresLater_of_ok (invoke_of_accepted ha).2 hI

/-- **Settlements expire later**, in every state that a run reaches. -/
theorem expiresLater_run (l : D.Ledger) (wasm : WasmHash) (is : List (Input D Call)) :
    ExpiresLater (run step (fresh l wasm) is).storage :=
  inv_of_each (I := fun _ (w : State D) => ExpiresLater w.storage) (C := fun _ _ _ => True)
    (expiresLater_fresh l wasm) (fun _ _ _ hI _ => expiresLater_step hI) fun _ _ _ => trivial

end Treasury
