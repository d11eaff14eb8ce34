import Comebackhere.Library.Meter
import Comebackhere.Soroban.Token
import Comebackhere.Treasury.Settings

/-!
# The daily withdrawal limit

A token with a stored limit is metered: a withdrawal is booked in the token's window, which opens
with the first withdrawal that finds none open and lapses a day later. The window that is stored
when the limit is set may be left over from another limit.

## Main definitions

* `withdrawals token h`: the accepted withdrawals of a token, booked in the windows they recorded
* `Limited token limit h`: no window takes more than the limit, and no day more than two of them

## Main results

* `limited_run`: every run that leaves the limit alone keeps it
-/

namespace Treasury

open Soroban Checked Machine Meter

variable {D : Deployment} {e : Env} {w w' : State D} {i : Input D Call} {h : History D} {c : Call}
  {v : Val} {token : Address} {limit : UInt64}

/-! ## One invocation -/

/-- The entry point sets the daily limit of the token, or clears it. -/
def Call.setsLimit (token : Address) : Call → Bool
  | .setDailyWithdrawLimit _ token' _ => token' = token
  | _ => false

/-- The entry point withdraws the token. -/
def Call.withdraws (token : Address) : Call → Bool
  | .withdraw _ token' _ _ => token' = token
  | _ => false

theorem Call.exists_of_withdraws (hc : c.withdraws token = true) :
    ∃ admin recipient amount, c = .withdraw admin token recipient amount := by
  cases c with
  | withdraw admin token' recipient amount =>
    obtain rfl : token' = token := by simpa [Call.withdraws] using hc
    exact ⟨admin, recipient, amount, rfl⟩
  | _ => exact absurd hc Bool.false_ne_true

/-- The limit and the window of the token are the same. -/
structure SameLimit (token : Address) (s s' : Storage) : Prop where
  limit : s'.dailyWithdrawLimit token = s.dailyWithdrawLimit token
  window : s'.withdrawWindow token = s.withdrawWindow token

theorem spendWindow_sameLimit {token' : Address} {amount : UInt64} (hne : token' ≠ token)
    (h : spendWindow e w token' amount = .ok w') : SameLimit token w.storage w'.storage := by
  rcases spendWindow_eq_ok.mp h with ⟨-, rfl⟩ | ⟨limit, newSpent, -, -, -, rfl⟩
  · exact ⟨rfl, rfl⟩
  · exact ⟨rfl, Function.update_of_ne hne.symm ..⟩

/-- Every other entry point leaves the limit and the window of the token. -/
theorem SettingEffect.sameLimit (heff : SettingEffect e w w' c)
    (hset : c.setsLimit token = false) (hwithdraw : c.withdraws token = false) :
    SameLimit token w.storage w'.storage := by
  cases heff with
  | kept hs | switched hs | listed hs | lifetime _ hs =>
    exact ⟨congrFun hs.dailyWithdrawLimit token, congrFun hs.withdrawWindow token⟩
  | @limited _ token' limit hs =>
    -- the limit that is set is another token's
    have hne : token ≠ token' := fun he => by simp [Call.setsLimit, he] at hset
    have hwindow := congrFun hs.withdrawWindow token
    refine ⟨(congrFun hs.dailyWithdrawLimit token).trans (Function.update_of_ne hne ..), ?_⟩
    by_cases hzero : limit = 0
    · simpa [hzero, Function.update_of_ne hne] using hwindow
    · simpa [hzero] using hwindow
  | @spent _ token' _ _ _ hspend hs =>
    have hne : token' ≠ token := fun he => by simp [Call.withdraws, he] at hwithdraw
    have hsame := spendWindow_sameLimit hne hspend
    exact ⟨(congrFun hs.dailyWithdrawLimit token).trans hsame.limit,
      (congrFun hs.withdrawWindow token).trans hsame.window⟩

/-- A stored window as a window of the meter. -/
def WithdrawWindow.meter (x : WithdrawWindow) : Window := ⟨x.windowStart.toNat, x.spent.toNat⟩

/-- The contract books a withdrawal where the meter does. -/
theorem meter_currentWindow (window : Option WithdrawWindow) (now : UInt64) :
    (currentWindow window now).meter =
      current windowSeconds (window.map WithdrawWindow.meter) now.toNat := by
  cases window with
  | none => rfl
  | some x =>
    by_cases hopen : now.toNat - x.windowStart.toNat < windowSeconds
    · simp [currentWindow, current, WithdrawWindow.meter, hopen]
    · simp [currentWindow, current, WithdrawWindow.meter, hopen]

/-- **An accepted withdrawal** is within the limit, and stored in its window. -/
theorem withdraw_limited {admin recipient : Address} {amount : UInt64}
    (h : invoke e w (.withdraw admin token recipient amount) = .ok (w', v))
    (hlimit : w.storage.dailyWithdrawLimit token = some limit) :
    ∃ x, w'.storage.withdrawWindow token = some x ∧
      x.windowStart = (currentWindow (w.storage.withdrawWindow token) e.timestamp).windowStart ∧
      x.spent.toNat =
        (currentWindow (w.storage.withdrawWindow token) e.timestamp).spent.toNat + amount.toNat ∧
      x.spent ≤ limit ∧ w'.storage.dailyWithdrawLimit token = some limit := by
  obtain ⟨⟨-, -, w₁, l, hs, -, rfl⟩, -⟩ := by
    simpa only [invoke, unitResult_eq_ok, withdraw_eq_ok] using h
  rcases spendWindow_eq_ok.mp hs with ⟨hn, -⟩ | ⟨limit', newSpent, hlimit', hadd, hle, rfl⟩
  · simp [hlimit] at hn
  · obtain rfl := Option.some.inj (hlimit.symm.trans hlimit')
    exact ⟨_, Function.update_self .., rfl, (checkedAdd_eq_some.mp hadd).2, hle, hlimit⟩

/-! ## Runs -/

/-- An accepted withdrawal of the token, booked in the window it leaves recorded. -/
def withdrawal (token : Address) (t : State D × Input D Call) : Option Booking :=
  match accepted invoke t with
  | some (e, .withdraw _ token' _ amount, _) =>
    if token' = token then
      some ⟨(((step t.1 t.2).storage.withdrawWindow token).map fun x =>
        x.windowStart.toNat).getD 0, e.timestamp.toNat, amount.toNat⟩
    else none
  | _ => none

/-- The accepted withdrawals of the token, in order. -/
def withdrawals (token : Address) (h : History D) : List Booking := h.filterMap (withdrawal token)

/-- The withdrawals in one recorded window are within the limit, those of any day within twice the
limit, and a rejected withdrawal changes nothing. -/
structure Limited (token : Address) (limit : UInt64) (h : History D) : Prop where
  window : ∀ start, total (inWindow start (withdrawals token h)) ≤ limit.toNat
  day : ∀ t, total (during t windowSeconds (withdrawals token h)) ≤ 2 * limit.toNat
  rejected : ∀ t ∈ h, ∀ e admin recipient amount,
    t.2 = .call e (.withdraw admin token recipient amount) → accepted invoke t = none →
      step t.1 t.2 = t.1

/-- What a run that leaves the limit alone keeps up: the limit is stored, the withdrawals are
metered, and each was made at the time of an invocation of the history. -/
structure LimitInv (token : Address) (limit : UInt64) (h : History D) (w : State D) : Prop where
  stored : w.storage.dailyWithdrawLimit token = some limit
  metered : Metered windowSeconds limit.toNat (withdrawals token h)
    ((w.storage.withdrawWindow token).map WithdrawWindow.meter)
  timed : ∀ b ∈ withdrawals token h, ∃ t ∈ h, ∃ now ∈ t.2.timestamp, b.time = now.toNat

theorem withdrawals_snoc (t : State D × Input D Call) :
    withdrawals token (h ++ [t]) = withdrawals token h ++ (withdrawal token t).toList := by
  cases hp : withdrawal token t <;> simp [withdrawals, hp]

theorem LimitInv.snoc_of_same (hI : LimitInv token limit h w)
    (hs : SameLimit token w.storage (step w i).storage) (hn : withdrawal token (w, i) = none) :
    LimitInv token limit (h ++ [(w, i)]) (step w i) := by
  have hsame : withdrawals token (h ++ [(w, i)]) = withdrawals token h := by
    rw [withdrawals_snoc, hn, Option.toList_none, List.append_nil]
  refine ⟨hs.limit.trans hI.stored, ?_, ?_⟩
  · rw [hsame, hs.window]
    exact hI.metered
  · intro b hb
    obtain ⟨t, ht, now, hnow, hbt⟩ := hI.timed b (hsame ▸ hb)
    exact ⟨t, List.mem_append_left _ ht, now, hnow, hbt⟩

/-- A withdrawal continues the invariant when the clock does not go back. -/
theorem LimitInv.snoc_of_withdrawal (hI : LimitInv token limit h w) {admin recipient : Address}
    {amount : UInt64} (hi : i = .call e (.withdraw admin token recipient amount))
    (ha : accepted invoke (w, i) = some (e, .withdraw admin token recipient amount, v))
    (hclock : ∀ t ∈ h, ∀ before ∈ t.2.timestamp, before ≤ e.timestamp) :
    LimitInv token limit (h ++ [(w, i)]) (step w i) := by
  obtain ⟨x, hx, hstart, hspent, hle, hstored⟩ :=
    withdraw_limited (invoke_of_accepted ha).2 hI.stored
  -- the window the contract computes with is the one of the meter
  have hmeter := meter_currentWindow (w.storage.withdrawWindow token) e.timestamp
  have hxs : x.windowStart.toNat = (current windowSeconds
      ((w.storage.withdrawWindow token).map WithdrawWindow.meter) e.timestamp.toNat).start := by
    rw [hstart, ← hmeter]
    rfl
  have hxt : x.spent.toNat = (current windowSeconds
      ((w.storage.withdrawWindow token).map WithdrawWindow.meter) e.timestamp.toNat).spent +
        amount.toNat := by
    rw [hspent, ← hmeter]
    rfl
  have hbooked : withdrawals token (h ++ [(w, i)]) = withdrawals token h ++
      [⟨x.windowStart.toNat, e.timestamp.toNat, amount.toNat⟩] := by
    simp [withdrawals_snoc, withdrawal, ha, hx]
  have hnow : ∀ b ∈ withdrawals token h, b.time ≤ e.timestamp.toNat := by
    intro b hb
    obtain ⟨t, ht, now, hnow, hbt⟩ := hI.timed b hb
    rw [hbt]
    exact UInt64.le_iff_toNat_le.mp (hclock t ht now hnow)
  have hlimit := UInt64.le_iff_toNat_le.mp hle
  rw [hxt] at hlimit
  refine ⟨hstored, ?_, ?_⟩
  · rw [hbooked, hx, Option.map_some, WithdrawWindow.meter, hxs, hxt]
    exact hI.metered.book (by decide) hnow hlimit
  · intro b hb
    rw [hbooked] at hb
    rcases List.mem_append.mp hb with hb | hb
    · obtain ⟨t, ht, now, hnow, hbt⟩ := hI.timed b hb
      exact ⟨t, List.mem_append_left _ ht, now, hnow, hbt⟩
    · obtain rfl := List.mem_singleton.mp hb
      exact ⟨(w, i), by simp, e.timestamp, by simp [hi, Input.timestamp], rfl⟩

/-- One input that leaves the limit alone and does not go back in time keeps the invariant. -/
theorem limitInv_step (hI : LimitInv token limit h w)
    (hset : IfAccepted invoke (fun _ c _ => c.setsLimit token = false) (w, i))
    (hclock : ∀ t ∈ h, ∀ before ∈ t.2.timestamp, ∀ now ∈ i.timestamp, before ≤ now) :
    LimitInv token limit (h ++ [(w, i)]) (step w i) := by
  cases ha : accepted invoke (w, i) with
  | none =>
    have hs := storage_of_not_accepted ha
    exact hI.snoc_of_same ⟨by rw [hs], by rw [hs]⟩ (by simp [withdrawal, ha])
  | some r =>
    obtain ⟨e, c, v⟩ := r
    obtain ⟨hi, ho⟩ := invoke_of_accepted ha
    by_cases hc : c.withdraws token = true
    · obtain ⟨admin, recipient, amount, rfl⟩ := Call.exists_of_withdraws hc
      apply hI.snoc_of_withdrawal hi ha
      intro t ht before hbefore
      exact hclock t ht before hbefore e.timestamp (by simp [hi, Input.timestamp])
    · have hn : withdrawal token (w, i) = none := by
        unfold withdrawal
        rw [ha]
        cases c with
        | withdraw admin token' recipient amount =>
          exact if_neg fun he => hc (by simp [Call.withdraws, he])
        | _ => rfl
      have hset := (ifAccepted_iff ha).mp hset
      exact hI.snoc_of_same ((settingEffect_of_ok ho).sameLimit hset (by simpa using hc)) hn

/-- **The daily limit**: from any state in which a limit is stored for the token, with any window,
every run that leaves the limit alone keeps it. -/
theorem limited_run (w : State D) (is : List (Input D Call))
    (hstored : w.storage.dailyWithdrawLimit token = some limit)
    (hset : Each step (fun _ w i =>
      IfAccepted invoke (fun _ c _ => c.setsLimit token = false) (w, i)) w is)
    (hclock : (is.filterMap Input.timestamp).Pairwise (· ≤ ·)) :
    Limited token limit (transitions step w is) := by
  have hinv : LimitInv token limit (transitions step w is) (run step w is) := by
    apply inv_of_each (I := LimitInv token limit)
      (C := fun h w i => IfAccepted invoke (fun _ c _ => c.setsLimit token = false) (w, i) ∧
        ∀ t ∈ h, ∀ before ∈ t.2.timestamp, ∀ now ∈ i.timestamp, before ≤ now)
    · exact ⟨hstored, metered_nil .., by simp [withdrawals]⟩
    · exact fun h w i hI hC => limitInv_step hI hC.1 hC.2
    · intro pre i hp
      exact ⟨hset pre i hp, each_timestamp_le hclock pre i hp⟩
  refine ⟨hinv.metered.limited, hinv.metered.total_during_le, ?_⟩
  rintro ⟨w, i⟩ - e admin recipient amount rfl hn
  exact step_call_of_not_accepted hn

/-- Account 0 has the treasury pay out a token with a limit of 500. -/
def withdrawUpTo500 (now : UInt64) (amount : UInt64) :
    Input (tokenDeployment (.contract 0) (.contract 1)) Call :=
  .call ⟨{.account 0}, now, true⟩ (.withdraw (.account 0) (.contract 1) (.account 2) amount)

/-- The treasury holds 2000 of the token, which has a limit of 500. -/
def limitedTreasury : State (tokenDeployment (.contract 0) (.contract 1)) :=
  run step (fresh (fun a => if a = .contract 0 then 2000 else 0) 0)
    [.call ⟨{.account 0}, 0, true⟩ (.initializeContract [(.account 1, 1)] 1 (.account 0)),
      .call ⟨{.account 0}, 0, true⟩ (.setDailyWithdrawLimit (.account 0) (.contract 1) 500)]

/-- Of five withdrawals the second and the fourth are rejected; the third opens the window of the
fourth, a second before which the first one's had not lapsed. -/
theorem fiveWithdrawals_limited :
    Limited (.contract 1) 500 (transitions step limitedTreasury
      [withdrawUpTo500 10 500, withdrawUpTo500 86409 1, withdrawUpTo500 86410 400,
        withdrawUpTo500 86411 101, withdrawUpTo500 86411 100]) :=
  limited_run _ _ (by decide) (by decide) (by decide)

end Treasury
