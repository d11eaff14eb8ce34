import Comebackhere.Compliance.Contract

/-!
# Authority over the compliance contract

Statuses, the pause and the admin are meant to change on the stored admin's authorisation only.
The entry points that write statuses or the admin take the admin as an argument, have it authorise
the call, and do not compare it with the stored one; `initialize` is authorised by nobody.

## Main definitions

* `Call.writes`: the addresses a call gives a status, with that status
* `Effect`: what an accepted entry point does to the storage
* `Authorised`: an input changes what is protected on the stored admin's authorisation only
* `Overwrites`: the call writes another value, without a comparison with the stored admin

## Main results

* `effect_of_ok`: every accepted entry point has one of these effects
* `authorised_iff`: changes are authorised throughout the runs whose overwriting calls are
-/

namespace Compliance

open Soroban Checked Machine

variable {D : Deployment} {e : Env} {w w' : State D} {i : Input D Call} {c : Call} {v : Val}
  {s s' : Storage}

/-- A history of the compliance contract. -/
abbrev History (D : Deployment) := List (State D × Input D Call)

/-! ## Accepted invocations -/

@[simp] theorem checkNotPaused_eq_ok {u : Unit} :
    checkNotPaused s = .ok u ↔ isPaused s = false := by
  simp [checkNotPaused]

@[simp] theorem checkNotPastExpiry_eq_ok {untilTime : UInt64} {u : Unit} :
    checkNotPastExpiry e untilTime = .ok u ↔ e.timestamp < untilTime := by
  simp [checkNotPastExpiry]

@[simp] theorem checkAdmin_eq_ok {admin : Address} {u : Unit} :
    checkAdmin e s admin = .ok u ↔ admin ∈ e.auths ∧ s.admin = some admin := by
  simp [checkAdmin]

@[simp] theorem unitResult_eq_ok {r : Result (State D)} :
    unitResult r = .ok (w', v) ↔ r = .ok w' ∧ v = .void := by
  simp [unitResult]

/-- Give every address of a list one status. -/
def assignAll (status : Address → Option AddressStatus) (addresses : List Address)
    (new : AddressStatus) : Address → Option AddressStatus :=
  fun a => if a ∈ addresses then some new else status a

@[simp] theorem assignAll_nil (status : Address → Option AddressStatus) (new : AddressStatus) :
    assignAll status [] new = status := by
  funext b
  simp [assignAll]

theorem assignAll_cons (status : Address → Option AddressStatus) (a : Address)
    (addresses : List Address) (new : AddressStatus) :
    assignAll (Function.update status a (some new)) addresses new =
      assignAll status (a :: addresses) new := by
  funext b
  by_cases hb : b = a
  · simp [assignAll, hb]
  · simp [assignAll, hb]

/-- A loop that gives one status to an address after the other writes nothing else. -/
theorem foldl_storage {f : State D → Address → State D} {new : AddressStatus}
    (hf : ∀ w a, (f w a).storage =
      { w.storage with status := Function.update w.storage.status a (some new) })
    (addresses : List Address) (w : State D) : (addresses.foldl f w).storage =
      { w.storage with status := assignAll w.storage.status addresses new } := by
  induction addresses generalizing w with
  | nil => simp
  | cons a addresses ih => rw [List.foldl_cons, ih, hf, assignAll_cons]

/-- The addresses a call gives a status, with that status. -/
def Call.writes : Call → Option (List Address × AddressStatus)
  | .allowAddress _ addr => some ([addr], .allowed)
  | .blockAddress _ addr => some ([addr], .blocked)
  | .allowAddressUntil _ addr untilTime => some ([addr], .allowedUntil untilTime)
  | .batchAllowAddresses _ addresses untilTime => some (addresses, .allowedUntil untilTime)
  | .batchBlockAddresses _ addresses => some (addresses, .blocked)
  | _ => none

/-- The entry points that write the pause alone. -/
def Call.pauses : Call → Bool
  | .pause _ | .unpause _ => true
  | _ => false

/-- What an accepted entry point does to the storage. -/
inductive Effect (e : Env) (s s' : Storage) : Call → Prop
  | upgraded {newWasmHash : WasmHash} (hs : s' = s) : Effect e s s' (.upgrade newWasmHash)
  | initialized {admin : Address} (hs : s' = { s with admin := some admin, paused := some false }) :
      Effect e s s' (.initializeContract admin)
  | transferred {admin newAdmin : Address} (hs : s' = { s with admin := some newAdmin }) :
      Effect e s s' (.transferAdmin admin newAdmin)
  | accepted {newAdmin : Address} (hpending : s.pendingAdmin = some newAdmin) :
      Effect e s s' (.acceptAdmin newAdmin)
  | paused {c : Call} {b : Bool} (hauth : ∃ a ∈ e.auths, s.admin = some a)
      (hc : c.pauses = true) (hs : s' = { s with paused := some b }) : Effect e s s' c
  | wrote {c : Call} {addresses : List Address} {new : AddressStatus}
      (hc : c.writes = some (addresses, new))
      (hs : s' = { s with status := assignAll s.status addresses new }) : Effect e s s' c
  | clearedAddress {admin addr : Address} (hstatus : s.status addr ≠ none)
      (hs : s' = { s with status := Function.update s.status addr none }) :
      Effect e s s' (.clearAddress admin addr)

theorem setStatus_storage (w : State D) (addr : Address) (new : AddressStatus) :
    (setStatus w addr new).storage =
      { w.storage with status := assignAll w.storage.status [addr] new } := by
  rw [← assignAll_cons]
  simp [setStatus]

/-- **Every accepted entry point has one of the effects.** -/
theorem effect_of_ok (h : invoke e w c = .ok (w', v)) : Effect e w.storage w'.storage c := by
  cases c with
  | upgrade newWasmHash =>
    obtain ⟨⟨admin, -, -, rfl⟩, rfl⟩ := by simpa [invoke, upgrade] using h
    exact .upgraded rfl
  | initializeContract admin =>
    obtain ⟨rfl, rfl⟩ := by simpa [invoke, initializeContract] using h
    exact .initialized rfl
  | allowAddress admin addr =>
    obtain ⟨⟨-, -, rfl⟩, rfl⟩ := by simpa [invoke, allowAddress] using h
    exact .wrote rfl (setStatus_storage w addr .allowed)
  | blockAddress admin addr =>
    obtain ⟨⟨-, -, rfl⟩, rfl⟩ := by simpa [invoke, blockAddress] using h
    exact .wrote rfl (setStatus_storage w addr .blocked)
  | allowAddressUntil admin addr untilTime =>
    obtain ⟨⟨-, -, -, rfl⟩, rfl⟩ := by simpa [invoke, allowAddressUntil] using h
    exact .wrote rfl (setStatus_storage w addr (.allowedUntil untilTime))
  | batchAllowAddresses admin addresses untilTime =>
    obtain ⟨⟨-, -, -, -, rfl⟩, rfl⟩ := by simpa [invoke, batchAllowAddresses] using h
    exact .wrote rfl (foldl_storage (fun _ _ => rfl) addresses w)
  | batchBlockAddresses admin addresses =>
    obtain ⟨⟨-, -, -, rfl⟩, rfl⟩ := by simpa [invoke, batchBlockAddresses] using h
    exact .wrote rfl (foldl_storage (fun _ _ => rfl) addresses w)
  | transferAdmin admin newAdmin =>
    obtain ⟨⟨-, -, rfl⟩, rfl⟩ := by simpa [invoke, transferAdmin] using h
    exact .transferred rfl
  | acceptAdmin newAdmin =>
    obtain ⟨⟨-, -, hpending, -⟩, -⟩ := by simpa [invoke, acceptAdmin] using h
    exact .accepted hpending
  | clearAddress admin addr =>
    obtain ⟨⟨-, -, hstatus, rfl⟩, rfl⟩ := by simpa [invoke, clearAddress] using h
    refine .clearedAddress (fun hn => hstatus ?_) rfl
    rw [getAddressStatus, hn]
    rfl
  | pause admin =>
    obtain ⟨⟨⟨hauth, hadmin⟩, rfl⟩, rfl⟩ := by simpa [invoke, pause] using h
    exact .paused ⟨admin, hauth, hadmin⟩ rfl rfl
  | unpause admin =>
    obtain ⟨⟨⟨hauth, hadmin⟩, rfl⟩, rfl⟩ := by simpa [invoke, unpause] using h
    exact .paused ⟨admin, hauth, hadmin⟩ rfl rfl

/-! ## Authority -/

/-- The storages agree on what is protected: the statuses, the pause and the admin. -/
structure SameProtected (s s' : Storage) : Prop where
  status : s'.status = s.status
  paused : s'.paused = s.paused
  admin : s'.admin = s.admin

/-- The address an admin nominates in a transition. -/
def nominee (admin : Address) (t : State D × Input D Call) : Option Address :=
  match accepted invoke t with
  | some (_, .transferAdmin admin' newAdmin, _) =>
    if admin' = admin ∧ t.1.storage.admin = some admin then some newAdmin else none
  | _ => none

/-- The address an admin nominated last. -/
def lastNominee (admin : Address) (h : History D) : Option Address :=
  (h.filterMap (nominee admin)).getLast?

/-- Once an admin is stored, what is protected changes in a call the stored admin authorises, or in
an acceptance authorised by the address the stored admin nominated last. -/
def Authorised (h : History D) (w : State D) (i : Input D Call) : Prop :=
  ∀ a, w.storage.admin = some a → ¬ SameProtected w.storage (step w i).storage →
    ∃ e c v, accepted invoke (w, i) = some (e, c, v) ∧
      (a ∈ e.auths ∨
        ∃ newAdmin, c = .acceptAdmin newAdmin ∧ newAdmin ∈ e.auths ∧
          lastNominee a h = some newAdmin)

/-- The call writes another value than the stored one, without a comparison of the admin it names
with the stored admin. -/
def Overwrites (s : Storage) : Call → Prop
  | .initializeContract admin => s.admin ≠ some admin ∨ s.paused ≠ some false
  | .transferAdmin _ newAdmin => s.admin ≠ some newAdmin
  | .clearAddress _ addr => s.status addr ≠ none
  | .allowAddress _ addr => s.status addr ≠ some .allowed
  | .blockAddress _ addr => s.status addr ≠ some .blocked
  | .allowAddressUntil _ addr untilTime => s.status addr ≠ some (.allowedUntil untilTime)
  | .batchAllowAddresses _ addresses untilTime =>
    ∃ addr ∈ addresses, s.status addr ≠ some (.allowedUntil untilTime)
  | .batchBlockAddresses _ addresses => ∃ addr ∈ addresses, s.status addr ≠ some .blocked
  | _ => False

/-- An overwriting call is authorised by the stored admin. -/
def OverwritesWithAuthority (e : Env) (s : Storage) (c : Call) : Prop :=
  ∀ a, s.admin = some a → Overwrites s c → a ∈ e.auths

theorem assignAll_eq_iff {status : Address → Option AddressStatus} {addresses : List Address}
    {new : AddressStatus} :
    assignAll status addresses new = status ↔ ∀ addr ∈ addresses, status addr = some new := by
  constructor
  · intro h addr haddr
    simpa [assignAll, haddr, eq_comm] using congrFun h addr
  · intro h
    funext a
    by_cases ha : a ∈ addresses
    · simp [assignAll, ha, h a ha]
    · simp [assignAll, ha]

theorem overwrites_iff_of_writes {addresses : List Address} {new : AddressStatus}
    (hc : c.writes = some (addresses, new)) :
    Overwrites s c ↔ ∃ addr ∈ addresses, s.status addr ≠ some new := by
  cases c <;> simp only [Call.writes, Option.some.injEq, Prod.mk.injEq, reduceCtorEq] at hc <;>
    obtain ⟨rfl, rfl⟩ := hc <;> simp [Overwrites]

theorem sameProtected_iff : SameProtected s s' ↔
    s'.status = s.status ∧ s'.paused = s.paused ∧ s'.admin = s.admin :=
  ⟨fun h => ⟨h.status, h.paused, h.admin⟩, fun ⟨hs, hp, ha⟩ => ⟨hs, hp, ha⟩⟩

/-- What an entry point changes without pausing, it overwrites; an acceptance never succeeds while
no nominee is stored. -/
theorem Effect.changes_iff (heff : Effect e s s' c) (hpending : s.pendingAdmin = none)
    (hc : c.pauses = false) : ¬ SameProtected s s' ↔ Overwrites s c := by
  rw [sameProtected_iff]
  cases heff with
  | upgraded hs => simp [hs, Overwrites]
  | initialized hs =>
    simp only [hs, Overwrites, true_and, not_and_or, eq_comm (a := some false),
      eq_comm (b := s.admin)]
    exact or_comm
  | transferred hs => simp [hs, Overwrites, eq_comm]
  | accepted hp => simp [hpending] at hp
  | paused _ hpauses _ => simp [hc] at hpauses
  | wrote hw hs => simp [hs, overwrites_iff_of_writes hw, assignAll_eq_iff]
  | @clearedAddress _ addr hstatus hs =>
    -- the address had a status, and has none afterwards
    refine iff_of_true (fun hsame => hstatus ?_) hstatus
    simpa [hs, eq_comm] using congrFun hsame.1 addr

/-- Under the invariant, an accepted entry point is authorised exactly when what it overwrites
is. -/
theorem authorised_step_iff {h : History D} (hpending : w.storage.pendingAdmin = none)
    (ha : accepted invoke (w, i) = some (e, c, v)) :
    Authorised h w i ↔ OverwritesWithAuthority e w.storage c := by
  have heff := effect_of_ok (invoke_of_accepted ha).2
  cases hc : c.pauses with
  | true =>
    -- the pause is compared with the stored admin, and overwrites nothing else
    refine iff_of_true (fun a hadmin _ => ⟨e, c, v, ha, Or.inl ?_⟩) fun a _ hover => ?_
    · cases heff with
      | paused hauth _ _ =>
        obtain ⟨b, hb, hadmin'⟩ := hauth
        exact Option.some.inj (hadmin.symm.trans hadmin') ▸ hb
      | wrote hw _ => cases c <;> simp [Call.pauses, Call.writes] at hc hw
      | _ => exact absurd hc Bool.false_ne_true
    · cases c <;> first | exact hover.elim | exact absurd hc Bool.false_ne_true
  | false =>
    rw [OverwritesWithAuthority, Authorised]
    apply forall₂_congr
    intro a hadmin
    rw [← heff.changes_iff hpending hc]
    refine imp_congr_right fun _ => ⟨?_, fun hauth => ⟨e, c, v, ha, Or.inl hauth⟩⟩
    rintro ⟨e', c', v', ha', hauth | ⟨newAdmin, rfl, -⟩⟩
    · obtain ⟨rfl, -⟩ : e = e' ∧ _ := by simpa [ha] using ha'
      exact hauth
    · -- an acceptance needs a nominee, and none is ever stored
      obtain ⟨-, rfl, -⟩ : e = e' ∧ c = .acceptAdmin newAdmin ∧ v = v' := by simpa [ha] using ha'
      cases heff with
      | accepted hp => simp [hpending] at hp
      | paused _ hpauses _ => exact absurd hpauses Bool.false_ne_true
      | wrote hw _ => simp [Call.writes] at hw

/-- No entry point stores a nominee. -/
theorem Effect.pendingAdmin_eq (heff : Effect e s s' c) (hpending : s.pendingAdmin = none) :
    s'.pendingAdmin = none := by
  cases heff with
  | accepted hp => simp [hpending] at hp
  | upgraded hs => rwa [hs]
  | initialized hs => rwa [hs]
  | transferred hs => rwa [hs]
  | paused _ _ hs => rwa [hs]
  | wrote _ hs => rwa [hs]
  | clearedAddress _ hs => rwa [hs]

theorem pendingAdmin_step (hpending : w.storage.pendingAdmin = none) (i : Input D Call) :
    (step w i).storage.pendingAdmin = none := by
  cases ha : accepted invoke (w, i) with
  | none => rwa [storage_of_not_accepted ha]
  | some r =>
    obtain ⟨e, c, v⟩ := r
    exact (effect_of_ok (invoke_of_accepted ha).2).pendingAdmin_eq hpending

/-- **Authority**: from a fresh deployment, every change after the first initialization is
authorised throughout exactly the runs whose accepted overwriting calls the stored admin
authorises. -/
theorem authorised_iff (l : D.Ledger) (wasm : WasmHash) (is : List (Input D Call)) :
    Each step Authorised (fresh l wasm) is ↔
      Each step (fun _ w i =>
        IfAccepted invoke (fun e c _ => OverwritesWithAuthority e w.storage c) (w, i))
        (fresh l wasm) is := by
  refine each_iff_each (I := fun _ w => w.storage.pendingAdmin = none) rfl
    (fun _ w i hI _ => pendingAdmin_step hI i) (fun h w i hI => ?_) is
  cases ha : accepted invoke (w, i) with
  | none =>
    refine iff_of_true (fun a _ hne => absurd ?_ hne) (ifAccepted_of_none ha)
    rw [storage_of_not_accepted ha]
    exact ⟨rfl, rfl, rfl⟩
  | some r =>
    obtain ⟨e, c, v⟩ := r
    rw [ifAccepted_iff ha]
    exact authorised_step_iff hI ha

/-- Anyone can name an admin of their choice, and have it allow them. -/
def forgedAllowance : List (Input (isolated (.contract 0)) Call) :=
  [.call ⟨{.account 0}, 0, true⟩ (.initializeContract (.account 0)),
    .call ⟨{.account 5}, 1, true⟩ (.allowAddress (.account 5) (.account 5))]

theorem forgedAllowance_not_authorised : ¬ Each step Authorised (fresh () 0) forgedAllowance := by
  intro h
  obtain ⟨e, c, v, ha, hauth⟩ := h [_] _ List.prefix_rfl (.account 0) rfl fun hsame =>
    absurd (congrFun hsame.status (.account 5)) (by decide)
  obtain ⟨rfl, rfl⟩ := Input.call.inj (invoke_of_accepted ha).1
  rcases hauth with hauth | ⟨newAdmin, hc, -⟩
  · exact absurd hauth (by decide)
  · exact nomatch hc

end Compliance
