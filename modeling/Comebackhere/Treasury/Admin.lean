import Comebackhere.Treasury.Effect

/-!
# The hand-over of the treasury's admin

The admin nominates a successor with `transfer_admin`, and the nominee takes office with
`accept_admin`. Nothing else is meant to write the admin, but `initialize` can be called again by
anyone, and writes it too.

## Main definitions

* `lastNomination h`: the last accepted nomination, with the admin who made it
* `LeavesOffice a t`, `Returned a h`: the admin `a` hands over, and is nominated and accepts again
* `HandsOver`: an input changes the admin by an acceptance of the last nomination only, and
  accepts no former admin's authorisation for an operation of the admin
* `KeepsAdmin`: the invocation is no initialization with another admin than the stored one

## Main results

* `handsOver_iff`: hand-over is by acceptance throughout the runs not initialized again with
  another admin
-/

namespace Treasury

open Soroban Checked Machine

variable {D : Deployment} {e : Env} {w : State D} {i : Input D Call} {h : History D}

/-! ## The admin and the nominee -/

/-- The entry points that write the admin or the nominee. -/
def Call.writesAdmin : Call → Bool
  | .transferAdmin _ _ | .acceptAdmin _ | .initializeContract _ _ _ => true
  | _ => false

theorem Call.writesAdmin_of_isConfig {c : Call} (h : c.isConfig = true) :
    c.writesAdmin = false := by
  cases c <;> first | rfl | exact absurd h Bool.false_ne_true

/-- What an accepted entry point does to the admin and the nominee. -/
inductive AdminEffect (e : Env) (s s' : Storage) : Call → Prop
  | kept {c : Call} (hc : c.writesAdmin = false) (ha : s'.admin = s.admin)
      (hp : s'.pendingAdmin = s.pendingAdmin) : AdminEffect e s s' c
  | nominated {admin newAdmin : Address} (hadmin : s.admin = some admin)
      (ha : s'.admin = some admin) (hp : s'.pendingAdmin = some newAdmin) :
      AdminEffect e s s' (.transferAdmin admin newAdmin)
  | accepted {newAdmin : Address} (hauth : newAdmin ∈ e.auths)
      (hpending : s.pendingAdmin = some newAdmin) (ha : s'.admin = some newAdmin)
      (hp : s'.pendingAdmin = none) : AdminEffect e s s' (.acceptAdmin newAdmin)
  | initialized {signers : List (Address × UInt64)} {threshold : UInt64} {admin : Address}
      (ha : s'.admin = some admin) (hp : s'.pendingAdmin = s.pendingAdmin) :
      AdminEffect e s s' (.initializeContract signers threshold admin)

theorem Edit.writesAdmin {s : Storage} {c : Call} {id : UInt64} {x x' : Settlement}
    (hedit : Edit e s c id x x') : c.writesAdmin = false := by
  cases hedit <;> rfl

theorem Effect.onAdmin {w' : State D} {c : Call} {v : Val} (heff : Effect e w c w' v) :
    AdminEffect e w.storage w'.storage c := by
  cases heff with
  | config hc _ hcore _ =>
    exact .kept (Call.writesAdmin_of_isConfig hc) hcore.admin hcore.pendingAdmin
  | transferAdmin _ hadmin hw _ => exact .nominated hadmin (by rw [hw, ← hadmin]) (by rw [hw])
  | acceptAdmin hauth hp hw _ => exact .accepted hauth hp (by rw [hw]) (by rw [hw])
  | initialized _ _ hw _ => exact .initialized (by rw [hw]) (by rw [hw])
  | setSigner _ _ hw _ => exact .kept rfl (by rw [hw]) (by rw [hw])
  | rotateSigner _ _ _ _ hw _ => exact .kept rfl (by rw [hw]) (by rw [hw])
  | updateThreshold _ _ _ _ _ hw _ => exact .kept rfl (by rw [hw]) (by rw [hw])
  | proposed _ _ hw _ => exact .kept rfl (by rw [hw]) (by rw [hw])
  | edited _ hedit hw _ => exact .kept hedit.writesAdmin (by rw [hw]) (by rw [hw])
  | deposited _ hcore _ => exact .kept rfl hcore.admin hcore.pendingAdmin
  | withdrawn _ _ hcore _ => exact .kept rfl hcore.admin hcore.pendingAdmin

/-! ## Nominations and acceptances of a history -/

/-- The nomination a call makes: the admin who makes it, and the nominee. -/
def Call.nominates : Call → Option (Address × Address)
  | .transferAdmin admin newAdmin => some (admin, newAdmin)
  | _ => none

/-- The address for which a call accepts the office. -/
def Call.accepts : Call → Option Address
  | .acceptAdmin newAdmin => some newAdmin
  | _ => none

def nomination (t : State D × Input D Call) : Option (Address × Address) :=
  (accepted invoke t).bind fun r => r.2.1.nominates

def acceptance (t : State D × Input D Call) : Option Address :=
  (accepted invoke t).bind fun r => r.2.1.accepts

/-- The last nomination of a history. -/
def lastNomination (h : History D) : Option (Address × Address) :=
  (h.filterMap nomination).getLast?

theorem lastNomination_snoc (t : State D × Input D Call) :
    lastNomination (h ++ [t]) = (nomination t).or (lastNomination h) := by
  cases hn : nomination t <;> simp [lastNomination, hn]

/-- What an input does to the admin and the nominee, and what it adds to the history. -/
inductive Turn (w : State D) (i : Input D Call) (s' : Storage) : Prop
  | kept (ha : s'.admin = w.storage.admin) (hp : s'.pendingAdmin = w.storage.pendingAdmin)
      (hn : nomination (w, i) = none) (hacc : acceptance (w, i) = none)
  | nominated {e : Env} {admin newAdmin : Address} {v : Val}
      (hi : accepted invoke (w, i) = some (e, .transferAdmin admin newAdmin, v))
      (hadmin : w.storage.admin = some admin) (ha : s'.admin = some admin)
      (hp : s'.pendingAdmin = some newAdmin) (hn : nomination (w, i) = some (admin, newAdmin))
      (hacc : acceptance (w, i) = none)
  | accepted {e : Env} {newAdmin : Address} {v : Val}
      (hi : accepted invoke (w, i) = some (e, .acceptAdmin newAdmin, v))
      (hauth : newAdmin ∈ e.auths) (hpending : w.storage.pendingAdmin = some newAdmin)
      (ha : s'.admin = some newAdmin) (hp : s'.pendingAdmin = none)
      (hn : nomination (w, i) = none) (hacc : acceptance (w, i) = some newAdmin)
  | initialized {e : Env} {signers : List (Address × UInt64)} {threshold : UInt64}
      {admin : Address} {v : Val}
      (hi : accepted invoke (w, i) = some (e, .initializeContract signers threshold admin, v))
      (ha : s'.admin = some admin) (hp : s'.pendingAdmin = w.storage.pendingAdmin)
      (hn : nomination (w, i) = none) (hacc : acceptance (w, i) = none)

theorem turn (w : State D) (i : Input D Call) : Turn w i (step w i).storage := by
  rcases step_cases w i with ⟨hn, hs⟩ | ⟨e, c, v, -, hi, heff⟩
  · exact .kept (by rw [hs]) (by rw [hs]) (by simp [nomination, hn]) (by simp [acceptance, hn])
  · have hnom : nomination (w, i) = c.nominates := by simp [nomination, hi]
    have hacc : acceptance (w, i) = c.accepts := by simp [acceptance, hi]
    cases heff.onAdmin with
    | kept hc ha hp =>
      refine .kept ha hp (hnom.trans ?_) (hacc.trans ?_)
      · cases c <;> first | rfl | exact absurd hc.symm Bool.false_ne_true
      · cases c <;> first | rfl | exact absurd hc.symm Bool.false_ne_true
    | nominated hadmin ha hp => exact .nominated hi hadmin ha hp hnom hacc
    | accepted hauth hpending ha hp => exact .accepted hi hauth hpending ha hp hnom hacc
    | initialized ha hp => exact .initialized hi ha hp hnom hacc

/-- The admin `a` hands over to another address. -/
def LeavesOffice (a : Address) (t : State D × Input D Call) : Prop :=
  t.1.storage.admin = some a ∧ ∃ newAdmin, acceptance t = some newAdmin ∧ newAdmin ≠ a

/-- The address `a` is nominated and accepts after that. -/
def Returned (a : Address) (h : History D) : Prop :=
  ∃ t₁ t₂ admin, [t₁, t₂].Sublist h ∧ nomination t₁ = some (admin, a) ∧ acceptance t₂ = some a

theorem Returned.snoc {a : Address} (hr : Returned a h) (t : State D × Input D Call) :
    Returned a (h ++ [t]) := by
  obtain ⟨t₁, t₂, admin, hsub, h₁, h₂⟩ := hr
  exact ⟨t₁, t₂, admin, hsub.trans (List.sublist_append_left _ _), h₁, h₂⟩

/-! ## Hand-over -/

/-- The operations of the admin. A cancellation is one unless the proposer makes it. -/
def AdminGated (s : Storage) : Call → Prop
  | .upgrade _ | .transferAdmin _ _ | .setSigner _ _ _ | .rotateSigner _ _ _ _ | .pause _
  | .unpause _ | .setSettlementTtl _ _ | .updateThreshold _ _ | .setDailyWithdrawLimit _ _ _
  | .withdraw _ _ _ _ | .addTokenToAllowlist _ _ | .removeTokenFromAllowlist _ _ => True
  | .cancelSettlement caller id => ∀ x, s.settlement id = some x → caller ≠ x.proposer
  | _ => False

/-- The input changes the admin only by an acceptance, authorised by the address the stored admin
nominated last; and an admin who left office, and did not return, authorises no operation of the
admin alone. -/
structure HandsOver (h : History D) (w : State D) (i : Input D Call) : Prop where
  changes : ∀ a, w.storage.admin = some a → (step w i).storage.admin ≠ some a →
    ∃ e newAdmin v, accepted invoke (w, i) = some (e, .acceptAdmin newAdmin, v) ∧
      newAdmin ∈ e.auths ∧ lastNomination h = some (a, newAdmin)
  former : ∀ a h₁ t h₂, h = h₁ ++ t :: h₂ → LeavesOffice a t → ¬ Returned a h₂ →
    ∀ e c v, accepted invoke (w, i) = some (e, c, v) → AdminGated w.storage c →
      ¬ e.auths ⊆ {a}

/-- Once an admin is stored, an initialization names the same. -/
def KeepsAdmin (s : Storage) : Call → Prop
  | .initializeContract _ _ admin => ∀ a, s.admin = some a → admin = a
  | _ => True

/-- What a run keeps up that is initialized with the stored admin only. -/
structure AdminInv (h : History D) (w : State D) : Prop where
  /-- a nominee is the last one nominated, by the stored admin -/
  nominee : ∀ n, w.storage.pendingAdmin = some n →
    ∃ a, w.storage.admin = some a ∧ lastNomination h = some (a, n)
  /-- there is an admin once there was one -/
  seated : ∀ t ∈ h, t.1.storage.admin ≠ none → w.storage.admin ≠ none
  /-- an admin who left office and is stored again returned -/
  back : ∀ a h₁ t h₂, h = h₁ ++ t :: h₂ → LeavesOffice a t →
    w.storage.admin = some a → Returned a h₂
  /-- an admin who left office and is the nominee was nominated after leaving -/
  renominated : ∀ a h₁ t h₂, h = h₁ ++ t :: h₂ → LeavesOffice a t →
    w.storage.pendingAdmin = some a → ∃ t₁ ∈ h₂, ∃ admin, nomination t₁ = some (admin, a)

/-- An accepted operation of the admin is authorised by the stored admin. -/
theorem Effect.admin_mem_auths {w' : State D} {c : Call} {v : Val} (heff : Effect e w c w' v)
    (hg : AdminGated w.storage c) : ∃ a ∈ e.auths, w.storage.admin = some a := by
  cases heff with
  | config _ hadmin _ _ => exact hadmin
  | transferAdmin hauth hadmin _ _ => exact ⟨_, hauth, hadmin⟩
  | setSigner hauth hadmin _ _ => exact ⟨_, hauth, hadmin⟩
  | rotateSigner hauth hadmin _ _ _ _ => exact ⟨_, hauth, hadmin⟩
  | updateThreshold hauth hadmin _ _ _ _ _ => exact ⟨_, hauth, hadmin⟩
  | withdrawn hauth hadmin _ _ => exact ⟨_, hauth, hadmin⟩
  | edited hx hedit _ _ =>
    cases hedit with
    | cancel hauth _ hadmin hcaller =>
      obtain rfl := hcaller.resolve_left (hg _ hx)
      exact ⟨_, hauth, hadmin⟩
    | _ => exact absurd hg id
  | _ => exact absurd hg id

/-- An acceptance seats the nominee and clears the nomination. -/
theorem acceptance_spec {n : Address} (hacc : acceptance (w, i) = some n) :
    (step w i).storage.admin = some n ∧ (step w i).storage.pendingAdmin = none := by
  cases turn w i with
  | accepted _ _ _ ha hp _ hacc' =>
    obtain rfl := Option.some.inj (hacc.symm.trans hacc')
    exact ⟨ha, hp⟩
  | kept _ _ _ hacc' => simp [hacc'] at hacc
  | nominated _ _ _ _ _ hacc' => simp [hacc'] at hacc
  | initialized _ _ _ _ hacc' => simp [hacc'] at hacc

/-- Once an admin is stored, there is one after every input. -/
theorem seated_step (hw : w.storage.admin ≠ none) : (step w i).storage.admin ≠ none := by
  cases turn w i with
  | kept ha _ _ _ => rwa [ha]
  | nominated _ _ ha _ _ _ => simp [ha]
  | accepted _ _ _ ha _ _ _ => simp [ha]
  | initialized _ ha _ _ _ => simp [ha]

/-- The admin after an input that is no initialization with another admin: the one before, or a
nominee who accepts. -/
theorem admin_step {a : Address}
    (hC : IfAccepted invoke (fun _ c _ => KeepsAdmin w.storage c) (w, i))
    (hw : w.storage.admin ≠ none) (ha' : (step w i).storage.admin = some a) :
    w.storage.admin = some a ∨
      w.storage.pendingAdmin = some a ∧ nomination (w, i) = none ∧ acceptance (w, i) = some a := by
  cases turn w i with
  | kept ha _ _ _ => exact Or.inl (ha ▸ ha')
  | nominated _ hadmin ha _ _ _ => exact Or.inl (by rw [hadmin, ← ha, ha'])
  | accepted _ _ hpending ha _ hn hacc =>
    obtain rfl := Option.some.inj (ha.symm.trans ha')
    exact Or.inr ⟨hpending, hn, hacc⟩
  | initialized hi ha _ _ _ =>
    obtain ⟨b, hb⟩ := Option.ne_none_iff_exists'.mp hw
    obtain rfl := Option.some.inj (ha.symm.trans ha')
    obtain rfl : _ = b := (ifAccepted_iff hi).mp hC b hb
    exact Or.inl hb

section Snoc

variable (hI : AdminInv h w) (hC : IfAccepted invoke (fun _ c _ => KeepsAdmin w.storage c) (w, i))

include hI

include hC in
/-- A nominee is still the last one nominated, by the stored admin. -/
theorem AdminInv.nominee_snoc {n : Address} (hn : (step w i).storage.pendingAdmin = some n) :
    ∃ a, (step w i).storage.admin = some a ∧ lastNomination (h ++ [(w, i)]) = some (a, n) := by
  rw [lastNomination_snoc]
  cases turn w i with
  | kept ha hp hnom _ => simpa [ha, hnom] using hI.nominee n (hp ▸ hn)
  | nominated _ _ ha hp hnom _ =>
    obtain rfl := Option.some.inj (hp.symm.trans hn)
    exact ⟨_, ha, by simp [hnom]⟩
  | accepted _ _ _ _ hp _ _ => simp [hp] at hn
  | initialized hi ha hp hnom _ =>
    -- the admin stored again is the one who nominated
    obtain ⟨a, hadmin, hlast⟩ := hI.nominee n (hp ▸ hn)
    have hsame := (ifAccepted_iff hi).mp hC a hadmin
    exact ⟨a, by rw [ha, hsame], by simpa [hnom] using hlast⟩

/-- There still is an admin once there was one. -/
theorem AdminInv.seated_snoc {t : State D × Input D Call} (ht : t ∈ h ++ [(w, i)])
    (hne : t.1.storage.admin ≠ none) : (step w i).storage.admin ≠ none := by
  apply seated_step
  rcases List.mem_append.mp ht with ht | ht
  · exact hI.seated t ht hne
  · obtain rfl := List.mem_singleton.mp ht
    exact hne

variable {a : Address} {h₁ h₂ : History D} {t : State D × Input D Call}

include hC in
/-- An admin who left office and is stored again still has returned. -/
theorem AdminInv.back_snoc (he : h ++ [(w, i)] = h₁ ++ t :: h₂) (hl : LeavesOffice a t)
    (ha' : (step w i).storage.admin = some a) : Returned a h₂ := by
  have hadmin := hl.1
  rcases snoc_eq_split he with ⟨-, rfl, -⟩ | ⟨h₃, rfl, rfl⟩
  · -- the admin leaves in this very input
    obtain ⟨-, n, hacc, hne⟩ := hl
    have hn := (acceptance_spec hacc).1
    exact absurd (Option.some.inj (hn.symm.trans ha')) hne
  · -- the admin left before: either still in office again, or accepting a later nomination
    have hseated : w.storage.admin ≠ none := hI.seated t (by simp) (by simp [hadmin])
    rcases admin_step hC hseated ha' with ha | ⟨hp, -, hacc⟩
    · exact (hI.back a h₁ t h₃ rfl hl ha).snoc _
    · obtain ⟨t₁, ht₁, admin, hnom⟩ := hI.renominated a h₁ t h₃ rfl hl hp
      have hsub : [t₁, (w, i)].Sublist (h₃ ++ [(w, i)]) :=
        (List.singleton_sublist.mpr ht₁).append (List.Sublist.refl [(w, i)])
      exact ⟨t₁, (w, i), admin, hsub, hnom, hacc⟩

/-- An admin who left office and is the nominee was still nominated after leaving. -/
theorem AdminInv.renominated_snoc (he : h ++ [(w, i)] = h₁ ++ t :: h₂) (hl : LeavesOffice a t)
    (hp' : (step w i).storage.pendingAdmin = some a) :
    ∃ t₁ ∈ h₂, ∃ admin, nomination t₁ = some (admin, a) := by
  rcases snoc_eq_split he with ⟨-, rfl, -⟩ | ⟨h₃, rfl, rfl⟩
  · -- leaving clears the nomination
    obtain ⟨-, n, hacc, -⟩ := hl
    simp [(acceptance_spec hacc).2] at hp'
  · have hold : w.storage.pendingAdmin = some a →
        ∃ t₁ ∈ h₃ ++ [(w, i)], ∃ admin, nomination t₁ = some (admin, a) := by
      intro hp
      obtain ⟨t₁, ht₁, hnom⟩ := hI.renominated a h₁ t h₃ rfl hl hp
      exact ⟨t₁, List.mem_append_left _ ht₁, hnom⟩
    cases turn w i with
    | kept _ hp _ _ => exact hold (hp ▸ hp')
    | nominated _ _ _ hp hnom _ =>
      obtain rfl := Option.some.inj (hp.symm.trans hp')
      exact ⟨(w, i), by simp, _, hnom⟩
    | accepted _ _ _ _ hp _ _ => simp [hp] at hp'
    | initialized _ _ hp _ _ => exact hold (hp ▸ hp')

include hC in
theorem AdminInv.snoc : AdminInv (h ++ [(w, i)]) (step w i) where
  nominee _ hn := hI.nominee_snoc hC hn
  seated _ ht hne := hI.seated_snoc ht hne
  back _ _ _ _ he hl ha' := hI.back_snoc hC he hl ha'
  renominated _ _ _ _ he hl hp' := hI.renominated_snoc he hl hp'

include hC in
/-- An input that keeps the admin hands over. -/
theorem AdminInv.handsOver : HandsOver h w i := by
  constructor
  · intro a ha hne
    cases turn w i with
    | kept ha' _ _ _ => exact absurd (ha'.trans ha) hne
    | nominated _ hadmin ha' _ _ _ => exact absurd (ha'.trans (hadmin.symm.trans ha)) hne
    | accepted hi hauth hpending _ _ _ _ =>
      obtain ⟨b, hb, hlast⟩ := hI.nominee _ hpending
      obtain rfl := Option.some.inj (hb.symm.trans ha)
      exact ⟨_, _, _, hi, hauth, hlast⟩
    | initialized hi ha' _ _ _ =>
      rw [(ifAccepted_iff hi).mp hC a ha] at ha'
      exact absurd ha' hne
  · -- a former admin alone cannot be the stored admin, who authorised the operation
    intro a h₁ t h₂ he hl hr e c v hi hg hsub
    have heff := effect_of_ok (invoke_of_accepted hi).2
    obtain ⟨b, hb, hadmin⟩ := heff.admin_mem_auths hg
    obtain rfl : b = a := by simpa using hsub hb
    exact hr (hI.back b h₁ t h₂ he hl hadmin)

end Snoc

/-- An input that hands over keeps the admin. -/
theorem HandsOver.keepsAdmin (hH : HandsOver h w i) :
    IfAccepted invoke (fun _ c _ => KeepsAdmin w.storage c) (w, i) := by
  intro e c v hi
  cases c with
  | initializeContract signers threshold admin =>
    -- an initialization with another admin changes the admin, and is no acceptance
    intro a ha
    by_contra hne
    have hadmin : (step w i).storage.admin = some admin := by
      cases (effect_of_ok (invoke_of_accepted hi).2) with
      | initialized _ _ hw _ => rw [hw]
      | config hc _ _ _ => exact absurd hc Bool.false_ne_true
      | edited _ hedit _ _ => exact nomatch hedit
    obtain ⟨e', n, v', hi', -, -⟩ := hH.changes a ha (by simpa [hadmin] using hne)
    simp [hi] at hi'
  | _ => trivial

/-- **Hand-over**: from a fresh deployment, the admin changes by acceptance of the last nomination
only, and former admins have no authority, throughout exactly the runs in which no accepted
initialization names another admin than the stored one. -/
theorem handsOver_iff (l : D.Ledger) (wasm : WasmHash) (is : List (Input D Call)) :
    Each step HandsOver (fresh l wasm) is ↔
      Each step (fun _ w i => IfAccepted invoke (fun _ c _ => KeepsAdmin w.storage c) (w, i))
        (fresh l wasm) is := by
  refine each_iff_each (I := AdminInv) ?_ (fun h w i hI hC => hI.snoc hC)
    (fun h w i hI => ⟨HandsOver.keepsAdmin, hI.handsOver⟩) is
  exact ⟨by simp [fresh, Storage.empty], by simp, by simp, by simp⟩

/-- Anyone can initialize the contract again, with an admin of their choice. -/
def takeover : List (Input (isolated (.contract 0)) Call) :=
  [.call ⟨{.account 0}, 0, true⟩ (.initializeContract [(.account 1, 1)] 1 (.account 0)),
    .call ⟨{.account 5}, 1, true⟩ (.initializeContract [] 0 (.account 5))]

theorem takeover_not_handsOver : ¬ Each step HandsOver (fresh () 0) takeover := by
  intro h
  obtain ⟨e, n, v, hi, -⟩ :=
    (h [_] _ List.prefix_rfl).changes (.account 0) rfl (by decide)
  exact nomatch (invoke_of_accepted hi).1

end Treasury
