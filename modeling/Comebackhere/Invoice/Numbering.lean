import Comebackhere.Invoice.Effect
import Comebackhere.Invoice.Views

/-!
# The register of invoices

A new invoice takes the next number of a counter, uses up a nonce of its merchant and is entered in
the index of its customer. The numbers are dense as long as `initialize`, which sets the counter to
0, comes before the first invoice.

## Main definitions

* `RegisterEffect`: what an accepted entry point does to the invoices, the counter, the nonces,
  the indexes and the grace window
* `Dense`: invoices are stored under the numbers from 1 to the counter
* `Numbered`: the numbers are dense, a nonce is used once, a failed creation leaves no trace
* `FindsNoInvoice`: the invocation does not reset a counter in use

## Main results

* `registerEffect_of_ok`: every accepted entry point has one of these effects
* `numbered_iff`: the register is sound throughout exactly the runs that do not reset the counter
-/

namespace Invoicing

open Soroban Checked Machine

variable {D : Deployment} {e : Env} {s s' : Storage} {w w' : State D} {i : Input D Call}
  {h : History D} {c : Call} {v : Val}

/-- The entry points that write the counter. -/
def Call.writesCount : Call → Bool
  | .initializeContract _ | .createInvoice _ _ _ _ _ _ _ => true
  | _ => false

/-- The grace window stays, or the invoices do and the window is one that `set_grace_window`
admits. -/
def GraceKept (s s' : Storage) : Prop :=
  s'.graceWindow = s.graceWindow ∨
    s'.invoice = s.invoice ∧ ∃ g, s'.graceWindow = some g ∧ g ≤ maxGraceWindow

/-- What an accepted entry point does to the register, and to the grace window. -/
inductive RegisterEffect (s s' : Storage) : Call → Val → Prop
  | kept {c : Call} {v : Val} {ids : List UInt64} {status : InvoiceStatus}
      (hc : c.writesCount = false) (hb : s'.invoice = relabel s.invoice ids status)
      (hcount : s'.invoiceCount = s.invoiceCount) (hnonce : s'.nonce = s.nonce)
      (hlists : s'.customerInvoices = s.customerInvoices) (hgrace : GraceKept s s') :
      RegisterEffect s s' c v
  | initialized {admin : Address} {v : Val} (hb : s'.invoice = s.invoice)
      (hcount : s'.invoiceCount = some 0) (hnonce : s'.nonce = s.nonce)
      (hlists : s'.customerInvoices = s.customerInvoices) (hgrace : GraceKept s s') :
      RegisterEffect s s' (.initializeContract admin) v
  | created {merchant customer token : Address} {amount : ℤ} {expiresAt nonce count : UInt64}
      {reference : Option (List UInt8)} {x : Invoice} (hfree : s.nonce (merchant, nonce) = none)
      (hnumber : count.toNat = (getInvoiceCount s).toNat + 1)
      (hx : x.id = count ∧ x.merchant = merchant ∧ x.customer = customer)
      (hb : s'.invoice = Function.update s.invoice count (some x))
      (hcount : s'.invoiceCount = some count)
      (hnonce : s'.nonce = Function.update s.nonce (merchant, nonce) (some true))
      (hlists : s'.customerInvoices = Function.update s.customerInvoices customer
        (some ((s.customerInvoices customer).getD [] ++ [count])))
      (hgrace : GraceKept s s') :
      RegisterEffect s s' (.createInvoice merchant customer amount token expiresAt nonce reference)
        (.u64 count)

/-- **Every accepted entry point has one of these effects.** -/
theorem registerEffect_of_ok (h : invoke e w c = .ok (w', v)) :
    RegisterEffect w.storage w'.storage c v := by
  -- most entry points leave the invoices as they are, or write the status of some
  have hsame : ∀ {s s' : Storage} {c : Call} {v : Val}, c.writesCount = false →
      s'.invoice = s.invoice → s'.invoiceCount = s.invoiceCount → s'.nonce = s.nonce →
      s'.customerInvoices = s.customerInvoices → GraceKept s s' → RegisterEffect s s' c v := by
    intro s s' c v hc hb hcount hnonce hlists hgrace
    exact .kept hc (hb.trans (relabel_nil .pending).symm) hcount hnonce hlists hgrace
  have hone : ∀ {s : Storage} {c : Call} {v : Val} {id : UInt64} {x : Invoice}
      {status : InvoiceStatus}, c.writesCount = false → s.invoice id = some x →
      RegisterEffect s
        { s with invoice := Function.update s.invoice id (some { x with status }) } c v :=
    fun hc hx => .kept hc (update_eq_relabel hx) rfl rfl rfl (Or.inl rfl)
  cases c with
  | upgrade newWasmHash =>
    obtain ⟨⟨-, rfl⟩, -⟩ := by simpa only [invoke, unitResult_eq_ok, upgrade_eq_ok] using h
    exact hsame rfl rfl rfl rfl rfl (Or.inl rfl)
  | transferAdmin caller newAdmin =>
    obtain ⟨⟨-, -, -, rfl⟩, -⟩ := by
      simpa only [invoke, unitResult_eq_ok, transferAdmin_eq_ok] using h
    exact hsame rfl rfl rfl rfl rfl (Or.inl rfl)
  | acceptAdmin newAdmin =>
    obtain ⟨⟨-, -, -, rfl⟩, -⟩ := by
      simpa only [invoke, unitResult_eq_ok, acceptAdmin_eq_ok] using h
    exact hsame rfl rfl rfl rfl rfl (Or.inl rfl)
  | initializeContract admin =>
    obtain ⟨⟨-, rfl⟩, -⟩ := by
      simpa only [invoke, unitResult_eq_ok, initializeContract_eq_ok] using h
    exact .initialized rfl rfl rfl rfl (Or.inr ⟨rfl, 86400, rfl, by decide⟩)
  | setTreasury caller treasury =>
    obtain ⟨⟨-, -, rfl⟩, -⟩ := by
      simpa only [invoke, unitResult_eq_ok, setTreasury_eq_ok] using h
    exact hsame rfl rfl rfl rfl rfl (Or.inl rfl)
  | setCompliance caller compliance =>
    obtain ⟨⟨-, -, rfl⟩, -⟩ := by
      simpa only [invoke, unitResult_eq_ok, setCompliance_eq_ok] using h
    exact hsame rfl rfl rfl rfl rfl (Or.inl rfl)
  | pause caller =>
    obtain ⟨⟨-, rfl⟩, -⟩ := by simpa only [invoke, unitResult_eq_ok, pause_eq_ok] using h
    exact hsame rfl rfl rfl rfl rfl (Or.inl rfl)
  | unpause caller =>
    obtain ⟨⟨-, rfl⟩, -⟩ := by simpa only [invoke, unitResult_eq_ok, unpause_eq_ok] using h
    exact hsame rfl rfl rfl rfl rfl (Or.inl rfl)
  | setGraceWindow caller window =>
    obtain ⟨⟨-, -, hle, rfl⟩, -⟩ := by
      simpa only [invoke, unitResult_eq_ok, setGraceWindow_eq_ok] using h
    exact hsame rfl rfl rfl rfl rfl (Or.inr ⟨rfl, window, rfl, hle⟩)
  | createInvoice merchant customer amount token expiresAt nonce reference =>
    simp only [invoke, bind_eq_ok, pure_eq_ok, Prod.mk.injEq] at h
    obtain ⟨⟨w₁, count⟩, h, rfl, rfl⟩ := h
    obtain ⟨-, -, -, -, hfree, -, hcount, rfl⟩ := createInvoice_eq_ok.mp h
    have hnumber := (checkedAdd_eq_some.mp hcount).2
    exact .created hfree hnumber ⟨rfl, rfl, rfl⟩ rfl rfl rfl rfl (Or.inl rfl)
  | markPaids ids =>
    obtain ⟨⟨-, -, -, -, rfl⟩, -⟩ := by
      simpa only [invoke, unitResult_eq_ok, markPaids_eq_ok] using h
    rw [(foldl_setPaid ids w).1]
    exact .kept rfl rfl rfl rfl rfl (Or.inl rfl)
  | payInvoice payer id =>
    obtain ⟨⟨-, -, x, hx, -, -, l, -, rfl⟩, -⟩ := by
      simpa only [invoke, unitResult_eq_ok, payInvoice_eq_ok] using h
    exact hone rfl hx
  | cancelInvoiced id caller =>
    obtain ⟨⟨-, -, x, hx, -, ⟨-, rfl⟩ | ⟨-, rfl⟩⟩, -⟩ := by
      simpa only [invoke, unitResult_eq_ok, cancelInvoiced_eq_ok] using h
    · exact hone rfl hx
    · exact hone rfl hx
  | requestRefund id caller =>
    obtain ⟨⟨-, x, hx, -, -, rfl⟩, -⟩ := by
      simpa only [invoke, unitResult_eq_ok, requestRefund_eq_ok] using h
    exact hone rfl hx
  | releaseEscrow id caller =>
    obtain ⟨⟨-, x, hx, -, -, -, rfl⟩, -⟩ := by
      simpa only [invoke, unitResult_eq_ok, releaseEscrow_eq_ok] using h
    exact hone rfl hx
  | batchExpire ids =>
    obtain ⟨⟨-, -, -, rfl⟩, -⟩ := by
      simpa only [invoke, unitResult_eq_ok, batchExpire_eq_ok] using h
    rw [(foldl_expireDue ids w).1]
    exact .kept rfl rfl rfl rfl rfl (Or.inl rfl)
  | raiseDispute id settlementId claimant reason =>
    obtain ⟨⟨-, -, x, hx, -, treasury, l, -, -, rfl⟩, -⟩ := by
      simpa only [invoke, unitResult_eq_ok, raiseDispute_eq_ok] using h
    exact hsame rfl rfl rfl rfl rfl (Or.inl rfl)

theorem RegisterEffect.grace (heff : RegisterEffect s s' c v) : GraceKept s s' := by
  cases heff <;> assumption

/-- An input of a run is not accepted and leaves the storage, or has one of these effects. -/
theorem step_register (w : State D) (i : Input D Call) :
    (accepted invoke (w, i) = none ∧ (step w i).storage = w.storage) ∨
    ∃ e c v, accepted invoke (w, i) = some (e, c, v) ∧
      RegisterEffect w.storage (step w i).storage c v := by
  cases ha : accepted invoke (w, i) with
  | none => exact Or.inl ⟨rfl, storage_of_not_accepted ha⟩
  | some r =>
    obtain ⟨e, c, v⟩ := r
    exact Or.inr ⟨e, c, v, rfl, registerEffect_of_ok (invoke_of_accepted ha).2⟩

/-! ## Numbers -/

/-- An invoice is stored under exactly the numbers from 1 to the counter. -/
def Dense (s : Storage) : Prop := ∀ k, s.invoice k ≠ none ↔ 1 ≤ k ∧ k ≤ getInvoiceCount s

theorem dense_fresh (l : D.Ledger) (wasm : WasmHash) : Dense (fresh l wasm : State D).storage := by
  intro k
  refine iff_of_false (by simp [fresh, Storage.empty]) ?_
  -- no number is between 1 and 0
  rintro ⟨hpos, hle⟩
  rw [UInt64.le_iff_toNat_le] at hpos hle
  exact absurd (hpos.trans hle) (by simp [getInvoiceCount, fresh, Storage.empty])

/-- Where the counter is not at 0, the last invoice is stored. -/
theorem Dense.last (hI : Dense s) (hne : getInvoiceCount s ≠ 0) :
    ∃ x, s.invoice (getInvoiceCount s) = some x := by
  apply Option.ne_none_iff_exists'.mp
  apply (hI _).mpr
  refine ⟨?_, UInt64.le_refl _⟩
  rw [UInt64.le_iff_toNat_le, UInt64.toNat_one]
  exact Nat.one_le_iff_ne_zero.mpr fun hz => hne (UInt64.toNat_inj.mp hz)

section Created

variable {count : UInt64} {x : Invoice}

/-- The next number is free. -/
theorem Dense.free (hI : Dense s) (hnumber : count.toNat = (getInvoiceCount s).toNat + 1) :
    s.invoice count = none := by
  by_contra hne
  have hle := UInt64.le_iff_toNat_le.mp ((hI count).mp hne).2
  omega

/-- A new invoice under the next number keeps the numbers dense. -/
theorem Dense.of_created (hI : Dense s) (hnumber : count.toNat = (getInvoiceCount s).toNat + 1)
    (hb : s'.invoice = Function.update s.invoice count (some x))
    (hcount : s'.invoiceCount = some count) : Dense s' := by
  intro k
  have hk := hI k
  rw [UInt64.le_iff_toNat_le, UInt64.le_iff_toNat_le, UInt64.toNat_one] at hk
  rw [hb, getInvoiceCount, hcount, Option.getD_some, UInt64.le_iff_toNat_le,
    UInt64.le_iff_toNat_le, UInt64.toNat_one, hnumber]
  by_cases hkc : k = count
  · rw [hkc, Function.update_self]
    exact iff_of_true (by simp) (by omega)
  · have hne : k.toNat ≠ count.toNat := fun he => hkc (UInt64.toNat_inj.mp he)
    rw [Function.update_of_ne hkc, hk]
    omega

end Created

/-- A change of statuses keeps the numbers dense, under the same counter. -/
theorem Dense.of_same (hI : Dense s) (hb : ∀ k, s'.invoice k = none ↔ s.invoice k = none)
    (hcount : getInvoiceCount s' = getInvoiceCount s) : Dense s' := by
  intro k
  rw [hcount, ne_eq, hb]
  exact hI k

/-! ## Nonces -/

/-- The merchant and the nonce of an accepted `create_invoice`. -/
def createdNonce (t : State D × Input D Call) : Option (Address × UInt64) :=
  match accepted invoke t with
  | some (_, .createInvoice merchant _ _ _ _ nonce _, _) => some (merchant, nonce)
  | _ => none

/-- The nonces of the accepted `create_invoice` calls, in order. -/
def createdNonces (h : History D) : List (Address × UInt64) := h.filterMap createdNonce

/-- The numbers are dense, and every invoice carries its own. No merchant has used a nonce twice,
and no failed `create_invoice` has changed the world. -/
structure Numbered (h : History D) (w : State D) : Prop where
  stored : Dense w.storage
  number : ∀ k x, w.storage.invoice k = some x → x.id = k
  once : (createdNonces h).Nodup
  failed : ∀ t ∈ h, ∀ e merchant customer amount token expiresAt nonce reference,
    t.2 = .call e (.createInvoice merchant customer amount token expiresAt nonce reference) →
    accepted invoke t = none → step t.1 t.2 = t.1

/-- The contract is initialized while the counter is at 0. -/
def FindsNoInvoice (s : Storage) : Call → Prop
  | .initializeContract _ => getInvoiceCount s = 0
  | _ => True

/-- The register is sound, and the nonces used are stored. -/
structure NumberInv (h : History D) (w : State D) : Prop extends Numbered h w where
  used : ∀ p ∈ createdNonces h, w.storage.nonce p ≠ none

@[simp] theorem createdNonces_snoc (t : State D × Input D Call) :
    createdNonces (h ++ [t]) = createdNonces h ++ (createdNonce t).toList := by
  rw [createdNonces, List.filterMap_append, createdNonces]
  cases ht : createdNonce t <;> simp [ht]

theorem createdNonce_of_not_accepted (ha : accepted invoke (w, i) = none) :
    createdNonce (w, i) = none := by
  rw [createdNonce, ha]

theorem createdNonce_of_ne (ha : accepted invoke (w, i) = some (e, c, v))
    (hc : ∀ merchant customer amount token expiresAt nonce reference,
      c ≠ .createInvoice merchant customer amount token expiresAt nonce reference) :
    createdNonce (w, i) = none := by
  rw [createdNonce, ha]
  cases c <;> first | rfl | exact absurd rfl (hc _ _ _ _ _ _ _)

/-- A failed creation has changed nothing, in one more input as before. -/
theorem Numbered.failed_snoc (hI : Numbered h w) : ∀ t ∈ h ++ [(w, i)],
    ∀ e merchant customer amount token expiresAt nonce reference,
      t.2 = .call e (.createInvoice merchant customer amount token expiresAt nonce reference) →
      accepted invoke t = none → step t.1 t.2 = t.1 := by
  intro t ht e merchant customer amount token expiresAt nonce reference he hn
  rcases List.mem_append.mp ht with ht | ht
  · exact hI.failed t ht e merchant customer amount token expiresAt nonce reference he hn
  · obtain rfl := List.mem_singleton.mp ht
    obtain rfl : i = _ := he
    exact step_call_of_not_accepted hn

/-- An input that stores no new invoice keeps the invariant, unless it moves the counter. -/
theorem NumberInv.snoc_of_kept (hI : NumberInv h w) (hnew : createdNonce (w, i) = none)
    {ids : List UInt64} {status : InvoiceStatus}
    (hb : (step w i).storage.invoice = relabel w.storage.invoice ids status)
    (hcount : getInvoiceCount (step w i).storage = getInvoiceCount w.storage)
    (hnonce : (step w i).storage.nonce = w.storage.nonce) :
    NumberInv (h ++ [(w, i)]) (step w i) := by
  have hnonces : createdNonces (h ++ [(w, i)]) = createdNonces h := by
    rw [createdNonces_snoc, hnew, Option.toList_none, List.append_nil]
  have hstored : Dense (step w i).storage :=
    hI.stored.of_same (fun k => by rw [hb, relabel_eq_none_iff]) hcount
  refine ⟨⟨hstored, fun k x hx => ?_, hnonces ▸ hI.once, hI.failed_snoc⟩, ?_⟩
  · -- a change of the status keeps the number
    have hid := relabel_map (f := Invoice.id) (fun _ _ => rfl) w.storage.invoice ids status k
    rw [← hb, hx] at hid
    obtain ⟨y, hy, hyx⟩ := Option.map_eq_some_iff.mp hid.symm
    exact hyx ▸ hI.number k y hy
  · rw [hnonces, hnonce]
    exact hI.used

/-- A new invoice takes the next number. -/
theorem NumberInv.snoc_of_created (hI : NumberInv h w) {merchant : Address} {nonce count : UInt64}
    {x : Invoice} (hnew : createdNonce (w, i) = some (merchant, nonce))
    (hfree : w.storage.nonce (merchant, nonce) = none)
    (hnumber : count.toNat = (getInvoiceCount w.storage).toNat + 1) (hx : x.id = count)
    (hb : (step w i).storage.invoice = Function.update w.storage.invoice count (some x))
    (hcount : (step w i).storage.invoiceCount = some count)
    (hnonce : (step w i).storage.nonce =
      Function.update w.storage.nonce (merchant, nonce) (some true)) :
    NumberInv (h ++ [(w, i)]) (step w i) := by
  have hnonces : createdNonces (h ++ [(w, i)]) = createdNonces h ++ [(merchant, nonce)] := by
    rw [createdNonces_snoc, hnew, Option.toList_some]
  have hunused : (merchant, nonce) ∉ createdNonces h := fun hm => hI.used _ hm hfree
  have hstored := hI.stored.of_created hnumber hb hcount
  refine ⟨⟨hstored, fun k y hy => ?_, ?_, hI.failed_snoc⟩, ?_⟩
  · by_cases hkc : k = count
    · obtain rfl : x = y := by simpa [hb, hkc] using hy
      rw [hx, hkc]
    · exact hI.number k y (by simpa [hb, Function.update_of_ne hkc] using hy)
  · rw [hnonces]
    refine List.nodup_append.mpr ⟨hI.once, List.nodup_singleton _, ?_⟩
    intro p hp p' hp' he
    obtain rfl := List.mem_singleton.mp hp'
    exact hunused (he ▸ hp)
  · intro p hp
    rw [hnonce]
    by_cases he : p = (merchant, nonce)
    · simp [he]
    · rw [Function.update_of_ne he]
      rw [hnonces] at hp
      exact hI.used p ((List.mem_append.mp hp).resolve_right (by simpa using he))

/-- An accepted invocation that does not reset the counter keeps the invariant. -/
theorem NumberInv.snoc (hI : NumberInv h w) (ha : accepted invoke (w, i) = some (e, c, v))
    (heff : RegisterEffect w.storage (step w i).storage c v)
    (hC : FindsNoInvoice w.storage c) : NumberInv (h ++ [(w, i)]) (step w i) := by
  cases heff with
  | kept hc hb hcount hnonce _ _ =>
    apply hI.snoc_of_kept (createdNonce_of_ne ha _) hb (by rw [getInvoiceCount, hcount]; rfl) hnonce
    rintro merchant customer amount token expiresAt nonce reference rfl
    exact absurd hc (by simp [Call.writesCount])
  | initialized hb hcount hnonce _ _ =>
    have hzero : getInvoiceCount (step w i).storage = getInvoiceCount w.storage := by
      rw [getInvoiceCount, hcount, Option.getD_some]
      exact Eq.symm hC
    exact hI.snoc_of_kept (createdNonce_of_ne ha (by simp)) (hb.trans (relabel_nil .pending).symm)
      hzero hnonce
  | created hfree hnumber hx hb hcount hnonce _ _ =>
    exact hI.snoc_of_created (by rw [createdNonce, ha]) hfree hnumber hx.1 hb hcount hnonce

/-- An accepted invocation that leaves the register sound does not reset the counter. -/
theorem NumberInv.findsNoInvoice (hI : NumberInv h w)
    (heff : RegisterEffect w.storage (step w i).storage c v)
    (hP : Numbered (h ++ [(w, i)]) (step w i)) : FindsNoInvoice w.storage c := by
  cases heff with
  | kept hc _ _ _ _ _ =>
    cases c <;> trivial
  | initialized hb hcount _ _ _ =>
    -- the last invoice is stored still, and the counter is at 0
    by_contra hne
    obtain ⟨x, hx⟩ := hI.stored.last hne
    have hzero : getInvoiceCount (step w i).storage = 0 := by
      rw [getInvoiceCount, hcount]
      rfl
    have hle := ((hP.stored (getInvoiceCount w.storage)).mp (by simp [hb, hx])).2
    rw [hzero, UInt64.le_zero_iff] at hle
    exact hne hle
  | created => trivial

/-- **Holds**: from a fresh deployment, the register is sound throughout exactly the runs in which
an accepted `initialize` finds no invoice. -/
theorem numbered_iff (l : D.Ledger) (wasm : WasmHash) (is : List (Input D Call)) :
    Always step Numbered (fresh l wasm) is ↔
      Each step (fun _ w i => IfAccepted invoke (fun _ c _ => FindsNoInvoice w.storage c) (w, i))
        (fresh l wasm) is := by
  refine always_iff_each (I := NumberInv) ?_ (fun h w hI => hI.toNumbered) ?_ ?_ is
  · refine ⟨⟨dense_fresh l wasm, ?_, by simp [createdNonces], by simp⟩, by simp [createdNonces]⟩
    simp [fresh, Storage.empty]
  · intro h w i hI hC
    rcases step_register w i with ⟨hn, hs⟩ | ⟨e, c, v, ha, heff⟩
    · have hb := (congrArg Storage.invoice hs).trans (relabel_nil .pending).symm
      exact hI.snoc_of_kept (createdNonce_of_not_accepted hn) hb (by rw [hs]) (by rw [hs])
    · exact hI.snoc ha heff ((ifAccepted_iff ha).mp hC)
  · intro h w i hI hP
    rcases step_register w i with ⟨hn, -⟩ | ⟨e, c, v, ha, heff⟩
    · exact ifAccepted_of_none hn
    · exact (ifAccepted_iff ha).mpr (hI.findsNoInvoice heff hP)

/-- Account 1 creates an invoice before account 0 initializes the contract. -/
def createdEarly : List (Input (isolated (.contract 0)) Call) :=
  [.call ⟨{.account 1}, 1, true⟩
      (.createInvoice (.account 1) (.account 2) 10000000 (.contract 1) 100 1 none),
    .call ⟨{.account 0}, 2, true⟩ (.initializeContract (.account 0))]

/-- Invoice 1 is stored then, above the counter. -/
theorem createdEarly_not_numbered : ¬ Always step Numbered (fresh () 0) createdEarly := by
  intro h
  have hstored := (h.at_end.stored 1).mp (by decide)
  exact absurd hstored.2 (by decide)

end Invoicing
