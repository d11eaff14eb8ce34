import Comebackhere.Invoice.Numbering

/-!
# The way to the release of an invoice

A paid invoice is released in two calls: its refund is requested, and its escrow is released once
the grace window has passed. `release_escrow` reads the window that `initialize` stores and traps
without it, where the other readers of the window fall back to a default.

## Main definitions

* `Released`: an invoice is stored and released
* `NotStuck`: the merchant can release every paid invoice in at most two calls
* `PaysWithGrace`: an invoice becomes paid only after the grace window is stored
* `stepsLeft`: how many calls the release is away at least

## Main results

* `notStuck_of_grace`: with a grace window, no invoice is stuck
* `notStuck_iff`: none is throughout exactly the runs that pay invoices with a grace window
-/

namespace Invoicing

open Soroban Checked Machine

variable {D : Deployment} {e : Env} {w w' : State D} {i : Input D Call} {c : Call} {v : Val}
  {id : UInt64} {x : Invoice}

/-- The invoice is stored, and released. -/
def Released (s : Storage) (id : UInt64) : Prop :=
  (s.invoice id).map Invoice.status = some .released

/-- While the contract is not paused, an invoice that is paid, or whose refund is requested, can be
released by at most two calls that its merchant authorises, at every time from the creation of the
invoice plus the largest grace window on. -/
def NotStuck (w : State D) : Prop :=
  isPaused w.storage = false → ∀ id x, w.storage.invoice id = some x →
    (x.status = .paid ∨ x.status = .refundRequested) →
    ∀ (now : UInt64) (checks : Bool), x.createdAt.toNat + maxGraceWindow.toNat ≤ now.toNat →
      ∃ calls : List Call, calls.length ≤ 2 ∧
        Released (run step w (calls.map (Input.call ⟨{x.merchant}, now, checks⟩))).storage id

/-- Unless the largest grace window ends behind the last timestamp, one is stored. -/
def HasGrace (s : Storage) (id : UInt64) : Prop :=
  ∀ x, s.invoice id = some x → x.createdAt.toNat + maxGraceWindow.toNat < 2 ^ 64 →
    s.graceWindow ≠ none

/-- What an entry point must check to leave no invoice stuck. -/
def PaysWithGrace (s : Storage) : Call → Prop
  | .markPaids ids => ∀ id ∈ ids, HasGrace s id
  | .payInvoice _ id => HasGrace s id
  | _ => True

/-! ## With a grace window -/

/-- The merchant requests the refund of a paid invoice. -/
theorem step_cancelInvoiced (hpaused : isPaused w.storage = false)
    (hauth : x.merchant ∈ e.auths) (hx : w.storage.invoice id = some x)
    (hpaid : x.status = .paid) : step w (.call e (.cancelInvoiced id x.merchant)) =
      invoiceRefundReq (storeInvoice w id { x with status := .refundRequested }) id := by
  apply step_of_ok rfl
  exact cancelInvoiced_eq_ok.mpr ⟨hpaused, hauth, x, hx, Or.inl rfl, Or.inr ⟨hpaid, rfl⟩⟩

/-- The merchant releases an invoice whose refund is requested. -/
theorem released_of_releaseEscrow {g : UInt64} (hpaused : isPaused w.storage = false)
    (hx : w.storage.invoice id = some x) (hrefund : x.status = .refundRequested)
    (hg : w.storage.graceWindow = some g) (hle : g ≤ maxGraceWindow)
    (hnow : x.createdAt.toNat + maxGraceWindow.toNat ≤ e.timestamp.toNat) :
    Released (step w (.call e (.releaseEscrow id x.merchant))).storage id := by
  have hle := UInt64.le_iff_toNat_le.mp hle
  have hlt := e.timestamp.toNat_lt
  have hsum : (x.createdAt + g).toNat = x.createdAt.toNat + g.toNat := by
    rw [UInt64.toNat_add]
    omega
  have hadd : checkedAdd x.createdAt g = some (x.createdAt + g) :=
    checkedAdd_eq_some.mpr ⟨by omega, hsum⟩
  have hdue : x.createdAt + g ≤ e.timestamp := by
    rw [UInt64.le_iff_toNat_le]
    omega
  have hok : releaseEscrow e w id x.merchant = .ok
      (escrowReleased (storeInvoice w id { x with status := .released }) id) :=
    releaseEscrow_eq_ok.mpr ⟨hpaused, x, hx, rfl, hrefund, ⟨g, _, hg, hadd, hdue⟩, rfl⟩
  rw [step_of_ok rfl hok]
  simp [Released, escrowReleased, publishId, storeInvoice]

/-- **With a grace window** that the contract admits, no invoice is stuck. -/
theorem notStuck_of_grace {g : UInt64} (hg : w.storage.graceWindow = some g)
    (hle : g ≤ maxGraceWindow) : NotStuck w := by
  intro hpaused id x hx hstatus now checks hnow
  rcases hstatus with hpaid | hrefund
  · refine ⟨[.cancelInvoiced id x.merchant, .releaseEscrow id x.merchant], le_rfl, ?_⟩
    rw [List.map_cons, List.map_cons, List.map_nil, run_cons, run_cons, run_nil,
      step_cancelInvoiced hpaused (Finset.mem_singleton_self _) hx hpaid]
    have hstored : (invoiceRefundReq (storeInvoice w id
        { x with status := .refundRequested }) id).storage.invoice id =
          some { x with status := .refundRequested } := Function.update_self _ _ _
    exact released_of_releaseEscrow (x := { x with status := .refundRequested }) hpaused hstored
      rfl hg hle hnow
  · refine ⟨[.releaseEscrow id x.merchant], Nat.le_succ 1, ?_⟩
    rw [List.map_cons, List.map_nil, run_cons, run_nil]
    exact released_of_releaseEscrow hpaused hx hrefund hg hle hnow

/-! ## Without a grace window -/

instance {s : Storage} : Decidable (Released s id) := inferInstanceAs (Decidable (_ = _))

/-- How many calls the release of an invoice is away at least: one after its refund is requested,
two before, and one more while there is no grace window. -/
def stepsLeft (id : UInt64) (s : Storage) : ℕ :=
  if Released s id then 0
  else (if (s.invoice id).map Invoice.status = some .refundRequested then 1 else 2) +
    if s.graceWindow = none then 1 else 0

/-- Only `release_escrow` releases an invoice: its refund was requested, and there is a grace
window. -/
theorem released_of_ok (h : invoke e w c = .ok (w', v)) (hr : Released w'.storage id)
    (hn : ¬ Released w.storage id) : stepsLeft id w.storage = 1 := by
  -- an input that keeps the invoice does not release it
  have hkept : w'.storage.invoice id ≠ w.storage.invoice id := by
    intro he
    rw [Released, he] at hr
    exact hn hr
  -- neither does one that gives another status to some invoices
  have hlabel : ∀ {ids : List UInt64} {status : InvoiceStatus},
      w'.storage.invoice = relabel w.storage.invoice ids status →
        id ∈ ids ∧ status = .released := by
    intro ids status hb
    by_cases hid : id ∈ ids
    · refine ⟨hid, ?_⟩
      rw [Released, hb, relabel, if_pos hid, Option.map_map] at hr
      obtain ⟨y, -, hy⟩ := Option.map_eq_some_iff.mp hr
      exact hy
    · exact absurd (by rw [hb, relabel, if_neg hid]) hkept
  cases effect_of_ok h with
  | config _ hb _ | disputed hb _ => exact absurd (by rw [hb]) hkept
  | @created _ _ _ _ _ _ count _ y _ _ hy hb _ =>
    by_cases hid : id = count
    · rw [Released, hb, hid, Function.update_self, hy] at hr
      exact absurd hr (by simp)
    · exact absurd (by rw [hb, Function.update_of_ne hid]) hkept
  | expired hb _ => exact absurd (hlabel hb).2 (by decide)
  | paid _ _ _ _ hb _ => exact absurd (hlabel hb).2 (by decide)
  | moved _ hedge hb _ =>
    obtain ⟨hid, rfl⟩ := hlabel hb
    obtain ⟨y, hy, hedge⟩ := hedge id hid
    cases hedge with
    | @release id' hrefund =>
      obtain rfl := List.mem_singleton.mp hid
      have hok := (unitResult_eq_ok.mp h).1
      obtain ⟨-, -, -, -, -, ⟨g, -, hg, -⟩, -⟩ := releaseEscrow_eq_ok.mp hok
      rw [stepsLeft, if_neg hn, hy, hg]
      simp [hrefund]

/-- **No input brings the release of an invoice nearer by more than one.** -/
theorem stepsLeft_step (w : State D) (i : Input D Call) :
    stepsLeft id w.storage ≤ stepsLeft id (step w i).storage + 1 := by
  rcases step_register w i with ⟨-, hs⟩ | ⟨e, c, v, ha, heff⟩
  · rw [hs]
    exact Nat.le_succ _
  by_cases hn : Released w.storage id
  · rw [stepsLeft, if_pos hn]
    exact Nat.zero_le _
  by_cases hr : Released (step w i).storage id
  · rw [released_of_ok (invoke_of_accepted ha).2 hr hn]
    exact Nat.le_add_left _ _
  rw [stepsLeft, stepsLeft, if_neg hn, if_neg hr]
  rcases heff.grace with hg | ⟨hb, -⟩
  · -- the window stays, and the refund counts as one
    rw [hg]
    split <;> split <;> split <;> omega
  · -- the invoices stay, and the window counts as one
    rw [hb]
    split <;> split <;> split <;> omega

/-- A paid invoice is stuck without a grace window. -/
theorem not_notStuck (hpaused : isPaused w.storage = false)
    (hx : w.storage.invoice id = some x) (hpaid : x.status = .paid)
    (hgrace : w.storage.graceWindow = none)
    (hfits : x.createdAt.toNat + maxGraceWindow.toNat < 2 ^ 64) : ¬ NotStuck w := by
  intro hfree
  obtain ⟨now, hnow⟩ : ∃ now : UInt64,
      now.toNat = x.createdAt.toNat + maxGraceWindow.toNat :=
    ⟨UInt64.ofNat _, UInt64.toNat_ofNat_of_lt' hfits⟩
  obtain ⟨calls, hlength, hreleased⟩ := hfree hpaused id x hx (Or.inl hpaid) now true hnow.ge
  have hstart : stepsLeft id w.storage = 3 := by simp [stepsLeft, Released, hx, hpaid, hgrace]
  have hrun := distance_le_run (d := fun w => stepsLeft id w.storage) stepsLeft_step w
    (calls.map (Input.call ⟨{x.merchant}, now, true⟩))
  rw [hstart, List.length_map, stepsLeft, if_pos hreleased] at hrun
  omega

/-! ## Runs -/

/-- A stored grace window is one that the contract admits. While none is stored, no invoice is
paid, unless the largest window ends behind the last timestamp. -/
structure GraceInv (s : Storage) : Prop where
  admitted : ∀ g, s.graceWindow = some g → g ≤ maxGraceWindow
  early : s.graceWindow = none → ∀ id x, s.invoice id = some x →
    (x.status = .paid ∨ x.status = .refundRequested) →
      2 ^ 64 ≤ x.createdAt.toNat + maxGraceWindow.toNat

theorem GraceInv.notStuck (hI : GraceInv w.storage) : NotStuck w := by
  cases hg : w.storage.graceWindow with
  | some g => exact notStuck_of_grace hg (hI.admitted g hg)
  | none =>
    intro _ id x hx hstatus now _ hnow
    have hearly := hI.early hg id x hx hstatus
    have hlt := now.toNat_lt
    omega

/-- An invoice that an entry point pays, or whose refund it requests, was created long ago, unless
there is a grace window. -/
theorem early_of_relabel {s s' : Storage} {ids : List UInt64} {status : InvoiceStatus}
    (hI : GraceInv s) (hg : s.graceWindow = none)
    (hb : s'.invoice = relabel s.invoice ids status)
    (hids : ∀ id ∈ ids, ∀ x, s.invoice id = some x →
      (status = .paid ∨ status = .refundRequested) →
        2 ^ 64 ≤ x.createdAt.toNat + maxGraceWindow.toNat)
    (id : UInt64) (x : Invoice) (hx : s'.invoice id = some x)
    (hstatus : x.status = .paid ∨ x.status = .refundRequested) :
    2 ^ 64 ≤ x.createdAt.toNat + maxGraceWindow.toNat := by
  by_cases hid : id ∈ ids
  · rw [hb, relabel, if_pos hid] at hx
    obtain ⟨y, hy, rfl⟩ := Option.map_eq_some_iff.mp hx
    exact hids id hid y hy hstatus
  · rw [hb, relabel, if_neg hid] at hx
    exact hI.early hg id x hx hstatus

theorem HasGrace.createdAt (h : HasGrace w.storage id) (hg : w.storage.graceWindow = none)
    (hx : w.storage.invoice id = some x) :
    2 ^ 64 ≤ x.createdAt.toNat + maxGraceWindow.toNat := by
  by_contra hlt
  exact h x hx (Nat.lt_of_not_le hlt) hg

/-- **One accepted entry point** that pays no invoice too early keeps the invariant. -/
theorem GraceInv.step (hI : GraceInv w.storage) (h : invoke e w c = .ok (w', v))
    (hC : PaysWithGrace w.storage c) : GraceInv w'.storage := by
  rcases (registerEffect_of_ok h).grace with hg | ⟨-, g, hg, hle⟩
  case inr =>
    -- there is a grace window now
    refine ⟨fun g' hg' => ?_, fun hnone => absurd hnone (by simp [hg])⟩
    obtain rfl := Option.some.inj (hg.symm.trans hg')
    exact hle
  refine ⟨hg ▸ hI.admitted, fun hnone => ?_⟩
  rw [hg] at hnone
  cases effect_of_ok h with
  | config _ hb _ | disputed hb _ => exact hb ▸ hI.early hnone
  | @created _ _ _ _ _ _ count _ y _ _ hy hb _ =>
    intro id x hx hstatus
    by_cases hid : id = count
    · obtain rfl : y = x := by simpa [hb, hid] using hx
      simp [hy] at hstatus
    · exact hI.early hnone id x (by simpa [hb, Function.update_of_ne hid] using hx) hstatus
  | expired hb _ => exact early_of_relabel hI hnone hb fun _ _ _ _ hstatus => by simp at hstatus
  | paid _ _ _ _ hb _ =>
    apply early_of_relabel hI hnone hb
    intro id hid x hx _
    obtain rfl := List.mem_singleton.mp hid
    exact HasGrace.createdAt hC hnone hx
  | moved _ hedge hb _ =>
    apply early_of_relabel hI hnone hb
    intro id hid x hx hstatus
    obtain ⟨y, hy, hedge⟩ := hedge id hid
    obtain rfl := Option.some.inj (hx.symm.trans hy)
    cases hedge with
    | markPaid _ _ => exact HasGrace.createdAt (hC id hid) hnone hx
    | cancel _ _ | release _ => simp at hstatus
    | cancelPaid hpaid _ | refund hpaid => exact hI.early hnone id x hx (Or.inl hpaid)

/-- A payment that leaves no invoice stuck finds a grace window. -/
theorem hasGrace_of_notStuck (hpaused : isPaused w'.storage = false)
    (hg : w'.storage.graceWindow = w.storage.graceWindow)
    (hb : w'.storage.invoice id = (w.storage.invoice id).map fun x => { x with status := .paid })
    (hP : NotStuck w') : HasGrace w.storage id := by
  intro x hx hfits hnone
  rw [hx] at hb
  exact not_notStuck hpaused hb rfl (hg.trans hnone) hfits hP

/-- An accepted entry point that leaves no invoice stuck pays none too early. -/
theorem paysWithGrace_of_notStuck (h : invoke e w c = .ok (w', v)) (hP : NotStuck w') :
    PaysWithGrace w.storage c := by
  cases c with
  | markPaids ids =>
    obtain ⟨⟨hpaused, -, -, -, rfl⟩, -⟩ := by
      simpa only [invoke, unitResult_eq_ok, markPaids_eq_ok] using h
    have hs := (foldl_setPaid ids w).1
    intro id hid
    refine hasGrace_of_notStuck ?_ ?_ ?_ hP
    · rw [hs]
      exact hpaused
    · rw [hs]
    · rw [hs]
      exact if_pos hid
  | payInvoice payer id =>
    obtain ⟨⟨hpaused, -, x, hx, -, -, l, -, rfl⟩, -⟩ := by
      simpa only [invoke, unitResult_eq_ok, payInvoice_eq_ok] using h
    refine hasGrace_of_notStuck ?_ ?_ ?_ hP
    · exact hpaused
    · rfl
    · rw [hx]
      exact Function.update_self _ _ _
  | _ => trivial

/-- **Holds**: from a fresh deployment, no invoice is stuck throughout exactly the runs in which
invoices are paid after the grace window is stored. -/
theorem notStuck_iff (l : D.Ledger) (wasm : WasmHash) (is : List (Input D Call)) :
    Always step (fun _ => NotStuck) (fresh l wasm) is ↔
      Each step (fun _ w i => IfAccepted invoke (fun _ c _ => PaysWithGrace w.storage c) (w, i))
        (fresh l wasm) is := by
  apply always_iff_accepted (I := GraceInv)
  · exact ⟨by simp [fresh, Storage.empty], by simp [fresh, Storage.empty]⟩
  · exact fun _ hI => hI.notStuck
  · exact fun h hI hC => hI.step h hC
  · exact fun h _ hP => paysWithGrace_of_notStuck h hP

/-- Account 1 creates an invoice, and it is marked as paid, before the contract is initialized. -/
def paidEarly : List (Input (isolated (.contract 0)) Call) :=
  [.call ⟨{.account 1}, 1, true⟩
      (.createInvoice (.account 1) (.account 2) 10000000 (.contract 1) 100 1 none),
    .call ⟨∅, 2, true⟩ (.markPaids [1])]

/-- The merchant cannot release it in two calls, however long it waits. -/
theorem paidEarly_stuck : ¬ Always step (fun _ => NotStuck) (fresh () 0) paidEarly := by
  intro h
  obtain ⟨x, hx, hpaid, hfits⟩ : ∃ x : Invoice,
      (run step (fresh () 0) paidEarly).storage.invoice 1 = some x ∧ x.status = .paid ∧
        x.createdAt.toNat + maxGraceWindow.toNat < 2 ^ 64 := ⟨_, rfl, rfl, by decide⟩
  exact not_notStuck rfl hx hpaid rfl hfits h.at_end

end Invoicing
