import Comebackhere.Treasury.Ids
import Comebackhere.Treasury.Settings
import Comebackhere.Treasury.Views

/-!
# The listing of pending settlements

A view lists the pending settlements by pages: it goes through the ids below the counter and keeps
those of the settlements that are pending and have not expired. It sees every one of them as long
as the counter is above their ids, and counts them as long as they are less than 2³².

## Main definitions

* `PagesPending`: every page is the page of the ascending list of all open settlements
* `CountsPending`: the ids of the pending settlements are below the counter, and countable
* `KeepsPending`: the invocation keeps that

## Main results

* `pagesPending_iff`: the pages are right exactly in the states that count the pending settlements
* `pagesPending_run_iff`: they are throughout exactly the runs that keep them countable
-/

namespace Treasury

open Soroban Checked Machine Listing

variable {D : Deployment} {e : Env} {s s' : Storage} {w w' : State D} {c : Call} {v : Val}
  {id : UInt64}

/-- A settlement is stored under the id, and is pending. -/
def IsPending (s : Storage) (id : UInt64) : Prop :=
  ∃ x, s.settlement id = some x ∧ x.status = .pending

/-- The ids of the pending settlements below the counter. -/
def pendingIds (s : Storage) : List UInt64 :=
  (idsUpTo ((nextId s).toNat - 1)).filter fun id =>
    (s.settlement id).any fun x => x.status = .pending

/-- At every time, the view returns the page of the ascending list of the settlements that are
pending and have not expired, and consecutive pages tile that list. A limit above 100 is
refused. -/
def PagesPending (w : State D) : Prop :=
  ∀ e : Env, ∃ ids, IsListing (fun id => ∃ x, w.storage.settlement id = some x ∧
      x.status = .pending ∧ e.timestamp < x.expiresAt) ids ∧
    (∀ offset limit, getPendingSettlements e w.storage offset limit =
      if limit.getD maxPageSize ≤ maxPageSize then
        .ok (page (offset.getD 0).toNat (limit.getD maxPageSize).toNat ids)
      else .error (.error .invalidPagination)) ∧
    ∀ (n : UInt32) (k : ℕ), n ≤ maxPageSize → (∀ j < k, j * n.toNat < 2 ^ 32) →
      ∃ pages, (List.range k).mapM (fun j => getPendingSettlements e w.storage
          (some (UInt32.ofNat (j * n.toNat))) (some n)) = .ok pages ∧
        pages.flatten = ids.take (k * n.toNat)

/-- The ids of the pending settlements are below the counter, and less than 2³² in number. -/
structure CountsPending (s : Storage) : Prop where
  below : ∀ id, IsPending s id → id ≠ 0 ∧ id < nextId s
  fits : (pendingIds s).length < 2 ^ 32

/-- What an entry point must check to keep the pending settlements countable. -/
def KeepsPending (s : Storage) : Call → Prop
  | .initializeContract _ _ _ => ∀ id x, s.settlement id = some x → x.status ≠ .pending
  | .proposeSettlement _ _ _ _ =>
    nextId s ≠ 0xFFFF_FFFF_FFFF_FFFF ∧ (pendingIds s).length + 1 < 2 ^ 32
  | .resolveDispute _ id inFavor =>
    inFavor = true → id < nextId s ∧ (pendingIds s).length + 1 < 2 ^ 32
  | _ => True

/-! ## The loop -/

theorem any_pending_iff :
    ((s.settlement id).any fun x => decide (x.status = .pending)) = true ↔ IsPending s id := by
  simp [IsPending, Option.any_eq_true]

theorem isOpen_iff : isOpen e s id = true ↔ ∃ x, s.settlement id = some x ∧
    x.status = .pending ∧ e.timestamp < x.expiresAt := by
  simp [isOpen, Option.any_eq_true]

theorem mem_idsBelow {n : UInt64} : id ∈ idsUpTo (n.toNat - 1) ↔ id ≠ 0 ∧ id < n := by
  have hlt := n.toNat_lt
  rw [mem_idsUpTo (by omega), UInt64.lt_iff_toNat_lt]
  constructor
  · rintro ⟨hne, hle⟩
    have hpos : id.toNat ≠ 0 := fun h => hne (UInt64.toNat_inj.mp h)
    exact ⟨hne, by omega⟩
  · rintro ⟨hne, hlt⟩
    exact ⟨hne, by omega⟩

theorem idsBelow_sorted (n : UInt64) : (idsUpTo (n.toNat - 1)).Pairwise (· < ·) := by
  have hlt := n.toNat_lt
  exact idsUpTo_sorted (by omega)

/-- The ids of the pending settlements are listed where they are below the counter. -/
theorem pendingIds_isListing (hbelow : ∀ id, IsPending s id → id ≠ 0 ∧ id < nextId s) :
    IsListing (IsPending s) (pendingIds s) := by
  apply (isListing_filter (idsBelow_sorted (nextId s)) _).congr
  intro id
  rw [mem_idsBelow, any_pending_iff]
  exact ⟨fun h => h.2, fun h => ⟨hbelow id h, h⟩⟩

/-- The ids of the open settlements below the counter. -/
theorem openIds_isListing (hI : CountsPending s) :
    IsListing (fun id => ∃ x, s.settlement id = some x ∧ x.status = .pending ∧
        e.timestamp < x.expiresAt)
      ((idsUpTo ((nextId s).toNat - 1)).filter (isOpen e s)) := by
  apply (isListing_filter (idsBelow_sorted (nextId s)) _).congr
  intro id
  rw [mem_idsBelow, isOpen_iff]
  refine ⟨fun h => h.2, fun h => ⟨hI.below id ?_, h⟩⟩
  obtain ⟨x, hx, hpending, -⟩ := h
  exact ⟨x, hx, hpending⟩

/-- Less settlements are open than pending. -/
theorem openIds_length_lt (hI : CountsPending s) :
    ((idsUpTo ((nextId s).toNat - 1)).filter (isOpen e s)).length < 2 ^ 32 := by
  have hsub := (openIds_isListing (e := e) hI).sublist (pendingIds_isListing hI.below)
    fun id ⟨x, hx, hpending, _⟩ => ⟨x, hx, hpending⟩
  exact hsub.length_le.trans_lt hI.fits

/-- What the view does, up to its loop. -/
theorem getPendingSettlements_eq (e : Env) (s : Storage) (offset limit : Option UInt32) :
    getPendingSettlements e s offset limit =
      if limit.getD maxPageSize ≤ maxPageSize then
        pageLoop e (isOpen e s) (offset.getD 0) (limit.getD maxPageSize)
          (idsUpTo ((nextId s).toNat - 1)) 0 0 []
      else .error (.error .invalidPagination) := by
  cases limit with
  | none => rfl
  | some limit =>
    by_cases h : limit ≤ maxPageSize
    · rw [getPendingSettlements, Option.getD_some, if_pos h, ensure, if_pos h]
      rfl
    · rw [getPendingSettlements, Option.getD_some, if_neg h, ensure, if_neg h]
      rfl

/-- Where the pending settlements are countable, the pages are right. -/
theorem CountsPending.pages (hI : CountsPending w.storage) : PagesPending w := by
  intro e
  have hpages : ∀ offset limit, getPendingSettlements e w.storage offset limit =
      if limit.getD maxPageSize ≤ maxPageSize then
        .ok (page (offset.getD 0).toNat (limit.getD maxPageSize).toNat
          ((idsUpTo ((nextId w.storage).toNat - 1)).filter (isOpen e w.storage)))
      else .error (.error .invalidPagination) := by
    intro offset limit
    rw [getPendingSettlements_eq, pageLoop_eq_page (Or.inl (openIds_length_lt hI))]
  refine ⟨_, openIds_isListing hI, hpages, fun n k hn hk => ?_⟩
  refine ⟨_, mapM_eq_ok (g := fun j => page (j * n.toNat) n.toNat _) fun j hj => ?_,
    flatten_pages n.toNat k _⟩
  rw [hpages, if_pos (by simpa using hn), Option.getD_some, Option.getD_some,
    UInt32.toNat_ofNat_of_lt' (hk j (List.mem_range.mp hj))]

/-- **The pages are right** exactly where the pending settlements are countable. -/
theorem pagesPending_iff (hexpires : ExpiresLater w.storage) :
    PagesPending w ↔ CountsPending w.storage := by
  refine ⟨fun hP => ?_, CountsPending.pages⟩
  -- at the time 0 nothing has expired, and all the pending settlements are listed
  obtain ⟨ids, hids, hpages, -⟩ := hP ⟨∅, 0, true⟩
  have hopen : ∀ id, (∃ x, w.storage.settlement id = some x ∧ x.status = .pending ∧
      0 < x.expiresAt) ↔ IsPending w.storage id := by
    intro id
    refine ⟨fun ⟨x, hx, hpending, _⟩ => ⟨x, hx, hpending⟩, fun ⟨x, hx, hpending⟩ => ?_⟩
    have hne := hexpires.expiry id x hx
    exact ⟨x, hx, hpending, UInt64.pos_iff_ne_zero.mpr hne⟩
  have hlisting := hids.congr hopen
  obtain ⟨hfilter, hlength⟩ := listing_of_pages (ε := TreasuryError) (e := ⟨∅, 0, true⟩)
    (p := isOpen ⟨∅, 0, true⟩ w.storage) rfl (idsBelow_sorted (nextId w.storage))
    (fun id _ hid => (hopen id).mp (isOpen_iff.mp hid)) hlisting (fun skip => by
      have hpage := hpages (some skip) (some 1)
      rw [getPendingSettlements_eq, if_pos (by simp [maxPageSize]), if_pos (by simp [maxPageSize])]
        at hpage
      exact hpage)
  have hbelow : ∀ id, IsPending w.storage id → id ≠ 0 ∧ id < nextId w.storage := by
    intro id hid
    rw [← hlisting.mem_iff, ← hfilter] at hid
    exact mem_idsBelow.mp (List.mem_of_mem_filter hid)
  exact ⟨hbelow, (pendingIds_isListing hbelow).unique hlisting ▸ hlength⟩

/-! ## Runs -/

/-- The pending settlements are countable, the counter is positive, and nothing is stored under the
id 0. -/
structure PendingInv (s : Storage) : Prop extends CountsPending s where
  zero : s.settlement 0 = none
  counter : nextId s ≠ 0

/-- What an accepted entry point does to the pending settlements. -/
inductive PendingEffect (s s' : Storage) : Call → Prop
  | fewer {c : Call} (hc : KeepsPending s c) (hp : ∀ id, IsPending s' id → IsPending s id)
      (hn : nextId s' = nextId s) : PendingEffect s s' c
  | initialized {signers : List (Address × UInt64)} {threshold : UInt64} {admin : Address}
      (hp : ∀ id, IsPending s' id ↔ IsPending s id) (hn : nextId s' = 1) :
      PendingEffect s s' (.initializeContract signers threshold admin)
  | proposed {signer token merchant : Address} {amount : UInt64}
      (hp : ∀ id, IsPending s' id ↔ IsPending s id ∨ id = nextId s)
      (hn : nextId s' = nextId s + 1) :
      PendingEffect s s' (.proposeSettlement signer token amount merchant)
  | reopened {signer : Address} {id : UInt64} (hnew : ¬ IsPending s id)
      (hp : ∀ id', IsPending s' id' ↔ IsPending s id' ∨ id' = id) (hn : nextId s' = nextId s) :
      PendingEffect s s' (.resolveDispute signer id true)

theorem isPending_congr (hb : s'.settlement = s.settlement) :
    IsPending s' id ↔ IsPending s id := by
  rw [IsPending, hb, IsPending]

/-- After a settlement is written, it is pending or not, and the others are as before. -/
theorem isPending_update {id' : UInt64} {x : Settlement}
    (hb : s'.settlement = Function.update s.settlement id (some x)) :
    IsPending s' id' ↔ (id' = id ∧ x.status = .pending) ∨ (id' ≠ id ∧ IsPending s id') := by
  by_cases hid : id' = id
  · simp [IsPending, hb, hid]
  · simp [IsPending, hb, hid]

/-- An edit that does not end pending leaves fewer pending settlements. -/
theorem isPending_of_update {id' : UInt64} {x : Settlement}
    (hb : s'.settlement = Function.update s.settlement id (some x))
    (hx : x.status = .pending → IsPending s id) (hid' : IsPending s' id') : IsPending s id' := by
  rcases (isPending_update hb).mp hid' with ⟨rfl, hpending⟩ | ⟨-, hid'⟩
  · exact hx hpending
  · exact hid'

/-- A settlement that becomes pending is one more. -/
theorem isPending_update_pending {id' : UInt64} {x : Settlement}
    (hb : s'.settlement = Function.update s.settlement id (some x)) (hx : x.status = .pending) :
    IsPending s' id' ↔ IsPending s id' ∨ id' = id := by
  rw [isPending_update hb]
  by_cases hid : id' = id
  · simp [hid, hx]
  · simp [hid]

theorem Edit.onPending {x x' : Settlement} (hedit : Edit e s c id x x')
    (hx : s.settlement id = some x)
    (hb : s'.settlement = Function.update s.settlement id (some x')) (hn : nextId s' = nextId s) :
    PendingEffect s s' c := by
  cases hedit with
  | cancel | execute | raise =>
    exact .fewer trivial (fun id' => isPending_of_update hb fun hp => nomatch hp) hn
  | approve hpending | updateMerchant hpending =>
    exact .fewer trivial (fun id' => isPending_of_update hb fun _ => ⟨x, hx, hpending⟩) hn
  | @resolve signer _ inFavor _ hhold =>
    cases inFavor with
    | false =>
      have hkeeps : KeepsPending s (.resolveDispute signer id false) := fun hf => nomatch hf
      exact .fewer hkeeps (fun id' => isPending_of_update hb fun hp => nomatch hp) hn
    | true =>
      apply PendingEffect.reopened _ (fun id' => isPending_update_pending hb rfl) hn
      rintro ⟨y, hy, hpending⟩
      obtain rfl := Option.some.inj (hx.symm.trans hy)
      exact absurd (hhold.symm.trans hpending) (by decide)

/-- **Every accepted entry point has one of these effects.** -/
theorem Effect.onPending (heff : Effect e w c w' v) :
    PendingEffect w.storage w'.storage c := by
  have hkept : KeepsPending w.storage c → w'.storage.settlement = w.storage.settlement →
      w'.storage.nextSettlementId = w.storage.nextSettlementId →
      PendingEffect w.storage w'.storage c := by
    intro hc hb hn
    exact .fewer hc (fun id => (isPending_congr hb).mp) (by rw [nextId, hn, nextId])
  cases heff with
  | config hc _ hcore _ =>
    refine hkept ?_ hcore.settlement hcore.nextSettlementId
    cases c <;> trivial
  | transferAdmin _ _ hw _ | acceptAdmin _ _ hw _ | setSigner _ _ hw _ | rotateSigner _ _ _ _ hw _
  | updateThreshold _ _ _ _ _ hw _ =>
    exact hkept trivial (by rw [hw]) (by rw [hw])
  | deposited _ hcore _ | withdrawn _ _ hcore _ =>
    exact hkept trivial hcore.settlement hcore.nextSettlementId
  | initialized _ _ hw _ =>
    exact .initialized (fun id => isPending_congr (by rw [hw])) (by rw [nextId, hw]; rfl)
  | proposed hid hnext hw _ =>
    obtain rfl := hid
    obtain ⟨-, rfl⟩ := plainAdd_eq_ok.mp hnext
    apply PendingEffect.proposed _ (by rw [nextId, hw]; rfl)
    exact fun id' => isPending_update_pending (by rw [hw]; rfl) rfl
  | edited hx hedit hw _ => exact hedit.onPending hx (by rw [hw]) (by rw [nextId, hw, nextId])

/-- Nothing is ever stored under the id 0, unless the counter is there. -/
theorem Effect.settlement_zero (heff : Effect e w c w' v) (hI : PendingInv w.storage) :
    w'.storage.settlement 0 = none := by
  cases heff.onIds with
  | kept _ _ hb _ => exact (hb 0).mpr hI.zero
  | initialized hb _ => exact hb ▸ hI.zero
  | proposed hb _ => rw [hb, Function.update_of_ne hI.counter.symm, hI.zero]

/-- With one more pending settlement, there is one more to count. -/
theorem length_pendingIds (hI : CountsPending s) (hnew : ¬ IsPending s id)
    (hp : ∀ id', IsPending s' id' ↔ IsPending s id' ∨ id' = id)
    (hbelow : ∀ id', IsPending s' id' → id' ≠ 0 ∧ id' < nextId s') :
    (pendingIds s').length = (pendingIds s).length + 1 :=
  (pendingIds_isListing hI.below).length_insert (pendingIds_isListing hbelow) hp hnew

/-- The settlement at the counter is not pending. -/
theorem CountsPending.nextId_not_pending (hI : CountsPending s) : ¬ IsPending s (nextId s) :=
  fun h => UInt64.lt_irrefl _ (hI.below _ h).2

/-- One more pending settlement below the counter keeps the invariant while they are countable. -/
theorem PendingInv.of_more (hI : PendingInv s) (hnew : ¬ IsPending s id)
    (hp : ∀ id', IsPending s' id' ↔ IsPending s id' ∨ id' = id) (hzero : s'.settlement 0 = none)
    (hle : nextId s ≤ nextId s') (hlt : id < nextId s')
    (hfits : (pendingIds s).length + 1 < 2 ^ 32) : PendingInv s' := by
  have hbelow : ∀ id', IsPending s' id' → id' ≠ 0 ∧ id' < nextId s' := by
    intro id' hid'
    constructor
    · rintro rfl
      obtain ⟨x, hx, -⟩ := hid'
      simp [hzero] at hx
    · rcases (hp id').mp hid' with hid' | rfl
      · exact UInt64.lt_of_lt_of_le (hI.below id' hid').2 hle
      · exact hlt
  refine ⟨⟨hbelow, ?_⟩, hzero, fun hz => ?_⟩
  · rwa [length_pendingIds hI.toCountsPending hnew hp hbelow]
  · rw [hz] at hlt
    exact absurd hlt UInt64.not_lt_zero

/-- **One accepted entry point** that keeps the pending settlements countable keeps the
invariant. -/
theorem PendingInv.step (hI : PendingInv w.storage) (heff : Effect e w c w' v)
    (hC : KeepsPending w.storage c) : PendingInv w'.storage := by
  have hzero := heff.settlement_zero hI
  cases heff.onPending with
  | fewer _ hp hn =>
    have hbelow : ∀ id, IsPending w'.storage id → id ≠ 0 ∧ id < nextId w'.storage :=
      fun id hid => hn ▸ hI.below id (hp id hid)
    have hsub := (pendingIds_isListing hbelow).sublist (pendingIds_isListing hI.below) hp
    exact ⟨⟨hbelow, hsub.length_le.trans_lt hI.fits⟩, hzero, hn ▸ hI.counter⟩
  | initialized hp hn =>
    -- nothing is pending, so nothing is above the counter
    have hnone : ∀ id, ¬ IsPending w'.storage id := by
      intro id hid
      obtain ⟨x, hx, hpending⟩ := (hp id).mp hid
      exact hC id x hx hpending
    have hbelow : ∀ id, IsPending w'.storage id → id ≠ 0 ∧ id < nextId w'.storage :=
      fun id hid => absurd hid (hnone id)
    have hsub := (pendingIds_isListing hbelow).sublist (pendingIds_isListing hI.below)
      fun id => (hp id).mp
    exact ⟨⟨hbelow, hsub.length_le.trans_lt hI.fits⟩, hzero, by simp [hn]⟩
  | proposed hp hn =>
    have hnext := toNat_add_one hC.1
    apply hI.of_more hI.nextId_not_pending hp hzero _ _ hC.2
    · rw [hn, UInt64.le_iff_toNat_le]
      omega
    · rw [hn, UInt64.lt_iff_toNat_lt]
      omega
  | reopened hnew hp hn =>
    obtain ⟨hlt, hfits⟩ := hC rfl
    exact hI.of_more hnew hp hzero (by simp [hn]) (hn ▸ hlt) hfits

/-- An accepted entry point that leaves the pending settlements countable keeps them so. -/
theorem PendingInv.keeps (hI : PendingInv w.storage) (heff : Effect e w c w' v)
    (hP : CountsPending w'.storage) : KeepsPending w.storage c := by
  have hzero := heff.settlement_zero hI
  cases heff.onPending with
  | fewer hc _ _ => exact hc
  | initialized hp hn =>
    -- the id of a pending settlement is at least 1, where the counter is afterwards
    intro id x hx hpending
    obtain ⟨hne, hlt⟩ := hP.below id ((hp id).mpr ⟨x, hx, hpending⟩)
    rw [hn, UInt64.lt_iff_toNat_lt, UInt64.toNat_one] at hlt
    exact hne (UInt64.toNat_inj.mp (Nat.lt_one_iff.mp hlt))
  | proposed hp hn =>
    refine ⟨fun hmax => ?_, ?_⟩
    · -- the counter has wrapped around to 0, below the new id
      have hlt := (hP.below _ ((hp _).mpr (Or.inr rfl))).2
      rw [hn, hmax] at hlt
      exact absurd hlt (by decide)
    · rw [← length_pendingIds hI.toCountsPending hI.nextId_not_pending hp hP.below]
      exact hP.fits
  | reopened hnew hp hn =>
    refine fun _ => ⟨hn ▸ (hP.below _ ((hp _).mpr (Or.inr rfl))).2, ?_⟩
    rw [← length_pendingIds hI.toCountsPending hnew hp hP.below]
    exact hP.fits

/-- **Holds**: from a fresh deployment, the listing of pending settlements is right throughout
exactly the runs whose accepted invocations keep the pending settlements countable. -/
theorem pagesPending_run_iff (l : D.Ledger) (wasm : WasmHash) (is : List (Input D Call)) :
    Always step (fun _ => PagesPending) (fresh l wasm) is ↔
      Each step (fun _ w i => IfAccepted invoke (fun _ c _ => KeepsPending w.storage c) (w, i))
        (fresh l wasm) is := by
  apply always_iff_accepted (I := fun s => PendingInv s ∧ ExpiresLater s)
  · have hnone : ∀ id, ¬ IsPending (fresh l wasm : State D).storage id :=
      fun id ⟨x, hx, _⟩ => by simp [fresh, Storage.empty] at hx
    refine ⟨⟨⟨fun id hid => absurd hid (hnone id), ?_⟩, rfl, ?_⟩, expiresLater_fresh l wasm⟩
    · simp [pendingIds, nextId, fresh, Storage.empty, idsUpTo]
    · simp [nextId, fresh, Storage.empty]
  · exact fun _ hI => hI.1.toCountsPending.pages
  · intro e w c w' v h hI hC
    exact ⟨hI.1.step (effect_of_ok h) hC, expiresLater_of_ok h hI.2⟩
  · intro e w c w' v h hI hP
    have hcounts := (pagesPending_iff (expiresLater_of_ok h hI.2)).mp hP
    exact hI.1.keeps (effect_of_ok h) hcounts

/-- A settlement is proposed, and the contract is initialized once more. -/
def hiddenPending : List (Input (isolated (.contract 0)) Call) :=
  [.call ⟨{.account 0}, 0, true⟩ (.initializeContract [(.account 1, 1)] 1 (.account 0)),
    .call ⟨{.account 1}, 1, true⟩
      (.proposeSettlement (.account 1) (.contract 1) 500 (.account 3)),
    .call ⟨{.account 0}, 2, true⟩ (.initializeContract [(.account 1, 1)] 1 (.account 0))]

/-- The listing is empty then, and the settlement is still pending. -/
theorem hiddenPending_not_listed :
    ¬ Always step (fun _ => PagesPending) (fresh () 0) hiddenPending := by
  intro h
  obtain ⟨ids, hids, hpages, -⟩ := h.at_end ⟨∅, 3, true⟩
  have hx : (run step (fresh () 0) hiddenPending).storage.settlement 1 =
      some ⟨.contract 1, 500, .account 3, .pending, 0, .account 1, 2592001⟩ := by decide
  -- the counter is back at 1, and the loop goes over no id
  have hnext : nextId (run step (fresh () 0) hiddenPending).storage = 1 := by decide
  have hempty : getPendingSettlements ⟨∅, 3, true⟩
      (run step (fresh () 0) hiddenPending).storage none none = .ok [] := by
    rw [getPendingSettlements_eq, hnext]
    rfl
  have hpage := hpages none none
  rw [hempty, if_pos (by simp)] at hpage
  have hnil := (Except.ok.inj hpage).symm
  exact hids.not_of_page_eq_nil (by decide) hnil ⟨_, hx, rfl, by decide⟩

end Treasury
