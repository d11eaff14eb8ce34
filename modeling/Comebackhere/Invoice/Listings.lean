import Comebackhere.Invoice.Numbering

/-!
# The listings of invoices

The invoices of a merchant are found by going through all numbers, those of a customer are read off
an index that grows with every new invoice. Both listings are paginated in the same way, and both
give the pages of the ascending list of the invoices.

## Main definitions

* `IsOf`: an invoice of an address is stored under an id
* `PagesInvoices`: the index is right, and so is every page of both listings
* `KeepsListings`: the invocation keeps that

## Main results

* `getInvoicesByCustomer_eq_page`, `getInvoicesByMerchant_eq_page`: what the listings return
* `pagesInvoices_iff`: the listings are right throughout exactly the runs that keep them so
-/

namespace Invoicing

open Soroban Checked Machine Listing

variable {D : Deployment} {e : Env} {s s' : Storage} {w w' : State D} {i : Input D Call}
  {h : History D} {c : Call} {v : Val} {party : Invoice → Address} {a : Address} {id : UInt64}

/-- An invoice is stored under the id, and the address is `party` of it. -/
def IsOf (party : Invoice → Address) (s : Storage) (a : Address) (id : UInt64) : Prop :=
  ∃ x, s.invoice id = some x ∧ party x = a

/-- The index of a customer is the ascending list of the customer's invoices, and both listings
return the pages of the ascending lists. -/
structure PagesInvoices (w : State D) : Prop where
  index : ∀ customer,
    IsListing (IsOf Invoice.customer w.storage customer)
      ((w.storage.customerInvoices customer).getD [])
  byCustomer : ∀ customer, ∃ ids, IsListing (IsOf Invoice.customer w.storage customer) ids ∧
    ∀ startAfter limit, getInvoicesByCustomer w.storage customer startAfter limit =
      .ok (page (startAfter.getD 0).toNat (min limit.toNat maxPageSize.toNat) ids)
  byMerchant : ∀ merchant, ∃ ids, IsListing (IsOf Invoice.merchant w.storage merchant) ids ∧
    ∀ e startAfter limit, getInvoicesByMerchant e w.storage merchant startAfter limit =
      .ok (page (startAfter.getD 0).toNat (min limit.toNat maxPageSize.toNat) ids)

/-- The ids that the listing of a merchant goes over and keeps. -/
def merchantIds (s : Storage) (merchant : Address) : List UInt64 :=
  (idsUpTo (getInvoiceCount s).toNat).filter (isOfMerchant s merchant)

/-- What an entry point must check to keep the listings right. -/
def KeepsListings (s : Storage) : Call → Prop
  | .initializeContract _ => getInvoiceCount s = 0
  | .createInvoice merchant customer _ _ _ _ _ =>
    (merchantIds s merchant).length + 1 < 2 ^ 32 ∧
      ((s.customerInvoices customer).getD []).length + 1 < 2 ^ 32
  | _ => True

/-! ## The pages -/

theorem pageCap_toNat (limit : UInt32) :
    (pageCap limit).toNat = min limit.toNat maxPageSize.toNat := by
  unfold pageCap
  split
  · next h =>
    rw [UInt32.lt_iff_toNat_lt] at h
    omega
  · next h =>
    rw [UInt32.lt_iff_toNat_lt] at h
    omega

/-- **The listing of a customer**: a page of the stored index. -/
theorem getInvoicesByCustomer_eq_page (startAfter : Option UInt32) (limit : UInt32)
    (hfits : ((s.customerInvoices a).getD []).length < 2 ^ 32) :
    getInvoicesByCustomer s a startAfter limit =
      .ok (page (startAfter.getD 0).toNat (min limit.toNat maxPageSize.toNat)
        ((s.customerInvoices a).getD [])) := by
  rw [← pageCap_toNat]
  unfold getInvoicesByCustomer
  generalize (s.customerInvoices a).getD [] = list at hfits ⊢
  generalize pageCap limit = cap
  generalize startAfter.getD 0 = skip
  have hlen : vecLen (ε := ContractError) list = .ok (UInt32.ofNat list.length) := if_pos hfits
  have hlength : (UInt32.ofNat list.length).toNat = list.length :=
    UInt32.toNat_ofNat_of_lt' hfits
  by_cases hempty : list = []
  · simp [hempty, page, pure, Except.pure]
  simp only [if_neg hempty, hlen]
  by_cases hskip : UInt32.ofNat list.length ≤ skip
  · -- the offset is behind the end
    have hle : list.length ≤ skip.toNat := hlength ▸ UInt32.le_iff_toNat_le.mp hskip
    simp [bind, Except.bind, hskip, page, List.drop_eq_nil_of_le hle, pure, Except.pure]
  · have hlt : skip.toNat < list.length := by
      rwa [UInt32.le_iff_toNat_le, hlength, not_le] at hskip
    have hsum := saturatingAdd_toNat skip cap
    have hpage : ∀ stop : UInt32, stop.toNat = min (skip.toNat + cap.toNat) list.length →
        ((List.range' skip.toNat (stop.toNat - skip.toNat)).filterMap fun i => list[i]?) =
          page skip.toNat cap.toNat list := by
      intro stop hstop
      rw [filterMap_getElem?]
      apply page_congr
      omega
    simp only [bind, Except.bind, if_neg hskip, pure, Except.pure]
    congr 1
    apply hpage
    split
    · next hend =>
      rw [UInt32.lt_iff_toNat_lt, hlength, hsum] at hend
      omega
    · next hend =>
      rw [UInt32.lt_iff_toNat_lt, hlength, hsum] at hend
      omega

/-- The host cannot give the length of a longer index. -/
theorem length_lt_of_customer_ok {ids : List UInt64} {startAfter : Option UInt32} {limit : UInt32}
    (hok : getInvoicesByCustomer s a startAfter limit = .ok ids) :
    ((s.customerInvoices a).getD []).length < 2 ^ 32 := by
  by_contra hlong
  have hne : (s.customerInvoices a).getD [] ≠ [] := by
    intro he
    simp [he] at hlong
  have htrap : vecLen (ε := ContractError) ((s.customerInvoices a).getD []) = .error .trap :=
    if_neg hlong
  simp [getInvoicesByCustomer, hne, htrap, bind, Except.bind] at hok

theorem isOfMerchant_iff : isOfMerchant s a id = true ↔ IsOf Invoice.merchant s a id := by
  simp [isOfMerchant, IsOf, Option.any_eq_true]

theorem idsUpTo_count_sorted (s : Storage) :
    (idsUpTo (getInvoiceCount s).toNat).Pairwise (· < ·) :=
  idsUpTo_sorted (getInvoiceCount s).toNat_lt

theorem mem_idsUpTo_count : id ∈ idsUpTo (getInvoiceCount s).toNat ↔
    1 ≤ id ∧ id ≤ getInvoiceCount s := by
  rw [mem_idsUpTo (getInvoiceCount s).toNat_lt, UInt64.le_iff_toNat_le, UInt64.le_iff_toNat_le,
    UInt64.toNat_one, ne_eq, ← UInt64.toNat_inj, UInt64.toNat_zero, Nat.one_le_iff_ne_zero]

/-- The listing of a merchant sees the invoices that are stored below the counter. -/
theorem merchantIds_isListing (hstored : Dense s) (merchant : Address) :
    IsListing (IsOf Invoice.merchant s merchant) (merchantIds s merchant) := by
  apply (isListing_filter (idsUpTo_count_sorted s) _).congr
  intro id
  rw [mem_idsUpTo_count, isOfMerchant_iff]
  refine ⟨fun h => h.2, fun h => ⟨(hstored id).mp ?_, h⟩⟩
  obtain ⟨x, hx, -⟩ := h
  simp [hx]

/-- **The listing of a merchant**: a page of the merchant's invoices. -/
theorem getInvoicesByMerchant_eq_page (e : Env) (startAfter : Option UInt32) (limit : UInt32)
    (hfits : (merchantIds s a).length < 2 ^ 32) :
    getInvoicesByMerchant e s a startAfter limit =
      .ok (page (startAfter.getD 0).toNat (min limit.toNat maxPageSize.toNat)
        (merchantIds s a)) := by
  rw [← pageCap_toNat]
  exact pageLoop_eq_page (Or.inl hfits)

/-! ## Runs -/

/-- Every invoice is numbered by the counter, the indexes are right, and no list is too long. -/
structure ListInv (s : Storage) : Prop where
  stored : Dense s
  index : ∀ customer,
    IsListing (IsOf Invoice.customer s customer) ((s.customerInvoices customer).getD [])
  fitsCustomer : ∀ customer, ((s.customerInvoices customer).getD []).length < 2 ^ 32
  fitsMerchant : ∀ merchant, (merchantIds s merchant).length < 2 ^ 32

theorem ListInv.pages (hI : ListInv w.storage) : PagesInvoices w := by
  refine ⟨hI.index, fun customer => ⟨_, hI.index customer, ?_⟩, fun merchant => ?_⟩
  · intro startAfter limit
    exact getInvoicesByCustomer_eq_page startAfter limit (hI.fitsCustomer customer)
  · refine ⟨_, merchantIds_isListing hI.stored merchant, ?_⟩
    intro e startAfter limit
    exact getInvoicesByMerchant_eq_page e startAfter limit (hI.fitsMerchant merchant)

theorem isOf_iff_map : IsOf party s a id ↔ (s.invoice id).map party = some a := by
  rw [IsOf, Option.map_eq_some_iff]

/-- A change of statuses keeps the parties. -/
theorem isOf_of_relabel {ids : List UInt64} {status : InvoiceStatus}
    (hparty : ∀ x status, party { x with status } = party x)
    (hb : s'.invoice = relabel s.invoice ids status) : IsOf party s' a id ↔ IsOf party s a id := by
  rw [isOf_iff_map, isOf_iff_map, hb, relabel_map hparty]

/-- A new invoice is one more of its parties, and none of the others. -/
theorem isOf_of_created {count : UInt64} {x : Invoice}
    (hb : s'.invoice = Function.update s.invoice count (some x)) (hfree : s.invoice count = none) :
    IsOf party s' a id ↔ IsOf party s a id ∨ (id = count ∧ party x = a) := by
  by_cases hid : id = count
  · simp [IsOf, hb, hid, hfree]
  · simp [IsOf, hb, hid]

/-- Where the invoices and the counter correspond, the lists of merchants are as long as before. -/
theorem ListInv.of_same (hI : ListInv s)
    (hparty : ∀ party : Invoice → Address, (∀ x status, party { x with status } = party x) →
      ∀ a id, IsOf party s' a id ↔ IsOf party s a id)
    (hb : ∀ k, s'.invoice k = none ↔ s.invoice k = none)
    (hcount : getInvoiceCount s' = getInvoiceCount s)
    (hlists : s'.customerInvoices = s.customerInvoices) : ListInv s' := by
  have hstored := hI.stored.of_same hb hcount
  refine ⟨hstored, fun customer => ?_, ?_, fun merchant => ?_⟩
  · rw [hlists]
    exact (hI.index customer).congr fun id =>
      (hparty Invoice.customer (fun _ _ => rfl) customer id).symm
  · rw [hlists]
    exact hI.fitsCustomer
  · have hlist := merchantIds_isListing hstored merchant
    have hlist' := merchantIds_isListing hI.stored merchant
    rw [(hlist.congr (hparty Invoice.merchant (fun _ _ => rfl) merchant)).unique hlist']
    exact hI.fitsMerchant merchant

section Created

variable {count : UInt64} {x : Invoice}
  (hnumber : count.toNat = (getInvoiceCount s).toNat + 1)
  (hb : s'.invoice = Function.update s.invoice count (some x))
  (hcount : s'.invoiceCount = some count)

include hnumber hb hcount

/-- The listing of a merchant is longer by one for the merchant of a new invoice. -/
theorem ListInv.length_merchantIds (hI : ListInv s) (merchant : Address) :
    (merchantIds s' merchant).length =
      (merchantIds s merchant).length + if x.merchant = merchant then 1 else 0 := by
  have hfree := hI.stored.free hnumber
  have hold := merchantIds_isListing hI.stored merchant
  have hnew := merchantIds_isListing (hI.stored.of_created hnumber hb hcount) merchant
  by_cases hm : x.merchant = merchant
  · rw [if_pos hm]
    apply hold.length_insert hnew
    · intro id
      rw [isOf_of_created hb hfree, and_iff_left hm]
    · rintro ⟨y, hy, -⟩
      simp [hfree] at hy
  · rw [if_neg hm, hnew.unique (hold.congr fun id => ?_), Nat.add_zero]
    rw [isOf_of_created hb hfree]
    simp [hm]

/-- **A new invoice** keeps the invariant when the lists of its parties stay countable. -/
theorem ListInv.of_created (hI : ListInv s)
    (hlists : s'.customerInvoices = Function.update s.customerInvoices x.customer
      (some ((s.customerInvoices x.customer).getD [] ++ [count])))
    (hmerchant : (merchantIds s x.merchant).length + 1 < 2 ^ 32)
    (hcustomer : ((s.customerInvoices x.customer).getD []).length + 1 < 2 ^ 32) :
    ListInv s' := by
  have hfree := hI.stored.free hnumber
  refine ⟨hI.stored.of_created hnumber hb hcount, fun customer => ?_, fun customer => ?_,
    fun merchant => ?_⟩
  · by_cases hc : customer = x.customer
    · subst hc
      rw [hlists, Function.update_self, Option.getD_some]
      apply (hI.index x.customer).snoc
      · -- the numbers so far are below the new one
        rintro k ⟨y, hy, -⟩
        have hle := ((hI.stored k).mp (by simp [hy])).2
        rw [UInt64.le_iff_toNat_le] at hle
        rw [UInt64.lt_iff_toNat_lt]
        omega
      · intro id
        rw [isOf_of_created hb hfree, and_iff_left rfl]
    · rw [hlists, Function.update_of_ne hc]
      apply (hI.index customer).congr
      intro id
      rw [isOf_of_created hb hfree]
      simp [Ne.symm hc]
  · by_cases hc : customer = x.customer
    · rw [hlists, hc, Function.update_self, Option.getD_some, List.length_append]
      exact hcustomer
    · rw [hlists, Function.update_of_ne hc]
      exact hI.fitsCustomer customer
  · rw [hI.length_merchantIds hnumber hb hcount]
    split
    · next hm => exact hm ▸ hmerchant
    · exact hI.fitsMerchant merchant

end Created

/-- **One accepted entry point** that keeps the listings keeps the invariant. -/
theorem ListInv.step (hI : ListInv s) (heff : RegisterEffect s s' c v)
    (hC : KeepsListings s c) : ListInv s' := by
  cases heff with
  | kept _ hb hcount _ hlists _ =>
    apply hI.of_same _ _ _ hlists
    · exact fun party hparty a id => isOf_of_relabel hparty hb
    · intro k
      rw [hb, relabel_eq_none_iff]
    · rw [getInvoiceCount, hcount, getInvoiceCount]
  | initialized hb hcount _ hlists _ =>
    apply hI.of_same _ (fun k => by rw [hb]) _ hlists
    · intro party _ a id
      rw [IsOf, hb, IsOf]
    · rw [getInvoiceCount, hcount, Option.getD_some]
      exact Eq.symm hC
  | created _ hnumber hx hb hcount _ hlists _ =>
    obtain ⟨-, rfl, rfl⟩ := hx
    exact hI.of_created hnumber hb hcount hlists hC.1 hC.2

/-- When the listings of all merchants are right, none of them is too long. -/
theorem PagesInvoices.fitsMerchant (hP : PagesInvoices w) (merchant : Address) :
    (merchantIds w.storage merchant).length < 2 ^ 32 := by
  obtain ⟨ids, hids, hpages⟩ := hP.byMerchant merchant
  have hone : ∀ skip : UInt32, pageLoop (ε := ContractError) ⟨∅, 0, true⟩
      (isOfMerchant w.storage merchant) skip 1 (idsUpTo (getInvoiceCount w.storage).toNat) 0 0 [] =
        .ok (page skip.toNat 1 ids) := fun skip => hpages ⟨∅, 0, true⟩ (some skip) 1
  obtain ⟨heq, hlength⟩ := listing_of_pages rfl (idsUpTo_count_sorted w.storage)
    (fun id _ hid => isOfMerchant_iff.mp hid) hids hone
  rwa [merchantIds, heq]

/-- An accepted entry point that leaves the listings right keeps them so. -/
theorem ListInv.keeps (hI : ListInv w.storage) (heff : RegisterEffect w.storage w'.storage c v)
    (hP : PagesInvoices w') : KeepsListings w.storage c := by
  cases heff with
  | kept hc _ _ _ _ _ =>
    cases c <;> trivial
  | initialized hb hcount _ _ _ =>
    -- the last invoice is listed, though the loop goes up to 0
    by_contra hne
    obtain ⟨x, hx⟩ := hI.stored.last hne
    obtain ⟨ids, hids, hpages⟩ := hP.byMerchant x.merchant
    have hempty : getInvoicesByMerchant ⟨∅, 0, true⟩ w'.storage x.merchant none 1 = .ok [] := by
      rw [getInvoicesByMerchant, getInvoiceCount, hcount]
      rfl
    have hnil := Except.ok.inj ((hpages ⟨∅, 0, true⟩ none 1).symm.trans hempty)
    exact hids.not_of_page_eq_nil (by decide) hnil ⟨x, hb ▸ hx, rfl⟩
  | @created _ _ _ _ _ _ _ _ x _ hnumber hx hb hcount _ hlists _ =>
    obtain ⟨-, rfl, rfl⟩ := hx
    constructor
    · have hfits := hP.fitsMerchant x.merchant
      rwa [hI.length_merchantIds hnumber hb hcount, if_pos rfl] at hfits
    · obtain ⟨ids, -, hpages⟩ := hP.byCustomer x.customer
      have hfits := length_lt_of_customer_ok (hpages none 1)
      rwa [hlists, Function.update_self, Option.getD_some, List.length_append] at hfits

/-- **Holds**: from a fresh deployment, the listings are right throughout exactly the runs in which
an accepted `initialize` finds no invoice and no list grows too long. -/
theorem pagesInvoices_iff (l : D.Ledger) (wasm : WasmHash) (is : List (Input D Call)) :
    Always step (fun _ => PagesInvoices) (fresh l wasm) is ↔
      Each step (fun _ w i => IfAccepted invoke (fun _ c _ => KeepsListings w.storage c) (w, i))
        (fresh l wasm) is := by
  apply always_iff_accepted (I := ListInv)
  · have hnone : ∀ party a id, ¬ IsOf party (fresh l wasm : State D).storage a id :=
      fun party a id ⟨x, hx, _⟩ => by simp [fresh, Storage.empty] at hx
    refine ⟨dense_fresh l wasm, fun customer => ?_, ?_, fun merchant => ?_⟩
    · refine ⟨List.Pairwise.nil, fun id => ?_⟩
      exact iff_of_false (List.not_mem_nil) (hnone _ _ _)
    · simp [fresh, Storage.empty]
    · simp [merchantIds, getInvoiceCount, fresh, Storage.empty, idsUpTo]
  · exact fun _ hI => hI.pages
  · exact fun h hI hC => hI.step (registerEffect_of_ok h) hC
  · exact fun h hI hP => hI.keeps (registerEffect_of_ok h) hP

/-- After invoice 1 is created and the contract then initialized, its customer finds it and its
merchant does not. -/
theorem createdEarly_not_listed :
    ¬ Always step (fun _ => PagesInvoices) (fresh () 0) createdEarly := by
  intro h
  obtain ⟨ids, hids, hpages⟩ := h.at_end.byMerchant (.account 1)
  obtain ⟨x, hx, hmerchant⟩ : ∃ x, (run step (fresh () 0) createdEarly).storage.invoice 1 =
      some x ∧ x.merchant = .account 1 := ⟨_, rfl, rfl⟩
  have hempty : getInvoicesByMerchant ⟨∅, 3, true⟩
      (run step (fresh () 0) createdEarly).storage (.account 1) none 100 = .ok [] := rfl
  have hnil := Except.ok.inj ((hpages ⟨∅, 3, true⟩ none 100).symm.trans hempty)
  exact hids.not_of_page_eq_nil (by decide) hnil ⟨x, hx, hmerchant⟩

end Invoicing
