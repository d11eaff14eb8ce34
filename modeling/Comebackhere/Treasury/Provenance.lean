import Comebackhere.Treasury.Effect

/-!
# Where a settlement comes from

The contract stores a settlement and not how it came about. What was agreed, and who may be paid,
can be read from the history: the last accepted proposal under the id gave the settlement its terms,
and the merchants since then have handed it on, each of them authorising the next.

## Main definitions

* `Proposal`, `Handover`: an accepted proposal, and an accepted change of the merchant
* `Title`: a proposal with the changes of the merchant since then
* `title id h`: the title to a settlement, read from the history
* `Title.Accounts`: a settlement has the terms and the merchant of its title

## Main results

* `termsEffect_of_ok`: what an accepted entry point does to the terms of the stored settlements
* `settlements_accounted`: at every point of every run, the titles account for what is stored
-/

namespace Treasury

open Soroban Checked Machine

variable {D : Deployment} {e : Env} {w w' : State D} {i : Input D Call} {c : Call} {v : Val}
  {h : History D} {id : UInt64} {x x' : Settlement}

/-! ## Titles -/

/-- An accepted proposal, with the environment and the lifetime it was made under. -/
structure Proposal where
  env : Env
  ttl : UInt64
  signer : Address
  token : Address
  amount : UInt64
  merchant : Address

/-- An accepted change of the merchant of a settlement. -/
structure Handover where
  env : Env
  merchantCaller : Address
  newMerchant : Address

/-- A proposal with the changes of the merchant since then, in order. -/
structure Title where
  proposal : Proposal
  handovers : List Handover

/-- The merchant after the changes. -/
def holder (merchant : Address) (handovers : List Handover) : Address :=
  handovers.getLast?.elim merchant (·.newMerchant)

/-- Every change is authorised by the merchant that the changes before it have left. -/
def Unbroken : Address → List Handover → Prop
  | _, [] => True
  | merchant, x :: handovers =>
    x.merchantCaller = merchant ∧ merchant ∈ x.env.auths ∧ Unbroken x.newMerchant handovers

@[simp] theorem holder_snoc (merchant : Address) (handovers : List Handover) (x : Handover) :
    holder merchant (handovers ++ [x]) = x.newMerchant := by
  simp [holder]

theorem holder_cons (merchant : Address) (x : Handover) (handovers : List Handover) :
    holder merchant (x :: handovers) = holder x.newMerchant handovers := by
  cases handovers with
  | nil => rfl
  | cons y handovers => simp [holder, List.getLast?_cons]

theorem unbroken_snoc {merchant : Address} {handovers : List Handover} {x : Handover} :
    Unbroken merchant (handovers ++ [x]) ↔ Unbroken merchant handovers ∧
      x.merchantCaller = holder merchant handovers ∧
        holder merchant handovers ∈ x.env.auths := by
  induction handovers generalizing merchant with
  | nil => simp [Unbroken, holder]
  | cons y handovers ih => simp [Unbroken, ih, holder_cons, and_assoc]

/-- The title after one more input: a proposal under the id begins a new one. -/
def record (id : UInt64) (title : Option Title) (t : State D × Input D Call) : Option Title :=
  match accepted invoke t with
  | some (e, .proposeSettlement signer token amount merchant, .u64 id') =>
    if id' = id then
      some ⟨⟨e, getSettlementTtl t.1.storage, signer, token, amount, merchant⟩, []⟩
    else title
  | some (e, .updateSettlementMerchant merchantCaller id' newMerchant, _) =>
    if id' = id then
      title.map fun title =>
        { title with handovers := title.handovers ++ [⟨e, merchantCaller, newMerchant⟩] }
    else title
  | _ => title

/-- The title to the settlement under an id. -/
def title (id : UInt64) (h : History D) : Option Title := h.foldl (record id) none

theorem title_snoc (id : UInt64) (h : History D) (t : State D × Input D Call) :
    title id (h ++ [t]) = record id (title id h) t := by
  simp [title, List.foldl_append]

/-- The settlement has the terms that were proposed, and the merchant it was handed on to. -/
structure Title.Accounts (x : Settlement) (title : Title) : Prop where
  authorised : title.proposal.signer ∈ title.proposal.env.auths
  token : x.token = title.proposal.token
  amount : x.amount = title.proposal.amount
  proposer : x.proposer = title.proposal.signer
  expiresAt : x.expiresAt.toNat = title.proposal.env.timestamp.toNat + title.proposal.ttl.toNat
  unbroken : Unbroken title.proposal.merchant title.handovers
  merchant : x.merchant = holder title.proposal.merchant title.handovers

/-- The settlement is handed on. -/
theorem Title.Accounts.handOn {title : Title} (ht : title.Accounts x) (hauth : x.merchant ∈ e.auths)
    (newMerchant : Address) :
    Title.Accounts { x with merchant := newMerchant }
      { title with handovers := title.handovers ++ [⟨e, x.merchant, newMerchant⟩] } where
  authorised := ht.authorised
  token := ht.token
  amount := ht.amount
  proposer := ht.proposer
  expiresAt := ht.expiresAt
  unbroken := by
    apply unbroken_snoc.mpr
    rw [← ht.merchant]
    exact ⟨ht.unbroken, rfl, hauth⟩
  merchant := by
    show newMerchant = holder _ (title.handovers ++ _)
    rw [holder_snoc]

/-! ## What an entry point does to the terms -/

/-- The settlements have the same terms and the same merchant. -/
structure SameTerms (x x' : Settlement) : Prop where
  token : x'.token = x.token
  amount : x'.amount = x.amount
  proposer : x'.proposer = x.proposer
  expiresAt : x'.expiresAt = x.expiresAt
  merchant : x'.merchant = x.merchant

theorem SameTerms.accounts {title : Title} (h : SameTerms x x') (ht : title.Accounts x) :
    title.Accounts x' where
  authorised := ht.authorised
  token := h.token.trans ht.token
  amount := h.amount.trans ht.amount
  proposer := h.proposer.trans ht.proposer
  expiresAt := h.expiresAt ▸ ht.expiresAt
  unbroken := ht.unbroken
  merchant := h.merchant.trans ht.merchant

/-- The entry points that give a settlement terms, or another merchant. -/
def Call.writesTerms : Call → Bool
  | .proposeSettlement _ _ _ _ | .updateSettlementMerchant _ _ _ => true
  | _ => false

/-- The other edits keep the terms. -/
theorem Edit.sameTerms {s : Storage} (hedit : Edit e s c id x x') (hc : c.writesTerms = false) :
    SameTerms x x' := by
  cases hedit with
  | updateMerchant _ => exact absurd hc.symm Bool.false_ne_true
  | _ => exact ⟨rfl, rfl, rfl, rfl, rfl⟩

/-- What an accepted entry point does to the terms of the stored settlements, `book'` afterwards. -/
inductive TermsEffect (e : Env) (s : Storage) (book' : UInt64 → Option Settlement) :
    Call → Val → Prop
  | kept {c : Call} {v : Val} (hc : c.writesTerms = false)
      (hb : ∀ id, Option.Rel SameTerms (s.settlement id) (book' id)) : TermsEffect e s book' c v
  | proposed {signer token merchant : Address} {amount id expiresAt : UInt64}
      (hauth : signer ∈ e.auths)
      (hexpires : expiresAt.toNat = e.timestamp.toNat + (getSettlementTtl s).toNat)
      (hb : book' = Function.update s.settlement id (some
        { token, amount, merchant, status := .pending, approvalWeight := 0, proposer := signer,
          expiresAt })) :
      TermsEffect e s book' (.proposeSettlement signer token amount merchant) (.u64 id)
  | handedOn {newMerchant : Address} {id : UInt64} {x : Settlement} {v : Val}
      (hx : s.settlement id = some x) (hauth : x.merchant ∈ e.auths)
      (hb : book' = Function.update s.settlement id (some { x with merchant := newMerchant })) :
      TermsEffect e s book' (.updateSettlementMerchant x.merchant id newMerchant) v

theorem sameTerms_refl (o : Option Settlement) : Option.Rel SameTerms o o := by
  cases o with
  | none => exact .none
  | some x => exact .some ⟨rfl, rfl, rfl, rfl, rfl⟩

theorem termsEffect_of_ok (hok : invoke e w c = .ok (w', v)) :
    TermsEffect e w.storage w'.storage.settlement c v := by
  cases hc : c.writesTerms with
  | true =>
    cases c with
    | proposeSettlement signer token amount merchant =>
      simp only [invoke, bind_eq_ok, pure_eq_ok, Prod.mk.injEq] at hok
      obtain ⟨⟨w₁, id⟩, hok, rfl, rfl⟩ := hok
      obtain ⟨-, -, hauth, -, expiresAt, nextId, hexpires, -, rfl⟩ :=
        proposeSettlement_eq_ok.mp hok
      exact .proposed hauth (checkedAdd_eq_some.mp hexpires).2 rfl
    | updateSettlementMerchant merchantCaller id newMerchant =>
      obtain ⟨⟨-, hauth, x, hx, -, rfl, rfl⟩, rfl⟩ := by
        simpa only [invoke, unitResult_eq_ok, updateSettlementMerchant_eq_ok] using hok
      exact .handedOn hx hauth rfl
    | _ => exact absurd hc Bool.false_ne_true
  | false =>
    apply TermsEffect.kept hc
    intro id
    cases (effect_of_ok hok).book with
    | unchanged _ hb =>
      rw [hb]
      exact sameTerms_refl _
    | proposed _ _ _ _ => exact absurd hc.symm Bool.false_ne_true
    | @edited _ _ id' x x' hx hedit hb =>
      rw [hb]
      by_cases hid : id = id'
      · subst hid
        rw [Function.update_self, hx]
        exact .some (hedit.sameTerms hc)
      · rw [Function.update_of_ne hid]
        exact sameTerms_refl _

/-! ## The titles account for what is stored -/

/-- Exactly the stored settlements have titles, and these account for them. -/
def Accounted (h : History D) (w : State D) : Prop :=
  ∀ id, Option.Rel (fun x (title : Title) => title.Accounts x) (w.storage.settlement id)
    (title id h)

theorem record_of_none (ha : accepted invoke (w, i) = none) (old : Option Title) :
    record id old (w, i) = old := by
  simp [record, ha]

theorem record_of_kept (ha : accepted invoke (w, i) = some (e, c, v))
    (hc : c.writesTerms = false) (old : Option Title) : record id old (w, i) = old := by
  unfold record
  rw [ha]
  cases c <;> first | rfl | exact absurd hc.symm Bool.false_ne_true

theorem rel_of_sameTerms {o o' : Option Settlement} {t : Option Title}
    (h : Option.Rel SameTerms o o') (ht : Option.Rel (fun x (t : Title) => t.Accounts x) o t) :
    Option.Rel (fun x (t : Title) => t.Accounts x) o' t := by
  cases h with
  | none => exact ht
  | some h =>
    cases ht with
    | some ht => exact .some (h.accounts ht)

/-- **The step lemma**: an input that is accepted extends the titles by what it does. -/
theorem Accounted.step (hI : Accounted h w) (i : Input D Call) :
    Accounted (h ++ [(w, i)]) (step w i) := by
  intro id
  rw [title_snoc]
  cases ha : accepted invoke (w, i) with
  | none =>
    rw [record_of_none ha, storage_of_not_accepted ha]
    exact hI id
  | some r =>
    obtain ⟨e, c, v⟩ := r
    cases termsEffect_of_ok (invoke_of_accepted ha).2 with
    | kept hc hb =>
      rw [record_of_kept ha hc]
      exact rel_of_sameTerms (hb id) (hI id)
    | @proposed signer token merchant amount id' expiresAt hauth hexpires hb =>
      simp only [record, ha, hb]
      by_cases hid : id' = id
      · -- the new title replaces whatever was stored under the id
        subst hid
        rw [if_pos rfl, Function.update_self]
        exact .some ⟨hauth, rfl, rfl, rfl, hexpires, trivial, rfl⟩
      · rw [if_neg hid, Function.update_of_ne (Ne.symm hid)]
        exact hI id
    | @handedOn newMerchant id' x _ hx hauth hb =>
      simp only [record, ha, hb]
      by_cases hid : id' = id
      · subst hid
        have hold := hI id'
        rw [hx] at hold
        rw [if_pos rfl, Function.update_self]
        generalize title id' h = old at hold ⊢
        cases hold with
        | some ht => exact .some (ht.handOn hauth newMerchant)
      · rw [if_neg hid, Function.update_of_ne (Ne.symm hid)]
        exact hI id

/-- **Every settlement is accounted for**: at every point of every run, by any callers and with the
counter of ids reset or not, exactly the settlements that the history has a title to are stored,
with the token, the amount, the proposer and the expiry of the last accepted proposal under their
ids, and with the merchant at the end of an unbroken sequence of handovers, each authorised by the
merchant before. -/
theorem settlements_accounted (l : D.Ledger) (wasm : WasmHash) (is : List (Input D Call)) :
    Always step Accounted (fresh l wasm) is := by
  intro pre _
  refine inv_of_each (I := Accounted) (C := fun _ _ _ => True) ?_ ?_ (fun _ _ _ => trivial)
  · intro id
    exact .none
  · intro h w i hI _
    exact hI.step i

end Treasury
