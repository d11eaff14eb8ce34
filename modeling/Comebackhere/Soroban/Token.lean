import Comebackhere.Soroban.Host

/-!
# Token contracts

The contracts call token contracts, whose code is not theirs: a standard token is a parameter,
known by its balances and by what a successful transfer does to them.

## Main definitions

* `StandardToken D token`: the token contract `token` as the contract at `D.self` relies on it
* `Quiet T`: between two invocations the balance of the contract does not change
* `tokenDeployment self token`: a ledger with one standard token
* `balanceDeployment self token`: the same ledger, when the token answers what its balances are
-/

namespace Soroban

open Checked

variable {D : Deployment} {token : Address}

/-- The functions of a token contract that change balances. -/
def balanceFunctions : List Symbol :=
  ["transfer", "transfer_from", "burn", "burn_from", "mint", "clawback"]

/-- A standard token contract: a transfer that succeeds moves the amount from one balance to the
other, and the contract's balance changes in no call to another contract, or to a function of the
token that does not change balances. -/
structure StandardToken (D : Deployment) (token : Address) where
  balance : D.Ledger → Address → ℤ
  transfer : ∀ e l l' source recipient amount, D.call e l token "transfer"
      [.address source, .address recipient, .i128 amount] = some (l', .void) →
    ∀ a, balance l' a = balance l a + (if a = recipient then amount else 0) -
      (if a = source then amount else 0)
  others : ∀ e l l' contract f args v, (contract = token → f ∉ balanceFunctions) →
    D.call e l contract f args = some (l', v) → balance l' D.self = balance l D.self

namespace StandardToken

variable (T : StandardToken D token)

/-- The balance of the contract in a world. -/
def held {S : Type} (w : World D S) : ℤ := T.balance w.ledger D.self

/-- The balance of the contract after it has a transfer made from another address to its own. -/
theorem held_of_transfer_in {e : Env} {l l' : D.Ledger} {contract source : Address} {amount : ℤ}
    (h : D.call e l contract "transfer" [.address source, .address D.self, .i128 amount] =
      some (l', .void)) : T.balance l' D.self = T.balance l D.self +
      (if contract = token ∧ source ≠ D.self then amount else 0) := by
  by_cases hc : contract = token
  · subst hc
    rw [T.transfer _ _ _ _ _ _ h]
    -- a transfer from itself takes from the balance what it adds to it
    by_cases hs : source = D.self
    · simp [hs]
    · simp [hs, Ne.symm hs]
  · simpa [hc] using T.others _ _ _ _ _ _ _ (fun he => absurd he hc) h

/-- The balance of the contract after it has a transfer made from its own address to another. -/
theorem held_of_transfer_out {e : Env} {l l' : D.Ledger} {contract recipient : Address}
    {amount : ℤ} (h : D.call e l contract "transfer"
      [.address D.self, .address recipient, .i128 amount] = some (l', .void)) :
    T.balance l' D.self = T.balance l D.self -
      (if contract = token ∧ recipient ≠ D.self then amount else 0) := by
  by_cases hc : contract = token
  · subst hc
    rw [T.transfer _ _ _ _ _ _ h]
    -- a transfer to itself adds to the balance what it takes from it
    by_cases hr : recipient = D.self
    · simp [hr]
    · simp [hr, Ne.symm hr]
  · simpa [hc] using T.others _ _ _ _ _ _ _ (fun he => absurd he hc) h

/-- The input is no change of the contract's balance from outside. -/
def Quiet {S C : Type} (w : World D S) : Input D C → Prop
  | .outside l => T.balance l D.self = T.held w
  | .call _ _ => True

instance {S C : Type} {w : World D S} : ∀ i : Input D C, Decidable (T.Quiet w i)
  | .outside l => inferInstanceAs (Decidable (T.balance l D.self = T.held w))
  | .call _ _ => inferInstanceAs (Decidable True)

/-- An input that is not accepted, and is no change from outside, leaves the balance. -/
theorem held_step_of_not_accepted {S C ε : Type} {w : World D S} {i : Input D C}
    {invoke : Env → World D S → C → Except (Failure ε) (World D S × Val)}
    (hquiet : T.Quiet w i) (hn : accepted invoke (w, i) = none) :
    T.held (step invoke w i) = T.held w := by
  cases i with
  | outside l => exact hquiet
  | call e c =>
    -- the host rolled the failed invocation back, with the calls it had made
    rw [step_call_of_not_accepted hn]

end StandardToken

/-! ## A ledger with one token -/

/-- Move an amount from one balance to another. -/
def moveBalance (l : Address → ℤ) (source recipient : Address) (amount : ℤ) : Address → ℤ :=
  fun a => l a + (if a = recipient then amount else 0) - (if a = source then amount else 0)

/-- The calls of a ledger with one token: a transfer needs the authorisation of the source, which
the contract at `self` has given by calling. -/
def tokenCall (self token : Address) (e : Env) (l : Address → ℤ) (contract : Address) (f : Symbol)
    (args : List Val) : Option ((Address → ℤ) × Val) :=
  match args with
  | [.address source, .address recipient, .i128 amount] =>
    if contract = token ∧ f = "transfer" ∧ (source = self ∨ source ∈ e.auths) ∧ 0 ≤ amount ∧
        amount ≤ l source then
      some (moveBalance l source recipient amount, .void)
    else none
  | _ => none

theorem tokenCall_spec {self token : Address} {e : Env} {l : Address → ℤ} {contract : Address}
    {f : Symbol} {args : List Val} {r : (Address → ℤ) × Val}
    (h : tokenCall self token e l contract f args = some r) :
    contract = token ∧ f = "transfer" := by
  unfold tokenCall at h
  split at h
  · simp only [Option.ite_none_right_eq_some] at h
    exact ⟨h.1.1, h.1.2.1⟩
  · simp at h

theorem tokenCall_transfer {self token : Address} {e : Env} {l l' : Address → ℤ}
    {contract source recipient : Address} {f : Symbol} {amount : ℤ} {v : Val}
    (h : tokenCall self token e l contract f
      [.address source, .address recipient, .i128 amount] = some (l', v)) :
    l' = moveBalance l source recipient amount := by
  simp only [tokenCall, Option.ite_none_right_eq_some, Option.some.injEq, Prod.mk.injEq] at h
  exact h.2.1.symm

/-- A ledger of the balances of one token; its queries answer that everyone is allowed. -/
def tokenDeployment (self token : Address) : Deployment where
  self := self
  Ledger := Address → ℤ
  call := tokenCall self token
  query _ _ _ _ _ := some (.bool true)

/-- The same ledger, when its queries are those for the balances of the token. -/
def balanceDeployment (self token : Address) : Deployment where
  self := self
  Ledger := Address → ℤ
  call := tokenCall self token
  query _ l contract f args :=
    match args with
    | [.address a] => if contract = token ∧ f = "balance" then some (.i128 (l a)) else none
    | _ => none

/-- The token of `tokenDeployment` is a standard token. -/
def standardToken (self token : Address) : StandardToken (tokenDeployment self token) token where
  balance l := l
  transfer _ _ _ _ _ _ h := congrFun (tokenCall_transfer h)
  others _ _ _ _ _ _ _ hf h := by
    obtain ⟨hc, rfl⟩ := tokenCall_spec h
    exact absurd (by decide) (hf hc)

end Soroban
