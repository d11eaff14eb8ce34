import Comebackhere.Frontend.WalletOrder

/-!
# The accounts that a wallet shows

An account that the page shows, and signs for, is put together from two answers of the wallet
extension: its address, and the network it is on.

## Main definitions

* `Begun p h i`: the request `i` was made by the last thing that the user or the page decided, or
  after it
* `Told h i address network`: the extension has answered the request `i` with these

## Main results

* `Sourced.step`: every step shows what its request was told
* `accounts_told`: an account that is shown was told to one request, made since the last decision
-/

namespace UseWallet

open Machine Crew

/-! ## What a request is told -/

/-- The extension gives an address to the request `i`, which waits for it. -/
def TellsAddress (i : ℕ) (address : String) (t : Move) : Prop :=
  (∃ error : Option String, error.getD "" = "" ∧ t.2 = .address i (.resolved address error)) ∧
    ∃ r, t.1.requests[i]? = some r ∧ r.stage = .address

/-- The extension gives a network to the request `i`, which waits for it, or gives none. -/
def TellsNetwork (i : ℕ) (network : Option String) (t : Move) : Prop :=
  (∃ answer, getNetwork answer = network ∧ t.2 = .network i answer) ∧
    ∃ r address, t.1.requests[i]? = some r ∧ r.stage = .network address

def Told (h : List Move) (i : ℕ) (address : String) (network : Option String) : Prop :=
  (∃ t ∈ h, TellsAddress i address t) ∧ ∃ t ∈ h, TellsNetwork i network t

/-- The request `i` was made by the last thing that the user or the page decided, or after it. -/
def Begun (p : String) (h : List Move) (i : ℕ) : Prop :=
  Since (fun _ => Starts p i) (fun t => t.2.Intends) h

/-- What a request at a stage has been told. -/
def Stage.Told (p : String) (h : List Move) (i : ℕ) : Stage → Prop
  | .network told => ∃ t ∈ h, TellsAddress i told t
  | .answered next => ∀ account, next.account = some account →
      next = connectedState p account.1 account.2 ∧ UseWallet.Told h i account.1 account.2
  | .address | .finished _ => True

structure Sourced (p : String) (h : List Move) (w : Wallet) : Prop where
  stages : ∀ (i : ℕ) (r : Request), w.requests[i]? = some r → r.stage.Told p h i
  shown : ∀ account, w.state.account = some account →
    w.state = connectedState p account.1 account.2 ∧
      ∃ i, Begun p h i ∧ Told h i account.1 account.2

section Sourced

variable {p : String} {h : List Move} {w : Wallet} {e : Event} {t : Move} {i : ℕ} {r : Request}
  {address : String} {network : Option String} {stage : Stage}

theorem Told.snoc (htold : Told h i address network) : Told (h ++ [t]) i address network := by
  obtain ⟨⟨a, ha, haddress⟩, n, hn, hnetwork⟩ := htold
  exact ⟨⟨a, List.mem_append_left _ ha, haddress⟩, n, List.mem_append_left _ hn, hnetwork⟩

theorem Stage.Told.snoc (hstage : stage.Told p h i) : stage.Told p (h ++ [t]) i := by
  cases stage with
  | address | finished => trivial
  | network address =>
    obtain ⟨a, ha, haddress⟩ := hstage
    exact ⟨a, List.mem_append_left _ ha, haddress⟩
  | answered next =>
    intro account haccount
    obtain ⟨hnext, htold⟩ := hstage account haccount
    exact ⟨hnext, htold.snoc⟩

theorem Begun.snoc (hbegun : Begun p h i) (he : ¬ t.2.Intends) : Begun p (h ++ [t]) i :=
  since_snoc.mpr (Or.inr ⟨hbegun, he⟩)

/-- What nothing has superseded was made after the last decision. -/
theorem Current.begun (hcurrent : Current p h i) : Begun p h i := by
  obtain ⟨l₁, t, l₂, he, hstarts, hlater⟩ := hcurrent
  exact ⟨l₁, t, l₂, he, hstarts, fun y hy hintends => hlater y hy (Or.inl hintends)⟩

@[simp] theorem account_errorState (err : Thrown) (fallback : String) :
    (errorState err fallback).account = none := by
  unfold errorState
  dsimp only
  split <;> rfl

theorem account_connectedState (p address : String) (network : Option String) :
    (connectedState p address network).account = some (address, network) := by
  cases network with
  | none => rfl
  | some network =>
    simp only [connectedState]
    split <;> rfl

/-- The address that a request goes on with is the one it is told. -/
theorem told_readAddress (hr : w.requests[i]? = some r) (hstage : r.stage = .address)
    (answer : AddressAnswer) :
    (readAddress r.origin answer).Told p (h ++ [(w, .address i answer)]) i := by
  cases answer with
  | rejected err => simp [readAddress, Stage.Told]
  | resolved address error =>
    simp only [readAddress]
    split
    · simp [Stage.Told]
    · next herror =>
      split
      · simp [Stage.Told, WalletState.account]
      · exact ⟨_, List.mem_append_right _ (List.mem_singleton_self _),
          ⟨error, not_not.mp herror, rfl⟩, r, hr, hstage⟩

/-- The state that a request goes on with is that of the address and the network it is told. -/
theorem told_connectedState (hw : Sourced p h w) (hr : w.requests[i]? = some r)
    (hstage : r.stage = .network address) (answer : NetworkAnswer) :
    (Stage.answered (connectedState p address (getNetwork answer))).Told p
      (h ++ [(w, .network i answer)]) i := by
  intro account haccount
  rw [account_connectedState] at haccount
  obtain rfl := Option.some.inj haccount
  have haddress : ∃ t ∈ h, TellsAddress i address t := by
    have htold := hw.stages i r hr
    rwa [hstage] at htold
  obtain ⟨a, ha, haddress⟩ := haddress
  refine ⟨rfl, ⟨a, List.mem_append_left _ ha, haddress⟩, _,
    List.mem_append_right _ (List.mem_singleton_self _), ⟨answer, rfl, rfl⟩, r, address, hr, hstage⟩

/-- A request goes on, and the others stay where they are. -/
theorem Sourced.stages_goOn (hw : Sourced p h w) (hstage : stage.Told p (h ++ [t]) i) :
    ∀ (j : ℕ) (r' : Request), (w.goOn i r stage).requests[j]? = some r' →
      r'.stage.Told p (h ++ [t]) j := by
  intro j r' hr'
  rcases getElem?_set_eq_some hr' with ⟨rfl, rfl⟩ | ⟨-, hr'⟩
  · exact hstage
  · exact (hw.stages j r' hr').snoc

/-- What is shown stays the answer to a request made after the last decision. -/
theorem Sourced.shown_snoc (hw : Sourced p h w) (he : ¬ t.2.Intends)
    (account : String × Option String) (haccount : w.state.account = some account) :
    w.state = connectedState p account.1 account.2 ∧
      ∃ i, Begun p (h ++ [t]) i ∧ Told (h ++ [t]) i account.1 account.2 := by
  obtain ⟨hstate, i, hbegun, htold⟩ := hw.shown account haccount
  exact ⟨hstate, i, hbegun.snoc he, htold.snoc⟩

/-- A new request has been told nothing. -/
theorem Sourced.stages_ask (hw : Sourced p h w) (origin : Origin) :
    ∀ (j : ℕ) (r : Request), (w.ask origin).requests[j]? = some r →
      r.stage.Told p (h ++ [t]) j := by
  intro j r hr
  rcases lt_or_ge j w.requests.length with hj | hj
  · rw [Wallet.ask, List.getElem?_append_left hj] at hr
    exact (hw.stages j r hr).snoc
  · rw [Wallet.ask, List.getElem?_append_right hj] at hr
    obtain rfl := List.mem_singleton.mp (List.mem_of_getElem? hr)
    trivial

/-- **Every step shows what its request was told.** -/
theorem Sourced.step (hw : Sourced p h w) (htracks : Tracks p h w) (e : Event) :
    Sourced p (h ++ [(w, e)]) (w.step p e) := by
  have hold : ∀ (i : ℕ) (r : Request), w.requests[i]? = some r → r.stage.Told p (h ++ [(w, e)]) i :=
    fun i r hr => (hw.stages i r hr).snoc
  cases e with
  | idle => exact ⟨hold, hw.shown_snoc id⟩
  | poll installed =>
    rw [Wallet.step, Wallet.checkConnection]
    split
    · exact ⟨hold, hw.shown_snoc id⟩
    · split
      · exact ⟨hold, by simp [WalletState.account]⟩
      · exact ⟨hw.stages_ask _, hw.shown_snoc id⟩
  | connect installed =>
    rw [Wallet.step, Wallet.connectWallet]
    split
    · exact ⟨hold, by simp [WalletState.account]⟩
    · exact ⟨hw.stages_ask _, by simp [WalletState.account]⟩
  | disconnect =>
    exact ⟨hold, by simp [Wallet.step, Wallet.disconnectWallet, initialState, WalletState.account]⟩
  | reset => exact ⟨hold, by simp [Wallet.step, Wallet.reset, initialState, WalletState.account]⟩
  | address i answer =>
    rcases w.onAddress_cases i answer with he | ⟨r, hr, hstage, he⟩ <;> rw [Wallet.step, he]
    · exact ⟨hold, hw.shown_snoc id⟩
    · exact ⟨hw.stages_goOn (told_readAddress hr hstage answer), hw.shown_snoc id⟩
  | network i answer =>
    rcases w.onNetwork_cases p i answer with he | ⟨r, address, hr, hstage, he⟩ <;>
      rw [Wallet.step, he]
    · exact ⟨hold, hw.shown_snoc id⟩
    · exact ⟨hw.stages_goOn (told_connectedState hw hr hstage answer), hw.shown_snoc id⟩
  | resume i =>
    rcases w.resume_cases i with he | ⟨r, next, hr, hstage⟩
    · rw [Wallet.step, he]
      exact ⟨hold, hw.shown_snoc id⟩
    obtain ⟨returned, he⟩ := htracks.resume_eq hr hstage
    rw [Wallet.step, he]
    have hfinished : (Stage.finished returned).Told p (h ++ [(w, .resume i)]) i := trivial
    refine ⟨hw.stages_goOn hfinished, fun account haccount => ?_⟩
    by_cases hseq : r.seq = w.requestSeq
    · -- the answer of a current request is shown
      have hcurrent := (htracks.current i r.seq (Wallet.getElem?_seqs hr)).mp hseq
      have htold := hw.stages i r hr
      rw [hstage] at htold
      simp only [if_pos hseq] at haccount ⊢
      obtain ⟨hnext, htold⟩ := htold account haccount
      exact ⟨hnext, i, hcurrent.begun.snoc id, htold.snoc⟩
    · simp only [if_neg hseq] at haccount ⊢
      exact hw.shown_snoc id account haccount

theorem sourced_run (p : String) (is : List Input) :
    Sourced p ((transitions (step p) initial is).map move) (run (step p) initial is).toWallet := by
  induction is using List.reverseRecOn with
  | nil => exact ⟨by simp [initial], by simp [initial, initialState, WalletState.account]⟩
  | append_singleton is i ih =>
    rw [transitions_snoc, run_snoc, toWallet_step, List.map_append]
    exact ih.step (tracks_run p is) _

end Sourced

/-! ## What a component is given -/

theorem getNetworkPassphrase_ne_empty (configured : String) :
    getNetworkPassphrase configured ≠ "" := by
  unfold getNetworkPassphrase
  split
  · decide
  · assumption

/-- A wallet with an account is ready unless it is known to be on another network. -/
theorem ready_connectedState (p address : String) (network : Option String) :
    (useWallet (connectedState p address network)).ready = true ↔
      ∀ n, network = some n → n = getNetworkPassphrase p := by
  cases network with
  | none => simp [connectedState, useWallet, WalletState.isConnected]
  | some network =>
    simp only [connectedState]
    split
    · next hother => simpa [useWallet, WalletState.isConnected] using hother.2
    · next hsame =>
      have hexpected := getNetworkPassphrase_ne_empty p
      simpa [useWallet, WalletState.isConnected, hexpected] using hsame

/-- Nothing is given as a reason just to those who are ready. -/
theorem notReadyReason_eq_none (wallet : WalletState) :
    (useWallet wallet).notReadyReason = none ↔ (useWallet wallet).ready = true := by
  cases wallet with
  | rejected reason error => cases reason <;> simp [useWallet, walletNotReadyReason,
      WalletState.isConnected]
  | _ => simp [useWallet, walletNotReadyReason, WalletState.isConnected]

theorem account_of_ready {wallet : WalletState} (h : (useWallet wallet).ready = true) :
    ∃ account, wallet.account = some account := by
  cases wallet with
  | connected address network => exact ⟨(address, network), rfl⟩
  | _ => simp [useWallet, WalletState.isConnected] at h

theorem view_of_account {wallet : WalletState} {account : String × Option String}
    (h : wallet.account = some account) :
    (useWallet wallet).address = some account.1 ∧ (useWallet wallet).network = account.2 := by
  simp only [useWallet, h]
  exact ⟨rfl, rfl⟩

/-- **Accounts are those that the extension has told.** In every run of the store, an address that
components are given was told by the extension, with the network that they are given, in answer to
one request; the user has not connected or disconnected since that request was made, and somebody
has been watching. They are ready to sign just if they have an address, and its network is not known
to be another than the expected one. -/
theorem accounts_told (p : String) (is : List Input) :
    let view := useWallet (run (step p) initial is).state
    let h := (transitions (step p) initial is).map move
    (∀ address, view.address = some address →
      ∃ i, Begun p h i ∧ Told h i address view.network) ∧
    (view.ready = true ↔ view.address ≠ none ∧
      ∀ network, view.network = some network → network = getNetworkPassphrase p) ∧
    (view.notReadyReason = none ↔ view.ready = true) := by
  intro view h
  have hw : Sourced p h (run (step p) initial is).toWallet := sourced_run p is
  refine ⟨fun address haddress => ?_, ⟨fun hready => ?_, fun ⟨haddress, hnetwork⟩ => ?_⟩,
    notReadyReason_eq_none _⟩
  · obtain ⟨account, haccount, rfl⟩ := Option.map_eq_some_iff.mp haddress
    obtain ⟨-, i, hbegun, htold⟩ := hw.shown account haccount
    refine ⟨i, hbegun, ?_⟩
    rw [(view_of_account haccount).2]
    exact htold
  · obtain ⟨account, haccount⟩ := account_of_ready hready
    obtain ⟨hstate, -⟩ := hw.shown account haccount
    have hview := view_of_account haccount
    refine ⟨by rw [hview.1]; exact Option.some_ne_none _, ?_⟩
    rw [hview.2]
    apply (ready_connectedState p account.1 account.2).mp
    rw [← hstate]
    exact hready
  · obtain ⟨address, haddress⟩ := Option.ne_none_iff_exists'.mp haddress
    obtain ⟨account, haccount, -⟩ := Option.map_eq_some_iff.mp haddress
    obtain ⟨hstate, -⟩ := hw.shown account haccount
    rw [(view_of_account haccount).2] at hnetwork
    show (useWallet _).ready = true
    rw [hstate]
    exact (ready_connectedState p account.1 account.2).mpr hnetwork

end UseWallet
