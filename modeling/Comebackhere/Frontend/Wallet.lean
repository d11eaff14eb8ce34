import Comebackhere.Library.Run

/-!
# The wallet shared by the page

All callers of `useWallet` share one state. A poll or a connect asks the wallet extension for the
account and then for its network, and shows what it has been told; polls, connects, disconnects and
the answers of the extension interleave in any way. A sequence number decides which answer counts.

## Main definitions

* `Wallet`, `Wallet.step`: the state shown, and the requests to the extension
* `Store`, `step`: the wallet with those who watch it, under the inputs of the page
* `useWallet`: what a component is given of it

## Main results

* `toWallet_step`: what an input of the page is to the wallet
* `tidy_run`: a timer runs just as long as somebody watches
-/

namespace UseWallet

open Machine

/-! ## States -/

inductive Reason
  | rejected
  | locked
  deriving DecidableEq

inductive WalletState
  | notInstalled
  | disconnected (error : Option String)
  | connecting
  | rejected (reason : Reason) (error : String)
  | connected (address : String) (network : Option String)
  | wrongNetwork (address network expectedNetwork : String)
  deriving DecidableEq

def initialState : WalletState := .disconnected none

def walletNotReadyReason : WalletState → Option String
  | .connected _ _ => none
  | .notInstalled => some "Install the Freighter wallet extension to sign transactions."
  | .disconnected _ => some "Connect your wallet to sign transactions."
  | .connecting =>
    some "Waiting for your wallet to connect. Approve the request in Freighter."
  | .rejected reason _ =>
    if reason = .locked then some "Your wallet is locked. Unlock Freighter and try again."
    else some "The connection request was rejected. Connect your wallet to continue."
  | .wrongNetwork _ _ _ =>
    some "Your wallet is on the wrong network. Switch Freighter to the expected network."

/-- What a component is given of the wallet. -/
structure View where
  ready : Bool
  notReadyReason : Option String
  address : Option String
  network : Option String
  connected : Bool
  connecting : Bool
  error : Option String
  isLocked : Bool
  isNotInstalled : Bool

/-- The account of a state that has one, with its network where it is known. -/
def WalletState.account : WalletState → Option (String × Option String)
  | .connected address network => some (address, network)
  | .wrongNetwork address network _ => some (address, some network)
  | _ => none

def WalletState.error : WalletState → Option String
  | .disconnected error => error
  | .rejected _ error => some error
  | _ => none

def WalletState.isConnected : WalletState → Bool
  | .connected _ _ => true
  | _ => false

def WalletState.isRejected : WalletState → Bool
  | .rejected _ _ => true
  | _ => false

def useWallet (wallet : WalletState) : View where
  ready := wallet.isConnected
  notReadyReason := walletNotReadyReason wallet
  address := wallet.account.map (·.1)
  network := wallet.account.bind (·.2)
  connected := wallet.account.isSome
  connecting := wallet = .connecting
  error := wallet.error
  isLocked := wallet.isRejected
  isNotInstalled := wallet = .notInstalled

/-! ## Answers of the extension -/

/-- What a promise is rejected with: an `Error`, or another value with its text. -/
inductive Thrown
  | error (message : String)
  | value (text : String) (truthy : Bool)

def rejectionIndicators : List String :=
  ["locked", "user rejected", "rejected", "declined", "not approved", "not allowed", "unauthorized"]

/-- `toLowerCase` of a character, where it is in ASCII. -/
def toLowerCase (c : Char) : List Char :=
  if c = '\u0130' then ['i', '\u0307'] else if c = '\u212A' then ['k'] else [c.toLower]

def includes (text : List Char) (indicator : String) : Bool := decide (indicator.toList <:+: text)

/-- The reason that a text gives. -/
def reasonOf (text : String) : Option Reason :=
  let message := text.toList.flatMap toLowerCase
  if rejectionIndicators.any (includes message) then
    if includes message "locked" then some .locked else some .rejected
  else none

def rejectionReason : Thrown → Option Reason
  | .error message => reasonOf message
  | .value text truthy => if truthy then reasonOf text else none

def errorState (err : Thrown) (fallback : String) : WalletState :=
  let message := match err with
    | .error message => message
    | .value _ _ => fallback
  match rejectionReason err with
  | some reason => .rejected reason message
  | none => .disconnected (some message)

/-- How `getAddress` settles. -/
inductive AddressAnswer
  | resolved (address : String) (error : Option String)
  | rejected (err : Thrown)

/-- How `getNetworkDetails` settles, which an extension may lack. -/
inductive NetworkAnswer
  | unsupported
  | resolved (passphrase : Option String)
  | rejected

def getNetwork : NetworkAnswer → Option String
  | .unsupported => none
  | .resolved passphrase => passphrase
  | .rejected => none

/-- `NETWORK_PASSPHRASE || Networks.STANDALONE` -/
def getNetworkPassphrase (configured : String) : String :=
  if configured = "" then "Standalone Network ; February 2017" else configured

def connectedState (configured address : String) (network : Option String) : WalletState :=
  let expectedNetwork := getNetworkPassphrase configured
  match network with
  | none => .connected address none
  | some network =>
    if expectedNetwork ≠ "" ∧ network ≠ expectedNetwork then
      .wrongNetwork address network expectedNetwork
    else .connected address (some network)

/-! ## Requests -/

inductive Origin
  | poll
  | connect
  deriving DecidableEq

def Origin.fallbackError : Origin → String
  | .poll => "Unknown error"
  | .connect => "Failed to connect wallet"

/-- Where a request is: it waits for the address, for the network, or to be resumed with the state
that `readWallet` has returned. A connect returns the state that is shown at its end. -/
inductive Stage
  | address
  | network (address : String)
  | answered (next : WalletState)
  | finished (returned : Option WalletState)
  deriving DecidableEq

structure Request where
  seq : ℕ
  origin : Origin
  stage : Stage

/-- `readWallet`, when `getAddress` has settled. -/
def readAddress (origin : Origin) : AddressAnswer → Stage
  | .resolved address error =>
    if error.getD "" ≠ "" then .answered (errorState (.error (error.getD "")) origin.fallbackError)
    else if address = "" then .answered (.disconnected none)
    else .network address
  | .rejected err => .answered (errorState err origin.fallbackError)

/-- The state shown, and the requests that have been made for it. -/
structure Wallet where
  state : WalletState
  userDisconnected : Bool
  requestSeq : ℕ
  requests : List Request

namespace Wallet

def pollPaused (w : Wallet) : Bool := w.state = .connecting || w.userDisconnected

/-- A request to the extension: the next sequence number, and the call of `getAddress`. -/
def ask (w : Wallet) (origin : Origin) : Wallet :=
  { w with
    requestSeq := w.requestSeq + 1
    requests := w.requests ++ [⟨w.requestSeq + 1, origin, .address⟩] }

/-- `checkConnection`, up to its first `await`. -/
def checkConnection (w : Wallet) (installed : Bool) : Wallet :=
  if w.pollPaused then w
  else if !installed then { w with state := .notInstalled }
  else w.ask .poll

/-- `connectWallet`, up to its first `await`. -/
def connectWallet (w : Wallet) (installed : Bool) : Wallet :=
  if !installed then
    { w with userDisconnected := false, requestSeq := w.requestSeq + 1, state := .notInstalled }
  else { w.ask .connect with userDisconnected := false, state := .connecting }

def disconnectWallet (w : Wallet) : Wallet :=
  { w with userDisconnected := true, requestSeq := w.requestSeq + 1, state := initialState }

/-- Nothing is watching the wallet any more: it starts fresh next time. -/
def reset (w : Wallet) : Wallet :=
  { w with userDisconnected := false, requestSeq := w.requestSeq + 1, state := initialState }

/-- A request goes on to a stage. -/
def goOn (w : Wallet) (i : ℕ) (r : Request) (stage : Stage) : Wallet :=
  { w with requests := w.requests.set i { r with stage } }

def onAddress (w : Wallet) (i : ℕ) (answer : AddressAnswer) : Wallet :=
  match w.requests[i]? with
  | some ⟨seq, origin, .address⟩ =>
    w.goOn i ⟨seq, origin, .address⟩ (readAddress origin answer)
  | _ => w

def onNetwork (w : Wallet) (configured : String) (i : ℕ) (answer : NetworkAnswer) : Wallet :=
  match w.requests[i]? with
  | some ⟨seq, origin, .network address⟩ =>
    w.goOn i ⟨seq, origin, .network address⟩
      (.answered (connectedState configured address (getNetwork answer)))
  | _ => w

/-- `checkConnection` or `connectWallet` goes on after its `await`. -/
def resume (w : Wallet) (i : ℕ) : Wallet :=
  match w.requests[i]? with
  | some ⟨seq, .poll, .answered next⟩ =>
    let w' := w.goOn i ⟨seq, .poll, .answered next⟩ (.finished none)
    if seq = w.requestSeq ∧ w.pollPaused = false then { w' with state := next } else w'
  | some ⟨seq, .connect, .answered next⟩ =>
    let state := if seq = w.requestSeq then next else w.state
    { w.goOn i ⟨seq, .connect, .answered next⟩ (.finished (some state)) with state }
  | _ => w

end Wallet

/-- What happens to the wallet. -/
inductive Event
  | idle
  | poll (installed : Bool)
  | connect (installed : Bool)
  | disconnect
  | reset
  | address (i : ℕ) (answer : AddressAnswer)
  | network (i : ℕ) (answer : NetworkAnswer)
  | resume (i : ℕ)

def Wallet.step (configured : String) (w : Wallet) : Event → Wallet
  | .idle => w
  | .poll installed => w.checkConnection installed
  | .connect installed => w.connectWallet installed
  | .disconnect => w.disconnectWallet
  | .reset => w.reset
  | .address i answer => w.onAddress i answer
  | .network i answer => w.onNetwork configured i answer
  | .resume i => w.resume i

/-! ## The store -/

/-- Those who watch the wallet, and the timer that polls for them. Every subscription has a listener
of its own, and the timer of a subscription goes by the same number. -/
structure Watch where
  listeners : List ℕ
  subscriptions : ℕ
  timers : List ℕ
  pollTimer : Option ℕ
  windowListening : Bool

structure Store extends Wallet, Watch

/-- What the page, its user and the extension do. The extension is looked up in the window each time
that it is asked. -/
inductive Input
  | connect (installed : Bool)
  | disconnect
  | subscribe (installed : Bool)
  | unsubscribe (listener : ℕ)
  | tick (timer : ℕ) (installed : Bool)
  | windowRefresh (hidden installed : Bool)
  | address (i : ℕ) (answer : AddressAnswer)
  | network (i : ℕ) (answer : NetworkAnswer)
  | resume (i : ℕ)

def subscribe (s : Store) (installed : Bool) : Store :=
  let listener := s.subscriptions
  let s := { s with listeners := s.listeners ++ [listener], subscriptions := s.subscriptions + 1 }
  if s.listeners.length = 1 then
    { s with
      toWallet := s.checkConnection installed
      timers := s.timers ++ [listener]
      pollTimer := some listener
      windowListening := true }
  else s

/-- The function that `subscribe` returns. -/
def unsubscribe (s : Store) (listener : ℕ) : Store :=
  let s := { s with listeners := s.listeners.filter (· ≠ listener) }
  if s.listeners.length = 0 then
    { s with
      toWallet := s.reset
      timers := s.timers.filter (some · ≠ s.pollTimer)
      pollTimer := none
      windowListening := false }
  else s

def onWindowRefresh (s : Store) (hidden installed : Bool) : Store :=
  if hidden then s else { s with toWallet := s.checkConnection installed }

def step (configured : String) (s : Store) : Input → Store
  | .connect installed => { s with toWallet := s.connectWallet installed }
  | .disconnect => { s with toWallet := s.disconnectWallet }
  | .subscribe installed => subscribe s installed
  | .unsubscribe listener => unsubscribe s listener
  | .tick timer installed =>
    if timer ∈ s.timers then { s with toWallet := s.checkConnection installed } else s
  | .windowRefresh hidden installed =>
    if s.windowListening then onWindowRefresh s hidden installed else s
  | .address i answer => { s with toWallet := s.onAddress i answer }
  | .network i answer => { s with toWallet := s.onNetwork configured i answer }
  | .resume i => { s with toWallet := s.toWallet.resume i }

def initial : Store := ⟨⟨initialState, false, 0, []⟩, ⟨[], 0, [], none, false⟩⟩

/-- What an input is to the wallet. -/
def Input.event (s : Store) : Input → Event
  | .connect installed => .connect installed
  | .disconnect => .disconnect
  | .subscribe installed => if s.listeners = [] then .poll installed else .idle
  | .unsubscribe listener => if s.listeners.filter (· ≠ listener) = [] then .reset else .idle
  | .tick timer installed => if timer ∈ s.timers then .poll installed else .idle
  | .windowRefresh hidden installed =>
    if s.windowListening ∧ hidden = false then .poll installed else .idle
  | .address i answer => .address i answer
  | .network i answer => .network i answer
  | .resume i => .resume i

/-- **The store acts on the wallet** as its inputs say. -/
theorem toWallet_step (configured : String) (s : Store) (i : Input) :
    (step configured s i).toWallet = s.toWallet.step configured (i.event s) := by
  cases i with
  | connect | disconnect | address | network | resume => rfl
  | subscribe installed =>
    by_cases hnone : s.listeners = [] <;> simp [step, subscribe, Input.event, hnone, Wallet.step]
  | unsubscribe listener =>
    simp only [step, unsubscribe, Input.event, List.length_eq_zero_iff]
    split <;> rfl
  | tick timer installed =>
    simp only [step, Input.event]
    split <;> rfl
  | windowRefresh hidden installed =>
    cases hidden <;> cases hwindow : s.windowListening <;>
      simp [step, onWindowRefresh, Input.event, hwindow, Wallet.step]

/-! ## Watching -/

/-- There is one timer while somebody watches, and none otherwise. -/
structure Watch.Tidy (w : Watch) : Prop where
  timers : w.timers = w.pollTimer.toList
  polling : w.pollTimer.isSome = true ↔ w.listeners ≠ []
  window : w.windowListening = true ↔ w.listeners ≠ []

theorem Watch.Tidy.step {configured : String} {s : Store} (hs : s.Tidy) (i : Input) :
    (UseWallet.step configured s i).Tidy := by
  cases i with
  | connect | disconnect | address | network | resume => exact hs
  | subscribe installed =>
    by_cases hnone : s.listeners = []
    · -- the first listener: there was no timer before
      have hpoll : s.pollTimer = none := by
        have hiff := hs.polling
        rw [hnone] at hiff
        simpa using hiff
      have htimers : s.timers = [] := by
        rw [hs.timers, hpoll]
        rfl
      simp only [UseWallet.step, subscribe, hnone, List.nil_append, List.length_singleton, if_true]
      refine ⟨?_, by simp, by simp⟩
      simp [htimers]
    · have hlen : ¬ (s.listeners ++ [s.subscriptions]).length = 1 := by
        rw [List.length_append, List.length_singleton]
        have := List.length_pos_iff.mpr hnone
        omega
      simp only [UseWallet.step, subscribe, if_neg hlen]
      refine ⟨hs.timers, ?_, ?_⟩
      · exact iff_of_true (hs.polling.mpr hnone) (by simp)
      · exact iff_of_true (hs.window.mpr hnone) (by simp)
  | unsubscribe listener =>
    by_cases hnone : s.listeners.filter (· ≠ listener) = []
    · simp only [UseWallet.step, unsubscribe, hnone, List.length_nil, if_true]
      refine ⟨?_, by simp, by simp⟩
      show s.timers.filter (some · ≠ s.pollTimer) = []
      rw [hs.timers]
      cases s.pollTimer <;> simp
    · have hsome : s.listeners ≠ [] := fun he => hnone (by rw [he]; rfl)
      have hlen : ¬ (s.listeners.filter (· ≠ listener)).length = 0 := by
        rwa [List.length_eq_zero_iff]
      simp only [UseWallet.step, unsubscribe, if_neg hlen]
      refine ⟨hs.timers, ?_, ?_⟩
      · exact iff_of_true (hs.polling.mpr hsome) hnone
      · exact iff_of_true (hs.window.mpr hsome) hnone
  | tick timer installed =>
    simp only [UseWallet.step]
    split <;> exact hs
  | windowRefresh hidden installed =>
    simp only [UseWallet.step, onWindowRefresh]
    split
    · split <;> exact hs
    · exact hs

theorem tidy_run (configured : String) (is : List Input) :
    (run (step configured) initial is).Tidy := by
  induction is using List.reverseRecOn with
  | nil => exact ⟨rfl, by simp [initial], by simp [initial]⟩
  | append_singleton is i ih =>
    rw [run_snoc]
    exact ih.step i

end UseWallet
