import Comebackhere.Frontend.Wallet
import Comebackhere.Library.Crew

/-!
# The order of the answers of a wallet

Requests to the wallet extension are answered in any order. A request draws a sequence number when
it is made, and so does what the user decides; an answer counts if no number has been drawn since.

## Main definitions

* `Current p h i`: nothing has superseded the request `i` since it was made
* `Tracks p h w`: what is known of the wallet at a point of a history

## Main results

* `Numbered.step`: the newest number is that of the current request
* `Tracks.not_paused`: the guard of a poll against pauses never fails
* `latest_counts`: an answer is shown just if its request is current, a connect is shown just as
  long as it is current, and a disconnect stays
-/

namespace UseWallet

open Machine Crew

/-! ## Sequence numbers -/

/-- Something that happens to the wallet, with the wallet before it. -/
abbrev Move := Wallet × Event

/-- What the user decides, or the page when it stops watching. -/
def Event.Intends : Event → Prop
  | .connect _ | .disconnect | .reset => True
  | _ => False

/-- The request `i` is made. -/
def Starts (p : String) (i : ℕ) (t : Move) : Prop :=
  t.1.requests.length = i ∧ (t.1.step p t.2).requests.length = i + 1

/-- The requests made so far count no longer. -/
def Supersedes (p : String) (t : Move) : Prop := t.2.Intends ∨ ∃ i, Starts p i t

/-- Nothing has superseded the request `i` since it was made. -/
def Current (p : String) (h : List Move) (i : ℕ) : Prop :=
  Since (fun _ => Starts p i) (Supersedes p) h

/-- The sequence numbers of the requests. -/
def Wallet.seqs (w : Wallet) : List ℕ := w.requests.map (·.seq)

section Numbered

variable {p : String} {h : List Move} {w : Wallet} {e : Event} {i : ℕ} {r : Request}

@[simp] theorem Wallet.length_seqs (w : Wallet) : w.seqs.length = w.requests.length :=
  List.length_map ..

/-- A request that goes on keeps its number. -/
theorem Wallet.seqs_goOn (hr : w.requests[i]? = some r) (stage : Stage) :
    (w.goOn i r stage).seqs = w.seqs := by
  apply List.ext_getElem?
  intro j
  show ((w.requests.set i { r with stage }).map (·.seq))[j]? = (w.requests.map (·.seq))[j]?
  rw [List.getElem?_map, List.getElem?_map, List.getElem?_set]
  split
  · next hij =>
    subst hij
    rw [hr, if_pos (List.getElem?_eq_some_iff.mp hr).1]
    rfl
  · rfl

/-- **What a step does to the numbers**: none is drawn, one is drawn for a request, or one is drawn
by what the user decides. -/
theorem Wallet.step_seqs (p : String) (w : Wallet) (e : Event) :
    (¬ e.Intends ∧ (w.step p e).requestSeq = w.requestSeq ∧ (w.step p e).seqs = w.seqs) ∨
    ((e.Intends ∨ w.pollPaused = false) ∧ (w.step p e).requestSeq = w.requestSeq + 1 ∧
      (w.step p e).seqs = w.seqs ++ [w.requestSeq + 1]) ∨
    (e.Intends ∧ (w.step p e).requestSeq = w.requestSeq + 1 ∧ (w.step p e).seqs = w.seqs) := by
  cases e with
  | idle => exact Or.inl ⟨id, rfl, rfl⟩
  | poll installed =>
    simp only [Wallet.step, checkConnection]
    split
    · exact Or.inl ⟨id, rfl, rfl⟩
    · next hfree =>
      split
      · exact Or.inl ⟨id, rfl, rfl⟩
      · exact Or.inr (Or.inl ⟨Or.inr (by simpa using hfree), rfl, List.map_append ..⟩)
  | connect installed =>
    simp only [Wallet.step, connectWallet]
    split
    · exact Or.inr (Or.inr ⟨trivial, rfl, rfl⟩)
    · exact Or.inr (Or.inl ⟨Or.inl trivial, rfl, List.map_append ..⟩)
  | disconnect => exact Or.inr (Or.inr ⟨trivial, rfl, rfl⟩)
  | reset => exact Or.inr (Or.inr ⟨trivial, rfl, rfl⟩)
  | address i answer =>
    refine Or.inl ⟨id, ?_⟩
    simp only [Wallet.step, onAddress]
    split
    · next seq origin hr => exact ⟨rfl, seqs_goOn hr _⟩
    · exact ⟨rfl, rfl⟩
  | network i answer =>
    refine Or.inl ⟨id, ?_⟩
    simp only [Wallet.step, onNetwork]
    split
    · next seq origin address hr => exact ⟨rfl, seqs_goOn hr _⟩
    · exact ⟨rfl, rfl⟩
  | resume i =>
    refine Or.inl ⟨id, ?_⟩
    simp only [Wallet.step, resume]
    split
    · next seq next hr =>
      have hseqs := seqs_goOn hr (.finished none)
      split
      · exact ⟨rfl, hseqs⟩
      · exact ⟨rfl, hseqs⟩
    · next seq next hr =>
      exact ⟨rfl, seqs_goOn hr (.finished (some (if seq = w.requestSeq then next else w.state)))⟩
    · exact ⟨rfl, rfl⟩

/-- A request has the newest number if it is current, and the numbers grow. -/
structure Numbered (p : String) (h : List Move) (w : Wallet) : Prop where
  le : ∀ n ∈ w.seqs, n ≤ w.requestSeq
  sorted : w.seqs.Pairwise (· < ·)
  current : ∀ i n, w.seqs[i]? = some n → (n = w.requestSeq ↔ Current p h i)

theorem starts_iff : Starts p i (w, e) ↔
    w.seqs.length = i ∧ (w.step p e).seqs.length = i + 1 := by
  rw [Starts, Wallet.length_seqs, Wallet.length_seqs]

/-- **The newest number is that of the current request.** -/
theorem Numbered.step (hw : Numbered p h w) (e : Event) :
    Numbered p (h ++ [(w, e)]) (w.step p e) := by
  have hlt : ∀ {i n : ℕ}, w.seqs[i]? = some n → n < w.requestSeq + 1 := fun hn =>
    Nat.lt_succ_of_le (hw.le _ (List.mem_of_getElem? hn))
  rcases w.step_seqs p e with ⟨he, hseq, hseqs⟩ | ⟨-, hseq, hseqs⟩ | ⟨he, hseq, hseqs⟩
  · -- no number is drawn: nothing starts, and nothing is superseded
    have hstarts : ∀ j, ¬ Starts p j (w, e) := by
      intro j hj
      rw [starts_iff, hseqs] at hj
      omega
    refine ⟨by rw [hseq, hseqs]; exact hw.le, by rw [hseqs]; exact hw.sorted, fun i n hn => ?_⟩
    rw [hseqs] at hn
    rw [hseq, hw.current i n hn, Current, Current, since_snoc]
    constructor
    · exact fun hc => Or.inr ⟨hc, fun hs => hs.elim he fun ⟨j, hj⟩ => hstarts j hj⟩
    · rintro (hs | ⟨hc, -⟩)
      · exact absurd hs (hstarts i)
      · exact hc
  · -- a number is drawn for the new request, which supersedes the others
    have hstarts : Starts p w.seqs.length (w, e) := by
      rw [starts_iff, hseqs]
      exact ⟨rfl, List.length_append⟩
    refine ⟨fun n hn => ?_, ?_, fun i n hn => ?_⟩
    · rw [hseqs, List.mem_append, List.mem_singleton] at hn
      rw [hseq]
      rcases hn with hn | rfl
      · exact (hw.le n hn).trans (Nat.le_succ _)
      · exact le_refl _
    · rw [hseqs, List.pairwise_append]
      refine ⟨hw.sorted, List.pairwise_singleton _ _, fun n hn m hm => ?_⟩
      rw [List.mem_singleton.mp hm]
      exact Nat.lt_succ_of_le (hw.le n hn)
    · rw [hseq, Current, since_snoc]
      rw [hseqs] at hn
      rcases lt_or_ge i w.seqs.length with hi | hi
      · rw [List.getElem?_append_left hi] at hn
        refine iff_of_false (hlt hn).ne ?_
        rintro (hs | ⟨-, hs⟩)
        · exact hi.ne (starts_iff.mp hs).1.symm
        · exact hs (Or.inr ⟨_, hstarts⟩)
      · obtain ⟨hlen, -⟩ := List.getElem?_eq_some_iff.mp hn
        obtain rfl : i = w.seqs.length := by
          rw [List.length_append, List.length_singleton] at hlen
          omega
        rw [List.getElem?_concat_length] at hn
        exact iff_of_true (Option.some.inj hn).symm (Or.inl hstarts)
  · -- a number is drawn, and no request has it
    refine ⟨fun n hn => ?_, by rw [hseqs]; exact hw.sorted, fun i n hn => ?_⟩
    · rw [hseqs] at hn
      rw [hseq]
      exact (hw.le n hn).trans (Nat.le_succ _)
    · rw [hseqs] at hn
      rw [hseq, Current, since_snoc]
      refine iff_of_false (hlt hn).ne ?_
      rintro (hs | ⟨-, hs⟩)
      · rw [starts_iff, hseqs] at hs
        omega
      · exact hs (Or.inl he)

end Numbered

/-! ## The state shown -/

/-- The user connects, or the last subscriber leaves and the store is reset. -/
def Event.Reconnects : Event → Prop
  | .connect _ | .reset => True
  | _ => False

/-- The user has disconnected, and there has been no new start since. -/
def Disconnected (h : List Move) : Prop :=
  Since (fun _ t => t.2 = .disconnect) (fun t => t.2.Reconnects) h

def Stage.isFinished : Stage → Bool
  | .finished _ => true
  | _ => false

/-- A connect has the newest number, and is not finished. -/
def Wallet.Connecting (w : Wallet) : Prop :=
  ∃ (i : ℕ) (r : Request), w.requests[i]? = some r ∧ r.origin = .connect ∧ r.seq = w.requestSeq ∧
    r.stage.isFinished = false

/-- What is known of the wallet at a point of a history. -/
structure Tracks (p : String) (h : List Move) (w : Wallet) : Prop extends Numbered p h w where
  answered : ∀ r ∈ w.requests, r.stage ≠ .answered .connecting
  connecting : w.state = .connecting ↔ w.Connecting
  paused : w.userDisconnected = true → w.state = initialState ∧ w.requestSeq ∉ w.seqs
  disconnected : w.userDisconnected = true ↔ Disconnected h

section Tracks

variable {p : String} {h : List Move} {w : Wallet} {e : Event} {i j : ℕ} {r r' : Request}
  {stage : Stage}

theorem errorState_ne_connecting (err : Thrown) (fallback : String) :
    errorState err fallback ≠ .connecting := by
  unfold errorState
  dsimp only
  split <;> simp

theorem connectedState_ne_connecting (address : String) (network : Option String) :
    connectedState p address network ≠ .connecting := by
  cases network with
  | none => simp [connectedState]
  | some network =>
    simp only [connectedState]
    split <;> simp

theorem readAddress_ne (origin : Origin) (answer : AddressAnswer) :
    readAddress origin answer ≠ .answered .connecting := by
  cases answer with
  | resolved address error =>
    simp only [readAddress]
    split
    · exact fun he => errorState_ne_connecting _ _ (Stage.answered.inj he)
    · split <;> simp
  | rejected err => exact fun he => errorState_ne_connecting _ _ (Stage.answered.inj he)

theorem isFinished_readAddress (origin : Origin) (answer : AddressAnswer) :
    (readAddress origin answer).isFinished = false := by
  cases answer with
  | resolved address error =>
    simp only [readAddress]
    split
    · rfl
    · split <;> rfl
  | rejected err => rfl

theorem Wallet.getElem?_seqs (hr : w.requests[i]? = some r) : w.seqs[i]? = some r.seq := by
  rw [Wallet.seqs, List.getElem?_map, hr]
  rfl

/-- No two requests have the same number. -/
theorem Numbered.index_eq (hw : Numbered p h w) (hr : w.requests[i]? = some r)
    (hr' : w.requests[j]? = some r') (hseq : r.seq = r'.seq) : i = j := by
  have hnodup : w.seqs.Nodup := hw.sorted.imp fun hlt => hlt.ne
  have hi := Wallet.getElem?_seqs hr
  rw [hseq, ← Wallet.getElem?_seqs hr'] at hi
  exact (List.getElem?_inj (List.getElem?_eq_some_iff.mp (Wallet.getElem?_seqs hr)).1 hnodup).mp
    ((Wallet.getElem?_seqs hr).trans (hseq ▸ (Wallet.getElem?_seqs hr').symm))

/-- A request that goes on does not end a connect, unless it is one with the newest number. -/
theorem Wallet.connecting_goOn (hr : w.requests[i]? = some r) (hopen : r.stage.isFinished = false)
    (hstays : stage.isFinished = false ∨ r.origin = .poll ∨ r.seq ≠ w.requestSeq) :
    (w.goOn i r stage).Connecting ↔ w.Connecting := by
  constructor
  · rintro ⟨j, r', hr', horigin, hseq, hstage⟩
    rcases getElem?_set_eq_some hr' with ⟨-, rfl⟩ | ⟨-, hr'⟩
    · exact ⟨i, r, hr, horigin, hseq, hopen⟩
    · exact ⟨j, r', hr', horigin, hseq, hstage⟩
  · rintro ⟨j, r', hr', horigin, hseq, hstage⟩
    by_cases hij : i = j
    · subst hij
      obtain rfl := Option.some.inj (hr.symm.trans hr')
      refine ⟨i, { r with stage }, ?_, horigin, hseq, ?_⟩
      · exact List.getElem?_set_self (List.getElem?_eq_some_iff.mp hr).1
      · rcases hstays with hstage | hpoll | hseq'
        · exact hstage
        · rw [horigin] at hpoll
          cases hpoll
        · exact absurd hseq hseq'
    · exact ⟨j, r', (List.getElem?_set_ne hij).trans hr', horigin, hseq, hstage⟩

/-- The connect with the newest number ends. -/
theorem Numbered.not_connecting_goOn (hw : Numbered p h w) (hr : w.requests[i]? = some r)
    (hseq : r.seq = w.requestSeq) (hstage : stage.isFinished = true) :
    ¬ (w.goOn i r stage).Connecting := by
  rintro ⟨j, r', hr', -, hseq', hstage'⟩
  rcases getElem?_set_eq_some hr' with ⟨-, rfl⟩ | ⟨hne, hr'⟩
  · rw [hstage] at hstage'
    cases hstage'
  · exact hne (hw.index_eq hr' hr (hseq'.trans hseq.symm))

/-- No request has a number that is still to be drawn. -/
theorem Numbered.succ_notMem (hw : Numbered p h w) : w.requestSeq + 1 ∉ w.seqs :=
  fun hmem => absurd (hw.le _ hmem) (Nat.not_succ_le_self _)

theorem Wallet.mem_seqs (hr : w.requests[i]? = some r) : r.seq ∈ w.seqs :=
  List.mem_map_of_mem (List.mem_of_getElem? hr)

/-- A connect that had a number so far does not have the next one. -/
theorem Numbered.not_connecting_succ (hw : Numbered p h w) {w' : Wallet}
    (hrequests : w'.requests = w.requests) (hseq : w'.requestSeq = w.requestSeq + 1) :
    ¬ w'.Connecting := by
  rintro ⟨j, r, hr, -, hseq', -⟩
  rw [hrequests] at hr
  rw [hseq] at hseq'
  exact hw.succ_notMem (hseq' ▸ Wallet.mem_seqs hr)

theorem Wallet.pollPaused_eq_false :
    w.pollPaused = false ↔ w.state ≠ .connecting ∧ w.userDisconnected = false := by
  simp [pollPaused]

/-- **The second guard of a poll never fails**: a poll that has the newest number is not paused. -/
theorem Tracks.not_paused (hw : Tracks p h w) (hr : w.requests[i]? = some r)
    (hpoll : r.origin = .poll) (hseq : r.seq = w.requestSeq) : w.pollPaused = false := by
  refine Wallet.pollPaused_eq_false.mpr ⟨fun hstate => ?_, ?_⟩
  · obtain ⟨j, r', hr', horigin, hseq', -⟩ := hw.connecting.mp hstate
    obtain rfl := hw.index_eq hr hr' (hseq.trans hseq'.symm)
    obtain rfl := Option.some.inj (hr.symm.trans hr')
    rw [hpoll] at horigin
    cases horigin
  · by_contra hdisconnected
    exact (hw.paused (by simpa using hdisconnected)).2 (hseq ▸ Wallet.mem_seqs hr)

end Tracks

/-- The extension answers a request that waits for the address, or one that does not. -/
theorem Wallet.onAddress_cases (w : Wallet) (i : ℕ) (answer : AddressAnswer) :
    w.onAddress i answer = w ∨ ∃ r, w.requests[i]? = some r ∧ r.stage = .address ∧
      w.onAddress i answer = w.goOn i r (readAddress r.origin answer) := by
  unfold onAddress
  split
  · next seq origin hr => exact Or.inr ⟨⟨seq, origin, .address⟩, hr, rfl, rfl⟩
  · exact Or.inl rfl

theorem Wallet.onNetwork_cases (w : Wallet) (p : String) (i : ℕ) (answer : NetworkAnswer) :
    w.onNetwork p i answer = w ∨ ∃ r address, w.requests[i]? = some r ∧
      r.stage = .network address ∧ w.onNetwork p i answer =
        w.goOn i r (.answered (connectedState p address (getNetwork answer))) := by
  unfold onNetwork
  split
  · next seq origin address hr =>
    exact Or.inr ⟨⟨seq, origin, .network address⟩, address, hr, rfl, rfl⟩
  · exact Or.inl rfl

theorem Wallet.resume_cases (w : Wallet) (i : ℕ) :
    w.resume i = w ∨ ∃ r next, w.requests[i]? = some r ∧ r.stage = .answered next := by
  unfold resume
  split
  · next seq next hr => exact Or.inr ⟨⟨seq, .poll, .answered next⟩, next, hr, rfl⟩
  · next seq next hr => exact Or.inr ⟨⟨seq, .connect, .answered next⟩, next, hr, rfl⟩
  · exact Or.inl rfl

section TracksStep

variable {p : String} {h : List Move} {w : Wallet} {e : Event} {i : ℕ} {r : Request}
  {next : WalletState}

/-- **An answer counts** if its request has the newest number, for polls and connects alike. -/
theorem Tracks.resume_eq (hw : Tracks p h w) (hr : w.requests[i]? = some r)
    (hstage : r.stage = .answered next) : ∃ returned, w.resume i =
      { w.goOn i r (.finished returned) with
        state := if r.seq = w.requestSeq then next else w.state } := by
  obtain ⟨seq, origin, stage⟩ := r
  obtain rfl : stage = .answered next := hstage
  cases origin with
  | poll =>
    refine ⟨none, ?_⟩
    simp only [Wallet.resume, hr]
    by_cases hseq : seq = w.requestSeq
    · rw [if_pos ⟨hseq, hw.not_paused hr rfl hseq⟩, if_pos hseq]
    · rw [if_neg fun hc => hseq hc.1, if_neg hseq]
      rfl
  | connect =>
    refine ⟨some (if seq = w.requestSeq then next else w.state), ?_⟩
    simp only [Wallet.resume, hr]

theorem Tracks.state_resume (hw : Tracks p h w) (hr : w.requests[i]? = some r)
    (hstage : r.stage = .answered next) :
    (w.resume i).state = if r.seq = w.requestSeq then next else w.state := by
  obtain ⟨returned, he⟩ := hw.resume_eq hr hstage
  rw [he]

theorem Wallet.userDisconnected_step (p : String) (w : Wallet) (e : Event) :
    (w.step p e).userDisconnected = true ↔
      e = .disconnect ∨ (w.userDisconnected = true ∧ ¬ e.Reconnects) := by
  cases e with
  | idle => simp [Wallet.step, Event.Reconnects]
  | poll installed =>
    simp only [Wallet.step, checkConnection, Event.Reconnects]
    split
    · simp
    · split <;> simp [ask]
  | connect installed => cases installed <;> simp [Wallet.step, connectWallet, Event.Reconnects]
  | disconnect => simp [Wallet.step, disconnectWallet]
  | reset => simp [Wallet.step, reset, Event.Reconnects]
  | address i answer =>
    rcases w.onAddress_cases i answer with he | ⟨r, -, -, he⟩ <;>
      simp [Wallet.step, he, goOn, Event.Reconnects]
  | network i answer =>
    rcases w.onNetwork_cases p i answer with he | ⟨r, address, -, -, he⟩ <;>
      simp [Wallet.step, he, goOn, Event.Reconnects]
  | resume i =>
    simp only [Wallet.step, resume, Event.Reconnects]
    split
    · split <;> simp [goOn]
    · simp [goOn]
    · simp

theorem disconnected_snoc : Disconnected (h ++ [(w, e)]) ↔
    e = .disconnect ∨ (Disconnected h ∧ ¬ e.Reconnects) := by
  rw [Disconnected, since_snoc]
  rfl

/-- Requests keep what holds of their stages when one of them goes on to a stage it holds of. -/
theorem Wallet.forall_mem_goOn {P : Stage → Prop} (hall : ∀ r ∈ w.requests, P r.stage)
    {stage : Stage} (hstage : P stage) (i : ℕ) (r : Request) :
    ∀ r' ∈ (w.goOn i r stage).requests, P r'.stage :=
  forall_mem_set (P := fun r : Request => P r.stage) hall hstage i

/-- A wallet that is left as it is, but for a request that goes on without ending. -/
theorem Tracks.goOn (hw : Tracks p h w) (hr : w.requests[i]? = some r)
    (hopen : r.stage.isFinished = false) {stage : Stage} (hstage : stage.isFinished = false)
    (hanswered : stage ≠ .answered .connecting) :
    (∀ r' ∈ (w.goOn i r stage).requests, r'.stage ≠ .answered .connecting) ∧
      ((w.goOn i r stage).state = .connecting ↔ (w.goOn i r stage).Connecting) ∧
      ((w.goOn i r stage).userDisconnected = true → (w.goOn i r stage).state = initialState ∧
        (w.goOn i r stage).requestSeq ∉ (w.goOn i r stage).seqs) := by
  refine ⟨Wallet.forall_mem_goOn (P := (· ≠ .answered .connecting)) hw.answered hanswered i r, ?_,
    fun hdisconnected => ?_⟩
  · rw [Wallet.connecting_goOn hr hopen (Or.inl hstage)]
    exact hw.connecting
  · rw [Wallet.seqs_goOn hr]
    exact hw.paused hdisconnected

/-- **No step breaks what is known of the wallet.** -/
theorem Tracks.step (hw : Tracks p h w) (e : Event) : Tracks p (h ++ [(w, e)]) (w.step p e) := by
  -- the part on the numbers and the part on the history hold of every step alike
  suffices hrest : (∀ r ∈ (w.step p e).requests, r.stage ≠ .answered .connecting) ∧
      ((w.step p e).state = .connecting ↔ (w.step p e).Connecting) ∧
      ((w.step p e).userDisconnected = true → (w.step p e).state = initialState ∧
        (w.step p e).requestSeq ∉ (w.step p e).seqs) by
    refine ⟨hw.toNumbered.step e, hrest.1, hrest.2.1, hrest.2.2, ?_⟩
    rw [Wallet.userDisconnected_step, hw.disconnected, disconnected_snoc]
  cases e with
  | idle => exact ⟨hw.answered, hw.connecting, hw.paused⟩
  | poll installed =>
    by_cases hpaused : w.pollPaused = true
    · rw [Wallet.step, Wallet.checkConnection, if_pos hpaused]
      exact ⟨hw.answered, hw.connecting, hw.paused⟩
    have hfree : w.pollPaused = false := by simpa using hpaused
    obtain ⟨hstate, huser⟩ := Wallet.pollPaused_eq_false.mp hfree
    rw [Wallet.step, Wallet.checkConnection, if_neg hpaused]
    cases installed with
    | false =>
      refine ⟨hw.answered, iff_of_false (by simp) fun hc => hstate (hw.connecting.mpr hc), ?_⟩
      exact fun hdisconnected => absurd (huser.symm.trans hdisconnected) (by decide)
    | true =>
      refine ⟨?_, iff_of_false hstate ?_, ?_⟩
      · exact List.forall_mem_append.mpr ⟨hw.answered, by simp⟩
      · -- the newest number is that of the poll
        rintro ⟨j, r, hr, horigin, hseq, -⟩
        have hnew : r.seq = w.requestSeq + 1 := hseq
        rcases List.mem_append.mp (List.mem_of_getElem? hr) with hmem | hmem
        · exact hw.succ_notMem (hnew ▸ List.mem_map_of_mem hmem)
        · obtain rfl := List.mem_singleton.mp hmem
          cases horigin
      · exact fun hdisconnected => absurd (huser.symm.trans hdisconnected) (by decide)
  | connect installed =>
    cases installed with
    | false =>
      refine ⟨hw.answered, iff_of_false (by simp [Wallet.step, Wallet.connectWallet]) ?_, ?_⟩
      · exact hw.not_connecting_succ rfl rfl
      · exact fun hdisconnected => absurd hdisconnected Bool.false_ne_true
    | true =>
      refine ⟨?_, iff_of_true rfl ?_, fun hdisconnected => absurd hdisconnected Bool.false_ne_true⟩
      · exact List.forall_mem_append.mpr ⟨hw.answered, by simp⟩
      · exact ⟨w.requests.length, ⟨w.requestSeq + 1, .connect, .address⟩,
          List.getElem?_concat_length, rfl, rfl, rfl⟩
  | disconnect =>
    refine ⟨hw.answered, iff_of_false (by simp [Wallet.step, Wallet.disconnectWallet, initialState])
      (hw.not_connecting_succ rfl rfl), fun _ => ⟨rfl, hw.succ_notMem⟩⟩
  | reset =>
    refine ⟨hw.answered, iff_of_false (by simp [Wallet.step, Wallet.reset, initialState])
      (hw.not_connecting_succ rfl rfl), fun _ => ⟨rfl, hw.succ_notMem⟩⟩
  | address i answer =>
    rcases w.onAddress_cases i answer with he | ⟨r, hr, hstage, he⟩ <;> rw [Wallet.step, he]
    · exact ⟨hw.answered, hw.connecting, hw.paused⟩
    · exact hw.goOn hr (by rw [hstage]; rfl) (isFinished_readAddress _ _) (readAddress_ne _ _)
  | network i answer =>
    rcases w.onNetwork_cases p i answer with he | ⟨r, address, hr, hstage, he⟩ <;>
      rw [Wallet.step, he]
    · exact ⟨hw.answered, hw.connecting, hw.paused⟩
    · exact hw.goOn hr (by rw [hstage]; rfl) rfl fun hc =>
        connectedState_ne_connecting _ _ (Stage.answered.inj hc)
  | resume i =>
    rcases w.resume_cases i with he | ⟨r, next, hr, hstage⟩
    · rw [Wallet.step, he]
      exact ⟨hw.answered, hw.connecting, hw.paused⟩
    have hopen : r.stage.isFinished = false := by rw [hstage]; rfl
    have hnext : next ≠ .connecting := fun hc =>
      hw.answered r (List.mem_of_getElem? hr) (hc ▸ hstage)
    obtain ⟨returned, he⟩ := hw.resume_eq hr hstage
    have hfinished : Stage.finished returned ≠ .answered .connecting := by simp
    have hanswered := Wallet.forall_mem_goOn (P := (· ≠ .answered .connecting)) hw.answered
      hfinished i r
    rw [Wallet.step, he]
    by_cases hseq : r.seq = w.requestSeq
    · -- the answer is shown, and no connect is left that counts
      rw [if_pos hseq]
      refine ⟨hanswered, iff_of_false hnext (hw.not_connecting_goOn hr hseq rfl),
        fun hdisconnected => absurd ?_ (hw.paused hdisconnected).2⟩
      exact hseq ▸ Wallet.mem_seqs hr
    · rw [if_neg hseq]
      refine ⟨hanswered, ?_, fun hdisconnected => ?_⟩
      · exact hw.connecting.trans (Wallet.connecting_goOn hr hopen (Or.inr (Or.inr hseq))).symm
      · refine ⟨(hw.paused hdisconnected).1, fun hmem => (hw.paused hdisconnected).2 ?_⟩
        rw [← Wallet.seqs_goOn hr (.finished returned)]
        exact hmem

end TracksStep

/-! ## Runs -/

/-- An input of the page, as what it is to the wallet. -/
def move (t : Store × Input) : Move := (t.1.toWallet, t.2.event t.1)

section Runs

variable {p : String} {h : List Move} {w : Wallet} {e : Event} {s : Store}

theorem tracks_initial (p : String) : Tracks p [] initial.toWallet where
  le := by simp [initial, Wallet.seqs]
  sorted := List.Pairwise.nil
  current := by simp [initial, Wallet.seqs]
  answered := by simp [initial]
  connecting :=
    iff_of_false (by simp [initial, initialState]) (by simp [initial, Wallet.Connecting])
  paused := by simp [initial]
  disconnected := iff_of_false (by simp [initial]) not_since_nil

/-- What is known of the wallet is known at every point of a run of the store. -/
theorem tracks_run (p : String) (is : List Input) :
    Tracks p ((transitions (step p) initial is).map move) (run (step p) initial is).toWallet := by
  induction is using List.reverseRecOn with
  | nil => exact tracks_initial p
  | append_singleton is i ih =>
    rw [transitions_snoc, run_snoc, toWallet_step, List.map_append]
    exact ih.step _

/-- After a disconnect no request is made, until the user connects or the store is reset. -/
theorem Tracks.stays (hw : Tracks p h w) (hdisconnected : Disconnected h) (he : ¬ e.Reconnects) :
    (w.step p e).state = initialState ∧ (w.step p e).requests.length = w.requests.length := by
  have huser := hw.disconnected.mpr hdisconnected
  have hstays : Disconnected (h ++ [(w, e)]) := disconnected_snoc.mpr (Or.inr ⟨hdisconnected, he⟩)
  refine ⟨((hw.step e).paused ((hw.step e).disconnected.mpr hstays)).1, ?_⟩
  rw [← Wallet.length_seqs, ← Wallet.length_seqs]
  rcases w.step_seqs p e with ⟨-, -, hseqs⟩ | ⟨hasks, hseq, hseqs⟩ | ⟨-, -, hseqs⟩
  · rw [hseqs]
  · -- a request that is made draws a number that the next state would not have
    rcases hasks with hintends | hfree
    · cases e with
      | connect | reset => exact absurd trivial he
      | disconnect => simp [Wallet.step, Wallet.disconnectWallet, Wallet.seqs]
      | idle | poll | address | network | resume => exact hintends.elim
    · exact absurd huser (by simp [(Wallet.pollPaused_eq_false.mp hfree).2])
  · rw [hseqs]

/-- **The latest request counts.** In every run of the store, however polls, connects, disconnects,
subscriptions and the answers of the extension interleave: when a request is resumed with its
answer, the answer is shown if nothing has superseded the request, and nothing changes in the state
shown otherwise; the wallet is shown as connecting just as long as a connect that nothing has
superseded is in progress; a disconnect stays, and no request is made, until the user connects or
the store is reset; and one timer polls while somebody watches, and none otherwise. -/
theorem latest_counts (p : String) (is : List Input) :
    let s := run (step p) initial is
    let h := (transitions (step p) initial is).map move
    (∀ i r next, s.requests[i]? = some r → r.stage = .answered next →
      (Current p h i → (step p s (.resume i)).state = next) ∧
        (¬ Current p h i → (step p s (.resume i)).state = s.state)) ∧
    (s.state = .connecting ↔ ∃ i r, s.requests[i]? = some r ∧ r.origin = .connect ∧
      Current p h i ∧ r.stage.isFinished = false) ∧
    (Disconnected h → s.state = initialState ∧ ∀ i : Input, ¬ (i.event s).Reconnects →
      (step p s i).state = initialState ∧
        (step p s i).requests.length = s.requests.length) ∧
    s.timers.length = if s.listeners = [] then 0 else 1 := by
  intro s h
  have hw : Tracks p h s.toWallet := tracks_run p is
  refine ⟨fun i r next hr hstage => ?_, ?_, fun hdisconnected => ⟨?_, fun i hi => ?_⟩, ?_⟩
  · have hstate : (step p s (.resume i)).state = _ := hw.state_resume hr hstage
    have hcurrent := hw.current i r.seq (Wallet.getElem?_seqs hr)
    rw [hstate]
    exact ⟨fun hc => if_pos (hcurrent.mpr hc), fun hc => if_neg fun hseq => hc (hcurrent.mp hseq)⟩
  · rw [hw.connecting]
    constructor
    · rintro ⟨i, r, hr, horigin, hseq, hstage⟩
      exact ⟨i, r, hr, horigin, (hw.current i r.seq (Wallet.getElem?_seqs hr)).mp hseq, hstage⟩
    · rintro ⟨i, r, hr, horigin, hcurrent, hstage⟩
      exact ⟨i, r, hr, horigin, (hw.current i r.seq (Wallet.getElem?_seqs hr)).mpr hcurrent, hstage⟩
  · exact (hw.paused (hw.disconnected.mpr hdisconnected)).1
  · have hstep := toWallet_step p s i
    have hstays := hw.stays hdisconnected hi
    rw [← hstep] at hstays
    exact hstays
  · have htidy : s.Tidy := tidy_run p is
    have hpolling := htidy.polling
    rw [htidy.timers]
    split
    · next hnone =>
      have hpoll : s.pollTimer = none := by
        rw [hnone] at hpolling
        simpa using hpolling
      rw [hpoll]
      rfl
    · next hsome =>
      obtain ⟨timer, htimer⟩ := Option.isSome_iff_exists.mp (hpolling.mpr hsome)
      rw [htimer]
      rfl

end Runs

end UseWallet
