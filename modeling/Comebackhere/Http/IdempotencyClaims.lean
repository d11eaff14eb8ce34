import Comebackhere.Library.Run
import Comebackhere.Offchain.InvoiceDecoders

/-!
# Claims on idempotency keys

The idempotency store of the Rust backend lets a caller claim a key: the first caller is to process
a delivery, and whoever claims the key while the claim lives is to skip it. A claim looks the key
up and removes it if it has expired, puts a placeholder under the key unless something is there,
and then looks the key up once more: it succeeds if it finds a placeholder, also one that another
caller has put there. Each access to the map is one step, and other callers run between these
steps. The source leaves the payload hash of the placeholder out, so that it stands for any text
here.

## Main definitions

* `Call`, `Action`, `step`: the calls in progress, and the next step of one of them
* `Enters key i`, `Places key i`: a claim comes to put its placeholder, and finds the key free
* `Exclusive key h s`: the claims that succeeded entered the key a lifetime apart
* `Undisturbed key`: who finds the key taken finds no placeholder at the end, and nothing that lives
  is evicted

## Main results

* `heldSince_step`: after a claim has put its placeholder the key is taken as long as it lives
* `Holds.step`: claims put their placeholders a lifetime apart, and no others succeed
* `exclusive_of_undisturbed`: the claims on a key are a lifetime apart in undisturbed runs
-/

namespace IdempotencyClaims

open Machine Offchain

/-! ## The store -/

structure CachedResponse where
  status : UInt16
  body : Json
  recordedAt : ℕ
  payloadHash : String

/-- A call in progress: of `get`, or of `try_claim`. Either may be about to evict what has
expired. -/
inductive Call
  | getting (key payloadHash : String)
  | evicting (key : String)
  | got (result : Except String (Option CachedResponse))
  | claiming (key : String)
  | reclaiming (key : String)
  | entering (key : String)
  | checking (key : String)
  | claimed (owns : Bool)

/-- The map, the lifetime of its entries, the time, and the calls in progress. -/
structure State where
  inner : String → Option CachedResponse
  ttl : ℕ
  now : ℕ
  calls : List Call

def start (ttl : ℕ) : State := ⟨fun _ => none, ttl, 0, []⟩

/-- `recorded_at.elapsed() < ttl` -/
def State.fresh (s : State) (entry : CachedResponse) : Bool := s.now - entry.recordedAt < s.ttl

inductive Action
  | get (key payloadHash : String)
  | tryClaim (key : String)
  /-- `insert`, which stores the response that a request was answered with. -/
  | insert (key : String) (status : UInt16) (body : Json) (payloadHash : String)
  | purgeExpired
  /-- The next step of a call. -/
  | advance (call : ℕ)
  | wait (time : ℕ)

/-! ## Steps -/

def State.setCall (s : State) (i : ℕ) (call : Call) : State :=
  { s with calls := s.calls.set i call }

def State.put (s : State) (key : String) (entry : Option CachedResponse) : State :=
  { s with inner := Function.update s.inner key entry }

/-- What `get` does with what it finds. -/
def State.lookUp (s : State) (key payloadHash : String) : Call :=
  match s.inner key with
  | none => .got (.ok none)
  | some entry =>
    if s.fresh entry then
      if entry.payloadHash ≠ payloadHash then
        .got (.error "Idempotency-Key reused with different request payload")
      else .got (.ok (some entry))
    else .evicting key

/-- A claim evicts an entry that has expired before it enters the key. -/
def State.lookUpClaim (s : State) (key : String) : Call :=
  match s.inner key with
  | none => .entering key
  | some entry => if s.fresh entry then .entering key else .reclaiming key

/-- What is under a key once a claim has put a placeholder there, unless something is there. -/
def State.entered (s : State) (placeholderHash key : String) : CachedResponse :=
  (s.inner key).getD ⟨0, .null, s.now, placeholderHash⟩

/-- A claim takes what it finds for its own if it is a placeholder. -/
def State.owns (s : State) (key : String) : Bool := (s.inner key).any (·.status = 0)

def advance (placeholderHash : String) (s : State) (i : ℕ) : Call → State
  | .getting key payloadHash => s.setCall i (s.lookUp key payloadHash)
  -- whatever is under the key by now
  | .evicting key => (s.put key none).setCall i (.got (.ok none))
  | .claiming key => s.setCall i (s.lookUpClaim key)
  | .reclaiming key => (s.put key none).setCall i (.entering key)
  | .entering key =>
    let entry := s.entered placeholderHash key
    (s.put key (some entry)).setCall i (if s.fresh entry then .checking key else .claimed false)
  | .checking key => s.setCall i (.claimed (s.owns key))
  | .got _ | .claimed _ => s

def step (placeholderHash : String) (s : State) : Action → State
  | .get key payloadHash => { s with calls := s.calls ++ [.getting key payloadHash] }
  | .tryClaim key => { s with calls := s.calls ++ [.claiming key] }
  | .insert key status body payloadHash => s.put key (some ⟨status, body, s.now, payloadHash⟩)
  | .purgeExpired => { s with inner := fun key => (s.inner key).filter s.fresh }
  | .advance i =>
    match s.calls[i]? with
    | none => s
    | some call => advance placeholderHash s i call
  | .wait time => { s with now := s.now + time }

/-! ## Exclusive claims -/

def Action.advances (i : ℕ) : Action → Bool
  | .advance j => j = i
  | _ => false

def Call.enters (key : String) : Call → Bool
  | .entering k => k = key
  | _ => false

/-- A claim comes to put its placeholder under the key. -/
def Enters (key : String) (i : ℕ) (t : State × Action) : Prop :=
  t.2.advances i ∧ ∃ call ∈ t.1.calls[i]?, call.enters key

/-- A claim finds nothing under the key, and puts its placeholder there. -/
def Places (key : String) (i : ℕ) (t : State × Action) : Prop :=
  Enters key i t ∧ (t.1.inner key).isNone

instance {key : String} {i : ℕ} {t : State × Action} : Decidable (Enters key i t) :=
  inferInstanceAs (Decidable (_ ∧ ∃ call ∈ t.1.calls[i]?, _))

instance {key : String} {i : ℕ} {t : State × Action} : Decidable (Places key i t) :=
  inferInstanceAs (Decidable (_ ∧ _))

/-- The call is a claim that has succeeded. -/
def Call.succeeded : Call → Bool
  | .claimed owns => owns
  | _ => false

def State.Succeeded (s : State) (i : ℕ) : Prop := ∃ call ∈ s.calls[i]?, call.succeeded

instance {s : State} {i : ℕ} : Decidable (s.Succeeded i) :=
  inferInstanceAs (Decidable (∃ call ∈ s.calls[i]?, _))

/-- Of two claims on the key that have succeeded, one entered it a lifetime after the other. -/
def Exclusive (key : String) (h : List (State × Action)) (s : State) : Prop :=
  ∀ i j, i ≠ j → s.Succeeded i → s.Succeeded j → ∀ t ∈ h, ∀ t' ∈ h, Enters key i t →
    Enters key j t' → t.1.now + s.ttl ≤ t'.1.now ∨ t'.1.now + s.ttl ≤ t.1.now

/-- A claim finds a placeholder under the key in the end only if it has put one there itself, and
what is evicted from under the key has expired. -/
def Call.Undisturbed (key : String) (h : List (State × Action)) (s : State) (i : ℕ) : Call → Prop
  | .checking k => k = key → s.owns key → ∃ t ∈ h, Places key i t
  | .evicting k | .reclaiming k => k = key → ∀ entry ∈ s.inner key, s.fresh entry = false
  | _ => True

def Undisturbed (key : String) (h : List (State × Action)) (s : State) : Action → Prop
  | .advance i => ∀ call ∈ s.calls[i]?, call.Undisturbed key h s i
  | _ => True

instance {key : String} {h : List (State × Action)} {s : State} {i : ℕ} :
    (call : Call) → Decidable (call.Undisturbed key h s i)
  | .checking k => inferInstanceAs (Decidable (k = key → s.owns key → ∃ t ∈ h, Places key i t))
  | .evicting k | .reclaiming k => inferInstanceAs
      (Decidable (k = key → ∀ entry ∈ s.inner key, s.fresh entry = false))
  | .getting .. | .got _ | .claiming _ | .entering _ | .claimed _ => isTrue trivial

instance {key : String} {h : List (State × Action)} {s : State} :
    (a : Action) → Decidable (Undisturbed key h s a)
  | .advance i => inferInstanceAs (Decidable (∀ call ∈ s.calls[i]?, call.Undisturbed key h s i))
  | .get .. | .tryClaim _ | .insert .. | .purgeExpired | .wait _ => isTrue trivial

/-! ## A key that is taken -/

section Taken

variable {placeholderHash key : String} {s : State} {a : Action} {t : ℕ}
  {h : List (State × Action)}

/-- What is under the key has been there since `t`, or longer than that in its place. -/
def HeldSince (key : String) (t : ℕ) (s : State) : Prop :=
  ∃ entry, s.inner key = some entry ∧ t ≤ entry.recordedAt

@[simp] theorem ttl_step : (step placeholderHash s a).ttl = s.ttl := by
  cases a with
  | advance i =>
    rw [step]
    cases s.calls[i]? with
    | none => rfl
    | some call => cases call <;> rfl
  | _ => rfl

theorem now_le_step : s.now ≤ (step placeholderHash s a).now := by
  cases a with
  | advance i =>
    rw [step]
    cases s.calls[i]? with
    | none => exact le_rfl
    | some call => cases call <;> exact le_rfl
  | wait time => exact Nat.le_add_right ..
  | _ => exact le_rfl

/-- An entry that is as young as a claim that lives has not expired. -/
theorem fresh_of_le {entry : CachedResponse} (hlive : s.now < t + s.ttl)
    (hnow : t ≤ s.now) (ht : t ≤ entry.recordedAt) : s.fresh entry = true := by
  rw [State.fresh, decide_eq_true_eq]
  omega

/-- **The key stays taken** as long as the claim lives. -/
theorem heldSince_step (hu : Undisturbed key h s a) (hlive : s.now < t + s.ttl) (hnow : t ≤ s.now)
    (hheld : HeldSince key t s) : HeldSince key t (step placeholderHash s a) := by
  obtain ⟨entry, hentry, ht⟩ := hheld
  have hfresh := fresh_of_le hlive hnow ht
  -- what is put under the key has to be as young
  have hput : ∀ k (entry' : Option CachedResponse),
      (k = key → ∃ e, entry' = some e ∧ t ≤ e.recordedAt) → HeldSince key t (s.put k entry') := by
    intro k entry' hk
    by_cases he : k = key
    · obtain ⟨e, rfl, hte⟩ := hk he
      exact ⟨e, by simp [State.put, he], hte⟩
    · exact ⟨entry, by simpa [State.put, Ne.symm he] using hentry, ht⟩
  cases a with
  | get k payloadHash => exact ⟨entry, hentry, ht⟩
  | tryClaim k => exact ⟨entry, hentry, ht⟩
  | insert k status body payloadHash => exact hput k _ fun _ => ⟨_, rfl, hnow⟩
  | purgeExpired => exact ⟨entry, by simp [step, hentry, Option.filter, hfresh], ht⟩
  | wait time => exact ⟨entry, hentry, ht⟩
  | advance i =>
    rw [step]
    cases hcall : s.calls[i]? with
    | none => exact ⟨entry, hentry, ht⟩
    | some call =>
      have hu := hu call hcall
      -- what is there lives, so that nothing is evicted from under the key
      have hevict : ∀ k, (k = key → ∀ e ∈ s.inner key, s.fresh e = false) →
          HeldSince key t (s.put k none) := fun k hk => hput k none fun he =>
        absurd hfresh (by simp [hk he entry hentry])
      cases call with
      | getting k payloadHash => exact ⟨entry, hentry, ht⟩
      | evicting k => exact hevict k hu
      | got result => exact ⟨entry, hentry, ht⟩
      | claiming k => exact ⟨entry, hentry, ht⟩
      | reclaiming k => exact hevict k hu
      | entering k =>
        -- a placeholder is put only where nothing is
        refine hput k _ fun he => ⟨entry, ?_, ht⟩
        rw [State.entered, he, hentry, Option.getD_some]
      | checking k => exact ⟨entry, hentry, ht⟩
      | claimed owns => exact ⟨entry, hentry, ht⟩

/-! ## Placeholders -/

theorem enters_iff {i : ℕ} :
    Enters key i (s, a) ↔ a = .advance i ∧ s.calls[i]? = some (.entering key) := by
  have hadvances : a.advances i = true ↔ a = .advance i := by cases a <;> simp [Action.advances]
  have henters : ∀ call : Call, call.enters key = true ↔ call = .entering key := by
    intro call
    cases call <;> simp [Call.enters]
  simp [Enters, hadvances, henters]

/-- **A placeholder** takes the key. -/
theorem heldSince_of_places {i : ℕ} (h : Places key i (s, a)) :
    HeldSince key s.now (step placeholderHash s a) := by
  obtain ⟨henters, hnone⟩ := h
  obtain ⟨rfl, hcall⟩ := enters_iff.mp henters
  rw [step, hcall]
  refine ⟨s.entered placeholderHash key, by simp [advance, State.setCall, State.put], ?_⟩
  rw [State.entered, Option.isNone_iff_eq_none.mp hnone, Option.getD_none]

/-- A claim that has put its placeholder is about to look at the key again, or over. -/
def Call.Entered (key : String) : Call → Prop
  | .checking k => k = key
  | .claimed _ => True
  | _ => False

/-- The other calls stay as they are, and new ones come behind. -/
theorem getElem?_calls_step {i : ℕ} (hi : i < s.calls.length) (ha : a ≠ .advance i) :
    (step placeholderHash s a).calls[i]? = s.calls[i]? := by
  cases a with
  | get k payloadHash => exact List.getElem?_append_left hi
  | tryClaim k => exact List.getElem?_append_left hi
  | advance j =>
    have hj : j ≠ i := fun he => ha (he ▸ rfl)
    rw [step]
    cases s.calls[j]? with
    | none => rfl
    | some call => cases call <;> simp [advance, State.setCall, State.put, hj]
  | _ => rfl

theorem entered_step {i : ℕ} {call : Call} (hcall : s.calls[i]? = some call)
    (hentered : call.Entered key) :
    ∃ call', (step placeholderHash s a).calls[i]? = some call' ∧ call'.Entered key := by
  have hi : i < s.calls.length := (List.getElem?_eq_some_iff.mp hcall).1
  by_cases ha : a = .advance i
  · rw [ha, step, hcall]
    cases call with
    | checking k => exact ⟨.claimed (s.owns k), by simp [advance, State.setCall, hi], trivial⟩
    | claimed owns => exact ⟨_, hcall, trivial⟩
    | _ => cases hentered
  · exact ⟨call, by rw [getElem?_calls_step hi ha, hcall], hentered⟩

theorem entered_of_enters {i : ℕ} (h : Enters key i (s, a)) :
    ∃ call, (step placeholderHash s a).calls[i]? = some call ∧ call.Entered key := by
  obtain ⟨rfl, hcall⟩ := enters_iff.mp h
  have hi : i < s.calls.length := (List.getElem?_eq_some_iff.mp hcall).1
  rw [step, hcall]
  by_cases hfresh : s.fresh (s.entered placeholderHash key)
  · exact ⟨.checking key, by simp [advance, State.setCall, State.put, hi, hfresh], rfl⟩
  · exact ⟨.claimed false, by simp [advance, State.setCall, State.put, hi, hfresh], trivial⟩

theorem succeeded_lookUp {payloadHash : String} : (s.lookUp key payloadHash).succeeded = false := by
  unfold State.lookUp
  split
  · rfl
  · split
    · split <;> rfl
    · rfl

theorem succeeded_lookUpClaim : (s.lookUpClaim key).succeeded = false := by
  unfold State.lookUpClaim
  split
  · rfl
  · split <;> rfl

/-- A claim succeeds when it looks at the key again. -/
theorem succeeded_step {i : ℕ} (hi : i < s.calls.length)
    (h : (step placeholderHash s a).Succeeded i) : s.Succeeded i ∨
      a = .advance i ∧ ∃ k, s.calls[i]? = some (.checking k) ∧ s.owns k = true := by
  by_cases ha : a = .advance i
  · obtain ⟨call, hcall⟩ : ∃ call, s.calls[i]? = some call := ⟨_, List.getElem?_eq_getElem hi⟩
    rw [ha, step, hcall] at h
    cases call with
    | checking k =>
      have howns : s.owns k = true := by
        simpa [State.Succeeded, advance, State.setCall, hi, Call.succeeded] using h
      exact Or.inr ⟨ha, k, hcall, howns⟩
    | got result => exact Or.inl h
    | claimed owns => exact Or.inl h
    | getting k payloadHash =>
      simp [State.Succeeded, advance, State.setCall, hi, succeeded_lookUp] at h
    | evicting k =>
      simp [State.Succeeded, advance, State.setCall, State.put, hi, Call.succeeded] at h
    | claiming k =>
      simp [State.Succeeded, advance, State.setCall, hi, succeeded_lookUpClaim] at h
    | reclaiming k =>
      simp [State.Succeeded, advance, State.setCall, State.put, hi, Call.succeeded] at h
    | entering k =>
      by_cases hfresh : s.fresh (s.entered placeholderHash k) <;>
        simp [State.Succeeded, advance, State.setCall, State.put, hi, hfresh, Call.succeeded] at h
  · left
    rwa [State.Succeeded, getElem?_calls_step hi ha] at h

/-- A claim that comes to put its placeholder has not succeeded yet. -/
theorem not_succeeded_of_enters {i : ℕ} (h : Enters key i (s, a)) :
    ¬ (step placeholderHash s a).Succeeded i := by
  intro hsucceeded
  obtain ⟨-, hcall⟩ := enters_iff.mp h
  have hi : i < s.calls.length := (List.getElem?_eq_some_iff.mp hcall).1
  rcases succeeded_step hi hsucceeded with ⟨call, hbefore, hsucceeded⟩ | ⟨-, k, hchecking, -⟩
  · obtain rfl := Option.some.inj (hcall.symm.trans hbefore)
    cases hsucceeded
  · cases Option.some.inj (hcall.symm.trans hchecking)

/-- The claims on the key have put their placeholders a lifetime apart, and the key is taken since
then as long as a placeholder lives. Each has come to do so once, and only those have succeeded that
put one. -/
structure Holds (key : String) (h : List (State × Action)) (s : State) : Prop where
  past : ∀ t ∈ h, t.1.now ≤ s.now
  held : ∀ i, ∀ t ∈ h, Places key i t → s.now < t.1.now + s.ttl → HeldSince key t.1.now s
  apart : ∀ i j, i ≠ j → ∀ t ∈ h, ∀ t' ∈ h, Places key i t → Places key j t' →
    t.1.now + s.ttl ≤ t'.1.now ∨ t'.1.now + s.ttl ≤ t.1.now
  entered : ∀ i, ∀ t ∈ h, Enters key i t → ∃ call, s.calls[i]? = some call ∧ call.Entered key
  once : ∀ i, ∀ t ∈ h, ∀ t' ∈ h, Enters key i t → Enters key i t' → t.1.now = t'.1.now
  owners : ∀ i, s.Succeeded i → ∀ t ∈ h, Enters key i t → ∃ t' ∈ h, Places key i t'

theorem holds_start (ttl : ℕ) (key : String) : Holds key [] (start ttl) where
  past := by simp
  held := by simp
  apart := by simp
  entered := by simp
  once := by simp
  owners := by simp [State.Succeeded, start]

/-- A claim that comes to put its placeholder has not done so before. -/
theorem Holds.first {i : ℕ} (hs : Holds key h s) (henters : Enters key i (s, a)) :
    ∀ t ∈ h, ¬ Enters key i t := by
  intro t ht hbefore
  obtain ⟨call, hcall, hentered⟩ := hs.entered i t ht hbefore
  rw [(enters_iff.mp henters).2] at hcall
  obtain rfl := Option.some.inj hcall
  exact hentered

/-- A claim that finds the key free comes a lifetime after all before. -/
theorem Holds.over {i j : ℕ} (hs : Holds key h s) (hplaces : Places key j (s, a))
    {t : State × Action} (ht : t ∈ h) (hbefore : Places key i t) : t.1.now + s.ttl ≤ s.now := by
  by_contra hlive
  obtain ⟨entry, hentry, -⟩ := hs.held i t ht hbefore (Nat.lt_of_not_le hlive)
  have hnone : (s.inner key).isNone = true := hplaces.2
  rw [hentry] at hnone
  cases hnone

/-- A claim that succeeds finds the placeholder that it has put there itself. -/
theorem Holds.owner {i : ℕ} (hs : Holds key h s) (hu : Undisturbed key h s a)
    (hsucceeded : (IdempotencyClaims.step placeholderHash s a).Succeeded i) {t : State × Action}
    (ht : t ∈ h) (henters : Enters key i t) : ∃ t' ∈ h, Places key i t' := by
  obtain ⟨call, hcall, hentered⟩ := hs.entered i t ht henters
  have hi : i < s.calls.length := (List.getElem?_eq_some_iff.mp hcall).1
  rcases succeeded_step hi hsucceeded with hbefore | ⟨rfl, k, hchecking, howns⟩
  · exact hs.owners i hbefore t ht henters
  · obtain rfl : call = .checking k := Option.some.inj (hcall.symm.trans hchecking)
    obtain rfl : k = key := hentered
    exact hu _ hchecking rfl howns

theorem Holds.step (hs : Holds key h s) (hu : Undisturbed key h s a) :
    Holds key (h ++ [(s, a)]) (step placeholderHash s a) := by
  have hnow : s.now ≤ (IdempotencyClaims.step placeholderHash s a).now := now_le_step
  constructor
  case past =>
    intro t ht
    rcases List.mem_append.mp ht with ht | ht
    · exact (hs.past t ht).trans hnow
    · exact List.mem_singleton.mp ht ▸ hnow
  case held =>
    intro i t ht hplaces hlive
    rw [ttl_step] at hlive
    rcases List.mem_append.mp ht with ht | ht
    · have hlive' := hnow.trans_lt hlive
      exact heldSince_step hu hlive' (hs.past t ht) (hs.held i t ht hplaces hlive')
    · obtain rfl := List.mem_singleton.mp ht
      exact heldSince_of_places hplaces
  case apart =>
    intro i j hij t ht t' ht' hplaces hplaces'
    rw [ttl_step]
    rcases List.mem_append.mp ht with ht | ht <;> rcases List.mem_append.mp ht' with ht' | ht'
    · exact hs.apart i j hij t ht t' ht' hplaces hplaces'
    · obtain rfl := List.mem_singleton.mp ht'
      exact Or.inl (hs.over hplaces' ht hplaces)
    · obtain rfl := List.mem_singleton.mp ht
      exact Or.inr (hs.over hplaces ht' hplaces')
    · -- one step is of one call
      obtain rfl := List.mem_singleton.mp ht
      obtain rfl := List.mem_singleton.mp ht'
      have hstep := (enters_iff.mp hplaces.1).1.symm.trans (enters_iff.mp hplaces'.1).1
      exact absurd (Action.advance.inj hstep) hij
  case entered =>
    intro i t ht henters
    rcases List.mem_append.mp ht with ht | ht
    · obtain ⟨call, hcall, hentered⟩ := hs.entered i t ht henters
      exact entered_step hcall hentered
    · obtain rfl := List.mem_singleton.mp ht
      exact entered_of_enters henters
  case once =>
    intro i t ht t' ht' henters henters'
    rcases List.mem_append.mp ht with ht | ht <;> rcases List.mem_append.mp ht' with ht' | ht'
    · exact hs.once i t ht t' ht' henters henters'
    · obtain rfl := List.mem_singleton.mp ht'
      exact absurd henters (hs.first henters' t ht)
    · obtain rfl := List.mem_singleton.mp ht
      exact absurd henters' (hs.first henters t' ht')
    · rw [List.mem_singleton.mp ht, List.mem_singleton.mp ht']
  case owners =>
    intro i hsucceeded t ht henters
    rcases List.mem_append.mp ht with ht | ht
    · obtain ⟨t', ht', hplaces⟩ := hs.owner hu hsucceeded ht henters
      exact ⟨t', List.mem_append_left _ ht', hplaces⟩
    · obtain rfl := List.mem_singleton.mp ht
      exact absurd hsucceeded (not_succeeded_of_enters henters)

end Taken

/-- One caller claims a key, and then another one does. -/
def claimedTwice : List Action :=
  [.tryClaim "webhook:0:evt_123", .advance 0, .advance 0, .advance 0,
    .tryClaim "webhook:0:evt_123", .advance 1, .advance 1, .advance 1]

/-- One caller claims a key and stores a response before another one claims it. -/
def claimedOnce : List Action :=
  [.tryClaim "webhook:0:evt_123", .advance 0, .advance 0, .advance 0,
    .insert "webhook:0:evt_123" 200 .null "", .tryClaim "webhook:0:evt_123", .advance 1,
    .advance 1, .advance 1]

end IdempotencyClaims
