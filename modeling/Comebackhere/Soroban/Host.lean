import Comebackhere.Library.Checked
import Comebackhere.Library.Run
import Mathlib.Data.Finset.Insert
import Mathlib.Logic.Function.Basic

/-!
# The Soroban host

A contract runs inside the host: it reads and writes its own storage, asks the host whether an
address authorised the invocation, calls other contracts and publishes events. The host rolls a
failed invocation back. The rest of the ledger is known to the contract only through calls, so it
is a parameter: `Deployment`.

## Main definitions

* `Env`: what the host tells one invocation
* `Deployment`: where the contract is deployed, and the rest of the ledger
* `World D S`: the contract's storage, the rest of the ledger, and the events so far
* `step`: one input of a run, an invocation or a change of the rest of the ledger
-/

namespace Soroban

open Checked

/-- An address: an account by its key, or a contract by its hash. -/
inductive Address
  | account (key : ℕ)
  | contract (hash : ℕ)
  deriving DecidableEq, Repr

/-- The name of a function or of an event. -/
abbrev Symbol := String

/-- The hash of a Wasm blob. -/
abbrev WasmHash := BitVec 256

/-- The values contracts exchange. A Rust tuple is a `vec`, `()` and `None` are `void`, and a unit
enum variant is the `vec` of its name. -/
inductive Val
  | void
  | bool (b : Bool)
  | u32 (n : UInt32)
  | u64 (n : UInt64)
  | i128 (n : ℤ)
  | symbol (s : Symbol)
  | address (a : Address)
  | bytesN (b : WasmHash)
  | vec (vs : List Val)

/-- A published event. -/
structure Event where
  topics : List Val
  data : Val

/-- Why an invocation fails: an error of the contract's own, or a trap. -/
inductive Failure (ε : Type)
  | error (e : ε)
  | trap
  deriving DecidableEq

/-- What the host tells one invocation: who authorised it, the ledger's timestamp, and whether the
deployed build traps where a plain `+` overflows (it wraps around otherwise). -/
structure Env where
  auths : Finset Address
  timestamp : UInt64
  overflowChecks : Bool

/-- Where a contract is deployed: its own address, and the rest of the ledger with the calls that
change it (`call`) and those that only read it (`query`). A call that traps gives `none`. -/
structure Deployment where
  self : Address
  Ledger : Type
  call : Env → Ledger → Address → Symbol → List Val → Option (Ledger × Val)
  query : Env → Ledger → Address → Symbol → List Val → Option Val

/-- The contract's storage, the rest of the ledger, the events the contract has published, and
the Wasm the contract runs. -/
structure World (D : Deployment) (S : Type) where
  storage : S
  ledger : D.Ledger
  events : List Event
  wasm : WasmHash

variable {D : Deployment} {S ε : Type}

/-- `address.require_auth()`. -/
def requireAuth (e : Env) (a : Address) : Except (Failure ε) Unit :=
  ensure (a ∈ e.auths) .trap

@[simp] theorem requireAuth_eq_ok {e : Env} {a : Address} {u : Unit} :
    requireAuth (ε := ε) e a = .ok u ↔ a ∈ e.auths := by
  simp [requireAuth]

/-- A plain `a + b` on `u64`. -/
def plainAdd (e : Env) (a b : UInt64) : Except (Failure ε) UInt64 :=
  if e.overflowChecks then orFail (checkedAdd a b) .trap else .ok (a + b)

theorem plainAdd_eq_ok {e : Env} {a b c : UInt64} : plainAdd (ε := ε) e a b = .ok c ↔
    (e.overflowChecks = true → a.toNat + b.toNat < 2 ^ 64) ∧ c = a + b := by
  unfold plainAdd
  split
  · next h =>
    rw [orFail_eq_ok]
    simp [h, checkedAdd, eq_comm]
  · next h => simp [h, eq_comm]

/-- `env.events().publish(topics, data)`. -/
def World.publish (w : World D S) (topics : List Val) (data : Val) : World D S :=
  { w with events := w.events ++ [⟨topics, data⟩] }

@[simp] theorem World.publish_storage (w : World D S) (topics : List Val) (data : Val) :
    (w.publish topics data).storage = w.storage := rfl

@[simp] theorem World.publish_ledger (w : World D S) (topics : List Val) (data : Val) :
    (w.publish topics data).ledger = w.ledger := rfl

/-- `env.invoke_contract::<()>(contract, f, args)`: another contract's answer must be `()`. -/
def invokeUnit (e : Env) (w : World D S) (contract : Address) (f : Symbol) (args : List Val) :
    Except (Failure ε) (World D S) :=
  match D.call e w.ledger contract f args with
  | some (l, .void) => .ok { w with ledger := l }
  | _ => .error .trap

@[simp] theorem invokeUnit_eq_ok {e : Env} {w w' : World D S} {contract : Address} {f : Symbol}
    {args : List Val} : invokeUnit (ε := ε) e w contract f args = .ok w' ↔
      ∃ l, D.call e w.ledger contract f args = some (l, .void) ∧ w' = { w with ledger := l } := by
  unfold invokeUnit
  split
  · next l h => simp [h, eq_comm]
  · next h =>
    simp only [reduceCtorEq, false_iff, not_exists, not_and]
    exact fun l hl => absurd hl (h l)

/-- `env.invoke_contract::<bool>(contract, f, args)` of a function that only reads. -/
def queryBool (e : Env) (w : World D S) (contract : Address) (f : Symbol) (args : List Val) :
    Except (Failure ε) Bool :=
  match D.query e w.ledger contract f args with
  | some (.bool b) => .ok b
  | _ => .error .trap

@[simp] theorem queryBool_eq_ok {e : Env} {w : World D S} {contract : Address} {f : Symbol}
    {args : List Val} {b : Bool} : queryBool (ε := ε) e w contract f args = .ok b ↔
      D.query e w.ledger contract f args = some (.bool b) := by
  unfold queryBool
  split
  · next h => simp [h]
  · next h => simpa using h b

/-! ## Runs -/

/-- An input of a run: an invocation of an entry point, or a change of the rest of the ledger
between two invocations. -/
inductive Input (D : Deployment) (C : Type)
  | call (e : Env) (c : C)
  | outside (l : D.Ledger)

variable {C : Type}

/-- One input. The host rolls a failed invocation back. -/
def step (invoke : Env → World D S → C → Except (Failure ε) (World D S × Val)) (w : World D S) :
    Input D C → World D S
  | .call e c =>
    match invoke e w c with
    | .ok (w', _) => w'
    | .error _ => w
  | .outside l => { w with ledger := l }

/-- The entry point an input invokes, when the contract accepts it, with the environment and the
value it returns. -/
def accepted (invoke : Env → World D S → C → Except (Failure ε) (World D S × Val))
    (t : World D S × Input D C) : Option (Env × C × Val) :=
  match t.2 with
  | .call e c =>
    match invoke e t.1 c with
    | .ok (_, v) => some (e, c, v)
    | .error _ => none
  | .outside _ => none

variable {invoke : Env → World D S → C → Except (Failure ε) (World D S × Val)}

theorem accepted_call_iff {w : World D S} {e : Env} {c : C} {r : Env × C × Val} :
    accepted invoke (w, .call e c) = some r ↔
      ∃ w' v, invoke e w c = .ok (w', v) ∧ r = (e, c, v) := by
  cases h : invoke e w c with
  | error err => simp [accepted, h]
  | ok p =>
    obtain ⟨w₁, v₁⟩ := p
    simp [accepted, h, eq_comm]

/-- An accepted input is an invocation, and leaves the world the entry point returns. -/
theorem invoke_of_accepted {w : World D S} {i : Input D C} {e : Env} {c : C} {v : Val}
    (h : accepted invoke (w, i) = some (e, c, v)) :
    i = .call e c ∧ invoke e w c = .ok (step invoke w i, v) := by
  cases i with
  | outside l => simp [accepted] at h
  | call e' c' =>
    obtain ⟨w', v', hw, he⟩ := accepted_call_iff.mp h
    obtain ⟨rfl, rfl, rfl⟩ := by simpa using he
    exact ⟨rfl, by simp [step, hw]⟩

theorem accepted_of_invoke {w w' : World D S} {e : Env} {c : C} {v : Val}
    (h : invoke e w c = .ok (w', v)) :
    accepted invoke (w, .call e c) = some (e, c, v) ∧ step invoke w (.call e c) = w' := by
  simp [accepted, step, h]

/-- The condition `P` on an input that is an accepted invocation; on other inputs, none. -/
def IfAccepted (invoke : Env → World D S → C → Except (Failure ε) (World D S × Val))
    (P : Env → C → Val → Prop) (t : World D S × Input D C) : Prop :=
  ∀ e c v, accepted invoke t = some (e, c, v) → P e c v

instance {P : Env → C → Val → Prop} [∀ e c v, Decidable (P e c v)] {t : World D S × Input D C} :
    Decidable (IfAccepted invoke P t) :=
  match h : accepted invoke t with
  | none => isTrue (by simp [IfAccepted, h])
  | some (e, c, v) => decidable_of_iff (P e c v) (by simp [IfAccepted, h])

theorem ifAccepted_of_none {P : Env → C → Val → Prop} {t : World D S × Input D C}
    (h : accepted invoke t = none) : IfAccepted invoke P t := by
  simp [IfAccepted, h]

theorem ifAccepted_iff {P : Env → C → Val → Prop} {t : World D S × Input D C} {e : Env} {c : C}
    {v : Val} (h : accepted invoke t = some (e, c, v)) : IfAccepted invoke P t ↔ P e c v := by
  refine ⟨fun hP => hP e c v h, fun hP e' c' v' h' => ?_⟩
  obtain ⟨rfl, rfl, rfl⟩ : e = e' ∧ c = c' ∧ v = v' := by simpa [h] using h'
  exact hP

/-- An input that is not accepted leaves the storage as it is: the host rolls a failed invocation
back, and the rest of the ledger is no part of the storage. -/
theorem storage_of_not_accepted {w : World D S} {i : Input D C}
    (h : accepted invoke (w, i) = none) : (step invoke w i).storage = w.storage := by
  cases i with
  | outside l => rfl
  | call e c =>
    cases hi : invoke e w c with
    | error err => simp [step, hi]
    | ok r => simp [accepted, hi] at h

/-- A failed invocation leaves the whole world as it is. -/
theorem step_call_of_not_accepted {w : World D S} {e : Env} {c : C}
    (h : accepted invoke (w, .call e c) = none) : step invoke w (.call e c) = w := by
  cases hi : invoke e w c with
  | error err => simp [step, hi]
  | ok r => simp [accepted, hi] at h

/-- **Runs of a contract**: if an invariant of the storage implies `P`, the accepted invocations
that meet `K` keep the invariant, and those that leave `P` meet `K`, then `P` holds throughout
exactly the runs whose accepted invocations meet `K`. -/
theorem always_iff_accepted {I : S → Prop} {P : World D S → Prop} {K : S → C → Prop}
    {w : World D S} (h0 : I w.storage) (hP : ∀ w, I w.storage → P w)
    (hs : ∀ {e w c w' v}, invoke e w c = .ok (w', v) → I w.storage → K w.storage c →
      I w'.storage)
    (hn : ∀ {e w c w' v}, invoke e w c = .ok (w', v) → I w.storage → P w' → K w.storage c)
    (is : List (Input D C)) :
    Machine.Always (step invoke) (fun _ => P) w is ↔
      Machine.Each (step invoke)
        (fun _ w i => IfAccepted invoke (fun _ c _ => K w.storage c) (w, i)) w is := by
  apply Machine.always_iff_each (I := fun _ w => I w.storage) h0 (fun _ w hI => hP w hI)
  · intro _ w i hI hK
    cases ha : accepted invoke (w, i) with
    | none => rwa [storage_of_not_accepted ha]
    | some r =>
      obtain ⟨e, c, v⟩ := r
      exact hs (invoke_of_accepted ha).2 hI (hK e c v ha)
  · intro _ w i hI hP e c v ha
    exact hn (invoke_of_accepted ha).2 hI hP

/-! ## The clock -/

/-- The ledger's timestamp at an invocation. -/
def Input.timestamp : Input D C → Option UInt64
  | .call e _ => some e.timestamp
  | .outside _ => none

/-- When the timestamps never go back, every invocation comes at the time of those before it, or
later. -/
theorem each_timestamp_le {w : World D S} {is : List (Input D C)}
    (hclock : (is.filterMap Input.timestamp).Pairwise (· ≤ ·)) :
    Machine.Each (step invoke) (fun h _ i => ∀ t ∈ h, ∀ before ∈ t.2.timestamp,
      ∀ now ∈ i.timestamp, before ≤ now) w is := by
  intro pre i hp t ht before hbefore now hnow
  obtain ⟨pre', hp', -⟩ := (Machine.mem_transitions_iff _).mp ht
  have hmem : t.2 ∈ pre := hp'.subset (by simp)
  have hsorted := hclock.sublist (hp.filterMap Input.timestamp).sublist
  rw [List.filterMap_append] at hsorted
  exact (List.pairwise_append.mp hsorted).2.2 before (List.mem_filterMap.mpr ⟨_, hmem, hbefore⟩)
    now (List.mem_filterMap.mpr ⟨_, by simp, hnow⟩)

/-! ## Published events -/

/-- From one world to another, events that satisfy `P` are published, and no others. -/
def Publishes (P : Event → Prop) (w w' : World D S) : Prop :=
  ∃ published, w'.events = w.events ++ published ∧ ∀ event ∈ published, P event

section Publishes

variable {P : Event → Prop} {w w' w'' : World D S}

theorem publishes_of_eq (h : w'.events = w.events) : Publishes P w w' :=
  ⟨[], by simpa, by simp⟩

theorem Publishes.trans (h : Publishes P w w') (h' : Publishes P w' w'') : Publishes P w w'' := by
  obtain ⟨published, he, hP⟩ := h
  obtain ⟨published', he', hP'⟩ := h'
  refine ⟨published ++ published', by rw [he', he, List.append_assoc], fun event hevent => ?_⟩
  rcases List.mem_append.mp hevent with hevent | hevent
  · exact hP event hevent
  · exact hP' event hevent

theorem Publishes.all (h : Publishes P w w') (hw : ∀ event ∈ w.events, P event) :
    ∀ event ∈ w'.events, P event := by
  obtain ⟨published, he, hP⟩ := h
  rw [he]
  intro event hevent
  rcases List.mem_append.mp hevent with hevent | hevent
  · exact hw event hevent
  · exact hP event hevent

theorem publishes_publish {topics : List Val} {data : Val} (h : w'.events = w.events)
    (hP : P ⟨topics, data⟩) : Publishes P w (w'.publish topics data) :=
  ⟨[⟨topics, data⟩], by simp [World.publish, h], by simpa using hP⟩

theorem publishes_foldl {α : Type} {f : World D S → α → World D S}
    (hf : ∀ w a, Publishes P w (f w a)) (as : List α) (w : World D S) :
    Publishes P w (as.foldl f w) := by
  induction as generalizing w with
  | nil => exact publishes_of_eq rfl
  | cons a as ih => exact (hf w a).trans (ih (f w a))

/-- What every entry point publishes, every input does. -/
theorem publishes_step (hinvoke : ∀ {e w w' c v}, invoke e w c = .ok (w', v) → Publishes P w w')
    (w : World D S) (i : Input D C) : Publishes P w (step invoke w i) := by
  cases i with
  | outside l => exact publishes_of_eq rfl
  | call e c =>
    cases h : invoke e w c with
    | error err => exact publishes_of_eq (by simp [step, h])
    | ok r =>
      obtain ⟨w', v⟩ := r
      rw [(accepted_of_invoke h).2]
      exact hinvoke h

theorem publishes_run (hinvoke : ∀ {e w w' c v}, invoke e w c = .ok (w', v) → Publishes P w w')
    (w : World D S) (is : List (Input D C)) : Publishes P w (Machine.run (step invoke) w is) :=
  publishes_foldl (publishes_step hinvoke) is w

end Publishes

/-! ## Views -/

/-- A function of a contract that anybody may invoke: one that may change the world, or a view. -/
inductive EntryPoint (C V : Type)
  | call (c : C)
  | view (q : V)

/-- An invocation of an entry point from outside: the world it leaves, and what it returns. -/
def serve {Q A : Type} (invoke : Env → World D S → C → Except (Failure ε) (World D S × Val))
    (view : Env → World D S → Q → Except (Failure ε) A) (e : Env) (w : World D S) :
    EntryPoint C Q → World D S × Except (Failure ε) (Val ⊕ A)
  | .call c =>
    match invoke e w c with
    | .ok (w', v) => (w', .ok (.inl v))
    | .error err => (w, .error err)
  | .view q => (w, .inr <$> view e w q)

/-- When every accepted call outside `exempt` finds `P` of the storage, then without `P` the world
stays as it is, whichever error a call ends with. -/
theorem serve_of_not {Q A : Type} {view : Env → World D S → Q → Except (Failure ε) A}
    (P : S → Prop) (exempt : C → Prop)
    (hinvoke : ∀ {e w w' c v}, invoke e w c = .ok (w', v) → exempt c ∨ P w.storage) {e : Env}
    {w : World D S} (hP : ¬ P w.storage) {p : EntryPoint C Q} (hp : ∀ c, p = .call c → ¬ exempt c) :
    (serve invoke view e w p).1 = w := by
  cases p with
  | view q => rfl
  | call c =>
    cases h : invoke e w c with
    | error err => simp [serve, h]
    | ok r =>
      rcases hinvoke h with hc | hs
      · exact absurd hc (hp c rfl)
      · exact absurd hs hP

/-- A deployment on a ledger with no other contract: every call to one traps. -/
def isolated (self : Address) : Deployment where
  self := self
  Ledger := Unit
  call _ _ _ _ _ := none
  query _ _ _ _ _ := none

end Soroban
