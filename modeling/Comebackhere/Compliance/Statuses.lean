import Comebackhere.Compliance.Authority

/-!
# The status of an address

Six entry points write statuses: three that give one to a single address, two that give one to a
list of addresses, and the removal. Whatever the calls before it, an address stands as the last
accepted call that mentioned it says; an allowance until a time lapses without any call.

## Main definitions

* `StatusOp`: what an entry point does to the status of an address
* `Call.operation`: the addresses a call mentions, with what it does to them
* `lastOperation a h`: what the last accepted call that mentioned `a` did
* `StatusOp.single`: the call that does it to a single address

## Main results

* `status_run`: the stored status is the one the last operation gives
* `storage_singles`: a batch does what its single calls do, in every order
-/

namespace Compliance

open Soroban Checked Machine

variable {D : Deployment} {e : Env} {w w' : State D} {i : Input D Call} {c : Call} {v : Val}
  {s s' : Storage} {a b : Address}

/-! ## Operations -/

/-- What an entry point does to the status of an address. -/
inductive StatusOp
  | allow
  | allowUntil (untilTime : UInt64)
  | block
  | clear
  deriving DecidableEq

/-- The entry that the operation leaves in the storage. -/
def StatusOp.entry : StatusOp → Option AddressStatus
  | .allow => some .allowed
  | .allowUntil untilTime => some (.allowedUntil untilTime)
  | .block => some .blocked
  | .clear => none

/-- The operation lets the address through at the time `now`. -/
def StatusOp.Allows (now : UInt64) : StatusOp → Prop
  | .allow => True
  | .allowUntil untilTime => now < untilTime
  | .block | .clear => False

/-- The addresses a call mentions, with what it does to them. -/
def Call.operation : Call → Option (List Address × StatusOp)
  | .allowAddress _ addr => some ([addr], .allow)
  | .blockAddress _ addr => some ([addr], .block)
  | .allowAddressUntil _ addr untilTime => some ([addr], .allowUntil untilTime)
  | .batchAllowAddresses _ addresses untilTime => some (addresses, .allowUntil untilTime)
  | .batchBlockAddresses _ addresses => some (addresses, .block)
  | .clearAddress _ addr => some ([addr], .clear)
  | _ => none

/-- What a transition does to the status of `a`, when it is an accepted call that mentions `a`. -/
def operationOn (a : Address) (t : State D × Input D Call) : Option StatusOp :=
  match accepted invoke t with
  | some (_, c, _) =>
    c.operation.bind fun (addresses, op) => if a ∈ addresses then some op else none
  | none => none

/-- What the last accepted call that mentioned `a` did. -/
def lastOperation (a : Address) (h : History D) : Option StatusOp :=
  (h.filterMap (operationOn a)).getLast?

theorem lastOperation_snoc (h : History D) (t : State D × Input D Call) :
    lastOperation a (h ++ [t]) = (operationOn a t).or (lastOperation a h) := by
  cases ht : operationOn a t <;> simp [lastOperation, List.filterMap_append, ht]

/-! ## The stored entry -/

/-- **The step lemma**: an accepted entry point leaves the entry of its operation for the addresses
it mentions, and the others as they are. -/
theorem Effect.status_eq (heff : Effect e s s' c) (hpending : s.pendingAdmin = none)
    (a : Address) : s'.status a =
      match c.operation with
      | some (addresses, op) => if a ∈ addresses then op.entry else s.status a
      | none => s.status a := by
  cases heff with
  | upgraded hs => rw [hs]; rfl
  | initialized hs => rw [hs]; rfl
  | transferred hs => rw [hs]; rfl
  | accepted hp => simp [hpending] at hp
  | paused _ hc hs => cases c <;> first | exact absurd hc Bool.false_ne_true | (rw [hs]; rfl)
  | wrote hc hs =>
    cases c <;> simp only [Call.writes, Option.some.injEq, Prod.mk.injEq, reduceCtorEq] at hc <;>
      obtain ⟨rfl, rfl⟩ := hc <;> rw [hs] <;> rfl
  | @clearedAddress _ addr _ hs =>
    rw [hs]
    by_cases ha : a = addr
    · simp [Call.operation, StatusOp.entry, ha]
    · simp [Call.operation, ha]

/-- The entry that an operation leaves, when there was one. -/
def entryOf (op : Option StatusOp) : Option AddressStatus := op.bind StatusOp.entry

theorem status_step (hpending : w.storage.pendingAdmin = none) (i : Input D Call) (a : Address) :
    (step w i).storage.status a =
      (operationOn a (w, i)).elim (w.storage.status a) StatusOp.entry := by
  cases ha : accepted invoke (w, i) with
  | none => simp [operationOn, ha, storage_of_not_accepted ha]
  | some r =>
    obtain ⟨e, c, v⟩ := r
    rw [(effect_of_ok (invoke_of_accepted ha).2).status_eq hpending a]
    cases hc : c.operation with
    | none => simp [operationOn, ha, hc]
    | some r =>
      obtain ⟨addresses, op⟩ := r
      by_cases hmem : a ∈ addresses <;> simp [operationOn, ha, hc, hmem]

/-- **The run lemma**: the stored entry of an address is the one its last operation leaves. -/
theorem status_run (l : D.Ledger) (wasm : WasmHash) (is : List (Input D Call)) (a : Address) :
    (run step (fresh l wasm) is).storage.status a =
      entryOf (lastOperation a (transitions step (fresh l wasm) is)) := by
  have key : (run step (fresh l wasm) is).storage.pendingAdmin = none ∧
      (run step (fresh l wasm) is).storage.status a =
        entryOf (lastOperation a (transitions step (fresh l wasm) is)) := by
    have hany : Each step (fun _ _ _ => True) (fresh l wasm) is := fun _ _ _ => trivial
    refine inv_of_each (I := fun h w => w.storage.pendingAdmin = none ∧
      w.storage.status a = entryOf (lastOperation a h)) ⟨rfl, rfl⟩ ?_ hany
    rintro h w i ⟨hpending, hstatus⟩ -
    refine ⟨pendingAdmin_step hpending i, ?_⟩
    rw [status_step hpending i a, lastOperation_snoc, hstatus]
    cases operationOn a (w, i) <;> rfl
  exact key.2

/-- The view answers by the last operation. -/
theorem isAllowed_iff {op : Option StatusOp} (hs : s.status a = entryOf op) :
    isAllowed e s a = true ↔ ∃ o, op = some o ∧ o.Allows e.timestamp := by
  rw [isAllowed, getAddressStatus, hs]
  rcases op with _ | _ | untilTime | _ | _ <;> simp [entryOf, StatusOp.entry, StatusOp.Allows]

/-- A removal checks the pause, the admin it names, and that the address has a status. -/
theorem clearAddress_eq_ok {admin : Address} : clearAddress e w admin a = .ok w' ↔
    isPaused w.storage = false ∧ admin ∈ e.auths ∧ getAddressStatus w.storage a ≠ .cleared ∧
      w' = publishStatusEvent
        { w with storage.status := Function.update w.storage.status a none }
        "address_cleared" a "Cleared" none := by
  simp [clearAddress]

theorem getAddressStatus_ne_cleared {op : Option StatusOp} (hs : s.status a = entryOf op) :
    getAddressStatus s a ≠ .cleared ↔ ∃ o, op = some o ∧ o ≠ .clear := by
  rw [getAddressStatus, hs]
  rcases op with _ | _ | untilTime | _ | _ <;> simp [entryOf, StatusOp.entry]

/-! ## Batches -/

/-- The call that performs an operation on a single address. -/
def StatusOp.single (admin addr : Address) : StatusOp → Call
  | .allow => .allowAddress admin addr
  | .allowUntil untilTime => .allowAddressUntil admin addr untilTime
  | .block => .blockAddress admin addr
  | .clear => .clearAddress admin addr

/-- What a batch call performs on each of its addresses, with the admin it names. -/
def Call.batch : Call → Option (Address × List Address × StatusOp)
  | .batchAllowAddresses admin addresses untilTime => some (admin, addresses, .allowUntil untilTime)
  | .batchBlockAddresses admin addresses => some (admin, addresses, .block)
  | _ => none

/-- The single calls of a batch, made one after the other in one environment. -/
def singles (e : Env) (admin : Address) (op : StatusOp) (order : List Address) :
    List (Input D Call) :=
  order.map fun addr => .call e (op.single admin addr)

/-- The checks that the calls giving a status share. -/
structure Ready (e : Env) (s : Storage) (admin : Address) (op : StatusOp) : Prop where
  notPaused : isPaused s = false
  authorised : admin ∈ e.auths
  notPast : ∀ untilTime, op = .allowUntil untilTime → e.timestamp < untilTime

/-- A single call that passes the checks gives its address the status. -/
theorem invoke_single {admin : Address} {op : StatusOp} {new : AddressStatus}
    (hr : Ready e w.storage admin op) (hop : op.entry = some new) (addr : Address) :
    ∃ w', invoke e w (op.single admin addr) = .ok (w', .void) ∧ w'.storage =
      { w.storage with status := assignAll w.storage.status [addr] new } := by
  cases op with
  | allow =>
    obtain rfl := Option.some.inj hop
    refine ⟨publishStatusEvent (setStatus w addr .allowed) "address_allowed" addr "Allowed" none,
      unitResult_eq_ok.mpr ⟨?_, rfl⟩, setStatus_storage w addr .allowed⟩
    simp [allowAddress, hr.notPaused, hr.authorised]
  | allowUntil untilTime =>
    obtain rfl := Option.some.inj hop
    refine ⟨allowUntil untilTime w addr, unitResult_eq_ok.mpr ⟨?_, rfl⟩,
      setStatus_storage w addr (.allowedUntil untilTime)⟩
    simp [allowAddressUntil, hr.notPaused, hr.authorised, hr.notPast untilTime rfl]
  | block =>
    obtain rfl := Option.some.inj hop
    refine ⟨block w addr, unitResult_eq_ok.mpr ⟨?_, rfl⟩, setStatus_storage w addr .blocked⟩
    simp [blockAddress, hr.notPaused, hr.authorised]
  | clear => simp [StatusOp.entry] at hop

/-- The single calls are all accepted, and give every address the status. -/
theorem run_singles {admin : Address} {op : StatusOp} {new : AddressStatus}
    (hop : op.entry = some new) (order : List Address) (hr : Ready e w.storage admin op) :
    (∀ t ∈ transitions step w (singles e admin op order), (accepted invoke t).isSome) ∧
      (run step w (singles e admin op order)).storage =
        { w.storage with status := assignAll w.storage.status order new } := by
  induction order generalizing w with
  | nil => simp [singles]
  | cons addr order ih =>
    obtain ⟨w₁, hw₁, hs₁⟩ := invoke_single hr hop addr
    have hacc := (accepted_of_invoke hw₁).1
    have hstep : step w (.call e (op.single admin addr)) = w₁ := (accepted_of_invoke hw₁).2
    have hr₁ : Ready e w₁.storage admin op := by
      rw [hs₁]
      exact ⟨hr.notPaused, hr.authorised, hr.notPast⟩
    obtain ⟨hall, hrun⟩ := ih hr₁
    rw [singles, List.map_cons, run_cons, transitions, hstep]
    refine ⟨?_, ?_⟩
    · intro t ht
      rcases List.mem_cons.mp ht with rfl | ht
      · simp [hacc]
      · exact hall t ht
    · refine hrun.trans ?_
      rw [hs₁]
      simp [← assignAll_cons]

/-- An accepted batch passes the checks of its single calls. -/
theorem ready_of_batch {admin : Address} {addresses : List Address} {op : StatusOp}
    (h : invoke e w c = .ok (w', v)) (hc : c.batch = some (admin, addresses, op)) :
    Ready e w.storage admin op ∧
      ∃ new, op.entry = some new ∧ c.writes = some (addresses, new) := by
  cases c with
  | batchAllowAddresses admin' addresses' untilTime =>
    obtain ⟨rfl, rfl, rfl⟩ := by simpa [Call.batch] using hc
    obtain ⟨⟨hp, hauth, ht, -⟩, -⟩ := by simpa [invoke, batchAllowAddresses] using h
    refine ⟨⟨hp, hauth, fun t he => ?_⟩, _, rfl, rfl⟩
    obtain rfl := StatusOp.allowUntil.inj he
    exact ht
  | batchBlockAddresses admin' addresses' =>
    obtain ⟨rfl, rfl, rfl⟩ := by simpa [Call.batch] using hc
    obtain ⟨⟨hp, hauth, -⟩, -⟩ := by simpa [invoke, batchBlockAddresses] using h
    exact ⟨⟨hp, hauth, fun t he => absurd he (by simp)⟩, _, rfl, rfl⟩
  | _ => simp [Call.batch] at hc

theorem assignAll_congr {status : Address → Option AddressStatus} {order addresses : List Address}
    {new : AddressStatus} (h : ∀ addr, addr ∈ order ↔ addr ∈ addresses) :
    assignAll status order new = assignAll status addresses new := by
  funext addr
  simp [assignAll, h addr]

/-- **An accepted batch does what its single calls do**, made in any order and any number of times
each. -/
theorem storage_singles {admin : Address} {addresses order : List Address} {op : StatusOp}
    (h : invoke e w c = .ok (w', v)) (hc : c.batch = some (admin, addresses, op))
    (horder : ∀ addr, addr ∈ order ↔ addr ∈ addresses) :
    (∀ t ∈ transitions step w (singles e admin op order), (accepted invoke t).isSome) ∧
      (run step w (singles e admin op order)).storage.status = w'.storage.status := by
  obtain ⟨hr, new, hop, hwrites⟩ := ready_of_batch h hc
  obtain ⟨hall, hrun⟩ := run_singles hop order hr
  refine ⟨hall, ?_⟩
  rw [hrun, assignAll_congr horder]
  cases effect_of_ok h with
  | wrote hw hs =>
    obtain ⟨rfl, rfl⟩ : addresses = _ ∧ new = _ := by simpa [hwrites] using hw
    rw [hs]
  | paused _ hp _ =>
    cases c <;> first | exact absurd hp Bool.false_ne_true | simp [Call.batch] at hc
  | _ => simp [Call.batch] at hc

/-! ## The last writer -/

/-- Statuses stand as the accepted calls of the history `h` left them. -/
structure LastWriter (h : History D) (w : State D) : Prop where
  isAllowed_iff : ∀ e a, isAllowed e w.storage a = true ↔
    ∃ op, lastOperation a h = some op ∧ op.Allows e.timestamp
  clearAddress_iff : ∀ e admin a, (∃ r, invoke e w (.clearAddress admin a) = .ok r) ↔
    isPaused w.storage = false ∧ admin ∈ e.auths ∧
      ∃ op, lastOperation a h = some op ∧ op ≠ .clear
  batch : ∀ e c w' v admin addresses op, invoke e w c = .ok (w', v) →
    c.batch = some (admin, addresses, op) →
    ∀ order, (∀ addr, addr ∈ order ↔ addr ∈ addresses) →
      (∀ t ∈ transitions step w (singles e admin op order), (accepted invoke t).isSome) ∧
        (run step w (singles e admin op order)).storage.status = w'.storage.status
  failed : ∀ i, accepted invoke (w, i) = none → (step w i).storage.status = w.storage.status

/-- **Last writer**: after every history of calls, whatever their times and however they ended, an
address stands as the last accepted call that mentioned it says. -/
theorem lastWriter (l : D.Ledger) (wasm : WasmHash) (is : List (Input D Call)) :
    LastWriter (transitions step (fresh l wasm) is) (run step (fresh l wasm) is) where
  isAllowed_iff _ a := isAllowed_iff (status_run l wasm is a)
  clearAddress_iff e admin a := by
    rw [← getAddressStatus_ne_cleared (status_run l wasm is a)]
    simp [invoke, clearAddress_eq_ok]
  batch _ _ _ _ _ _ _ h hc _ horder := storage_singles h hc horder
  failed i h := by rw [storage_of_not_accepted h]

end Compliance
