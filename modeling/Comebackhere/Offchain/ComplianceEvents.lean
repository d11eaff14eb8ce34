import Comebackhere.Compliance.Authority
import Comebackhere.Offchain.ScVal

/-!
# From the compliance contract to its indexer

The compliance contract publishes every status as a tuple of the address, the name of the status
and the expiry. The indexer expects the bare address where the status is allowed or blocked, and
the expiry in the second place where it is allowed until a time. Where it comes to the address, it
takes the text of the `xdr.ScAddress` for that of the address. It reads no status.

## Main definitions

* `ComplianceIndexer.eventAddress`, `ComplianceIndexer.eventExpiry`: the decoders of the indexer
* `statusEvent`: the event that reports a status
* `RoundTripsStatus`: the indexer reads from the status events of an input what the contract published

## Main results

* `published_of_ok`: an operation publishes an event for every status it sets
* `eventAddress_of_carries`, `eventExpiry_of_carries`: what the decoders make of a status
* `not_decodes`: the decoders read the event of no status
* `roundTripsStatus_iff`: an operation round-trips exactly when it publishes no status
-/

namespace Offchain

open Soroban Checked
open Compliance (AddressStatus Call invoke publishStatusEvent)

/-! ## The decoders of the indexer -/

namespace ComplianceIndexer

/-- The events that are tracked. -/
def eventTypes : List String :=
  ["address_allowed", "address_allowed_until", "address_blocked", "address_cleared"]

/-- `topic?.[index]?.sym()?.toString() ?? ""` -/
def symbol (topic : List ScVal) (index : ℕ) : Js String := do
  return (← optional topic[index]? ScVal.getSym).getD ""

def address (value : Option ScVal) : Js String := readAddress value

def eventAddress (event : RpcEvent) (eventType : String) : Js String := do
  if eventType = "address_cleared" ∨ eventType = "address_allowed_until" then
    address (← component (some event.value) 0)
  else
    address (some event.value)

/-- An expiry that is missing, or zero, is `null`. -/
def eventExpiry (event : RpcEvent) (eventType : String) : Js (Option ℕ) := do
  if eventType ≠ "address_allowed_until" then
    return none
  else
    -- the expiry is looked for in second place, after the address
    let untilTime ← optional (← component (some event.value) 1) ScVal.getU64
    return (untilTime.map fun t => number t.toNat).filter (· ≠ 0)

end ComplianceIndexer

open ComplianceIndexer

/-! ## The published events -/

/-- The name of the event that reports a status. -/
def statusEventType : AddressStatus → Symbol
  | .allowed => "address_allowed"
  | .allowedUntil _ => "address_allowed_until"
  | .blocked => "address_blocked"
  | .cleared => "address_cleared"

theorem statusEventType_mem (status : AddressStatus) : statusEventType status ∈ eventTypes := by
  cases status <;> simp [statusEventType, eventTypes]

/-- The name of a status. -/
def statusName : AddressStatus → Symbol
  | .allowed => "Allowed"
  | .allowedUntil _ => "AllowedUntil"
  | .blocked => "Blocked"
  | .cleared => "Cleared"

/-- The expiry of a status. -/
def expiry : AddressStatus → Option UInt64
  | .allowedUntil untilTime => some untilTime
  | .allowed | .blocked | .cleared => none

/-- The event that reports the status of an address. -/
def statusEvent (addr : Address) (status : AddressStatus) : Event where
  topics := [.symbol (statusEventType status)]
  data := .vec [.address addr, .symbol (statusName status), (expiry status).elim .void .u64]

/-- The statuses that a call sets, each with its address, in the order of their events. -/
def reports : Call → List (Address × AddressStatus)
  | .allowAddress _ addr => [(addr, .allowed)]
  | .blockAddress _ addr => [(addr, .blocked)]
  | .allowAddressUntil _ addr untilTime => [(addr, .allowedUntil untilTime)]
  | .batchAllowAddresses _ addresses untilTime => addresses.map (·, .allowedUntil untilTime)
  | .batchBlockAddresses _ addresses => addresses.map (·, .blocked)
  | .clearAddress _ addr => [(addr, .cleared)]
  | .upgrade _ | .initializeContract _ | .transferAdmin _ _ | .acceptAdmin _ | .pause _
  | .unpause _ => []

variable {D : Deployment} {e : Env} {w w' : Compliance.State D} {i : Input D Call} {c : Call}
  {v : Val} {received : RpcEvent} {addr : Address} {status : AddressStatus}

/-- From one world to another the events of some statuses are published, and then events that
report no status. -/
def PublishesStatuses (w w' : Compliance.State D) (statuses : List (Address × AddressStatus)) :
    Prop :=
  ∃ rest, w'.events = w.events ++ statuses.map (fun r => statusEvent r.1 r.2) ++ rest ∧
    ∀ event ∈ rest, ∀ addr status, event ≠ statusEvent addr status

theorem publishesStatuses_one (h : w'.events = w.events ++ [statusEvent addr status]) :
    PublishesStatuses w w' [(addr, status)] := ⟨[], by simpa using h, by simp⟩

theorem publishesStatuses_nil (h : w'.events = w.events) : PublishesStatuses w w' [] :=
  ⟨[], by simpa using h, by simp⟩

/-- An event that is not tracked reports no status. -/
theorem publishesStatuses_publish {name : Symbol} {data : Val} {w₁ : Compliance.State D}
    {statuses : List (Address × AddressStatus)}
    (h : w₁.events = w.events ++ statuses.map fun r => statusEvent r.1 r.2)
    (hname : name ∉ eventTypes) :
    PublishesStatuses w (w₁.publish [.symbol name] data) statuses := by
  refine ⟨[⟨[.symbol name], data⟩], by simp [World.publish, h], ?_⟩
  intro event hevent addr status heq
  obtain rfl := List.mem_singleton.mp hevent
  obtain ⟨htopics, -⟩ := Event.mk.inj heq
  obtain rfl : name = statusEventType status := by simpa using htopics
  exact hname (statusEventType_mem status)

/-- A loop that publishes the event of a status for one address after the other. -/
theorem foldl_events {f : Compliance.State D → Address → Compliance.State D}
    (hf : ∀ w a, (f w a).events = w.events ++ [statusEvent a status]) (addresses : List Address)
    (w : Compliance.State D) : (addresses.foldl f w).events =
      w.events ++ (addresses.map (·, status)).map fun r => statusEvent r.1 r.2 := by
  induction addresses generalizing w with
  | nil => simp
  | cons a addresses ih => rw [List.foldl_cons, ih, hf, List.append_assoc]; rfl

/-- **Every operation** publishes the events of the statuses it sets. -/
theorem published_of_ok (h : invoke e w c = .ok (w', v)) : PublishesStatuses w w' (reports c) := by
  cases c with
  | upgrade newWasmHash =>
    obtain ⟨⟨admin, -, -, rfl⟩, rfl⟩ := by simpa [invoke, Compliance.upgrade] using h
    exact publishesStatuses_publish (by simp [reports]) (by decide)
  | initializeContract admin =>
    obtain ⟨rfl, rfl⟩ := by simpa [invoke, Compliance.initializeContract] using h
    exact publishesStatuses_nil rfl
  | allowAddress admin addr =>
    obtain ⟨⟨-, -, rfl⟩, rfl⟩ := by simpa [invoke, Compliance.allowAddress] using h
    exact publishesStatuses_one rfl
  | blockAddress admin addr =>
    obtain ⟨⟨-, -, rfl⟩, rfl⟩ := by simpa [invoke, Compliance.blockAddress] using h
    exact publishesStatuses_one rfl
  | allowAddressUntil admin addr untilTime =>
    obtain ⟨⟨-, -, -, rfl⟩, rfl⟩ := by simpa [invoke, Compliance.allowAddressUntil] using h
    exact publishesStatuses_one rfl
  | batchAllowAddresses admin addresses untilTime =>
    obtain ⟨⟨-, -, -, -, rfl⟩, rfl⟩ := by
      simpa [invoke, Compliance.batchAllowAddresses] using h
    exact publishesStatuses_publish (foldl_events (fun _ _ => rfl) addresses w)
      (by decide)
  | batchBlockAddresses admin addresses =>
    obtain ⟨⟨-, -, -, rfl⟩, rfl⟩ := by simpa [invoke, Compliance.batchBlockAddresses] using h
    refine ⟨[], ?_, by simp⟩
    rw [List.append_nil]
    exact foldl_events (fun _ _ => rfl) addresses w
  | transferAdmin admin newAdmin =>
    obtain ⟨⟨-, -, rfl⟩, rfl⟩ := by simpa [invoke, Compliance.transferAdmin] using h
    exact publishesStatuses_nil rfl
  | acceptAdmin newAdmin =>
    obtain ⟨⟨-, -, -, rfl⟩, rfl⟩ := by simpa [invoke, Compliance.acceptAdmin] using h
    exact publishesStatuses_publish (by simp [reports]) (by decide)
  | clearAddress admin addr =>
    obtain ⟨⟨-, -, -, rfl⟩, rfl⟩ := by simpa [invoke, Compliance.clearAddress] using h
    exact publishesStatuses_one rfl
  | pause admin =>
    obtain ⟨⟨-, rfl⟩, rfl⟩ := by simpa [invoke, Compliance.pause] using h
    exact publishesStatuses_publish (by simp [reports]) (by decide)
  | unpause admin =>
    obtain ⟨⟨-, rfl⟩, rfl⟩ := by simpa [invoke, Compliance.unpause] using h
    exact publishesStatuses_publish (by simp [reports]) (by decide)

/-! ## Round trips -/

variable (strKey : StrKey)

/-- The indexer reads the address and the expiry of a status. -/
def Decodes (received : RpcEvent) (addr : Address) (status : AddressStatus) : Prop :=
  ∃ eventType, symbol received.topic 0 = .ok eventType ∧
    eventAddress received eventType = .ok (strKey.text addr) ∧
    eventExpiry received eventType = .ok ((expiry status).map UInt64.toNat)

section Carries

variable {strKey} (hcarries : received.Carries (statusEvent addr status))

include hcarries

theorem value_of_carries : received.value = .vec
    [.address addr, .symbol (statusName status), toScVal ((expiry status).elim .void .u64)] := by
  rw [hcarries.value]
  simp [statusEvent, toScVal]

theorem symbol_of_carries : symbol received.topic 0 = .ok (statusEventType status) := by
  rw [hcarries.topic]
  rfl

/-- The value is no address. -/
theorem address_of_carries :
    address (some received.value) = .error (.notSet "address") := by
  rw [value_of_carries hcarries]
  rfl

/-- The first component is the address. -/
theorem component_zero_of_carries :
    component (some received.value) 0 = .ok (some (.address addr)) := by
  rw [value_of_carries hcarries]
  rfl

/-- The second component is the name of the status, not the expiry. -/
theorem component_one_of_carries :
    component (some received.value) 1 = .ok (some (.symbol (statusName status))) := by
  rw [value_of_carries hcarries]
  rfl

/-- What the indexer takes for the address: it throws on an allowance and a block, and otherwise
has the text of an `xdr.ScAddress`. -/
theorem eventAddress_of_carries :
    eventAddress received (statusEventType status) = match status with
      | .allowed | .blocked => .error (.notSet "address")
      | .allowedUntil _ | .cleared => .ok (scAddressToString addr) := by
  cases status with
  | allowed | blocked => simp [eventAddress, statusEventType, address_of_carries hcarries]
  | allowedUntil | cleared =>
    simp only [eventAddress, statusEventType, component_zero_of_carries hcarries]
    rfl

/-- What the indexer takes for the expiry: it throws where there is one. -/
theorem eventExpiry_of_carries :
    eventExpiry received (statusEventType status) = match status with
      | .allowedUntil _ => .error (.notSet "u64")
      | .allowed | .blocked | .cleared => .ok none := by
  cases status with
  | allowedUntil untilTime =>
    simp only [eventExpiry, statusEventType, component_one_of_carries hcarries]
    rfl
  | allowed | blocked | cleared => rfl

/-- The indexer reads the event of no status. -/
theorem not_decodes : ¬ Decodes strKey received addr status := by
  rintro ⟨eventType, htype, haddress, -⟩
  obtain rfl : statusEventType status = eventType := by
    simpa [symbol_of_carries hcarries] using htype
  rw [eventAddress_of_carries hcarries] at haddress
  -- an allowance and a block are read as a bare address, the others as any object
  cases status with
  | allowed | blocked => cases haddress
  | allowedUntil | cleared => exact strKey.text_ne addr addr (Except.ok.inj haddress)

end Carries

/-- The indexer reads from every status event of an input what the contract published. -/
def RoundTripsStatus (t : Compliance.State D × Input D Call) : Prop :=
  ∀ addr status,
    statusEvent addr status ∈ (Compliance.step t.1 t.2).events.drop t.1.events.length →
      ∀ received : RpcEvent, received.Carries (statusEvent addr status) →
        Decodes strKey received addr status

/-- The input publishes no status. -/
def PublishesNoStatus (t : Compliance.State D × Input D Call) : Prop :=
  IfAccepted invoke (fun _ c _ => reports c = []) t

theorem events_of_none (ha : accepted invoke (w, i) = none) :
    (Compliance.step w i).events = w.events := by
  cases i with
  | outside l => rfl
  | call e c => rw [Compliance.step, step_call_of_not_accepted ha]

/-- **The round trip**: an input round-trips exactly when it publishes no status. -/
theorem roundTripsStatus_iff (w : Compliance.State D) (i : Input D Call) :
    RoundTripsStatus strKey (w, i) ↔ PublishesNoStatus (w, i) := by
  cases ha : accepted invoke (w, i) with
  | none =>
    refine iff_of_true (fun addr status hevent => ?_) (ifAccepted_of_none ha)
    -- an input that is not accepted publishes nothing
    rw [events_of_none ha, List.drop_length] at hevent
    cases hevent
  | some r =>
    obtain ⟨e, c, v⟩ := r
    rw [PublishesNoStatus, ifAccepted_iff ha]
    obtain ⟨rest, he, hrest⟩ := published_of_ok (invoke_of_accepted ha).2
    simp only [RoundTripsStatus, Compliance.step, he, List.append_assoc, List.drop_left,
      List.mem_append, List.mem_map]
    constructor
    · intro h
      refine List.eq_nil_iff_forall_not_mem.mpr fun r hr => ?_
      exact not_decodes (RpcEvent.of_carries _)
        (h r.1 r.2 (Or.inl ⟨r, hr, rfl⟩) _ (RpcEvent.of_carries _))
    · rintro h addr status (⟨r, hr, -⟩ | hevent)
      · rw [h] at hr
        cases hr
      · -- the events after the statuses report none
        exact absurd rfl (hrest _ hevent addr status)

/-- Accounts and contracts by their numbers. -/
def numbered : StrKey where
  text
    | .account key => "G" ++ toString key
    | .contract hash => "C" ++ toString hash
  first a := by cases a <;> simp

/-- Account 0 allows account 1. -/
def allowance : Input (isolated (.contract 0)) Call :=
  .call ⟨{.account 0}, 1, true⟩ (.allowAddress (.account 0) (.account 1))

/-- **An allowance is not read**: its tuple is taken for the address. -/
theorem allowance_not_roundTripsStatus :
    ¬ RoundTripsStatus numbered (Compliance.fresh () 0, allowance) := by
  intro h
  exact not_decodes (RpcEvent.of_carries _)
    (h (.account 1) .allowed (List.mem_singleton_self _) _ (RpcEvent.of_carries _))

end Offchain
