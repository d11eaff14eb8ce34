import Comebackhere.Soroban.Host
import Mathlib.Data.Nat.Log

/-!
# Contract values outside the chain

The clients of the contracts read values as `xdr.ScVal`. Every kind of value has an accessor, which
throws on a value of another kind, and `undefined` values are passed on by `?.`. Integers that
become a `number` are rounded to 53 significant bits.

## Main definitions

* `ScVal`: a value as a client reads it, and `toScVal`, the contract's values among them
* `ScVal.getSym`, `ScVal.getU64`, ...: the accessors
* `readAddress`: the text that the clients take for an address, and `StrKey`, the texts that name one
* `RpcEvent`: an event as the RPC server returns it, and `RpcEvent.Carries`
* `number`: the `number` of an integer
-/

namespace Offchain

open Soroban

/-- The kinds of `xdr.ScVal` that the contracts' interfaces use. -/
inductive ScVal
  | void
  | bool (b : Bool)
  | u32 (n : UInt32)
  | u64 (n : UInt64)
  | i128 (n : ℤ)
  | symbol (s : Symbol)
  | string (bytes : List UInt8)
  | bytes (b : WasmHash)
  | address (a : Address)
  | vec (vs : List ScVal)
  | map (entries : List (ScVal × ScVal))

/-! ## The contracts' values -/

mutual

/-- A value of a contract, decoded by a client. -/
def toScVal : Val → ScVal
  | .void => .void
  | .bool b => .bool b
  | .u32 n => .u32 n
  | .u64 n => .u64 n
  | .i128 n => .i128 n
  | .symbol s => .symbol s
  | .address a => .address a
  | .bytesN b => .bytes b
  | .vec vs => .vec (toScVals vs)

def toScVals : List Val → List ScVal
  | [] => []
  | v :: vs => toScVal v :: toScVals vs

end

theorem toScVals_eq_map (vs : List Val) : toScVals vs = vs.map toScVal := by
  induction vs with
  | nil => rfl
  | cons v vs ih => simp [toScVals, ih]

@[simp] theorem toScVal_vec (vs : List Val) : toScVal (.vec vs) = .vec (vs.map toScVal) := by
  simp [toScVal, toScVals_eq_map]

/-! ## Accessors -/

/-- What JavaScript code throws: that an arm is not set, that a member of `undefined` is read, or
an error of its own. -/
inductive JsError
  | notSet (arm : String)
  | ofUndefined
  | error (message : String)
  deriving DecidableEq, Repr

/-- What JavaScript code computes when it may throw. -/
abbrev Js (α : Type) := Except JsError α

namespace ScVal

/-- The accessor `arm()` of a value. A `void` value has no arm that could be missed: it
gives `undefined`. -/
def access {α : Type} (arm : String) (f : ScVal → Option α) (v : ScVal) : Js (Option α) :=
  match v, f v with
  | _, some a => .ok (some a)
  | .void, none => .ok none
  | _, none => .error (.notSet arm)

def getSym : ScVal → Js (Option Symbol) :=
  access "sym" fun | .symbol s => some s | _ => none

def getU32 : ScVal → Js (Option UInt32) :=
  access "u32" fun | .u32 n => some n | _ => none

def getU64 : ScVal → Js (Option UInt64) :=
  access "u64" fun | .u64 n => some n | _ => none

def getI128 : ScVal → Js (Option ℤ) :=
  access "i128" fun | .i128 n => some n | _ => none

def getBytes : ScVal → Js (Option WasmHash) :=
  access "bytes" fun | .bytes b => some b | _ => none

/-- An `xdr.ScAddress`. -/
def getAddress : ScVal → Js (Option Address) :=
  access "address" fun | .address a => some a | _ => none

def getVec : ScVal → Js (Option (List ScVal)) :=
  access "vec" fun | .vec vs => some vs | _ => none

def getMap : ScVal → Js (Option (List (ScVal × ScVal))) :=
  access "map" fun | .map entries => some entries | _ => none

end ScVal

/-- `value?.accessor()`. -/
def optional {α β : Type} (value : Option α) (accessor : α → Js (Option β)) : Js (Option β) :=
  match value with
  | none => .ok none
  | some v => accessor v

@[simp] theorem optional_none {α β : Type} {accessor : α → Js (Option β)} :
    optional none accessor = .ok none := rfl

@[simp] theorem optional_some {α β : Type} {v : α} {accessor : α → Js (Option β)} :
    optional (some v) accessor = accessor v := rfl

/-- `value?.vec()?.[index]` -/
def component (value : Option ScVal) (index : ℕ) : Js (Option ScVal) := do
  return (← optional value ScVal.getVec).bind (·[index]?)

/-- An `xdr.ScAddress` has no `toString()` of its own: whatever its address is, its text is that of
any object. The text that names the address is what the class `Address` writes. -/
def scAddressToString (_ : Address) : String := "[object Object]"

/-- `value?.address()?.toString() ?? ""` -/
def readAddress (value : Option ScVal) : Js String := do
  return ((← optional value ScVal.getAddress).map scAddressToString).getD ""

/-- How addresses are named: the texts of accounts begin with `G`, those of contracts with `C`. -/
structure StrKey where
  text : Address → String
  first : ∀ a, (text a).toList.head? = some (match a with | .account _ => 'G' | .contract _ => 'C')

/-- The text of an `xdr.ScAddress` names no address. -/
theorem StrKey.text_ne (strKey : StrKey) (a b : Address) : scAddressToString a ≠ strKey.text b := by
  intro h
  have hfirst := strKey.first b
  rw [← h] at hfirst
  cases b <;> simp [scAddressToString] at hfirst

/-! ## Numbers -/

/-- `Number(n)` of an integer: the nearest with 53 significant bits, of two the even one. -/
def number (n : ℕ) : ℕ :=
  let unit := 2 ^ (Nat.log 2 n - 52)
  let q := n / unit
  let r := n % unit
  if 2 * r < unit ∨ 2 * r = unit ∧ q % 2 = 0 then q * unit else (q + 1) * unit

/-- Integers of up to 53 bits are kept. -/
theorem number_of_lt {n : ℕ} (h : n < 2 ^ 53) : number n = n := by
  have hlog : Nat.log 2 n - 52 = 0 := by
    have := Nat.log_lt_of_lt_pow' (by decide) h
    omega
  simp [number, hlog, Nat.mod_one]

example : number (2 ^ 53 + 1) = 2 ^ 53 := by decide

/-! ## Events -/

/-- An event as the RPC server returns it. -/
structure RpcEvent where
  id : Option String
  pagingToken : Option String
  ledger : ℕ
  ledgerClosedAt : Option String
  txHash : Option String
  topic : List ScVal
  value : ScVal

/-- The RPC server returns the topics and the data that the contract published. -/
structure RpcEvent.Carries (event : RpcEvent) (published : Event) : Prop where
  topic : event.topic = published.topics.map toScVal
  value : event.value = toScVal published.data

/-- A published event as the server may return it. -/
def RpcEvent.of (published : Event) : RpcEvent where
  id := none
  pagingToken := none
  ledger := 0
  ledgerClosedAt := none
  txHash := none
  topic := published.topics.map toScVal
  value := toScVal published.data

theorem RpcEvent.of_carries (published : Event) : (RpcEvent.of published).Carries published :=
  ⟨rfl, rfl⟩

end Offchain
