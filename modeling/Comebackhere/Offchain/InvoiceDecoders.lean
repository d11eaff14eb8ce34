import Comebackhere.Invoice.Contract
import Comebackhere.Offchain.ScVal

/-!
# The decoders of invoices

The frontend and the Rust backend each decode the invoice that the contract returns, the first
from the map of contract values, the second from a JSON map of keys and values. Both look for the
fields of an older layout, whose ids were `u32`: the frontend throws on every invoice, and the
backend finds neither payer nor amount and falls back to defaults, so that its check of the payer
lets everyone pass.

## Main definitions

* `invoiceScVal`, `invoiceJson`: the contract's invoice as the decoders receive it
* `Frontend.scValToInvoice`, `Backend.parseInvoiceResult`: the decoders
* `Backend.checkPayer`: the check before a payment or a refund is forwarded

## Main results

* `Frontend.scValToInvoice_invoiceScVal`, `Backend.parseInvoiceResult_invoiceJson`: what the
  decoders make of an invoice
* `Backend.checkPayer_parse`: every payer passes the check
* `not_decoded`: neither decoder undoes the encoding of any invoice
-/

namespace Offchain

open Soroban
open Invoicing (Invoice InvoiceStatus)

/-- The name of the variant, which the contract's encoding of a status holds. -/
def statusSymbol : InvoiceStatus → Symbol
  | .pending => "Pending"
  | .paid => "Paid"
  | .expired => "Expired"
  | .cancelled => "Cancelled"
  | .refundRequested => "RefundRequested"
  | .released => "Released"

/-! ## The frontend -/

/-- A struct is a map from the names of its fields, in alphabetical order. -/
def invoiceScVal (invoice : Invoice) : ScVal :=
  .map
    [(.symbol "amount", .i128 invoice.amount),
      (.symbol "created_at", .u64 invoice.createdAt),
      (.symbol "customer", .address invoice.customer),
      (.symbol "expires_at", .u64 invoice.expiresAt),
      (.symbol "id", .u64 invoice.id),
      (.symbol "merchant", .address invoice.merchant),
      (.symbol "reference", invoice.reference.elim .void .string),
      (.symbol "status", .vec [.symbol (statusSymbol invoice.status)]),
      (.symbol "token", .address invoice.token)]

namespace Frontend

/-- The invoice of the frontend. A status is any text. -/
structure Invoice where
  id : String
  merchant : String
  payer : String
  amountUsdc : String
  grossUsdc : String
  expiresAt : ℕ
  status : String
  paidAt : Option ℕ
  metadataHash : Option String
  paymentLinkHash : Option String

/-- How addresses and bytes are written as texts. -/
structure Texts where
  address : Address → String
  bytes : WasmHash → String

def u64ToNumber (value : Option UInt64) : ℕ := number (value.elim 0 UInt64.toNat)

/-- The entries of a map by their names; of two with one name the last. -/
def entriesOf (map : List (ScVal × ScVal)) : Js (String → Option ScVal) :=
  map.foldlM (fun entries entry => do
    match ← entry.1.getSym with
    | some name => return Function.update entries name (some entry.2)
    | none => throw .ofUndefined) fun _ => none

def scValToInvoice (texts : Texts) (scVal : ScVal) : Js Invoice := do
  let some map ← scVal.getMap | throw (.error "Invalid invoice response")
  -- all fields are read before one is returned, so any of them can throw
  let entries ← entriesOf map
  let id ← optional (entries "id") ScVal.getU32
  let merchant ← readAddress (entries "merchant")
  let payer ← readAddress (entries "payer")
  let amountUsdc ← optional (entries "amount_usdc") ScVal.getI128
  let grossUsdc ← optional (entries "gross_usdc") ScVal.getI128
  let expiresAt ← optional (entries "expires_at") ScVal.getU64
  let status ← optional (← component (entries "status") 0) ScVal.getSym
  let paidAt ← optional (entries "paid_at") ScVal.getU64
  let metadataHash ← optional (entries "metadata_hash") ScVal.getBytes
  let paymentLinkHash ← optional (entries "payment_link_hash") ScVal.getBytes
  return {
    id := (id.map toString).getD ""
    merchant
    payer
    amountUsdc := (amountUsdc.map toString).getD "0"
    grossUsdc := (grossUsdc.map toString).getD "0"
    expiresAt := u64ToNumber expiresAt
    status := status.getD "Pending"
    paidAt := paidAt.map fun t => u64ToNumber (some t)
    metadataHash := metadataHash.map texts.bytes
    paymentLinkHash := paymentLinkHash.map texts.bytes }

/-- The entries of the contract's invoice, by their names. -/
theorem entriesOf_invoiceScVal (invoice : Invoicing.Invoice) :
    ∃ map entries, (invoiceScVal invoice).getMap = .ok (some map) ∧ entriesOf map = .ok entries ∧
      entries "id" = some (.u64 invoice.id) :=
  ⟨_, _, rfl, rfl, rfl⟩

/-- **The frontend throws on every invoice**: its id is no `u32`. -/
theorem scValToInvoice_invoiceScVal (texts : Texts) (invoice : Invoicing.Invoice) :
    scValToInvoice texts (invoiceScVal invoice) = .error (.notSet "u32") := by
  obtain ⟨map, entries, hmap, hentries, hid⟩ := entriesOf_invoiceScVal invoice
  have hu32 : optional (entries "id") ScVal.getU32 = .error (.notSet "u32") := by
    rw [hid]
    rfl
  simp only [scValToInvoice, hmap, hentries, hu32, bind, Except.bind]

/-- The frontend returns the contract's invoice. -/
def Decodes (texts : Texts) (invoice : Invoicing.Invoice) : Prop :=
  ∃ decoded, scValToInvoice texts (invoiceScVal invoice) = .ok decoded ∧
    decoded.id = toString invoice.id ∧
    decoded.merchant = texts.address invoice.merchant ∧
    decoded.payer = texts.address invoice.customer ∧
    decoded.amountUsdc = toString invoice.amount ∧
    decoded.expiresAt = invoice.expiresAt.toNat ∧
    decoded.status = statusSymbol invoice.status

theorem not_decodes (texts : Texts) (invoice : Invoicing.Invoice) : ¬ Decodes texts invoice := by
  rintro ⟨decoded, hdecoded, -⟩
  rw [scValToInvoice_invoiceScVal] at hdecoded
  cases hdecoded

end Frontend

/-! ## The Rust backend -/

/-- A JSON value. Numbers that are no integers do not occur. -/
inductive Json
  | null
  | bool (b : Bool)
  | number (n : ℤ)
  | string (s : String)
  | array (vs : List Json)
  | object (members : List (String × Json))

namespace Json

/-- The member of an object. -/
def get (key : String) : Json → Option Json
  | object members => (members.find? (·.1 = key)).map (·.2)
  | _ => none

def asU64 : Json → Option UInt64
  | number n => if 0 ≤ n ∧ n.toNat < UInt64.size then some (.ofNat n.toNat) else none
  | _ => none

def asStr : Json → Option String
  | string s => some s
  | _ => none

def asArray : Json → Option (List Json)
  | array vs => some vs
  | _ => none

end Json

/-- How the map of keys and values represents what JSON has no type for. -/
structure JsonForm where
  address : Address → String
  status : InvoiceStatus → Json
  reference : Option (List UInt8) → Json

/-- An entry of the map. -/
def jsonEntry (key : String) (val : Json) : Json := .object [("key", .string key), ("val", val)]

/-- The entries of the contract's invoice, under the names of its fields. -/
def invoiceEntries (form : JsonForm) (invoice : Invoice) : List Json :=
  [jsonEntry "amount" (.number invoice.amount),
    jsonEntry "created_at" (.number invoice.createdAt.toNat),
    jsonEntry "customer" (.string (form.address invoice.customer)),
    jsonEntry "expires_at" (.number invoice.expiresAt.toNat),
    jsonEntry "id" (.number invoice.id.toNat),
    jsonEntry "merchant" (.string (form.address invoice.merchant)),
    jsonEntry "reference" (form.reference invoice.reference),
    jsonEntry "status" (form.status invoice.status),
    jsonEntry "token" (.string (form.address invoice.token))]

/-- The contract's invoice as a map of keys and values. -/
def invoiceJson (form : JsonForm) (invoice : Invoice) : Json :=
  .object [("map", .array (invoiceEntries form invoice))]

namespace Backend

structure InvoiceResponse where
  id : UInt64
  merchant : String
  payer : Option String
  token : Option String
  amountUsdc : UInt64
  grossUsdc : UInt64
  status : InvoiceStatus
  dueDate : UInt64
  paidAt : Option UInt64
  createdAt : Option UInt64

/-- `InvoiceStatus::from_u32`; the backend's statuses have the names of the contract's. -/
def statusFromU32 : UInt32 → Option InvoiceStatus
  | 0 => some .pending
  | 1 => some .paid
  | 2 => some .expired
  | 3 => some .cancelled
  | 4 => some .refundRequested
  | 5 => some .released
  | _ => none

/-- The value of the first entry with a key. -/
def lookup (map : List Json) (key : String) : Option Json :=
  (map.find? fun entry => (entry.get "key").bind Json.asStr = some key).bind (·.get "val")

def parseInvoiceResult (result : Json) (invoiceId : UInt64) : Except String InvoiceResponse :=
  let map := ((result.get "map").bind Json.asArray).getD []
  let getU64 key := (lookup map key).bind Json.asU64
  let getStr key := (lookup map key).bind Json.asStr
  -- `v as u32`, which drops the high bits
  let getU32 key := ((lookup map key).bind Json.asU64).map UInt64.toUInt32
  .ok {
    id := (getU64 "id").getD invoiceId
    merchant := (getStr "merchant").getD ""
    payer := getStr "payer"
    token := getStr "token"
    amountUsdc := (getU64 "amount_usdc").getD 0
    grossUsdc := (getU64 "gross_usdc").getD 0
    status := ((getU32 "status").bind statusFromU32).getD .pending
    dueDate := (getU64 "expires_at").getD 0
    paidAt := getU64 "paid_at"
    createdAt := getU64 "created_at" }

/-- The check of `pay_invoice` and `refund_invoice` before a transaction is forwarded. -/
def checkPayer (invoice : InvoiceResponse) (payer : String) : Except String Unit :=
  match invoice.payer with
  | some expected => if expected ≠ "" ∧ expected ≠ payer then .error "UNAUTHORIZED" else .ok ()
  | none => .ok ()

/-- The status a JSON value is read as. -/
def readStatus (val : Json) : InvoiceStatus :=
  ((val.asU64.map UInt64.toUInt32).bind statusFromU32).getD .pending

theorem asU64_toNat (n : UInt64) : Json.asU64 (.number n.toNat) = some n := by
  have hlt : (n.toNat : ℤ).toNat < UInt64.size := n.toNat_lt_size
  rw [Json.asU64, if_pos ⟨Int.natCast_nonneg _, hlt⟩, Int.toNat_natCast, UInt64.ofNat_toNat]

theorem lookup_nil (key : String) : lookup [] key = none := rfl

/-- An entry is found under its own key. -/
theorem lookup_cons (name : String) (val : Json) (rest : List Json) (key : String) :
    lookup (jsonEntry name val :: rest) key = if name = key then some val else lookup rest key := by
  have hkey : ((jsonEntry name val).get "key").bind Json.asStr = some name := rfl
  have hval : (jsonEntry name val).get "val" = some val := rfl
  unfold lookup
  rw [List.find?_cons, hkey]
  by_cases h : name = key
  · subst h
    simp [hval]
  · simp [h]

/-- What the entries of an invoice hold under the names that the backend looks up. -/
structure Looks (map : List Json) (form : JsonForm) (invoice : Invoice) : Prop where
  id : (lookup map "id").bind Json.asU64 = some invoice.id
  merchant : (lookup map "merchant").bind Json.asStr = some (form.address invoice.merchant)
  token : (lookup map "token").bind Json.asStr = some (form.address invoice.token)
  status : lookup map "status" = some (form.status invoice.status)
  expiresAt : (lookup map "expires_at").bind Json.asU64 = some invoice.expiresAt
  createdAt : (lookup map "created_at").bind Json.asU64 = some invoice.createdAt
  missing : ∀ key ∈ ["payer", "amount_usdc", "gross_usdc", "paid_at"], lookup map key = none

theorem asU64_of_lookup {map : List Json} {key : String} {n : UInt64}
    (h : lookup map key = some (.number n.toNat)) : (lookup map key).bind Json.asU64 = some n := by
  rw [h, Option.bind_some, asU64_toNat]

theorem asStr_of_lookup {map : List Json} {key text : String}
    (h : lookup map key = some (.string text)) : (lookup map key).bind Json.asStr = some text := by
  rw [h]
  rfl

theorem looks_invoiceEntries (form : JsonForm) (invoice : Invoice) :
    Looks (invoiceEntries form invoice) form invoice where
  id := asU64_of_lookup (by simp [invoiceEntries, lookup_cons])
  merchant := asStr_of_lookup (by simp [invoiceEntries, lookup_cons])
  token := asStr_of_lookup (by simp [invoiceEntries, lookup_cons])
  status := by simp [invoiceEntries, lookup_cons]
  expiresAt := asU64_of_lookup (by simp [invoiceEntries, lookup_cons])
  createdAt := asU64_of_lookup (by simp [invoiceEntries, lookup_cons])
  missing := by simp [invoiceEntries, lookup_cons, lookup_nil]

/-- **The backend drops the payer and the amount** of every invoice, and keeps the rest. -/
theorem parseInvoiceResult_invoiceJson (form : JsonForm) (invoice : Invoice)
    (invoiceId : UInt64) :
    parseInvoiceResult (invoiceJson form invoice) invoiceId = .ok {
      id := invoice.id
      merchant := form.address invoice.merchant
      payer := none
      token := some (form.address invoice.token)
      amountUsdc := 0
      grossUsdc := 0
      status := readStatus (form.status invoice.status)
      dueDate := invoice.expiresAt
      paidAt := none
      createdAt := some invoice.createdAt } := by
  have hmap : ((invoiceJson form invoice).get "map").bind Json.asArray =
      some (invoiceEntries form invoice) := rfl
  have hlooks := looks_invoiceEntries form invoice
  have hpayer := hlooks.missing "payer" (by decide)
  have hamount := hlooks.missing "amount_usdc" (by decide)
  have hgross := hlooks.missing "gross_usdc" (by decide)
  have hpaid := hlooks.missing "paid_at" (by decide)
  simp only [parseInvoiceResult, hmap, Option.getD_some, hlooks.id, hlooks.merchant, hlooks.token,
    hlooks.status, hlooks.expiresAt, hlooks.createdAt, hpayer, hamount, hgross, hpaid]
  rfl

/-- The backend returns the contract's invoice. -/
def Decodes (form : JsonForm) (invoice : Invoice) (invoiceId : UInt64) : Prop :=
  ∃ decoded, parseInvoiceResult (invoiceJson form invoice) invoiceId = .ok decoded ∧
    decoded.id = invoice.id ∧
    decoded.merchant = form.address invoice.merchant ∧
    decoded.payer = some (form.address invoice.customer) ∧
    (decoded.amountUsdc.toNat : ℤ) = invoice.amount ∧
    decoded.dueDate = invoice.expiresAt ∧
    decoded.status = invoice.status

theorem not_decodes (form : JsonForm) (invoice : Invoice) (invoiceId : UInt64) :
    ¬ Decodes form invoice invoiceId := by
  -- the payer is missing whatever the customer of the invoice
  rintro ⟨decoded, hdecoded, -, -, hpayer, -⟩
  rw [parseInvoiceResult_invoiceJson] at hdecoded
  cases hdecoded
  cases hpayer

/-- **Everyone passes the check of the payer.** -/
theorem checkPayer_parse (form : JsonForm) (invoice : Invoice) (invoiceId : UInt64)
    (payer : String) :
    (do checkPayer (← parseInvoiceResult (invoiceJson form invoice) invoiceId) payer) =
      .ok () := by
  rw [parseInvoiceResult_invoiceJson]
  rfl

end Backend

/-! ## No invoice is decoded -/

/-- **Neither decoder undoes the contract's encoding**, of any invoice. -/
theorem not_decoded (texts : Frontend.Texts) (form : JsonForm) (invoice : Invoice)
    (invoiceId : UInt64) :
    ¬ Frontend.Decodes texts invoice ∧ ¬ Backend.Decodes form invoice invoiceId :=
  ⟨Frontend.not_decodes texts invoice, Backend.not_decodes form invoice invoiceId⟩

/-- Invoice 1, just created. -/
def createdInvoice : Invoice :=
  { id := 1, merchant := .account 1, customer := .account 2, amount := 10000000,
    token := .contract 1, status := .pending, createdAt := 1, expiresAt := 100, reference := none }

/-- Accounts and contracts by their numbers. -/
def addressText : Address → String
  | .account key => "G" ++ toString key
  | .contract hash => "C" ++ toString hash

/-- The backend's tests represent a status by its number. -/
def numberForm : JsonForm where
  address := addressText
  status
    | .pending => .number 0
    | .paid => .number 1
    | .expired => .number 2
    | .cancelled => .number 3
    | .refundRequested => .number 4
    | .released => .number 5
  reference _ := .null

/-- The frontend throws on invoice 1, and the backend returns it without payer and amount. -/
theorem createdInvoice_not_decoded :
    ¬ (Frontend.Decodes ⟨addressText, fun _ => ""⟩ createdInvoice ∧
      Backend.Decodes numberForm createdInvoice 1) := by
  rintro ⟨hfrontend, hbackend⟩
  exact Frontend.not_decodes _ _ hfrontend

end Offchain
