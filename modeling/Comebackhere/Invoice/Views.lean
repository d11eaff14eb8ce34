import Comebackhere.Invoice.Contract
import Comebackhere.Soroban.Paging

/-!
# The views of the invoice contract

Anybody may ask the contract for its invoices and its settings. The views only read: they return a
value, and no world.

## Main definitions

* `View`, `view`: the view functions
-/

namespace Invoicing

open Soroban Checked

variable {D : Deployment}

def getInvoice (s : Storage) (invoiceId : UInt64) : Result Invoice :=
  orFail (s.invoice invoiceId) (.error .invoiceNotFound)

def getInvoiceStatus (s : Storage) (invoiceId : UInt64) : Result InvoiceStatus := do
  return (← getInvoice s invoiceId).status

def getInvoiceCount (s : Storage) : UInt64 := s.invoiceCount.getD 0

/-- The most ids in a page. -/
def maxPageSize : UInt32 := 100

/-- The limit of both listings: a larger one is cut down. -/
def pageCap (limit : UInt32) : UInt32 := if maxPageSize < limit then maxPageSize else limit

/-- An invoice of the merchant is stored under the id. -/
def isOfMerchant (s : Storage) (merchant : Address) (invoiceId : UInt64) : Bool :=
  (s.invoice invoiceId).any fun invoice => invoice.merchant = merchant

/-- The loop goes through all ids up to the counter. -/
def getInvoicesByMerchant (e : Env) (s : Storage) (merchant : Address) (startAfter : Option UInt32)
    (limit : UInt32) : Result (List UInt64) :=
  let cap := pageCap limit
  let skip := startAfter.getD 0
  let count := getInvoiceCount s
  pageLoop e (isOfMerchant s merchant) skip cap (idsUpTo count.toNat) 0 0 []

/-- The page is a part of the stored index. -/
def getInvoicesByCustomer (s : Storage) (customer : Address) (startAfter : Option UInt32)
    (limit : UInt32) : Result (List UInt64) := do
  let cap := pageCap limit
  let skip := startAfter.getD 0
  let list := (s.customerInvoices customer).getD []
  if list = [] then return []
  let len ← vecLen list
  if len ≤ skip then return []
  let stop := if saturatingAdd skip cap < len then saturatingAdd skip cap else len
  return (List.range' skip.toNat (stop.toNat - skip.toNat)).filterMap fun i => list[i]?

/-- The grace window until one is stored: 24 hours. -/
def defaultGraceWindow : UInt64 := 86400

/-- The view functions, with their arguments. -/
inductive View
  | getInvoice (invoiceId : UInt64)
  | getInvoiceStatus (invoiceId : UInt64)
  | getInvoiceCount
  | getInvoicesByMerchant (merchant : Address) (startAfter : Option UInt32) (limit : UInt32)
  | getInvoicesByCustomer (customer : Address) (startAfter : Option UInt32) (limit : UInt32)
  | getTreasury
  | getCompliance
  | getGraceWindow

/-- The values that the view functions return. -/
inductive Answer
  | invoice (x : Invoice)
  | status (status : InvoiceStatus)
  | number (n : UInt64)
  | ids (ids : List UInt64)
  | address (a : Option Address)

def view (e : Env) (w : State D) : View → Result Answer
  | .getInvoice id => .invoice <$> getInvoice w.storage id
  | .getInvoiceStatus id => .status <$> getInvoiceStatus w.storage id
  | .getInvoiceCount => return .number (getInvoiceCount w.storage)
  | .getInvoicesByMerchant merchant startAfter limit =>
    .ids <$> getInvoicesByMerchant e w.storage merchant startAfter limit
  | .getInvoicesByCustomer customer startAfter limit =>
    .ids <$> getInvoicesByCustomer w.storage customer startAfter limit
  | .getTreasury => return .address w.storage.treasuryContract
  | .getCompliance => return .address w.storage.complianceContract
  | .getGraceWindow => return .number (w.storage.graceWindow.getD defaultGraceWindow)

end Invoicing
