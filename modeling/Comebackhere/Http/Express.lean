import Comebackhere.Library.Decimal
import Comebackhere.Offchain.InvoiceDecoders

/-!
# Requests and errors of the Express backend

What the middlewares and routes of the backend read of a request, and the errors they answer with.

## Main definitions

* `AppError` and its constructors: the typed errors of the application
* `Request`: a request after its body has been parsed
* `bearerToken`: the token of an `Authorization` header
* `truthy`: what counts as true in a condition
-/

namespace Http

open Offchain

/-! ## Errors -/

structure FieldIssue where
  field : String
  message : String

structure AppError where
  status : ℕ
  code : String
  message : String
  details : Option (List FieldIssue) := none

def validationError (message : String) (details : List FieldIssue) : AppError :=
  ⟨400, "VALIDATION_ERROR", message, some details⟩

def unauthorizedError (message : String) : AppError := ⟨401, "UNAUTHORIZED", message, none⟩

def forbiddenError (message : String) : AppError := ⟨403, "FORBIDDEN", message, none⟩

def notFoundError (message : String) : AppError := ⟨404, "NOT_FOUND", message, none⟩

def conflictError (message : String) : AppError := ⟨409, "CONFLICT", message, none⟩

def serviceMisconfiguredError (message : String) : AppError :=
  ⟨503, "SERVICE_MISCONFIGURED", message, none⟩

/-- An error of the database, as the error handler passes it on. -/
def internalError (message : String) : AppError := ⟨500, "INTERNAL_ERROR", message, none⟩

/-! ## Requests -/

/-- What the routes read of a request: some headers, the parsed body, and the merchant address of
the query string. -/
structure Request where
  adminKey : Option String
  merchantAddress : Option String
  authorization : Option String
  idempotencyKey : Option String
  body : Option Json
  queryMerchantAddress : Option Json

/-- A value counts as true in a condition. -/
def truthy : Json → Bool
  | .null => false
  | .bool b => b
  | .number n => n ≠ 0
  | .string s => s ≠ ""
  | .array _ | .object _ => true

/-- A header that is present and not empty. -/
def present (header : Option String) : Option String := header.filter (· ≠ "")

/-- The white space of a regular expression. -/
def isSpace (c : Char) : Bool :=
  c.toNat ∈ [9, 10, 11, 12, 13, 32, 0xa0, 0x1680, 0x2028, 0x2029, 0x202f, 0x205f, 0x3000, 0xfeff] ∨
    0x2000 ≤ c.toNat ∧ c.toNat ≤ 0x200a

/-- A digit is no white space. -/
theorem isSpace_eq_false {c : Char} (hc : c.isDigit) : isSpace c = false := by
  have hdigit := Decimal.isDigit_toNat hc
  simp only [isSpace, List.mem_cons, List.not_mem_nil, or_false, decide_eq_false_iff_not]
  omega

/-- `authorization.match(/^Bearer (\S+)$/i)` -/
def bearerToken (authorization : String) : Option String :=
  let cs := authorization.toList
  if (cs.take 7).map Char.toLower = "bearer ".toList ∧ cs.drop 7 ≠ [] ∧
      (cs.drop 7).all (!isSpace ·) then
    some (String.ofList (cs.drop 7))
  else none

def Request.bearer (req : Request) : Option String := req.authorization.bind bearerToken

example : bearerToken "bearer ch_1" = some "ch_1" := by decide

end Http
