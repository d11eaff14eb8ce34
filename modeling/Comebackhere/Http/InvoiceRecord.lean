import Comebackhere.Library.Decimal

/-!
# Invoice records of the Express backend

The database keeps a record of every invoice, with two dates. A date of JavaScript is a number of
milliseconds since 1970 within a range, or invalid.

## Main definitions

* `Date`, `newDate`, `toISOString`: dates
* `InvoiceRecord`: what the database keeps of an invoice
-/

namespace Http

/-! ## Dates -/

/-- A date, as its time in milliseconds. An invalid date has none. -/
abbrev Date := Option ℤ

/-- The largest time of a date. -/
def maxTime : ℤ := 8640000000000000

/-- `new Date(ms)` -/
def newDate (ms : ℤ) : Date := if |ms| ≤ maxTime then some ms else none

/-- The year, the month and the day of the month, by the number of days since the start of 1970. The
years are counted from March on, so that a leap day ends its year. -/
def civil (days : ℤ) : ℤ × ℕ × ℕ :=
  let shifted := days + 719468
  let era := shifted / 146097
  let dayOfEra := (shifted % 146097).toNat
  let yearOfEra := (dayOfEra - dayOfEra / 1460 + dayOfEra / 36524 - dayOfEra / 146096) / 365
  let dayOfYear := dayOfEra - (365 * yearOfEra + yearOfEra / 4 - yearOfEra / 100)
  let month := (5 * dayOfYear + 2) / 153
  let day := dayOfYear - (153 * month + 2) / 5 + 1
  let month := if month < 10 then month + 3 else month - 9
  (yearOfEra + era * 400 + if month ≤ 2 then 1 else 0, month, day)

/-- A number with zeros before it. -/
def padded (width n : ℕ) : List Char := (Nat.toDigits 10 n).leftpad width '0'

/-- Years of more than four digits have six, and a sign. -/
def yearText (year : ℤ) : List Char :=
  if 0 ≤ year ∧ year ≤ 9999 then padded 4 year.toNat
  else (if year < 0 then '-' else '+') :: padded 6 year.natAbs

/-- A time in the format of ISO 8601. -/
def isoText (ms : ℤ) : List Char :=
  let (year, month, day) := civil (ms / 86400000)
  let time := (ms % 86400000).toNat
  yearText year ++ '-' :: padded 2 month ++ '-' :: padded 2 day ++ 'T' ::
    padded 2 (time / 3600000) ++ ':' :: padded 2 (time / 60000 % 60) ++ ':' ::
    padded 2 (time / 1000 % 60) ++ '.' :: padded 3 (time % 1000) ++ ['Z']

/-- An invalid date throws a `RangeError`. -/
def toISOString : Date → Except String (List Char)
  | some ms => .ok (isoText ms)
  | none => .error "Invalid time value"

example : isoText 1709210096789 = "2024-02-29T12:34:56.789Z".toList := by decide

/-! ## Records -/

/-- The numbers that are not finite. -/
inductive NonFinite
  | nan
  | infinity
  | negInfinity

/-- A due date in seconds, or what stands in its place: nothing, a text, or a number that is not
finite. -/
inductive DueDate
  | seconds (n : ℤ)
  | missing
  | text (s : String)
  | nonFinite (x : NonFinite)

/-- The record of an invoice. The database does not check the status. -/
structure InvoiceRecord where
  invoiceId : String
  merchantAddress : String
  token : String
  amount : ℤ
  dueDate : DueDate
  reference : Option String
  status : String
  createdAt : Date
  updatedAt : Date

end Http
