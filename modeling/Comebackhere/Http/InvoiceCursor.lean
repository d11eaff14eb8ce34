import Comebackhere.Http.Express
import Comebackhere.Http.InvoiceRecord
import Comebackhere.Library.Base64
import Comebackhere.Library.JsonText
import Comebackhere.Library.Utf8

/-!
# The cursors of the list of invoices

The list of invoices goes on behind the last one of a page. The cursor that names this place is the
invoice's date and id, as JSON in the alphabet for URLs.

## Main definitions

* `encodeInvoiceCursor`, `decodeInvoiceCursor`: the cursor of an invoice, and what it names
* `Listable`: an invoice whose place a cursor can name

## Main results

* `decode_encodeInvoiceCursor`: decoding undoes encoding
* `length_encodeInvoiceCursor`: a long id has a long cursor
-/

namespace Http

structure InvoiceCursor where
  createdAt : ℤ
  invoiceId : String

/-- The members of a cursor. The time of an invalid date is `null` in JSON. -/
def cursorMembers (invoice : InvoiceRecord) : List (List Char × JsonText.Scalar) :=
  [("createdAt".toList, invoice.createdAt.elim .null .integer),
    ("invoiceId".toList, .string invoice.invoiceId.toList)]

def encodeInvoiceCursor (invoice : InvoiceRecord) : String :=
  String.ofList (Base64.encode (Utf8.encode (JsonText.stringify (cursorMembers invoice))))

/-- What a cursor names, if it is valid. -/
def cursorPayload (cursor : String) : Option InvoiceCursor := do
  let decoded ← JsonText.parse (Utf8.decode (Base64.decode cursor.toList))
  let .number createdAt ← decoded.get "createdAt".toList | none
  let createdAt ← Double.safeInteger createdAt
  let .string invoiceId ← decoded.get "invoiceId".toList | none
  if 0 ≤ createdAt ∧ newDate createdAt ≠ none ∧ invoiceId ≠ [] then
    return ⟨createdAt, String.ofList invoiceId⟩
  else none

def decodeInvoiceCursor (cursor : String) : Except AppError InvoiceCursor :=
  match cursorPayload cursor with
  | some payload => .ok payload
  | none => .error ⟨400, "BAD_REQUEST", "cursor is invalid", none⟩

/-! ## What is decoded -/

/-- An invoice with an id, and with a valid date that is not before 1970. -/
structure Listable (invoice : InvoiceRecord) : Prop where
  id : invoice.invoiceId ≠ ""
  date : ∃ ms, invoice.createdAt = some ms ∧ 0 ≤ ms ∧ ms ≤ maxTime

variable {invoice : InvoiceRecord}

/-- **Decoding undoes encoding.** -/
theorem decode_encodeInvoiceCursor (h : Listable invoice) : ∃ ms, invoice.createdAt = some ms ∧
    decodeInvoiceCursor (encodeInvoiceCursor invoice) = .ok ⟨ms, invoice.invoiceId⟩ := by
  obtain ⟨ms, hms, hpos, hmax⟩ := h.date
  refine ⟨ms, hms, ?_⟩
  have hsafe : ms.natAbs < 2 ^ 53 := by
    simp only [maxTime] at hmax
    omega
  have hdate : newDate ms = some ms := by rw [newDate, if_pos (abs_le.mpr ⟨by omega, hmax⟩)]
  have hid : invoice.invoiceId.toList ≠ [] := by simpa using h.id
  have hparse : JsonText.parse (Utf8.decode (Base64.decode (encodeInvoiceCursor invoice).toList)) =
      some (.object [("createdAt".toList, .number (some (ms : ℚ))),
        ("invoiceId".toList, .string invoice.invoiceId.toList)]) := by
    rw [encodeInvoiceCursor, String.toList_ofList, Base64.decode_encode, Utf8.decode_encode,
      JsonText.parse_stringify, ← Double.double_intCast hsafe, cursorMembers, hms]
    rfl
  have hpayload : cursorPayload (encodeInvoiceCursor invoice) = some ⟨ms, invoice.invoiceId⟩ := by
    rw [cursorPayload, hparse]
    change (Double.safeInteger (some (ms : ℚ))).bind _ = _
    rw [Double.safeInteger_intCast hsafe]
    change (if 0 ≤ ms ∧ newDate ms ≠ none ∧ invoice.invoiceId.toList ≠ [] then _ else none) = _
    rw [if_pos ⟨hpos, by simp [hdate], hid⟩, String.ofList_toList]
    rfl
  rw [decodeInvoiceCursor, hpayload]

theorem isUrlDigit_encodeInvoiceCursor {c : Char} (h : c ∈ (encodeInvoiceCursor invoice).toList) :
    Base64.isUrlDigit c = true := by
  rw [encodeInvoiceCursor, String.toList_ofList] at h
  exact Base64.forall_encode h

/-- **A long id has a long cursor.** -/
theorem length_encodeInvoiceCursor :
    4 * invoice.invoiceId.length ≤ 3 * (encodeInvoiceCursor invoice).length := by
  have htext : invoice.invoiceId.length ≤ (JsonText.stringify (cursorMembers invoice)).length := by
    have hquoted := JsonText.length_le_quoted invoice.invoiceId.toList
    rw [String.length_toList] at hquoted
    simp only [JsonText.stringify, cursorMembers, JsonText.memberText, JsonText.Scalar.text,
      List.map_cons, List.map_nil, List.intercalate_cons_cons, List.intercalate_singleton,
      List.length_append, List.length_cons]
    omega
  have hbytes := Utf8.length_le_encode (JsonText.stringify (cursorMembers invoice))
  have hdigits := Base64.length_encode (Utf8.encode (JsonText.stringify (cursorMembers invoice)))
  rw [encodeInvoiceCursor, String.length_ofList]
  omega

end Http
