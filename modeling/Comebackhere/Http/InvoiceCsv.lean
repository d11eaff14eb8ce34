import Comebackhere.Http.NumberText
import Comebackhere.Library.Checked
import Comebackhere.Library.Csv
import Mathlib.Tactic.IntervalCases

/-!
# The export of invoices

The export writes one line of comma-separated values for an invoice. A text that a spreadsheet
would take for a formula is prefixed, and a field with a comma, a quote or a line break is quoted.

## Main definitions

* `escapeCsvField`, `invoiceToCsvRow`: a field, and the line of an invoice
* `columns`: the values of an invoice, column by column
* `sanitised`: a text as it is to be read back, which is no formula
* `Reads env invoice texts`: the values that are to be read back, one by one

## Main results

* `encodes_escapeCsvField`: an escaped field is a way to write the text of its value
* `csv_faithful`: a parser reads back ten sanitised values of the invoice, and no formula
-/

namespace Http

open Checked

/-! ## Fields -/

/-- A value in a column: nothing, a text, a date, or another value with its text. -/
inductive CsvValue
  | missing
  | text (s : String)
  | date (d : Date)
  | other (s : String)

/-- `/^[=+\-@\t\r]/` -/
def isFormula (c : Char) : Bool := c = '=' ∨ c = '+' ∨ c = '-' ∨ c = '@' ∨ c = '\t' ∨ c = '\r'

/-- A text that starts like a formula is prefixed. -/
def prefixFormula (text : List Char) : List Char :=
  if text.head?.any isFormula then "'".toList ++ text else text

/-- The text of a value, prefixed if it is a text itself. -/
def fieldText : CsvValue → Except String (List Char)
  | .missing => .ok []
  | .text s => .ok (prefixFormula s.toList)
  | .date d => toISOString d
  | .other s => .ok s.toList

/-- The text in quotes, if a character would be taken for the end of the field otherwise. -/
def quoteField (text : List Char) : List Char :=
  if text.any Csv.isSpecial then '"' :: Csv.double text ++ ['"'] else text

def escapeCsvField (value : CsvValue) : Except String (List Char) :=
  match value with
  | .missing => .ok []
  | value => do
    let text ← fieldText value
    return quoteField text

/-! ## Lines -/

def csvColumns : List String :=
  ["invoice_id", "merchant_address", "token", "amount_raw", "amount", "status", "reference",
    "due_date", "created_at", "updated_at"]

structure TokenMeta where
  symbol : String
  decimals : ℤ

/-- What the variable `TOKEN_METADATA` says of a token: its symbol, and its decimals if they are an
integer. -/
structure Configured where
  symbol : Option String
  decimals : Option ℤ

def defaultTokenDecimals : ℤ := 7

/-- The environment of the export. -/
structure ExportEnv where
  tokenMetadata : String → Option Configured

def resolveTokenMeta (env : ExportEnv) (token : String) : TokenMeta :=
  match env.tokenMetadata token with
  | some configured =>
    ⟨configured.symbol.getD token, configured.decimals.getD defaultTokenDecimals⟩
  | none => ⟨token, defaultTokenDecimals⟩

/-- The value in the column of the due date. -/
def DueDate.csvValue : DueDate → CsvValue
  | .seconds n => .date (newDate (n * 1000))
  | .missing => .missing
  | .text s => .text s
  | .nonFinite x => .other x.text

/-- The values of an invoice, in the order of the columns. -/
def columns (env : ExportEnv) (invoice : InvoiceRecord) : List CsvValue :=
  let ⟨symbol, decimals⟩ := resolveTokenMeta env invoice.token
  [.text invoice.invoiceId, .text invoice.merchantAddress, .text invoice.token,
    .text (numberText invoice.amount),
    .text (formatTokenAmount invoice.amount decimals ++ " " ++ symbol), .text invoice.status,
    invoice.reference.elim .missing .text, invoice.dueDate.csvValue, .date invoice.createdAt,
    .date invoice.updatedAt]

def invoiceToCsvRow (env : ExportEnv) (invoice : InvoiceRecord) : Except String String := do
  let fields ← (columns env invoice).mapM escapeCsvField
  return String.ofList ([','].intercalate fields ++ ['\r', '\n'])

/-! ## What is read back -/

variable {value : CsvValue} {text field : List Char} {values : List CsvValue}
  {fields : List (List Char)}

theorem encodes_quoteField (text : List Char) : Csv.Encodes text (quoteField text) := by
  unfold quoteField
  split
  · exact .quoted
  · next h => exact .bare (by simpa using h)

/-- **An escaped field is a way to write the text of its value.** -/
theorem encodes_escapeCsvField (h : escapeCsvField value = .ok field) :
    ∃ text, fieldText value = .ok text ∧ Csv.Encodes text field := by
  unfold escapeCsvField at h
  split at h
  · obtain rfl := Except.ok.inj h
    exact ⟨[], rfl, .bare (by simp)⟩
  · obtain ⟨text, htext, h⟩ := bind_eq_ok.mp h
    obtain rfl := pure_eq_ok.mp h
    exact ⟨text, htext, encodes_quoteField text⟩

/-- A value is written exactly when it has a text: an invalid date has none. -/
theorem escapeCsvField_ok_iff :
    (∃ field, escapeCsvField value = .ok field) ↔ ∃ text, fieldText value = .ok text := by
  constructor
  · rintro ⟨field, h⟩
    obtain ⟨text, htext, -⟩ := encodes_escapeCsvField h
    exact ⟨text, htext⟩
  · rintro ⟨text, htext⟩
    cases value with
    | missing => exact ⟨_, rfl⟩
    | _ => exact ⟨_, bind_eq_ok.mpr ⟨text, htext, rfl⟩⟩

theorem fieldText_date_iff {d : Date} :
    (∃ text, fieldText (.date d) = .ok text) ↔ d ≠ none := by
  cases d <;> simp [fieldText, toISOString]

/-- A line is written of an invoice exactly when its dates are valid. -/
theorem invoiceToCsvRow_ok_iff {env : ExportEnv} {invoice : InvoiceRecord} :
    (∃ line, invoiceToCsvRow env invoice = .ok line) ↔
      invoice.createdAt ≠ none ∧ invoice.updatedAt ≠ none ∧
        ∀ n, invoice.dueDate = .seconds n → |n * 1000| ≤ maxTime := by
  have hdue : (∃ text, fieldText invoice.dueDate.csvValue = .ok text) ↔
      ∀ n, invoice.dueDate = .seconds n → |n * 1000| ≤ maxTime := by
    rcases invoice.dueDate with n | _ | s | x
    · simp [DueDate.csvValue, fieldText_date_iff, newDate]
    · simp [DueDate.csvValue, fieldText]
    · simp [DueDate.csvValue, fieldText]
    · simp [DueDate.csvValue, fieldText]
  have hreference : ∃ text, fieldText (invoice.reference.elim .missing .text) = .ok text := by
    cases invoice.reference <;> exact ⟨_, rfl⟩
  have htext : ∀ s, ∃ text, fieldText (.text s) = .ok text := fun s => ⟨_, rfl⟩
  -- of the ten values only dates may have no text
  have hline : (∃ line, invoiceToCsvRow env invoice = .ok line) ↔
      ∃ fields, (columns env invoice).mapM escapeCsvField = .ok fields := by
    simp [invoiceToCsvRow]
  rw [hline, exists_mapM_eq_ok_iff, ← hdue, ← fieldText_date_iff, ← fieldText_date_iff]
  simp only [escapeCsvField_ok_iff, columns, List.forall_mem_cons, htext, hreference, true_and,
    List.not_mem_nil, false_imp_iff, implies_true, and_true]
  tauto

/-- The texts of the values that a line of fields is written of. -/
theorem exists_texts (h : List.Forall₂ (fun value field => escapeCsvField value = .ok field)
    values fields) : ∃ texts,
      List.Forall₂ (fun value text => fieldText value = .ok text) values texts ∧
        List.Forall₂ Csv.Encodes texts fields := by
  induction h with
  | nil => exact ⟨[], .nil, .nil⟩
  | cons hfield _ ih =>
    obtain ⟨text, htext, hencodes⟩ := encodes_escapeCsvField hfield
    obtain ⟨texts, htexts, hfields⟩ := ih
    exact ⟨text :: texts, .cons htext htexts, .cons hencodes hfields⟩

/-- A text with an apostrophe before it, where a spreadsheet would take it for a formula. -/
def sanitised : List Char → List Char
  | [] => []
  | c :: cs => if c ∈ ['=', '+', '-', '@', '\t', '\r'] then '\u0027' :: c :: cs else c :: cs

theorem prefixFormula_eq (text : List Char) : prefixFormula text = sanitised text := by
  cases text with
  | nil => rfl
  | cons c cs => simp [prefixFormula, sanitised, isFormula]

/-- A sanitised text is no formula. -/
theorem notMem_of_head?_sanitised {c : Char} (h : (sanitised text).head? = some c) :
    c ∉ ['=', '+', '-', '@', '\t', '\r'] := by
  cases text with
  | nil => cases h
  | cons d cs =>
    rw [sanitised] at h
    split at h
    · -- the apostrophe is none of them
      obtain rfl := Option.some.inj h
      decide
    · next hd =>
      obtain rfl := Option.some.inj h
      exact hd

/-- What a reader finds for a due date. -/
def DueDate.read : DueDate → List Char
  | .seconds n => isoText (n * 1000)
  | .missing => []
  | .text s => sanitised s.toList
  | .nonFinite x => x.text.toList

/-- What a reader finds for an invoice, value by value. -/
inductive Reads (env : ExportEnv) (invoice : InvoiceRecord) : List (List Char) → Prop
  | record {created updated : ℤ} (hcreated : invoice.createdAt = some created)
    (hupdated : invoice.updatedAt = some updated) :
    Reads env invoice
      [sanitised invoice.invoiceId.toList,
        sanitised invoice.merchantAddress.toList,
        sanitised invoice.token.toList,
        sanitised (numberText invoice.amount).toList,
        sanitised (formatTokenAmount invoice.amount
            (((env.tokenMetadata invoice.token).bind (·.decimals)).getD 7) ++ " " ++
          ((env.tokenMetadata invoice.token).bind (·.symbol)).getD invoice.token).toList,
        sanitised invoice.status.toList,
        sanitised (invoice.reference.getD "").toList,
        invoice.dueDate.read,
        isoText created,
        isoText updated]

theorem resolveTokenMeta_eq (env : ExportEnv) (token : String) : resolveTokenMeta env token =
    ⟨((env.tokenMetadata token).bind (·.symbol)).getD token,
      ((env.tokenMetadata token).bind (·.decimals)).getD 7⟩ := by
  unfold resolveTokenMeta
  cases env.tokenMetadata token <;> rfl

theorem eq_some_of_fieldText {d : Date} (h : fieldText (.date d) = .ok text) :
    ∃ ms, d = some ms ∧ text = isoText ms := by
  cases d with
  | none => cases h
  | some ms => exact ⟨ms, rfl, (Except.ok.inj h).symm⟩

theorem read_of_fieldText {dueDate : DueDate} (h : fieldText dueDate.csvValue = .ok text) :
    text = dueDate.read := by
  cases dueDate with
  | seconds n =>
    obtain ⟨ms, hms, rfl⟩ := eq_some_of_fieldText h
    obtain ⟨-, hms⟩ := Option.ite_none_right_eq_some.mp hms
    obtain rfl := Option.some.inj hms
    rfl
  | text s => exact (Except.ok.inj h).symm.trans (prefixFormula_eq s.toList)
  | missing | nonFinite x => exact (Except.ok.inj h).symm

theorem reference_of_fieldText {reference : Option String}
    (h : fieldText (reference.elim .missing .text) = .ok text) :
    text = sanitised (reference.getD "").toList := by
  cases reference with
  | none => exact (Except.ok.inj h).symm
  | some s => exact (Except.ok.inj h).symm.trans (prefixFormula_eq s.toList)

/-- The texts of the columns are the values of the invoice. -/
theorem reads_of_columns {env : ExportEnv} {invoice : InvoiceRecord} {texts : List (List Char)}
    (h : List.Forall₂ (fun value text => fieldText value = .ok text) (columns env invoice) texts) :
    Reads env invoice texts := by
  rw [columns, resolveTokenMeta_eq] at h
  obtain _ | ⟨⟨⟩, _ | ⟨⟨⟩, _ | ⟨⟨⟩, _ | ⟨⟨⟩, _ | ⟨⟨⟩, _ | ⟨⟨⟩, _ | ⟨hreference, _ | ⟨hdue, _ |
    ⟨hcreated, _ | ⟨hupdated, _ | _⟩⟩⟩⟩⟩⟩⟩⟩⟩⟩ := h
  obtain ⟨created, hdate, rfl⟩ := eq_some_of_fieldText hcreated
  obtain ⟨updated, hdate', rfl⟩ := eq_some_of_fieldText hupdated
  obtain rfl := read_of_fieldText hdue
  obtain rfl := reference_of_fieldText hreference
  simp only [prefixFormula_eq]
  exact .record hdate hdate'

/-- The values of texts are sanitised. -/
theorem Reads.exists_sanitised {env : ExportEnv} {invoice : InvoiceRecord} {texts : List (List Char)}
    {i : ℕ} (h : Reads env invoice texts) (htext : texts[i]? = some text)
    (hi : i < 7 ∨ i = 7 ∧ ∃ s, invoice.dueDate = .text s) : ∃ s, text = sanitised s := by
  cases h with
  | record hcreated hupdated =>
    rcases hi with hi | ⟨rfl, s, hs⟩
    · interval_cases i <;> exact ⟨_, (Option.some.inj htext).symm⟩
    · rw [hs] at htext
      exact ⟨_, (Option.some.inj htext).symm⟩

/-- **The export is faithful and inert**: of an invoice with valid dates a line is written, which is
read back as one record of ten fields, the sanitised values of the columns, and none of a text
starts like a formula. -/
theorem csv_faithful (env : ExportEnv) (invoice : InvoiceRecord) :
    ((∃ line, invoiceToCsvRow env invoice = .ok line) ↔
      invoice.createdAt ≠ none ∧ invoice.updatedAt ≠ none ∧
        ∀ n, invoice.dueDate = .seconds n → |n * 1000| ≤ maxTime) ∧
    ∀ line, invoiceToCsvRow env invoice = .ok line → ∃ texts created updated,
      Csv.parse line.toList = some [texts] ∧
      invoice.createdAt = some created ∧ invoice.updatedAt = some updated ∧
      texts =
        [sanitised invoice.invoiceId.toList,
          sanitised invoice.merchantAddress.toList,
          sanitised invoice.token.toList,
          sanitised (numberText invoice.amount).toList,
          sanitised (formatTokenAmount invoice.amount
              (((env.tokenMetadata invoice.token).bind (·.decimals)).getD 7) ++ " " ++
            ((env.tokenMetadata invoice.token).bind (·.symbol)).getD invoice.token).toList,
          sanitised invoice.status.toList,
          sanitised (invoice.reference.getD "").toList,
          invoice.dueDate.read,
          isoText created,
          isoText updated] ∧
      ∀ (i : ℕ) text, texts[i]? = some text → i < 7 ∨ i = 7 ∧ (∃ s, invoice.dueDate = .text s) →
        ∀ c, text.head? = some c → c ∉ ['=', '+', '-', '@', '\t', '\r'] := by
  refine ⟨invoiceToCsvRow_ok_iff, fun line h => ?_⟩
  obtain ⟨fields, hfields, h⟩ := bind_eq_ok.mp h
  obtain rfl := pure_eq_ok.mp h
  obtain ⟨texts, htexts, hencodes⟩ := exists_texts (mapM_eq_ok_iff.mp hfields)
  have hlen : texts.length = csvColumns.length := htexts.length_eq.symm
  have hparse : Csv.parse (String.ofList ([','].intercalate fields ++ ['\r', '\n'])).toList =
      some [texts] := by
    rw [String.toList_ofList]
    apply Csv.parse_line hencodes
    rintro rfl
    simp [csvColumns] at hlen
  have hreads := reads_of_columns htexts
  have hinert : ∀ (i : ℕ) text, texts[i]? = some text →
      i < 7 ∨ i = 7 ∧ (∃ s, invoice.dueDate = .text s) →
        ∀ c, text.head? = some c → c ∉ ['=', '+', '-', '@', '\t', '\r'] := by
    intro i text htext hi c hc
    obtain ⟨s, rfl⟩ := hreads.exists_sanitised htext hi
    exact notMem_of_head?_sanitised hc
  obtain @⟨created, updated, hcreated, hupdated⟩ := hreads
  exact ⟨_, created, updated, hparse, hcreated, hupdated, rfl, hinert⟩

end Http
