import Comebackhere.Http.InvoiceCursor
import Comebackhere.Http.MerchantKeys
import Comebackhere.Library.Collection
import Comebackhere.Library.Keyset
import Mathlib.Data.Prod.Lex
import Mathlib.Data.String.Basic

/-!
# The list of invoices

`GET /invoices` lists the invoices that a filter admits, the latest first, in pages. The cursor of a
page leads to the next one. Before the query is answered its schema is checked, and a cursor of
more than 1024 characters is refused.

## Main definitions

* `invoiceListQuerySchema`, `listInvoices`: the schema of the query, and the route
* `Client`, `follow`: a client that follows the cursors while invoices are inserted
* `Grows`: what is inserted is later than what has been listed last

## Main results

* `listInvoices_query`: a page is the start of what is listed behind its cursor
* `pages_tile`: the pages list every invoice of the start exactly once, in falling order
-/

namespace Http

open Checked JsonText Double

/-! ## Numbers in texts -/

/-- The digits of a number to a base. -/
def radixNumber (base : ℕ) (ds : List Char) : Option ℕ :=
  if ds = [] then none
  else ds.foldlM (fun n c => do
    let d ← hexValue c
    if d < base then some (n * base + d) else none) 0

/-- The base of a number that starts with a zero and this character. -/
def radix (c : Char) : Option ℕ :=
  if c = 'x' ∨ c = 'X' then some 16
  else if c = 'o' ∨ c = 'O' then some 8
  else if c = 'b' ∨ c = 'B' then some 2
  else none

def unsignedNumber (cs : List Char) : Option ℚ :=
  let whole := cs.takeWhile Char.isDigit
  let rest := cs.drop whole.length
  let frac := if rest.head? = some '.' then rest.tail.takeWhile Char.isDigit else []
  let rest := if rest.head? = some '.' then rest.tail.drop frac.length else rest
  match readExponent rest with
  | some (exponent, []) =>
    if whole = [] ∧ frac = [] then none else double (decimal whole frac exponent)
  | _ => none

/-- `Number(text)`. A text that is no number, or an infinite one, has none. -/
def numberOf (text : String) : Option ℚ :=
  match (text.toList.dropWhile isSpace).rdropWhile isSpace with
  | [] => some 0
  | '+' :: cs => unsignedNumber cs
  | '-' :: cs => (unsignedNumber cs).map (- ·)
  | '0' :: c :: cs =>
    match radix c with
    | some base => (radixNumber base cs).bind fun n => double n
    | none => unsignedNumber ('0' :: c :: cs)
  | cs => unsignedNumber cs

example : numberOf " 0x1F\n" = some 31 := by decide +kernel

/-- The integer that a text denotes, if its neighbours are no other numbers. -/
def safeNumber (text : String) : Option ℤ := safeInteger (numberOf text)

/-- `/^\d+$/` -/
def isNumeral (text : String) : Bool := text.toList ≠ [] && text.toList.all Char.isDigit

/-- `/^[1-9]\d*$/` -/
def isPositiveNumeral (text : String) : Bool := isNumeral text && text.toList.head? ≠ some '0'

/-! ## The schema of the query -/

/-- A value of the query string: a text, or several. -/
inductive QueryValue
  | text (s : String)
  | array
  | object

/-- `typeof value === "string" ? value : undefined` -/
def textOf : Option QueryValue → Option String
  | some (.text s) => some s
  | _ => none

structure ListQuery where
  cursor : Option QueryValue
  limit : Option QueryValue
  page : Option QueryValue
  offset : Option QueryValue
  status : Option QueryValue
  merchant : Option QueryValue
  merchantAddress : Option QueryValue

/-- The texts of the schema library for a value that is no string, and for one that is too long. -/
structure SchemaTexts where
  notString : QueryValue → String
  tooLong : ℕ → String

variable (texts : SchemaTexts)

def utf16Length (text : String) : ℕ :=
  (text.toList.map fun c => if c.toNat < 0x10000 then 1 else 2).sum

/-- `z.string().max(1024).regex(/^[A-Za-z0-9_-]+$/, "cursor is invalid").optional()` -/
def cursorIssues : Option QueryValue → List FieldIssue
  | none => []
  | some (.text s) =>
    (if utf16Length s ≤ 1024 then [] else [⟨"cursor", texts.tooLong 1024⟩]) ++
      if s.toList ≠ [] ∧ s.toList.all Base64.isUrlDigit then []
      else [⟨"cursor", "cursor is invalid"⟩]
  | some v => [⟨"cursor", texts.notString v⟩]

/-- `z.string().regex(pattern, message).refine(isSafeInteger, message).optional()` -/
def numberIssues (pattern : String → Bool) (field message : String) :
    Option QueryValue → List FieldIssue
  | none => []
  | some (.text s) =>
    (if pattern s then [] else [⟨field, message⟩]) ++
      if (safeNumber s).isSome then [] else [⟨field, message⟩]
  | some v => [⟨field, texts.notString v⟩]

def limitIssues : Option QueryValue → List FieldIssue :=
  numberIssues texts isPositiveNumeral "limit" "limit must be a positive integer"

def pageIssues : Option QueryValue → List FieldIssue :=
  numberIssues texts isPositiveNumeral "page" "page must be a positive integer"

def offsetIssues : Option QueryValue → List FieldIssue :=
  numberIssues texts isNumeral "offset" "offset must be a non-negative integer"

/-- The fields are checked together only if all of them are texts. -/
def combinationIssues (q : ListQuery) : List FieldIssue :=
  let fields := [q.cursor, q.limit, q.page, q.offset]
  let given := fun v => (textOf v).any (· ≠ "")
  if (fields.all fun v => v.isNone || (textOf v).isSome) && given q.cursor &&
      (given q.page || given q.offset) then
    [⟨"", "cursor cannot be combined with page or offset"⟩]
  else []

def queryIssues (q : ListQuery) : List FieldIssue :=
  cursorIssues texts q.cursor ++ limitIssues texts q.limit ++ pageIssues texts q.page ++
    offsetIssues texts q.offset ++ combinationIssues q

/-- A query that the schema accepts. -/
structure ParsedListQuery where
  cursor : Option String
  limit : Option ℕ
  page : Option ℕ
  offset : Option ℕ

/-- The number of a field that the schema accepts. -/
def numberField (v : Option QueryValue) : Option ℕ :=
  (textOf v).bind fun s => (safeNumber s).map Int.toNat

def invoiceListQuerySchema (q : ListQuery) : Except AppError ParsedListQuery :=
  let details := queryIssues texts q
  if details.isEmpty then
    .ok ⟨textOf q.cursor, numberField q.limit, numberField q.page, numberField q.offset⟩
  else .error (validationError (joinIssues details) details)

/-! ## The route -/

abbrev Invoices := Collection InvoiceRecord String InvoiceRecord.invoiceId

structure ListFilters where
  status : Option String
  merchant : Option String

def allowedStatuses : List String :=
  ["Pending", "Paid", "Expired", "Cancelled", "RefundRequested", "Released"]

/-- Unknown statuses are ignored. -/
def parseListFilters (q : ListQuery) : ListFilters where
  status := (textOf q.status).filter (· ∈ allowedStatuses)
  merchant := (textOf q.merchant).filter (· ≠ "")

/-- The filters of the list, which takes the merchant under another name, too. -/
def listFilters (q : ListQuery) : ListFilters :=
  let filters := parseListFilters q
  { filters with merchant := filters.merchant <|> textOf q.merchantAddress }

/-- The documents that the filter admits. -/
def buildListFilter (filters : ListFilters) (invoice : InvoiceRecord) : Bool :=
  filters.status.all (invoice.status = ·) &&
    (filters.merchant.filter (· ≠ "")).all (invoice.merchantAddress = ·)

/-- The time under which the database keeps a date: an invalid one is kept as the start of 1970. -/
def storedTime (date : Date) : ℤ := date.getD 0

/-- The place of an invoice in the list. The ids differ, so that nothing else decides it. -/
def position (invoice : InvoiceRecord) : ℤ ×ₗ String :=
  toLex (storedTime invoice.createdAt, invoice.invoiceId)

/-- The documents behind a cursor. -/
def cursorFilter (cursor : InvoiceCursor) (invoice : InvoiceRecord) : Bool :=
  storedTime invoice.createdAt < cursor.createdAt ||
    (storedTime invoice.createdAt = cursor.createdAt && invoice.invoiceId < cursor.invoiceId)

/-- What the answer contains for a query with a page or an offset. -/
structure LegacyPage where
  total : ℕ
  page : ℕ
  totalPages : ℕ
  offset : ℕ

structure InvoicePage where
  data : List InvoiceRecord
  limit : ℕ
  nextCursor : Option String
  legacy : Option LegacyPage

/-- The rows that were found, of which the last one only tells that there are more. -/
def invoicePage (limit : ℕ) (legacy : Option LegacyPage) (rows : List InvoiceRecord) :
    InvoicePage where
  data := rows.take limit
  limit := limit
  nextCursor :=
    if limit < rows.length then (rows.take limit).getLast?.map encodeInvoiceCursor else none
  legacy := legacy

/-- `GET /invoices`. The documents are counted after they have been found. -/
def listInvoices (q : ListQuery) (found counted : Invoices) : Except AppError InvoicePage := do
  let query ← invoiceListQuerySchema texts q
  let page := query.page.getD 1
  let limit := min 100 (query.limit.getD 20)
  let legacyPagination := query.cursor.isNone && (query.page.isSome || query.offset.isSome)
  let offset := query.offset.getD ((page - 1) * limit)
  let cursor ← query.cursor.mapM decodeInvoiceCursor
  let filter := buildListFilter (listFilters q)
  let pageFilter := fun invoice => filter invoice && cursor.all (cursorFilter · invoice)
  let sorted := Keyset.descending position (found.docs.filter pageFilter)
  let rows := (if legacyPagination then sorted.drop offset else sorted).take (limit + 1)
  let total := counted.docs.countP filter
  let legacy := if legacyPagination then
      some ⟨total, page, (total + limit - 1) / limit, offset⟩
    else none
  return invoicePage limit legacy rows

/-! ## Clients -/

/-- What a client searches for, page by page. -/
structure Search where
  limit : Option QueryValue
  status : Option QueryValue
  merchant : Option QueryValue
  merchantAddress : Option QueryValue

namespace Search

/-- The query for the first page, or for the one behind a cursor. -/
def query (s : Search) (cursor : Option String) : ListQuery :=
  ⟨cursor.map .text, s.limit, none, none, s.status, s.merchant, s.merchantAddress⟩

def pageSize (s : Search) : ℕ := min 100 ((numberField s.limit).getD 20)

def admits (s : Search) : InvoiceRecord → Bool := buildListFilter (listFilters (s.query none))

/-- What the search lists of a collection. -/
def listing (s : Search) (c : Invoices) : List InvoiceRecord :=
  Keyset.descending position (c.docs.filter s.admits)

end Search

/-- A client follows the cursors until there is none, and keeps what has been listed. -/
inductive Client
  | asking (cursor : Option String) (listed : List InvoiceRecord)
  | finished (listed : List InvoiceRecord)
  | refused (e : AppError)

/-- The next request of a client, if it has any. -/
def Client.next (s : Search) (c : Invoices) : Client → Client
  | asking cursor listed =>
    match listInvoices texts (s.query cursor) c c with
    | .ok page =>
      match page.nextCursor with
      | some cursor => asking (some cursor) (listed ++ page.data)
      | none => finished (listed ++ page.data)
    | .error e => refused e
  | client => client

/-- The client after some requests, by what the collection is at each of them. -/
def follow (s : Search) (collection : ℕ → Invoices) : ℕ → Client
  | 0 => .asking none []
  | k + 1 => (follow s collection k).next texts s (collection k)

/-- Between two requests, invoices are inserted that are later than what was listed last. -/
structure Grows (c c' : Invoices) (listed : List InvoiceRecord) : Prop where
  kept : c.docs ⊆ c'.docs
  later : ∀ invoice ∈ c'.docs, invoice ∉ c.docs → ∀ last, listed.getLast? = some last →
    storedTime last.createdAt < storedTime invoice.createdAt

/-- The client comes to an end, and has listed all that the search admits of a collection, each of
it once and in falling order. -/
def Tiles (s : Search) (collection : ℕ → Invoices) : Prop :=
  ∃ k listed, follow texts s collection k = .finished listed ∧
    listed.Pairwise (fun a b => position b < position a) ∧
    ∀ invoice, invoice ∈ listed ↔ invoice ∈ (collection 0).docs ∧ s.admits invoice = true

/-! ## The page size -/

variable {texts} {s : Search} {text : String} {invoice : InvoiceRecord} {c c' : Invoices}

theorem unsignedNumber_digits {ds : List Char} (h : Decimal.Digits ds) (hne : ds ≠ []) :
    unsignedNumber ds = double (Decimal.value ds) := by
  have htake : ds.takeWhile Char.isDigit = ds := List.takeWhile_eq_self_iff.mpr h
  simp [unsignedNumber, htake, readExponent, hne, decimal]

theorem isNumeral_iff : isNumeral text = true ↔ text.toList ≠ [] ∧ Decimal.Digits text.toList := by
  simp [isNumeral, Decimal.Digits]

theorem radix_digit {d : Char} (hd : d.isDigit) : radix d = none := by
  have hne : ∀ e : Char, e.isDigit = false → d ≠ e := by
    rintro e he rfl
    exact absurd hd (by simp [he])
  simp [radix, hne 'x' rfl, hne 'X' rfl, hne 'o' rfl, hne 'O' rfl, hne 'b' rfl, hne 'B' rfl]

/-- Digits are a number. -/
theorem numberOf_numeral (h : isNumeral text = true) :
    numberOf text = double (Decimal.value text.toList) := by
  obtain ⟨hne, hdigits⟩ := isNumeral_iff.mp h
  have hspace : ∀ d ∈ text.toList, ¬ isSpace d = true := fun d hd => by
    simp [isSpace_eq_false (hdigits d hd)]
  have htrim : (text.toList.dropWhile isSpace).rdropWhile isSpace = text.toList := by
    rw [List.dropWhile_eq_self_iff.mpr fun hlen => hspace _ (List.getElem_mem hlen),
      List.rdropWhile_eq_self_iff.mpr fun hne => hspace _ (List.getLast_mem hne)]
  rw [← unsignedNumber_digits hdigits hne, numberOf, htrim]
  generalize text.toList = ds at hne hdigits
  split
  · exact absurd rfl hne
  · exact absurd (hdigits '+' List.mem_cons_self) (by decide)
  · exact absurd (hdigits '-' List.mem_cons_self) (by decide)
  · next d ds => rw [radix_digit (hdigits d (by simp))]
  · rfl

theorem one_le_safeNumber {n : ℤ} (h : isPositiveNumeral text = true)
    (hn : safeNumber text = some n) : 1 ≤ n := by
  simp only [isPositiveNumeral, Bool.and_eq_true, decide_eq_true_eq] at h
  obtain ⟨hnumeral, hlead⟩ := h
  obtain ⟨hne, hdigits⟩ := isNumeral_iff.mp hnumeral
  have hvalue : 1 ≤ Decimal.value text.toList := by
    obtain ⟨d, ds, hd⟩ := List.exists_cons_of_ne_nil hne
    rw [hd] at hdigits hlead
    have hrange := Decimal.isDigit_toNat (hdigits d List.mem_cons_self)
    have hzero : d.toNat ≠ 48 := fun h48 => hlead (by rw [← Char.ofNat_toNat d, h48]; rfl)
    have hfirst : 1 ≤ (d.toNat - 48) * 10 ^ ds.length := Nat.mul_pos (by omega) (by positivity)
    rw [hd, Decimal.value_cons]
    omega
  rw [safeNumber, numberOf_numeral hnumeral] at hn
  have hle := one_le_double (mod_cast hvalue) (safeInteger_eq_some hn)
  exact_mod_cast hle

theorem textOf_eq_some {v : Option QueryValue} {t : String} (h : textOf v = some t) :
    v = some (.text t) := by
  unfold textOf at h
  split at h
  · rw [Option.some.inj h]
  · cases h

/-- A page has room for an invoice. -/
theorem pageSize_pos (h : limitIssues texts s.limit = []) : 0 < s.pageSize := by
  have hlimit : ∀ n ∈ numberField s.limit, 0 < n := by
    intro n hn
    obtain ⟨t, ht, hn⟩ := Option.bind_eq_some_iff.mp hn
    obtain ⟨m, hm, rfl⟩ := Option.map_eq_some_iff.mp hn
    rw [textOf_eq_some ht, limitIssues, numberIssues, List.append_eq_nil_iff] at h
    have hpositive : isPositiveNumeral t = true := by simpa using h.1
    have hone := one_le_safeNumber hpositive hm
    omega
  unfold Search.pageSize
  cases hnumber : numberField s.limit with
  | none => decide
  | some n => exact lt_min (by decide) (hlimit n hnumber)

/-! ## Cursors -/

theorem utf16Length_of_isUrlDigit (h : ∀ c ∈ text.toList, Base64.isUrlDigit c = true) :
    utf16Length text = text.length := by
  have hone : ∀ c ∈ text.toList, (if c.toNat < 0x10000 then 1 else 2) = 1 := by
    intro c hc
    rw [if_pos ((Base64.isUrlDigit_toNat (h c hc)).trans (by decide))]
  rw [utf16Length, List.map_congr_left hone, ← String.length_toList]
  simp

/-- The schema accepts the cursors of at most 1024 characters. -/
theorem cursorIssues_encodeInvoiceCursor (h : invoice.invoiceId ≠ "") :
    cursorIssues texts (some (.text (encodeInvoiceCursor invoice))) = [] ↔
      (encodeInvoiceCursor invoice).length ≤ 1024 := by
  have hdigits : ∀ c ∈ (encodeInvoiceCursor invoice).toList, Base64.isUrlDigit c = true :=
    fun c => isUrlDigit_encodeInvoiceCursor
  have hne : (encodeInvoiceCursor invoice).toList ≠ [] := by
    have hlength : 4 * invoice.invoiceId.length ≤ _ := length_encodeInvoiceCursor
    have hid : invoice.invoiceId.length ≠ 0 := by simpa using h
    intro hnil
    rw [← String.length_toList (s := encodeInvoiceCursor invoice), hnil, List.length_nil] at hlength
    omega
  rw [cursorIssues, utf16Length_of_isUrlDigit hdigits, List.append_eq_nil_iff,
    if_pos (c := _ ∧ _) ⟨hne, List.all_eq_true.mpr hdigits⟩]
  simp

/-- A cursor leads behind its invoice. -/
theorem cursorFilter_eq {e : InvoiceRecord} {ms : ℤ} (h : e.createdAt = some ms) :
    cursorFilter ⟨ms, e.invoiceId⟩ invoice = decide (position invoice < position e) := by
  have hstored : storedTime e.createdAt = ms := by rw [h]; rfl
  simp [cursorFilter, position, Prod.Lex.toLex_lt_toLex, hstored]

/-- No two invoices have the same place. -/
theorem nodup_position (c : Invoices) : (c.docs.map position).Nodup := by
  apply List.Nodup.of_map fun p => (ofLex p).2
  rw [List.map_map]
  exact c.unique

/-! ## Pages -/

/-- What a search finds behind an invoice, or from the start. -/
def Search.behind (s : Search) (c : Invoices) (last : Option InvoiceRecord) : List InvoiceRecord :=
  c.docs.filter fun invoice => s.admits invoice && last.all (position invoice < position ·)

/-- A cursor that can be decoded, and that the schema accepts. -/
structure Followable (invoice : InvoiceRecord) : Prop where
  listable : Listable invoice
  short : (encodeInvoiceCursor invoice).length ≤ 1024

theorem schema_query (hlimit : limitIssues texts s.limit = []) {last : Option InvoiceRecord}
    (hlast : ∀ e ∈ last, Followable e) :
    invoiceListQuerySchema texts (s.query (last.map encodeInvoiceCursor)) =
      .ok ⟨last.map encodeInvoiceCursor, numberField s.limit, none, none⟩ := by
  have hcursor : cursorIssues texts ((last.map encodeInvoiceCursor).map .text) = [] := by
    cases last with
    | none => rfl
    | some e =>
      exact (cursorIssues_encodeInvoiceCursor (hlast e rfl).listable.id).mpr (hlast e rfl).short
  have hcombination : combinationIssues (s.query (last.map encodeInvoiceCursor)) = [] := by
    simp [combinationIssues, Search.query, textOf]
  have hissues : queryIssues texts (s.query (last.map encodeInvoiceCursor)) = [] := by
    rw [queryIssues, hcombination, Search.query, hcursor, hlimit]
    rfl
  rw [invoiceListQuerySchema, hissues]
  cases last <;> rfl

/-- **A page is the start of what is listed behind its cursor.** -/
theorem listInvoices_query (hlimit : limitIssues texts s.limit = []) {last : Option InvoiceRecord}
    (hlast : ∀ e ∈ last, Followable e) (found counted : Invoices) :
    listInvoices texts (s.query (last.map encodeInvoiceCursor)) found counted =
      .ok (invoicePage s.pageSize none
        ((Keyset.descending position (s.behind found last)).take (s.pageSize + 1))) := by
  refine bind_eq_ok.mpr ⟨_, schema_query hlimit hlast, ?_⟩
  cases last with
  | none => rfl
  | some e =>
    obtain ⟨ms, hms, hdecode⟩ := decode_encodeInvoiceCursor (hlast e rfl).listable
    have hbehind : s.behind found (some e) = found.docs.filter fun invoice =>
        s.admits invoice && (some ⟨ms, e.invoiceId⟩).all (cursorFilter · invoice) := by
      simp [Search.behind, cursorFilter_eq hms]
    have hcursor : (some (encodeInvoiceCursor e)).mapM decodeInvoiceCursor =
        .ok (some ⟨ms, e.invoiceId⟩) := by
      rw [Option.mapM_some, hdecode]
      rfl
    refine bind_eq_ok.mpr ⟨_, hcursor, ?_⟩
    rw [hbehind]
    rfl

/-! ## The pages of a client -/

variable {L : List InvoiceRecord} {i : ℕ}

/-- A client that has listed the start of a list goes on with the next page of it. -/
theorem next_asking (hlimit : limitIssues texts s.limit = [])
    (hlast : ∀ e ∈ (L.take i).getLast?, Followable e)
    (hfound : Keyset.descending position (s.behind c (L.take i).getLast?) = L.drop i) :
    Client.next texts s c (.asking ((L.take i).getLast?.map encodeInvoiceCursor) (L.take i)) =
      if i + s.pageSize < L.length then
        .asking ((L.take (i + s.pageSize)).getLast?.map encodeInvoiceCursor)
          (L.take (i + s.pageSize))
      else .finished L := by
  have hdata : L.take i ++ ((L.drop i).take (s.pageSize + 1)).take s.pageSize =
      L.take (i + s.pageSize) := by
    rw [List.take_take, Nat.min_eq_left (Nat.le_succ _), ← List.take_add]
  have hmore : s.pageSize < ((L.drop i).take (s.pageSize + 1)).length ↔
      i + s.pageSize < L.length := by
    rw [List.length_take, List.length_drop]
    omega
  rw [Client.next, listInvoices_query hlimit hlast, hfound]
  simp only [invoicePage, hmore, hdata]
  by_cases h : i + s.pageSize < L.length
  · rw [if_pos h, if_pos h, ← hdata, List.getLast?_append]
    have hne : ((L.drop i).take (s.pageSize + 1)).take s.pageSize ≠ [] := by
      have hpos := pageSize_pos hlimit
      rw [← List.length_pos_iff]
      simp only [List.length_take, List.length_drop]
      omega
    rw [List.getLast?_eq_getLast_of_ne_nil hne]
    rfl
  · rw [if_neg h, if_neg h, List.take_of_length_le (Nat.le_of_not_lt h)]

/-- Between the start and a request: what was there is kept, and others come before one that has
been listed. -/
structure Before (c c' : Invoices) (listed : List InvoiceRecord) : Prop where
  kept : c.docs ⊆ c'.docs
  new : ∀ invoice ∈ c'.docs, invoice ∉ c.docs → ∃ e ∈ listed, position e < position invoice

/-- **Behind what has been listed, the rest of the first listing is found.** -/
theorem descending_behind (h : Before c c' ((s.listing c).take (i + 1)))
    (hi : i < (s.listing c).length) :
    Keyset.descending position (s.behind c' ((s.listing c).take (i + 1)).getLast?) =
      (s.listing c).drop (i + 1) := by
  have hlast : ((s.listing c).take (i + 1)).getLast? = some (s.listing c)[i] := by
    rw [List.take_add_one, List.getElem?_eq_getElem hi, List.getLast?_append]
    rfl
  have hnodup : ∀ c : Invoices, ((c.docs.filter s.admits).map position).Nodup := fun c =>
    (nodup_position c).sublist (List.filter_sublist.map _)
  have hbehind : s.behind c' (some (s.listing c)[i]) =
      (c'.docs.filter s.admits).filter fun d => position d < position (s.listing c)[i] := by
    rw [List.filter_filter]
    apply List.filter_congr
    simp [Bool.and_comm]
  rw [hlast, hbehind]
  refine Keyset.descending_behind (hnodup c) (hnodup c') hi ?_ ?_
  · exact List.filter_subset _ h.kept
  · intro d hd hno
    obtain ⟨hd, hadmits⟩ := List.mem_filter.mp hd
    exact h.new d hd fun hc => hno (List.mem_filter.mpr ⟨hc, hadmits⟩)

/-- What holds of a client at one of its requests: it has listed whole pages and asks for the next
one, or it has listed all. -/
def Tiling (s : Search) (c c' : Invoices) (k : ℕ) (client : Client) : Prop :=
  (client = .asking (((s.listing c).take (k * s.pageSize)).getLast?.map encodeInvoiceCursor)
      ((s.listing c).take (k * s.pageSize)) ∧
    Before c c' ((s.listing c).take (k * s.pageSize)) ∧
    (k = 0 ∧ c' = c ∨ 0 < k ∧ k * s.pageSize < (s.listing c).length)) ∨
  client = .finished (s.listing c)

/-- What a client has listed stays before the next request. -/
theorem Before.grow {c'' : Invoices} {listed listed' : List InvoiceRecord} (h : Before c c' listed)
    (hsub : listed ⊆ listed') (hne : listed' ≠ []) (hgrows : Grows c' c'' listed') :
    Before c c'' listed' := by
  refine ⟨List.Subset.trans h.kept hgrows.kept, fun invoice hmem hno => ?_⟩
  by_cases hold : invoice ∈ c'.docs
  · obtain ⟨e, he, hlt⟩ := h.new invoice hold hno
    exact ⟨e, hsub he, hlt⟩
  · have hlater := hgrows.later invoice hmem hold _ (List.getLast?_eq_getLast_of_ne_nil hne)
    exact ⟨_, List.getLast_mem hne, Prod.Lex.toLex_lt_toLex.mpr (.inl hlater)⟩

/-- **A request keeps the tiling**, when the collection grows before the next one. -/
theorem Tiling.next {c'' : Invoices} {k : ℕ} {client : Client} (h : Tiling s c c' k client)
    (hlimit : limitIssues texts s.limit = []) (hstart : ∀ invoice ∈ c.docs, Followable invoice)
    (hgrows : ∀ cursor listed, client.next texts s c' = .asking cursor listed →
      Grows c' c'' listed) :
    Tiling s c c'' (k + 1) (client.next texts s c') := by
  obtain ⟨rfl, hbefore, hk⟩ | rfl := h
  · have hsize := pageSize_pos hlimit
    have hlast : ∀ e ∈ ((s.listing c).take (k * s.pageSize)).getLast?, Followable e := by
      intro e he
      have hmem := List.mem_of_mem_take (List.mem_of_getLast? he)
      exact hstart e (List.mem_filter.mp (Keyset.mem_descending.mp hmem)).1
    have hfound : Keyset.descending position
        (s.behind c' ((s.listing c).take (k * s.pageSize)).getLast?) =
          (s.listing c).drop (k * s.pageSize) := by
      obtain ⟨rfl, rfl⟩ | ⟨hpos, hlt⟩ := hk
      · simp [Search.behind, Search.listing]
      · obtain ⟨i, hi⟩ := Nat.exists_eq_add_one.mpr (Nat.mul_pos hpos hsize)
        rw [hi] at hbefore hlt ⊢
        exact descending_behind hbefore (by omega)
    have hnext := next_asking hlimit hlast hfound
    rw [← Nat.succ_mul] at hnext
    split at hnext
    · next hmore =>
      refine .inl ⟨hnext, hbefore.grow ?_ ?_ (hgrows _ _ hnext), .inr ⟨Nat.succ_pos k, hmore⟩⟩
      · exact (List.take_prefix_take_left (Nat.mul_le_mul_right _ (Nat.le_succ k))).subset
      · rw [← List.length_pos_iff, List.length_take]
        exact lt_min (Nat.mul_pos (Nat.succ_pos k) hsize) (by omega)
    · exact .inr hnext
  · exact .inr rfl

/-- The pages of a client tile the listing of the start, at every request. -/
theorem tiling_follow {collection : ℕ → Invoices} (hlimit : limitIssues texts s.limit = [])
    (hstart : ∀ invoice ∈ (collection 0).docs, Followable invoice)
    (hgrows : ∀ k cursor listed, follow texts s collection (k + 1) = .asking cursor listed →
      Grows (collection k) (collection (k + 1)) listed) (k : ℕ) :
    Tiling s (collection 0) (collection k) k (follow texts s collection k) := by
  induction k with
  | zero =>
    refine .inl ⟨?_, ⟨List.Subset.refl _, fun _ hmem hno => absurd hmem hno⟩, .inl ⟨rfl, rfl⟩⟩
    rw [Nat.zero_mul]
    rfl
  | succ k ih => exact ih.next hlimit hstart (hgrows k)

/-- **The pages tile**: whatever a search admits and however large its pages are, a client that
follows the cursors comes to an end, and has listed every invoice that was admitted at the start
exactly once, in strictly falling order of date and id, while later invoices are inserted between
its requests. And every cursor is decoded to the place it names. -/
theorem pages_tile (texts : SchemaTexts) (s : Search) (collection : ℕ → Invoices)
    (hlimit : limitIssues texts s.limit = [])
    (hstart : ∀ invoice ∈ (collection 0).docs, Listable invoice)
    (hshort : ∀ invoice ∈ (collection 0).docs, (encodeInvoiceCursor invoice).length ≤ 1024)
    (hgrows : ∀ k cursor listed, follow texts s collection (k + 1) = .asking cursor listed →
      Grows (collection k) (collection (k + 1)) listed) :
    Tiles texts s collection ∧
      ∀ invoice, Listable invoice → ∃ ms, invoice.createdAt = some ms ∧
        decodeInvoiceCursor (encodeInvoiceCursor invoice) = .ok ⟨ms, invoice.invoiceId⟩ := by
  refine ⟨?_, fun invoice => decode_encodeInvoiceCursor⟩
  have hfollowable : ∀ invoice ∈ (collection 0).docs, Followable invoice :=
    fun invoice hmem => ⟨hstart invoice hmem, hshort invoice hmem⟩
  have hsize := pageSize_pos hlimit
  have hend := tiling_follow hlimit hfollowable hgrows ((s.listing (collection 0)).length + 1)
  obtain ⟨-, -, hk⟩ | hfinished := hend
  · -- so many pages would have more invoices than there are
    have hle := Nat.le_mul_of_pos_right ((s.listing (collection 0)).length + 1) hsize
    omega
  · refine ⟨_, _, hfinished, Keyset.pairwise_descending ?_, fun invoice => ?_⟩
    · exact (nodup_position (collection 0)).sublist (List.filter_sublist.map _)
    · rw [Search.listing, Keyset.mem_descending, List.mem_filter]

/-! ### Runs -/

/-- What the schema library says. -/
def zodTexts : SchemaTexts where
  notString
    | .text _ => "Invalid input: expected string, received string"
    | .array => "Invalid input: expected string, received array"
    | .object => "Invalid input: expected string, received object"
  tooLong n := "Too big: expected string to have <=" ++ toString n ++ " characters"

/-- A pending invoice of a merchant. -/
def pendingInvoice (id : String) (ms : ℤ) : InvoiceRecord where
  invoiceId := id
  merchantAddress := "GMERCHANT"
  token := "USDC"
  amount := 100
  dueDate := .seconds 1800000000
  reference := none
  status := "Pending"
  createdAt := some ms
  updatedAt := some ms

/-- Pages of one invoice, without a filter. -/
def oneByOne : Search := ⟨some (.text "1"), none, none, none⟩

theorem oneByOne_accepted : limitIssues zodTexts oneByOne.limit = [] := by decide +kernel

theorem grows_refl (c : Invoices) (listed : List InvoiceRecord) : Grows c c listed :=
  ⟨List.Subset.refl _, fun _ hmem hno => absurd hmem hno⟩

/-- Two invoices of the same time. -/
def tied : Invoices := ⟨[pendingInvoice "41" 1700000000000, pendingInvoice "42" 1700000000000],
  by decide⟩

theorem pages_tile_tied : Tiles zodTexts oneByOne fun _ => tied := by
  refine (pages_tile zodTexts oneByOne (fun _ => tied) oneByOne_accepted ?_ ?_
    fun _ _ _ _ => grows_refl _ _).1
  · intro invoice hmem
    simp only [tied, List.mem_cons, List.not_mem_nil, or_false] at hmem
    obtain rfl | rfl := hmem <;> exact ⟨by decide, _, rfl, by decide, by decide⟩
  · intro invoice hmem
    simp only [tied, List.mem_cons, List.not_mem_nil, or_false] at hmem
    obtain rfl | rfl := hmem <;> rw [encodeInvoiceCursor, String.length_ofList] <;> decide +kernel

/-- A cursor of more than 1024 characters is refused. -/
theorem listInvoices_long (h : invoice.invoiceId ≠ "")
    (hlong : 1024 < (encodeInvoiceCursor invoice).length) (found counted : Invoices) :
    ∃ e, listInvoices texts (s.query (some (encodeInvoiceCursor invoice))) found counted =
      .error e := by
  have hissues : queryIssues texts (s.query (some (encodeInvoiceCursor invoice))) ≠ [] := by
    intro hnil
    simp only [queryIssues, List.append_eq_nil_iff] at hnil
    exact absurd ((cursorIssues_encodeInvoiceCursor h).mp hnil.1.1.1.1) (Nat.not_le.mpr hlong)
  have hschema : ∃ e, invoiceListQuerySchema texts
      (s.query (some (encodeInvoiceCursor invoice))) = .error e := by
    rw [invoiceListQuerySchema, if_neg (by simpa using hissues)]
    exact ⟨_, rfl⟩
  obtain ⟨e, he⟩ := hschema
  refine ⟨e, ?_⟩
  rw [listInvoices, he]
  rfl

def longInvoice : InvoiceRecord :=
  pendingInvoice (String.ofList (List.replicate 1024 'a')) 1700000000001

/-- Two invoices, the later of which has an id of 1024 letters. -/
def longId : Invoices := ⟨[pendingInvoice "41" 1700000000000, longInvoice], by decide +kernel⟩

theorem listing_longId :
    oneByOne.listing longId = [longInvoice, pendingInvoice "41" 1700000000000] := by
  have hadmits : oneByOne.admits = fun _ => true := rfl
  have hposition : position (pendingInvoice "41" 1700000000000) < position longInvoice :=
    Prod.Lex.toLex_lt_toLex.mpr (.inl (by decide))
  apply Keyset.eq_descending
  · exact (nodup_position longId).sublist (List.filter_sublist.map _)
  · simpa using hposition
  · intro invoice
    simp [longId, hadmits, or_comm]

theorem not_tiles_longId : (limitIssues zodTexts oneByOne.limit = [] ∧
    (∀ invoice ∈ longId.docs, Listable invoice) ∧
    ∀ listed, Grows longId longId listed) ∧
    ¬ Tiles zodTexts oneByOne fun _ => longId := by
  have hid : longInvoice.invoiceId ≠ "" := by decide +kernel
  have hlong : 1024 < (encodeInvoiceCursor longInvoice).length := by
    have hlength : 4 * longInvoice.invoiceId.length ≤ _ := length_encodeInvoiceCursor
    have h1024 : longInvoice.invoiceId.length = 1024 := by
      rw [longInvoice, pendingInvoice, String.length_ofList, List.length_replicate]
    omega
  obtain ⟨e, he⟩ : ∃ e, listInvoices zodTexts (oneByOne.query _) longId longId = .error e :=
    listInvoices_long hid hlong longId longId
  have hsize : oneByOne.pageSize = 1 := by decide +kernel
  have hfirst : follow zodTexts oneByOne (fun _ => longId) 1 =
      .asking (some (encodeInvoiceCursor longInvoice)) [longInvoice] := by
    have hnext := next_asking (c := longId) (L := oneByOne.listing longId) (i := 0)
      oneByOne_accepted (by simp) (by simp [Search.behind, Search.listing])
    rw [listing_longId, hsize] at hnext
    exact hnext
  have hrefused : ∀ k, follow zodTexts oneByOne (fun _ => longId) (k + 2) = .refused e := by
    intro k
    induction k with
    | zero => rw [follow, hfirst, Client.next, he]
    | succ k ih => rw [follow, ih]; rfl
  refine ⟨⟨oneByOne_accepted, ?_, fun _ => grows_refl _ _⟩, ?_⟩
  · intro invoice hmem
    simp only [longId, List.mem_cons, List.not_mem_nil, or_false] at hmem
    obtain rfl | rfl := hmem
    · exact ⟨by decide, _, rfl, by decide, by decide⟩
    · exact ⟨hid, _, rfl, by decide, by decide⟩
  · rintro ⟨k, listed, hfinished, -⟩
    rcases k with _ | _ | k
    · cases hfinished
    · rw [hfirst] at hfinished
      cases hfinished
    · rw [hrefused] at hfinished
      cases hfinished

end Http
