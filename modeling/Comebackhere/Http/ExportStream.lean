import Comebackhere.Http.InvoiceCsv
import Comebackhere.Http.InvoiceList
import Comebackhere.Library.Run

/-!
# The stream of the export

The export reads the invoices from a cursor of the database, one after the other, and writes the
line of an invoice as soon as it has arrived. It waits while the connection takes no more, and stops
when the client is gone. The header of the file is sent with the first line, so that a failure
before it is answered with an error; after a later one the connection is cut.

## Main definitions

* `Response`: the response as its methods change it
* `State`, `step`: the handler between the answers that it waits for
* `Text env invoices body`: a file with a line for each invoice
* `LeftBehind`: the handler starts a file for a client that is gone

## Main results

* `parse_text`: a file is read back as its header and the values of its invoices
* `inv_step`: what is known of the response at each point where the handler waits
* `export_faithful`: a file that is ended is complete, at any moment the client has the beginning of
  one, and which handlers never finish
-/

namespace Http.ExportStream

open Checked Machine

/-! ## The response -/

/-- What is thrown: a message, and a status if it has one. -/
structure Failure where
  status : Option ℕ
  message : String

/-- A response. It is full from a write that is told so until it has drained. -/
structure Response where
  status : ℕ := 200
  headers : List (String × String) := []
  headersSent : Bool := false
  body : String := ""
  error : Option String := none
  full : Bool := false
  ended : Bool := false
  destroyed : Bool := false

/-- `res.write(chunk)`, with what it returns: whether there is room for more. -/
def Response.write (res : Response) (chunk : String) (room : Bool) : Response × Bool :=
  if res.destroyed then (res, false)
  else ({ res with headersSent := true, body := res.body ++ chunk, full := !room }, room)

/-- `res.end()` -/
def Response.finish (res : Response) : Response :=
  if res.destroyed then res else { res with headersSent := true, ended := true }

/-- `res.status(status).json({ error: message })` -/
def Response.answer (res : Response) (status : ℕ) (message : String) : Response :=
  if res.destroyed then res
  else { res with status, error := some message, headersSent := true, ended := true }

/-- The handler of errors: an error is answered, or the connection cut. -/
def Response.fail (res : Response) (failure : Failure) : Response :=
  if res.headersSent then { res with destroyed := true }
  else res.answer (failure.status.getD 500) failure.message

/-! ## The handler -/

/-- What the handler waits for: the database, the next invoice, room in the response, the cursor to
be left, or to be closed. The last chunk may be among what there is no room for. -/
inductive Phase
  | connecting
  | reading
  | draining (last : Bool)
  | leaving
  | closing
  | done

structure State where
  phase : Phase
  started : Bool
  response : Response

/-- `CSV_COLUMNS.join(",") + "\r\n"` -/
def csvHeader : String := ",".intercalate csvColumns ++ "\r\n"

/-- The name of the file, at a time. -/
def filename (filters : ListFilters) (now : ℤ) : String :=
  "invoices" ++ filters.status.elim "" (fun status => "-" ++ status.toLower) ++ "-" ++
    String.ofList ((isoText now).take 10) ++ ".csv"

def csvHeaders (name : String) : List (String × String) :=
  [("Content-Type", "text/csv; charset=utf-8"),
    ("Content-Disposition", "attachment; filename=\"" ++ name ++ "\""),
    ("Cache-Control", "no-store")]

variable (env : ExportEnv) (name : String)

/-- The response is ended. -/
def State.finish (s : State) : State := { s with response := s.response.finish, phase := .closing }

def State.fail (s : State) (failure : Failure) : State :=
  { s with response := s.response.fail failure, phase := .closing }

/-- The handler goes on after a chunk. -/
def State.resume (s : State) (last : Bool) : State :=
  if last then s.finish else { s with phase := .reading }

/-- The first write sends the headers and the header of the file. -/
def start (res : Response) (started room : Bool) : Response :=
  if started then res
  else ({ res with status := 200, headers := csvHeaders name }.write csvHeader room).1

/-- `write(chunk)`, which waits if there is no room for more. -/
def State.write (s : State) (chunk : String) (room last : Bool) : State :=
  match (start name s.response s.started room).write chunk room with
  | (response, true) => State.resume ⟨s.phase, true, response⟩ last
  | (response, false) => ⟨.draining last, true, response⟩

/-- What comes after the loop. -/
def State.afterLoop (s : State) (room : Bool) : State :=
  if s.started then s.finish else s.write name "" room true

/-- The answers to what the handler waits for, and the events of the response. -/
inductive Input
  | connected (answer : Except Failure Unit)
  | next (answer : Except Failure (Option InvoiceRecord)) (room : Bool)
  | returned (answer : Except Failure Unit)
  | closed
  | drain
  | disconnect

/-- The client is gone, and the response emits `close`. -/
def State.disconnect (s : State) : State :=
  { s with response := { s.response with destroyed := true } }

/-- One input. An answer that nobody waits for is none. -/
def step (s : State) (i : Input) : State :=
  match s.phase, i with
  | .connecting, .connected (.ok ()) => { s with phase := .reading }
  | .connecting, .connected (.error failure) => { s.fail failure with phase := .done }
  | .reading, .next (.error failure) _ => s.fail failure
  | .reading, .next (.ok none) room => s.afterLoop name room
  | .reading, .next (.ok (some invoice)) room =>
    if s.response.destroyed then { s with phase := .leaving }
    else
      match invoiceToCsvRow env invoice with
      | .ok row => s.write name row room false
      | .error message => s.fail ⟨none, message⟩
  | .leaving, .returned (.ok ()) => s.afterLoop name true
  | .leaving, .returned (.error failure) => s.fail failure
  | .draining last, .drain =>
    if s.response.destroyed then s
    else State.resume { s with response := { s.response with full := false } } last
  | .draining last, .disconnect =>
    -- `close` is emitted once: who begins to wait after it waits for ever
    if s.response.destroyed then s else s.disconnect.resume last
  | _, .disconnect => s.disconnect
  | .closing, .closed => { s with phase := .done }
  | _, _ => s

/-- A request has come in. -/
def received : State := ⟨.connecting, false, {}⟩

/-! ## Files -/

/-- A file: its header, and the line of each invoice. -/
inductive Text : List InvoiceRecord → String → Prop
  | header : Text [] csvHeader
  | row {invoices : List InvoiceRecord} {body row : String} {invoice : InvoiceRecord}
    (h : Text invoices body) (hrow : invoiceToCsvRow env invoice = .ok row) :
    Text (invoices ++ [invoice]) (body ++ row)

section Text

variable {env} {invoices : List InvoiceRecord} {body : String}

theorem encodesLine_header :
    Csv.EncodesLine (csvColumns.map (·.toList)) csvHeader.toList := by
  refine ⟨csvColumns.map (·.toList), ?_, by decide⟩
  have hplain : ∀ column ∈ csvColumns, ∀ c ∈ column.toList, Csv.isSpecial c = false := by
    simp [csvColumns, Csv.isSpecial]
  exact List.forall₂_same.mpr fun text htext => by
    obtain ⟨column, hcolumn, rfl⟩ := List.mem_map.mp htext
    exact .bare (hplain column hcolumn)

theorem encodesLine_row {invoice : InvoiceRecord} {row : String}
    (h : invoiceToCsvRow env invoice = .ok row) :
    ∃ texts, Csv.EncodesLine texts row.toList ∧ Reads env invoice texts := by
  obtain ⟨fields, hfields, h⟩ := bind_eq_ok.mp h
  obtain rfl := pure_eq_ok.mp h
  obtain ⟨texts, htexts, hencodes⟩ := exists_texts (mapM_eq_ok_iff.mp hfields)
  exact ⟨texts, ⟨fields, hencodes, String.toList_ofList⟩, reads_of_columns htexts⟩

/-- The lines of a file encode the columns, and the values of the invoices. -/
theorem Text.lines (h : Text env invoices body) : ∃ textss lines,
    List.Forall₂ Csv.EncodesLine (csvColumns.map (·.toList) :: textss) lines ∧
      lines.flatten = body.toList ∧ List.Forall₂ (Reads env) invoices textss := by
  induction h with
  | header =>
    refine ⟨[], [csvHeader.toList], .cons encodesLine_header .nil, ?_, .nil⟩
    simp
  | @row invoices body row invoice h hrow ih =>
    obtain ⟨textss, lines, hlines, hbody, hreads⟩ := ih
    obtain ⟨texts, hline, hread⟩ := encodesLine_row hrow
    refine ⟨textss ++ [texts], lines ++ [row.toList], ?_, ?_, ?_⟩
    · rw [← List.cons_append]
      exact List.rel_append hlines (.cons hline .nil)
    · rw [List.flatten_append, hbody, List.flatten_singleton, String.toList_append]
    · exact List.rel_append hreads (.cons hread .nil)

theorem ne_nil_of_reads {textss : List (List (List Char))}
    (h : List.Forall₂ (Reads env) invoices textss) : ∀ texts ∈ textss, texts ≠ [] := by
  induction h with
  | nil => simp
  | cons hread _ ih =>
    refine List.forall_mem_cons.mpr ⟨?_, ih⟩
    rintro rfl
    cases hread

/-- **A file is read back**: its first line has the names of the columns, and there is one line for
each invoice, with the values of the invoice. -/
theorem parse_text (h : Text env invoices body) : ∃ textss,
    Csv.parse body.toList = some (csvColumns.map (·.toList) :: textss) ∧
      List.Forall₂ (Reads env) invoices textss := by
  obtain ⟨textss, lines, hlines, hbody, hreads⟩ := h.lines
  refine ⟨textss, ?_, hreads⟩
  rw [← hbody]
  have hcolumns : csvColumns.map (·.toList) ≠ [] := by simp [csvColumns]
  exact Csv.parse_lines hlines (List.forall_mem_cons.mpr ⟨hcolumns, ne_nil_of_reads hreads⟩)

end Text

/-! ## What the handler has done -/

/-- The invoice that the cursor gives to a handler that waits for one. -/
def givenBy (t : State × Input) : Option InvoiceRecord :=
  match t.1.phase, t.2 with
  | .reading, .next (.ok invoice) _ => invoice
  | _, _ => none

/-- The invoices that the cursor has given. -/
def given (h : List (State × Input)) : List InvoiceRecord := h.filterMap givenBy

theorem given_cons (t : State × Input) (h : List (State × Input)) :
    given (t :: h) = (givenBy t).toList ++ given h := by
  cases hgiven : givenBy t <;> simp [given, hgiven]

theorem given_snoc (h : List (State × Input)) (t : State × Input) :
    given (h ++ [t]) = given h ++ (givenBy t).toList := by
  rw [given, List.filterMap_append]
  exact congrArg (given h ++ ·) ((given_cons t []).trans (List.append_nil _))

/-- The cursor has no more invoices. -/
def Exhausts (t : State × Input) : Prop :=
  t.1.phase = .reading ∧ ∃ room, t.2 = .next (.ok none) room

/-- The handler starts a file after the loop, for a client that is gone. -/
def LeftBehind (t : State × Input) : Prop :=
  t.1.started = false ∧ t.1.response.destroyed = true ∧
    (Exhausts t ∨ t.1.phase = .leaving ∧ t.2 = .returned (.ok ()))

/-- The handler waits for room, and nothing will tell it of any. -/
def Stuck (s : State) : Prop := s.response.destroyed = true ∧ ∃ last, s.phase = .draining last

/-- What is known of a response in the loop, after the invoices `invoices`. -/
structure Live (invoices : List InvoiceRecord) (started : Bool) (res : Response) : Prop where
  text : res.body = "" ∨ ∃ written, written <+: invoices ∧ Text env written res.body
  silent : res.headersSent = false → res.body = ""
  unanswered : res.ended = false ∧ res.error = none
  head : if started then res.status = 200 ∧ res.headers = csvHeaders name else res.headers = []
  sent : res.destroyed = false →
    if started then res.headersSent = true ∧ Text env invoices res.body
    else res.headersSent = false ∧ invoices = []

/-- What is known of it after the loop, of a cursor that had no more invoices if `exhausted`. -/
structure Over (invoices : List InvoiceRecord) (exhausted : Prop) (res : Response) : Prop where
  text : res.body = "" ∨ ∃ written, written <+: invoices ∧ Text env written res.body
  complete : res.ended = true → res.error = none →
    exhausted ∧ Text env invoices res.body ∧ res.status = 200 ∧ res.headers = csvHeaders name
  error : ∀ message, res.error = some message → res.body = "" ∧ res.headers = []
  settled : res.ended = true ∨ res.destroyed = true
  full : res.full = true → res.destroyed = true

section Response

variable {env name} {invoices : List InvoiceRecord} {started : Bool} {res : Response}
  {exhausted : Prop}

/-- The client goes. -/
theorem Live.disconnect (h : Live env name invoices started res) :
    Live env name invoices started { res with destroyed := true } :=
  ⟨h.text, h.silent, h.unanswered, h.head, by simp⟩

theorem Over.disconnect (h : Over env name invoices exhausted res) :
    Over env name invoices exhausted { res with destroyed := true } :=
  ⟨h.text, h.complete, h.error, Or.inr rfl, fun _ => rfl⟩

/-- An invoice that comes when the client is gone is not written. -/
theorem Live.skip (h : Live env name invoices started res) (hgone : res.destroyed = true)
    (invoice : InvoiceRecord) : Live env name (invoices ++ [invoice]) started res where
  text := h.text.imp_right fun ⟨written, hwritten, htext⟩ =>
    ⟨written, hwritten.trans (List.prefix_append _ _), htext⟩
  silent := h.silent
  unanswered := h.unanswered
  head := h.head
  sent hthere := by simp [hgone] at hthere

theorem write_there (hthere : res.destroyed = false) (chunk : String) (room : Bool) :
    res.write chunk room =
      ({ res with headersSent := true, body := res.body ++ chunk, full := !room }, room) := by
  rw [Response.write, hthere]
  exact if_neg Bool.false_ne_true

theorem write_gone (hgone : res.destroyed = true) (chunk : String) (room : Bool) :
    res.write chunk room = (res, false) := if_pos hgone

@[simp] theorem destroyed_start (room : Bool) :
    (start name res started room).destroyed = res.destroyed := by
  cases started <;> cases hgone : res.destroyed <;> simp [start, Response.write, hgone]

/-- The header of the file is sent, if it has not been and the client is there. -/
theorem Live.start (h : Live env name invoices started res) (room : Bool) :
    Live env name invoices true (start name res started room) := by
  cases started with
  | true => exact h
  | false =>
    cases hgone : res.destroyed with
    | true =>
      -- the headers are set, and nothing is sent
      rw [ExportStream.start, write_gone (by exact hgone)]
      exact ⟨h.text, h.silent, h.unanswered, ⟨rfl, rfl⟩, by simp [hgone]⟩
    | false =>
      obtain ⟨hunsent, rfl⟩ : res.headersSent = false ∧ invoices = [] := h.sent hgone
      have htext : Text env [] (res.body ++ csvHeader) := by
        rw [h.silent hunsent, String.empty_append]
        exact .header
      rw [ExportStream.start, write_there (by exact hgone)]
      exact ⟨Or.inr ⟨[], List.prefix_rfl, htext⟩, by simp, h.unanswered, ⟨rfl, rfl⟩,
        fun _ => ⟨rfl, htext⟩⟩

/-- A chunk that continues the file. -/
theorem Live.write (h : Live env name invoices true res) (hthere : res.destroyed = false)
    {invoices' : List InvoiceRecord} {chunk : String}
    (hchunk : ∀ body, Text env invoices body → Text env invoices' (body ++ chunk)) (room : Bool) :
    Live env name invoices' true (res.write chunk room).1 := by
  have htext := hchunk _ (h.sent hthere).2
  rw [write_there hthere]
  exact ⟨Or.inr ⟨_, List.prefix_rfl, htext⟩, by simp, h.unanswered, h.head, fun _ => ⟨rfl, htext⟩⟩

/-- The file is ended when it is complete, or the client gone. -/
theorem Live.finish (h : Live env name invoices started res)
    (hlast : res.destroyed = false → started = true ∧ exhausted ∧ res.full = false) :
    Over env name invoices exhausted res.finish := by
  cases hgone : res.destroyed with
  | true =>
    simp only [Response.finish, hgone]
    exact ⟨h.text, by simp [h.unanswered.1], by simp [h.unanswered.2], Or.inr hgone,
      fun _ => hgone⟩
  | false =>
    obtain ⟨rfl, hexhausted, hfull⟩ := hlast hgone
    obtain ⟨-, htext⟩ := by simpa using h.sent hgone
    simp only [Response.finish, hgone]
    exact ⟨h.text, fun _ _ => ⟨hexhausted, htext, h.head⟩, by simp [h.unanswered.2], Or.inl rfl,
      by simp [hfull]⟩

/-- A failure is answered if nothing has been sent, and cuts the connection otherwise. -/
theorem Live.fail (h : Live env name invoices started res)
    (hfull : res.full = true → res.destroyed = true) (failure : Failure)
    {invoices' : List InvoiceRecord} (hread : invoices <+: invoices') :
    Over env name invoices' exhausted (res.fail failure) := by
  have htext : res.body = "" ∨ ∃ written, written <+: invoices' ∧ Text env written res.body :=
    h.text.imp_right fun ⟨written, hwritten, htext⟩ => ⟨written, hwritten.trans hread, htext⟩
  cases hsent : res.headersSent with
  | true =>
    simp only [Response.fail, hsent]
    exact ⟨htext, by simp [h.unanswered.1], by simp [h.unanswered.2], Or.inr rfl, fun _ => rfl⟩
  | false =>
    cases hgone : res.destroyed with
    | true =>
      simp only [Response.fail, hsent, Response.answer, hgone]
      exact ⟨htext, by simp [h.unanswered.1], by simp [h.unanswered.2], Or.inr hgone,
        fun _ => hgone⟩
    | false =>
      -- a file that has been started for a client that is there has been sent
      have hunstarted : started = false := by
        have := h.sent hgone
        cases started <;> simp_all
      have hhead := h.head
      rw [hunstarted] at hhead
      simp only [Response.fail, hsent, Response.answer, hgone]
      exact ⟨htext, by simp, fun _ _ => ⟨h.silent hsent, by simpa using hhead⟩, Or.inl rfl,
        by simpa [hgone] using hfull⟩

end Response

/-! ## Runs -/

/-- What is known of a handler that was given the invoices `invoices`. -/
def Inv (invoices : List InvoiceRecord) (exhausted : Prop) (s : State) : Prop :=
  match s.phase with
  | .connecting | .reading =>
    Live env name invoices s.started s.response ∧
      (s.response.full = true → s.response.destroyed = true)
  | .draining last =>
    Live env name invoices s.started s.response ∧ s.started = true ∧
      (s.response.destroyed = false → last = true → exhausted)
  | .leaving => Live env name invoices s.started s.response ∧ s.response.destroyed = true
  | .closing | .done => Over env name invoices exhausted s.response

section Inv

variable {env name} {invoices invoices' : List InvoiceRecord} {exhausted exhausted' : Prop}
  {s : State}

theorem Inv.mono (h : Inv env name invoices exhausted s) (hex : exhausted → exhausted') :
    Inv env name invoices exhausted' s := by
  obtain ⟨phase, started, res⟩ := s
  have hover : ∀ {res}, Over env name invoices exhausted res →
      Over env name invoices exhausted' res := fun ho =>
    ⟨ho.text, fun hend herror => (ho.complete hend herror).imp_left hex, ho.error, ho.settled, ho.full⟩
  cases phase with
  | connecting | reading | leaving => exact h
  | draining last => exact ⟨h.1, h.2.1, fun hthere hlast => hex (h.2.2 hthere hlast)⟩
  | closing | done => exact hover h

/-- A chunk that continues the file, to a client that is there. -/
theorem inv_write (h : Live env name invoices s.started s.response)
    (hthere : s.response.destroyed = false) {chunk : String}
    (hchunk : ∀ body, Text env invoices body → Text env invoices' (body ++ chunk)) (room : Bool)
    {last : Bool} (hlast : last = true → exhausted) :
    Inv env name invoices' exhausted (s.write name chunk room last) := by
  have hstart : (start name s.response s.started room).destroyed = false := by
    rw [destroyed_start, hthere]
  have hlive := (h.start room).write hstart hchunk room
  rw [write_there hstart] at hlive
  rw [State.write, write_there hstart]
  cases room with
  | false => exact ⟨hlive, rfl, fun _ => hlast⟩
  | true =>
    cases last with
    | false => exact ⟨hlive, fun hfull => Bool.noConfusion hfull⟩
    | true => exact hlive.finish fun _ => ⟨rfl, hlast rfl, rfl⟩

/-- The end of the loop. -/
theorem inv_afterLoop (h : Live env name invoices s.started s.response)
    (hfull : s.response.full = true → s.response.destroyed = true)
    (hex : s.response.destroyed = false → exhausted) (room : Bool) :
    Inv env name invoices exhausted (s.afterLoop name room) := by
  cases hstarted : s.started with
  | true =>
    rw [State.afterLoop, hstarted]
    refine h.finish fun hthere => ⟨hstarted, hex hthere, ?_⟩
    simpa [hthere] using hfull
  | false =>
    rw [State.afterLoop, hstarted]
    cases hgone : s.response.destroyed with
    | false =>
      refine inv_write h hgone (fun body htext => ?_) room fun _ => hex hgone
      rwa [String.append_empty]
    | true =>
      -- the header is not sent, and the handler waits for room
      have hstart : (start name s.response s.started room).destroyed = true := by
        rw [destroyed_start, hgone]
      rw [if_neg Bool.false_ne_true, State.write, write_gone hstart]
      exact ⟨h.start room, rfl, fun hthere => absurd (hstart.symm.trans hthere) Bool.noConfusion⟩

/-- Room is there again, or the client is gone. -/
theorem inv_resume (h : Live env name invoices s.started s.response) (hstarted : s.started = true)
    (hfull : s.response.full = true → s.response.destroyed = true) {last : Bool}
    (hlast : s.response.destroyed = false → last = true → exhausted) :
    Inv env name invoices exhausted (s.resume last) := by
  cases last with
  | false => exact ⟨h, hfull⟩
  | true =>
    refine h.finish fun hthere => ⟨hstarted, hlast hthere rfl, ?_⟩
    simpa [hthere] using hfull

/-- The client is gone while the handler does not wait for room. -/
theorem inv_disconnect (h : Inv env name invoices exhausted s)
    (hdraining : ∀ last, s.phase = .draining last → False) :
    Inv env name invoices exhausted s.disconnect := by
  obtain ⟨phase, started, res⟩ := s
  cases phase with
  | connecting | reading => exact ⟨Live.disconnect h.1, fun _ => rfl⟩
  | draining last => exact (hdraining last rfl).elim
  | leaving => exact ⟨Live.disconnect h.1, rfl⟩
  | closing | done => exact Over.disconnect h

theorem givenBy_eq_some {i : Input} {invoice : InvoiceRecord}
    (h : givenBy (s, i) = some invoice) :
    s.phase = .reading ∧ ∃ room, i = .next (.ok (some invoice)) room := by
  rw [givenBy] at h
  split at h
  · next room hphase hi => exact ⟨hphase, room, by rw [← h]; exact hi⟩
  · cases h

theorem step_given (hphase : s.phase = .reading) (invoice : InvoiceRecord) (room : Bool) :
    step env name s (.next (.ok (some invoice)) room) =
      if s.response.destroyed then { s with phase := .leaving }
      else
        match invoiceToCsvRow env invoice with
        | .ok row => s.write name row room false
        | .error message => s.fail ⟨none, message⟩ := by
  unfold step
  rw [hphase]

/-- An invoice is written if the client is there. -/
theorem inv_given (h : Inv env name invoices exhausted s) (hphase : s.phase = .reading)
    (invoice : InvoiceRecord) (room : Bool) : Inv env name (invoices ++ [invoice]) exhausted
      (step env name s (.next (.ok (some invoice)) room)) := by
  rw [Inv, hphase] at h
  rw [step_given hphase]
  split
  · next hgone => exact ⟨h.1.skip hgone invoice, hgone⟩
  · next hthere =>
    rw [Bool.not_eq_true] at hthere
    split
    · next row hrow => exact inv_write h.1 hthere (fun _ htext => .row htext hrow) room (by simp)
    · next message hrow => exact h.1.fail h.2 _ (List.prefix_append _ _)

/-- What else may come. -/
theorem inv_ungiven (h : Inv env name invoices exhausted s) {i : Input}
    (hnone : givenBy (s, i) = none) :
    Inv env name invoices (exhausted ∨ Exhausts (s, i)) (step env name s i) := by
  unfold step
  split
  · next hphase =>
    rw [Inv, hphase] at h
    exact h
  · next failure hphase =>
    rw [Inv, hphase] at h
    exact h.1.fail h.2 failure List.prefix_rfl
  · next failure room hphase =>
    rw [Inv, hphase] at h
    exact h.1.fail h.2 failure List.prefix_rfl
  · next room hphase =>
    rw [Inv, hphase] at h
    exact inv_afterLoop h.1 h.2 (fun _ => Or.inr ⟨hphase, room, rfl⟩) room
  · next invoice room hphase => simp [givenBy, hphase] at hnone
  · next hphase =>
    rw [Inv, hphase] at h
    exact inv_afterLoop h.1 (fun _ => h.2) (fun hthere => by simp [h.2] at hthere) true
  · next failure hphase =>
    rw [Inv, hphase] at h
    exact h.1.fail (fun _ => h.2) failure List.prefix_rfl
  · next last hphase =>
    split
    · exact h.mono Or.inl
    · rw [Inv, hphase] at h
      obtain ⟨hlive, hstarted, hlast⟩ := h
      refine inv_resume (s := { s with response := { s.response with full := false } })
        ⟨hlive.text, hlive.silent, hlive.unanswered, hlive.head, hlive.sent⟩ hstarted ?_ ?_
      · exact fun hfull => Bool.noConfusion hfull
      · exact fun hthere hl => Or.inl (hlast hthere hl)
  · next last hphase =>
    split
    · exact h.mono Or.inl
    · rw [Inv, hphase] at h
      refine inv_resume (s := s.disconnect) h.1.disconnect h.2.1 (fun _ => rfl) ?_
      exact fun hthere => Bool.noConfusion hthere
  · next hdraining => exact (inv_disconnect h hdraining).mono Or.inl
  · next hphase =>
    rw [Inv, hphase] at h
    exact (show Inv env name invoices exhausted { s with phase := .done } from h).mono Or.inl
  · exact h.mono Or.inl

/-- **One input** keeps what is known of the handler. -/
theorem inv_step (h : Inv env name invoices exhausted s) (i : Input) :
    Inv env name (invoices ++ (givenBy (s, i)).toList) (exhausted ∨ Exhausts (s, i))
      (step env name s i) := by
  cases hgiven : givenBy (s, i) with
  | none =>
    rw [Option.toList_none, List.append_nil]
    exact inv_ungiven h hgiven
  | some invoice =>
    obtain ⟨hphase, room, rfl⟩ := givenBy_eq_some hgiven
    exact (inv_given h hphase invoice room).mono Or.inl

theorem inv_run (is : List Input) :
    Inv env name (given (transitions (step env name) received is))
      (∃ t ∈ transitions (step env name) received is, Exhausts t)
      (run (step env name) received is) := by
  induction is using List.reverseRecOn with
  | nil =>
    refine ⟨⟨Or.inl rfl, fun _ => rfl, ⟨rfl, rfl⟩, rfl, fun _ => ⟨rfl, rfl⟩⟩, ?_⟩
    exact fun hfull => Bool.noConfusion hfull
  | append_singleton is i ih =>
    rw [transitions_snoc, run_snoc, given_snoc]
    refine (inv_step ih i).mono ?_
    rintro (⟨t, ht, hexhausts⟩ | hexhausts)
    · exact ⟨t, List.mem_append_left _ ht, hexhausts⟩
    · exact ⟨_, List.mem_append_right _ (List.mem_singleton_self _), hexhausts⟩

end Inv

/-! ## Clients that are gone -/

section Gone

variable {env name} {s : State} {i : Input}

/-- How many invoices a handler still reads whose client is gone. -/
def State.reads (s : State) : ℕ :=
  match s.phase with
  | .connecting | .reading => 1
  | _ => 0

theorem finish_gone {res : Response} (hgone : res.destroyed = true) : res.finish = res :=
  if_pos hgone

theorem start_gone {res : Response} (hgone : res.destroyed = true) (started room : Bool) :
    (start name res started room).body = res.body := by
  cases started with
  | true => rfl
  | false => rw [start, if_neg Bool.false_ne_true, write_gone (by exact hgone)]

theorem fail_gone {res : Response} (hgone : res.destroyed = true) (failure : Failure) :
    (res.fail failure).destroyed = true ∧ (res.fail failure).body = res.body := by
  rw [Response.fail]
  split
  · exact ⟨rfl, rfl⟩
  · rw [Response.answer, if_pos hgone]
    exact ⟨hgone, rfl⟩

variable (name) in
theorem afterLoop_gone (hgone : s.response.destroyed = true) (room : Bool) :
    (s.afterLoop name room).response.destroyed = true ∧
      (s.afterLoop name room).response.body = s.response.body ∧
      (s.afterLoop name room).reads = 0 := by
  rw [State.afterLoop]
  split
  · rw [State.finish, finish_gone hgone]
    exact ⟨hgone, rfl, rfl⟩
  · have hstart : (start name s.response s.started room).destroyed = true := by
      rw [destroyed_start, hgone]
    rw [State.write, write_gone hstart]
    exact ⟨hstart, start_gone hgone _ _, rfl⟩

variable (env name) in
/-- **One input** after the client is gone writes nothing, and at most one more invoice is read. -/
theorem gone_step (hgone : s.response.destroyed = true) (i : Input) :
    (step env name s i).response.destroyed = true ∧
      (step env name s i).response.body = s.response.body ∧
      (givenBy (s, i)).toList.length + (step env name s i).reads ≤ s.reads := by
  cases hgiven : givenBy (s, i) with
  | some invoice =>
    -- the one invoice that is read makes the handler leave the loop
    obtain ⟨hphase, room, rfl⟩ := givenBy_eq_some hgiven
    rw [step_given hphase, if_pos hgone]
    exact ⟨hgone, rfl, by simp [State.reads, hphase]⟩
  | none =>
    rw [Option.toList_none, List.length_nil, Nat.zero_add]
    unfold step
    split
    · next hphase => exact ⟨hgone, rfl, by simp [State.reads, hphase]⟩
    · next failure hphase =>
      have hfail := fail_gone hgone failure
      exact ⟨hfail.1, hfail.2, Nat.zero_le _⟩
    · next failure room hphase =>
      have hfail := fail_gone hgone failure
      exact ⟨hfail.1, hfail.2, Nat.zero_le _⟩
    · next room hphase =>
      obtain ⟨hgone', hbody, hreads⟩ := afterLoop_gone name hgone room
      exact ⟨hgone', hbody, hreads ▸ Nat.zero_le _⟩
    · next invoice room hphase => simp [givenBy, hphase] at hgiven
    · next hphase =>
      obtain ⟨hgone', hbody, hreads⟩ := afterLoop_gone name hgone true
      exact ⟨hgone', hbody, hreads ▸ Nat.zero_le _⟩
    · next failure hphase =>
      have hfail := fail_gone hgone failure
      exact ⟨hfail.1, hfail.2, Nat.zero_le _⟩
    · next last hphase =>
      rw [if_pos hgone]
      exact ⟨hgone, rfl, le_refl _⟩
    · next last hphase =>
      rw [if_pos hgone]
      exact ⟨hgone, rfl, le_refl _⟩
    · exact ⟨rfl, rfl, le_refl _⟩
    · exact ⟨hgone, rfl, Nat.zero_le _⟩
    · exact ⟨hgone, rfl, le_refl _⟩

theorem gone_run (hgone : s.response.destroyed = true) (is : List Input) :
    (run (step env name) s is).response.body = s.response.body ∧
      (given (transitions (step env name) s is)).length ≤ s.reads := by
  induction is generalizing s with
  | nil => exact ⟨rfl, Nat.zero_le _⟩
  | cons i is ih =>
    obtain ⟨hgone', hbody, hreads⟩ := gone_step env name hgone i
    obtain ⟨hbodies, hrest⟩ := ih hgone'
    refine ⟨hbodies.trans hbody, ?_⟩
    rw [transitions, given_cons, List.length_append]
    exact (Nat.add_le_add_left hrest _).trans hreads

end Gone

/-! ## Handlers that never finish -/

section Stuck

variable {env name} {s : State} {i : Input} {res : Response} {room : Bool}

theorem not_stuck_fail (failure : Failure) : ¬ Stuck (s.fail failure) := by
  rintro ⟨-, last, hphase⟩
  cases hphase

theorem not_stuck_resume (last : Bool) : ¬ Stuck (s.resume last) := by
  rintro ⟨-, last', hphase⟩
  cases last <;> cases hphase

/-- A chunk to a client that is there: the handler will be told of room. -/
theorem not_stuck_write (hthere : s.response.destroyed = false) (chunk : String) (last : Bool) :
    ¬ Stuck (s.write name chunk room last) := by
  have hstart : (start name s.response s.started room).destroyed = false := by
    rw [destroyed_start, hthere]
  rw [State.write, write_there hstart]
  cases room with
  | true => exact not_stuck_resume last
  | false => exact fun hstuck => Bool.noConfusion (hstart.symm.trans hstuck.1)

theorem stuck_afterLoop : Stuck (s.afterLoop name room) ↔
    s.started = false ∧ s.response.destroyed = true := by
  cases hstarted : s.started with
  | true =>
    rw [State.afterLoop, hstarted]
    refine iff_of_false ?_ (by simp)
    rintro ⟨-, last, hphase⟩
    cases hphase
  | false =>
    rw [State.afterLoop, hstarted, if_neg Bool.false_ne_true]
    cases hgone : s.response.destroyed with
    | false => exact iff_of_false (not_stuck_write hgone "" true) (by simp)
    | true =>
      have hstart : (start name s.response s.started room).destroyed = true := by
        rw [destroyed_start, hgone]
      rw [State.write, write_gone hstart]
      exact iff_of_true ⟨hstart, true, rfl⟩ ⟨rfl, rfl⟩

/-- Nothing changes a handler that is stuck. -/
theorem step_stuck (h : Stuck s) (i : Input) : step env name s i = s := by
  obtain ⟨phase, started, res⟩ := s
  obtain ⟨hgone, last, rfl : phase = .draining last⟩ := h
  cases i with
  | drain | disconnect => exact if_pos hgone
  | connected answer => rfl
  | next answer room => rfl
  | returned answer => rfl
  | closed => rfl

theorem stuck_leftBehind (h : LeftBehind (s, i)) : Stuck (step env name s i) := by
  obtain ⟨phase, started, res⟩ := s
  obtain ⟨hstarted, hgone, ⟨rfl : phase = .reading, room, rfl : i = _⟩ |
    ⟨rfl : phase = .leaving, rfl : i = _⟩⟩ := h
  · exact stuck_afterLoop.mpr ⟨hstarted, hgone⟩
  · exact stuck_afterLoop.mpr ⟨hstarted, hgone⟩

/-- **One input** leaves a handler stuck that is left behind by it, or has been before. -/
theorem stuck_step (i : Input) :
    Stuck (step env name s i) ↔ Stuck s ∨ LeftBehind (s, i) := by
  constructor
  · intro hstuck
    by_contra hnot
    obtain ⟨hfree, hleft⟩ := not_or.mp hnot
    -- only what comes after the loop writes to a client that is gone
    revert hstuck
    unfold step
    split
    · rintro ⟨-, last, hphase⟩
      cases hphase
    · rintro ⟨-, last, hphase⟩
      cases hphase
    · exact not_stuck_fail _
    · next room hphase =>
      intro hstuck
      obtain ⟨hstarted, hgone⟩ := stuck_afterLoop.mp hstuck
      exact hleft ⟨hstarted, hgone, Or.inl ⟨hphase, room, rfl⟩⟩
    · split
      · rintro ⟨-, last, hphase⟩
        cases hphase
      · next hthere =>
        split
        · exact not_stuck_write (by simpa using hthere) _ _
        · exact not_stuck_fail _
    · next hphase =>
      intro hstuck
      obtain ⟨hstarted, hgone⟩ := stuck_afterLoop.mp hstuck
      exact hleft ⟨hstarted, hgone, Or.inr ⟨hphase, rfl⟩⟩
    · exact not_stuck_fail _
    · split
      · exact hfree
      · exact not_stuck_resume _
    · split
      · exact hfree
      · exact not_stuck_resume _
    · next hdraining =>
      rintro ⟨-, last, hphase⟩
      exact hdraining last hphase
    · rintro ⟨-, last, hphase⟩
      cases hphase
    · exact hfree
  · rintro (hstuck | hleft)
    · rwa [step_stuck hstuck]
    · exact stuck_leftBehind hleft

theorem stuck_run (is : List Input) : Stuck (run (step env name) received is) ↔
    ∃ t ∈ transitions (step env name) received is, LeftBehind t := by
  induction is using List.reverseRecOn with
  | nil =>
    refine iff_of_false ?_ (by simp)
    rintro ⟨-, last, hphase⟩
    cases hphase
  | append_singleton is i ih =>
    rw [run_snoc, stuck_step, ih, transitions_snoc]
    simp only [List.mem_append, List.mem_singleton, or_and_right, exists_or, exists_eq_left]

variable (env name) in
/-- Any other handler can finish. -/
theorem exists_done (h : ¬ Stuck s) : ∃ js, (run (step env name) s js).phase = .done := by
  obtain ⟨phase, started, res⟩ := s
  -- a failure of what it waits for would end it
  have hfailure : Failure := ⟨none, ""⟩
  cases phase with
  | connecting => exact ⟨[.connected (.error hfailure)], rfl⟩
  | reading => exact ⟨[.next (.error hfailure) true, .closed], rfl⟩
  | leaving => exact ⟨[.returned (.error hfailure), .closed], rfl⟩
  | closing => exact ⟨[.closed], rfl⟩
  | done => exact ⟨[], rfl⟩
  | draining last =>
    have hthere : res.destroyed = false := by
      rw [← Bool.not_eq_true]
      exact fun hgone => h ⟨hgone, last, rfl⟩
    have hstep : step env name ⟨.draining last, started, res⟩ .disconnect =
        (State.disconnect ⟨.draining last, started, res⟩).resume last :=
      if_neg (by simp [hthere])
    cases last with
    | true => exact ⟨[.disconnect, .closed], by rw [run_cons, hstep]; rfl⟩
    | false =>
      exact ⟨[.disconnect, .next (.error hfailure) true, .closed], by rw [run_cons, hstep]; rfl⟩

theorem unfinished_iff : (∀ js, (run (step env name) s js).phase ≠ .done) ↔ Stuck s := by
  constructor
  · intro h
    by_contra hfree
    obtain ⟨js, hjs⟩ := exists_done env name hfree
    exact h js hjs
  · intro hstuck js
    have hsame : run (step env name) s js = s := by
      induction js with
      | nil => rfl
      | cons j js ih => rw [run_cons, step_stuck hstuck, ih]
    obtain ⟨-, last, hphase⟩ := hstuck
    rw [hsame, hphase]
    exact Phase.noConfusion

end Stuck

/-! ## The export -/

section Inv

variable {env name} {invoices : List InvoiceRecord} {exhausted : Prop} {s : State}

theorem Inv.text (h : Inv env name invoices exhausted s) : s.response.body = "" ∨
    ∃ written, written <+: invoices ∧ Text env written s.response.body := by
  obtain ⟨phase, started, res⟩ := s
  cases phase with
  | connecting | reading | draining | leaving => exact h.1.text
  | closing | done => exact Over.text h

/-- A response that is ended, or answered with an error, belongs to a handler after its loop. -/
theorem Inv.over_of_ended (h : Inv env name invoices exhausted s)
    (hended : s.response.ended = true ∨ s.response.error ≠ none) :
    Over env name invoices exhausted s.response := by
  have hlive : ¬ Live env name invoices s.started s.response := fun hlive =>
    hended.elim (by simp [hlive.unanswered.1]) (absurd hlive.unanswered.2)
  obtain ⟨phase, started, res⟩ := s
  cases phase with
  | connecting | reading | draining | leaving => exact absurd h.1 hlive
  | closing | done => exact h

theorem Inv.full (h : Inv env name invoices exhausted s) (hfull : s.response.full = true) :
    s.response.destroyed = true ∨ ∃ last, s.phase = .draining last := by
  obtain ⟨phase, started, res⟩ := s
  cases phase with
  | connecting | reading => exact Or.inl (h.2 hfull)
  | draining last => exact Or.inr ⟨last, rfl⟩
  | leaving => exact Or.inl h.2
  | closing | done => exact Or.inl (Over.full h hfull)

end Inv

/-- What the client has of a handler with the history `h`, and what it gets. -/
structure Faithful (h : List (State × Input)) (s : State) : Prop where
  begun : s.response.body = "" ∨
    ∃ invoices, invoices <+: given h ∧ Text env invoices s.response.body
  complete : s.response.ended = true → s.response.error = none →
    (∃ t ∈ h, Exhausts t) ∧ s.response.status = 200 ∧ s.response.headers = csvHeaders name ∧
      ∃ textss, Csv.parse s.response.body.toList = some (csvColumns.map (·.toList) :: textss) ∧
        List.Forall₂ (Reads env) (given h) textss
  error : ∀ message, s.response.error = some message →
    s.response.body = "" ∧ s.response.headers = []
  finished : s.phase = .done → s.response.ended = true ∨ s.response.destroyed = true
  full : s.response.full = true → s.response.destroyed = true ∨ ∃ last, s.phase = .draining last
  gone : s.response.destroyed = true → ∀ js,
    (run (step env name) s js).response.body = s.response.body ∧
      (given (transitions (step env name) s js)).length ≤ 1
  unfinished : (∀ js, (run (step env name) s js).phase ≠ .done) ↔ ∃ t ∈ h, LeftBehind t

end Http.ExportStream
