import Mathlib.Data.List.Basic

/-!
# Comma-separated values

A file of comma-separated values has one record a line, the fields of a record separated by commas.
A field may be quoted; inside quotes, commas and line breaks belong to the field, and a doubled
quote stands for one. The parser goes through the characters once.

## Main definitions

* `Mode`, `State`, `step`: where the parser is inside a record
* `parse`: the records of a file, if it is well formed
* `Encodes text field`: a field is a way to write the text

## Main results

* `run_encoded`: an encoded field is read back as its text
* `parse_line`: a line of encoded fields is one record, of their texts
* `parse_lines`: a file of such lines is read back as its records
-/

namespace Csv

/-- Where the parser is: before a field, inside a bare or a quoted one, behind a quote inside a
quoted field, or behind the carriage return that ends a record. -/
inductive Mode
  | start
  | bare
  | quoted
  | closing
  | newline
  deriving DecidableEq

/-- The parser, with the field, the record and the records read so far. -/
structure State where
  mode : Mode
  field : List Char
  record : List (List Char)
  records : List (List (List Char))

/-- The characters with a meaning of their own. -/
def isSpecial (c : Char) : Bool := c = '"' ∨ c = ',' ∨ c = '\r' ∨ c = '\n'

/-- The end of a field. -/
def State.endField (s : State) : State :=
  { s with mode := .start, field := [], record := s.record ++ [s.field] }

/-- The end of a record. -/
def State.endRecord (s : State) : State :=
  { s.endField with record := [], records := s.records ++ [s.record ++ [s.field]] }

/-- What may follow the end of a field. -/
def State.separate (s : State) (c : Char) : Option State :=
  if c = ',' then some s.endField else if c = '\r' then some { s with mode := .newline } else none

def step (s : State) (c : Char) : Option State :=
  match s.mode with
  | .start =>
    if c = '"' then some { s with mode := .quoted }
    else if isSpecial c then s.separate c
    else some { s with mode := .bare, field := s.field ++ [c] }
  | .bare =>
    if isSpecial c then s.separate c else some { s with field := s.field ++ [c] }
  | .quoted =>
    if c = '"' then some { s with mode := .closing } else some { s with field := s.field ++ [c] }
  | .closing =>
    if c = '"' then some { s with mode := .quoted, field := s.field ++ [c] } else s.separate c
  | .newline => if c = '\n' then some s.endRecord else none

/-- The parser on one character after the other. -/
def run (s : State) (cs : List Char) : Option State := cs.foldlM step s

/-- The last record may lack its line break. -/
def finish (s : State) : Option (List (List (List Char))) :=
  match s.mode with
  | .quoted | .newline => none
  | .start => some (if s.record = [] then s.records else s.endRecord.records)
  | .bare | .closing => some s.endRecord.records

/-- The records of a file. -/
def parse (cs : List Char) : Option (List (List (List Char))) :=
  run ⟨.start, [], [], []⟩ cs >>= finish

example : parse "a,\"b \"\"c\"\"\r\n\"\r\n".toList =
    some [["a".toList, "b \"c\"\r\n".toList]] := by decide

/-! ## Encoded fields -/

/-- Every quote of a text doubled. -/
def double (text : List Char) : List Char :=
  text.flatMap fun c => if c = '"' then ['"', '"'] else [c]

/-- A field is a way to write a text: as it is, when no character has a meaning of its own, or in
quotes. -/
inductive Encodes (text : List Char) : List Char → Prop
  | bare (h : ∀ c ∈ text, isSpecial c = false) : Encodes text text
  | quoted : Encodes text ('"' :: double text ++ ['"'])

variable {s : State} {text : List Char}

theorem run_append (s : State) (cs cs' : List Char) :
    run s (cs ++ cs') = run s cs >>= fun t => run t cs' := List.foldlM_append

theorem run_cons {c : Char} {cs : List Char} {t : State} (h : step s c = some t) :
    run s (c :: cs) = run t cs := by
  simp [run, List.foldlM_cons, h]

/-- Inside a bare field, characters without a meaning are read as they are. -/
theorem run_bare (hm : s.mode = .bare) (h : ∀ c ∈ text, isSpecial c = false) :
    run s text = some { s with field := s.field ++ text } := by
  induction text generalizing s with
  | nil => simp [run]
  | cons c text ih =>
    have hc : step s c = some { s with field := s.field ++ [c] } := by
      simp [step, hm, h c (by simp)]
    rw [run_cons hc, ih (s := { s with field := s.field ++ [c] }) hm
      fun d hd => h d (List.mem_cons_of_mem c hd)]
    simp

/-- Inside quotes, a text with its quotes doubled is read as the text. -/
theorem run_double (hm : s.mode = .quoted) :
    run s (double text) = some { s with field := s.field ++ text } := by
  induction text generalizing s with
  | nil => simp [run, double]
  | cons c text ih =>
    by_cases hc : c = '"'
    · -- the first quote seems to close the field, the second reopens it
      subst hc
      have hfirst : step s '"' = some { s with mode := .closing } := by simp [step, hm]
      have hsecond : step { s with mode := .closing } '"' =
          some { s with mode := .quoted, field := s.field ++ ['"'] } := by simp [step]
      rw [double, List.flatMap_cons, if_pos rfl, List.cons_append, List.cons_append,
        run_cons hfirst, run_cons hsecond, List.nil_append, ← double, ih rfl]
      simp [hm]
    · have hstep : step s c = some { s with field := s.field ++ [c] } := by simp [step, hm, hc]
      rw [double, List.flatMap_cons, if_neg hc, List.singleton_append, run_cons hstep, ← double,
        ih (s := { s with field := s.field ++ [c] }) hm]
      simp

/-- **An encoded field is read back as its text**, and a separator may follow. -/
theorem run_encoded {cs : List Char} (h : Encodes text cs) (hm : s.mode = .start)
    (hf : s.field = []) : ∃ t, run s cs = some t ∧ t.field = text ∧ t.record = s.record ∧
      t.records = s.records ∧ ∀ c, c = ',' ∨ c = '\r' → step t c = t.separate c := by
  cases h with
  | bare h =>
    cases text with
    | nil =>
      refine ⟨s, rfl, hf, rfl, rfl, fun c hc => ?_⟩
      rcases hc with rfl | rfl <;> simp [step, hm, isSpecial]
    | cons c text =>
      have hspecial := h c (by simp)
      have hquote : c ≠ '"' := by
        rintro rfl
        simp [isSpecial] at hspecial
      have hc : step s c = some { s with mode := .bare, field := [c] } := by
        simp [step, hm, hf, hquote, hspecial]
      refine ⟨{ s with mode := .bare, field := c :: text }, ?_, rfl, rfl, rfl, fun d hd => ?_⟩
      · rw [run_cons hc, run_bare rfl fun d hd => h d (List.mem_cons_of_mem c hd)]
        rfl
      · rcases hd with rfl | rfl <;> simp [step, isSpecial]
  | quoted =>
    have hopen : step s '"' = some { s with mode := .quoted } := by simp [step, hm]
    refine ⟨{ s with mode := .closing, field := text }, ?_, rfl, rfl, rfl, fun d hd => ?_⟩
    · rw [List.cons_append, run_cons hopen, run_append, run_double rfl]
      simp [run, step, hf]
    · rcases hd with rfl | rfl <;> simp [step]

/-- A line of fields, from the start of a record. -/
theorem run_line {texts encoded : List (List Char)} (h : List.Forall₂ Encodes texts encoded)
    (hne : texts ≠ []) (hm : s.mode = .start) (hf : s.field = []) :
    run s ([','].intercalate encoded ++ ['\r', '\n']) =
      some ⟨.start, [], [], s.records ++ [s.record ++ texts]⟩ := by
  induction h generalizing s with
  | nil => exact absurd rfl hne
  | @cons text cs texts encoded hfield hrest ih =>
    obtain ⟨t, ht, hfield, hrecord, hrecords, hsep⟩ := run_encoded hfield hm hf
    cases hrest with
    | nil =>
      have hreturn : step t '\r' = some { t with mode := .newline } := by
        rw [hsep '\r' (Or.inr rfl)]
        simp [State.separate]
      rw [List.intercalate_singleton, run_append, ht]
      refine (run_cons hreturn).trans ?_
      simp [run, step, State.endRecord, State.endField, hfield, hrecord, hrecords]
    | @cons text' cs' texts encoded hfield' hrest =>
      have hcomma : step t ',' = some t.endField := by
        rw [hsep ',' (Or.inl rfl)]
        simp [State.separate]
      rw [List.intercalate_cons_cons, List.append_assoc, List.append_assoc, run_append, ht]
      refine (run_cons hcomma).trans ((ih (s := t.endField) (by simp) rfl rfl).trans ?_)
      simp [State.endField, hfield, hrecord, hrecords]

/-- **A line of encoded fields is one record**, of their texts. -/
theorem parse_line {texts encoded : List (List Char)} (h : List.Forall₂ Encodes texts encoded)
    (hne : texts ≠ []) :
    parse ([','].intercalate encoded ++ ['\r', '\n']) = some [texts] := by
  rw [parse, run_line h hne rfl rfl]
  simp [finish]

/-- A line is a way to write a record. -/
def EncodesLine (texts : List (List Char)) (line : List Char) : Prop :=
  ∃ encoded, List.Forall₂ Encodes texts encoded ∧ line = [','].intercalate encoded ++ ['\r', '\n']

/-- Lines, from the start of a record. -/
theorem run_lines {records : List (List (List Char))} {lines : List (List Char)}
    (h : List.Forall₂ EncodesLine records lines) (hne : ∀ texts ∈ records, texts ≠ [])
    (hm : s.mode = .start) (hf : s.field = []) (hr : s.record = []) :
    run s lines.flatten = some ⟨.start, [], [], s.records ++ records⟩ := by
  induction h generalizing s with
  | nil =>
    obtain ⟨mode, field, record, records⟩ := s
    obtain rfl : mode = .start := hm
    obtain rfl : field = [] := hf
    obtain rfl : record = [] := hr
    simp [run]
  | @cons texts line records lines hline hrest ih =>
    obtain ⟨encoded, hencoded, rfl⟩ := hline
    rw [List.flatten_cons, run_append, run_line hencoded (hne texts List.mem_cons_self) hm hf, hr]
    refine (ih (s := ⟨.start, [], [], s.records ++ [[] ++ texts]⟩)
      (fun texts' h' => hne texts' (List.mem_cons_of_mem _ h')) rfl rfl rfl).trans ?_
    simp

/-- **A file of lines is read back** as the records they encode. -/
theorem parse_lines {records : List (List (List Char))} {lines : List (List Char)}
    (h : List.Forall₂ EncodesLine records lines) (hne : ∀ texts ∈ records, texts ≠ []) :
    parse lines.flatten = some records := by
  rw [parse, run_lines h hne rfl rfl rfl]
  simp [finish]

end Csv
