import Comebackhere.Library.Utf8

/-!
# Redaction in the traces of the Rust backend

The values of an event are redacted before it is printed: those under a sensitive key are masked,
and long ones are cut to their first 64 bytes. A cut within a character panics, and the request
whose event it was is lost.

## Main definitions

* `redactField`: a value as it is printed, unless the thread panics
* `Sensitive`: the keys whose values are masked
* `traceEvent`: what is printed of an operation

## Main results

* `redactField_eq_none_iff`: when redaction panics
* `redacted_iff`: when a value is redacted as it should be
* `traceEvent_isSome_iff`: when an event is printed
-/

namespace Trace

/-- Keys whose values must never appear. -/
def sensitiveKeys : List String :=
  ["authorization", "token", "secret", "password", "api_key", "private_key", "signature", "body",
    "payload"]

/-- The key contains one of the words, in letters of either case. -/
def Sensitive (key : List Char) : Prop :=
  ∃ word ∈ sensitiveKeys, word.toList <:+: key.map Char.toLower

instance (key : List Char) : Decidable (Sensitive key) :=
  inferInstanceAs (Decidable (∃ word ∈ sensitiveKeys, _))

/-- The most bytes of a value. -/
def maxBytes : ℕ := 64

def mask : List Char := "[REDACTED]".toList

def truncated : List Char := "…[truncated]".toList

/-- Redact a single key and value. A slice that ends within a character panics. -/
def redactField (key value : List Char) : Option (List Char) :=
  if Sensitive key then some mask
  else if maxBytes < (Utf8.encode value).length then
    (Utf8.slice maxBytes value).map (· ++ truncated)
  else some value

/-! ## Events -/

structure TraceContext where
  traceId : String
  spanId : String
  parentSpanId : Option String

structure TraceEvent where
  context : TraceContext
  operation : String
  fields : List (List Char × List Char)

/-- The event that is printed, unless a value panics. -/
def traceEvent (ctx : TraceContext) (operation : String) (fields : List (List Char × List Char)) :
    Option TraceEvent := do
  let redacted ← fields.mapM fun (key, value) => (redactField key value).map (key, ·)
  return ⟨ctx, operation, redacted⟩

/-! ## Redaction -/

variable {key value : List Char}

/-- A value that is printed whole, or whose first 64 bytes are characters. -/
def Cuttable (value : List Char) : Prop :=
  (Utf8.encode value).length ≤ maxBytes ∨ Utf8.Boundary value maxBytes

/-- **Redaction panics** on a long value with a character across the cut. -/
theorem redactField_eq_none_iff :
    redactField key value = none ↔ ¬Sensitive key ∧ ¬Cuttable value := by
  rw [redactField, Cuttable, ← Utf8.slice_isSome_iff, not_or, Nat.not_le,
    Option.not_isSome_iff_eq_none]
  split
  · next h => simp [h]
  · next h =>
    split
    · next hlong => simp [h, hlong]
    · next hshort => simp [hshort]

/-- A value is redacted: nothing of it is printed under a sensitive key, and no more than a prefix
of 64 bytes under any other. -/
structure Redacted (key value result : List Char) : Prop where
  returns : redactField key value = some result
  masked : Sensitive key → ∀ value', redactField key value' = some result
  bounded : ¬Sensitive key → ∃ pre, pre <+: value ∧ (Utf8.encode pre).length ≤ maxBytes ∧
    Utf8.encode pre <+: Utf8.encode value ∧ (result = pre ∨ result = pre ++ truncated)

theorem redacted_of_returns {result : List Char} (h : redactField key value = some result) :
    Redacted key value result := by
  refine ⟨h, fun hsensitive value' => ?_, fun hother => ?_⟩
  · rw [redactField, if_pos hsensitive] at h ⊢
    exact h
  · rw [redactField, if_neg hother] at h
    split at h
    · obtain ⟨pre, hslice, rfl⟩ := Option.map_eq_some_iff.mp h
      obtain ⟨⟨rest, rfl⟩, hlen⟩ := Utf8.slice_eq_some_iff.mp hslice
      refine ⟨pre, List.prefix_append .., Nat.le_of_eq hlen, ?_, Or.inr rfl⟩
      rw [Utf8.encode_append]
      exact List.prefix_append ..
    · next hshort =>
      obtain rfl := Option.some.inj h
      exact ⟨value, List.prefix_rfl, Nat.not_lt.mp hshort, List.prefix_rfl, Or.inl rfl⟩

/-- **A value is redacted** exactly if its key is sensitive, or it is short, or its first 64 bytes
end with a character. -/
theorem redacted_iff (key value : List Char) :
    (∃ result, Redacted key value result) ↔
      Sensitive key ∨ (Utf8.encode value).length ≤ maxBytes ∨ Utf8.Boundary value maxBytes := by
  have hpanic : redactField key value = none ↔ ¬Sensitive key ∧ ¬Cuttable value :=
    redactField_eq_none_iff
  constructor
  · rintro ⟨result, h⟩
    by_contra hneither
    have hnone := hpanic.mpr (not_or.mp hneither)
    rw [h.returns] at hnone
    cases hnone
  · intro h
    cases hresult : redactField key value with
    | none => exact absurd h (not_or.mpr (hpanic.mp hresult))
    | some result => exact ⟨result, redacted_of_returns hresult⟩

/-- The 64th byte is the first of a character that has two. -/
def across : List Char := List.replicate 63 'a' ++ ['é']

theorem not_redacted :
    ¬ ∀ key value : List Char, ∃ result, Redacted key value result := by
  intro h
  obtain ⟨result, hresult⟩ := h "field".toList across
  have hnone : redactField "field".toList across = none := by decide
  rw [hresult.returns] at hnone
  cases hnone

theorem isSome_mapM_iff {α β : Type} {f : α → Option β} {l : List α} :
    (l.mapM f).isSome ↔ ∀ a ∈ l, (f a).isSome := by
  induction l with
  | nil => simp
  | cons a l ih =>
    rw [List.mapM_cons, List.forall_mem_cons, ← ih]
    cases f a <;> cases l.mapM f <;> simp

/-- **An event is printed** exactly if none of its values panics. -/
theorem traceEvent_isSome_iff {ctx : TraceContext} {operation : String}
    {fields : List (List Char × List Char)} :
    (traceEvent ctx operation fields).isSome ↔
      ∀ field ∈ fields, Sensitive field.1 ∨ Cuttable field.2 := by
  have hfield : ∀ field : List Char × List Char,
      ((redactField field.1 field.2).map (field.1, ·)).isSome ↔
        Sensitive field.1 ∨ Cuttable field.2 := by
    intro field
    rw [Option.isSome_map, Option.isSome_iff_ne_none, ne_eq, redactField_eq_none_iff, ← not_or,
      Classical.not_not]
  simp only [← hfield]
  rw [← isSome_mapM_iff, traceEvent]
  cases fields.mapM fun field => (redactField field.1 field.2).map (field.1, ·) <;> simp

end Trace
