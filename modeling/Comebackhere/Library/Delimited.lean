import Mathlib.Data.List.Basic

/-!
# Delimited parts

Parts of a text are joined with a delimiter between them. The parts can be told from the joined text
as long as no part contains the delimiter: the number of delimiters is then the number of parts. Any
delimiter within a part could as well be one between two parts.

## Main definitions

* `join d parts`: the parts with a delimiter between them
* `Readable d parts`: no other parts, as many of them, are joined to the same text

## Main results

* `count_join`: how many delimiters there are
* `readable_iff`: two or more parts are told from the joined text if none contains the delimiter
-/

namespace Delimited

variable {α : Type*} {d : α} {part : List α} {parts parts' : List (List α)}

/-- The parts with a delimiter between them. -/
def join (d : α) (parts : List (List α)) : List α := [d].intercalate parts

theorem join_cons (hparts : parts ≠ []) : join d (part :: parts) = part ++ d :: join d parts := by
  rw [join, List.intercalate_cons_of_ne_nil hparts, List.append_assoc]
  rfl

@[simp] theorem join_singleton : join d [part] = part := List.intercalate_singleton

@[simp] theorem join_cons_cons {part' : List α} :
    join d (part :: part' :: parts) = part ++ d :: join d (part' :: parts) :=
  join_cons (List.cons_ne_nil _ _)

theorem join_cons_left {a : α} : join d ((a :: part) :: parts) = a :: join d (part :: parts) :=
  List.intercalate_cons_cons_left

/-- What the first part begins with, the text begins with. -/
theorem join_append {part' : List α} :
    join d ((part ++ part') :: parts) = part ++ join d (part' :: parts) := by
  cases parts <;> simp

/-- No other parts, as many of them, are joined to the same text. -/
def Readable (d : α) (parts : List (List α)) : Prop :=
  ∀ parts' : List (List α), parts'.length = parts.length → join d parts' = join d parts →
    parts' = parts

/-! ## Parts without delimiters -/

/-- There is one delimiter less than there are parts, besides those within the parts. -/
theorem count_join [DecidableEq α] (hparts : parts ≠ []) :
    (join d parts).count d + 1 = parts.flatten.count d + parts.length := by
  induction parts with
  | nil => exact absurd rfl hparts
  | cons part parts ih =>
    cases parts with
    | nil => rw [join_singleton, List.flatten_singleton, List.length_singleton]
    | cons part' parts =>
      have ih := ih (List.cons_ne_nil _ _)
      rw [join_cons_cons, List.count_append, List.count_cons_self, List.flatten_cons,
        List.count_append, List.length_cons]
      omega

theorem count_flatten_eq_zero_iff [DecidableEq α] :
    parts.flatten.count d = 0 ↔ ∀ part ∈ parts, d ∉ part := by
  rw [List.count_eq_zero, List.mem_flatten]
  exact ⟨fun h part hpart hd => h ⟨part, hpart, hd⟩, fun h ⟨part, hpart, hd⟩ => h part hpart hd⟩

/-- Parts without the delimiter are the text split at it. -/
theorem eq_of_join_eq (hlen : parts'.length = parts.length) (hjoin : join d parts' = join d parts)
    (hparts : ∀ part ∈ parts, d ∉ part) : parts' = parts := by
  classical
  rcases eq_or_ne parts [] with rfl | hne
  · exact List.length_eq_zero_iff.mp hlen
  have hne' : parts' ≠ [] := List.ne_nil_of_length_pos (hlen ▸ List.length_pos_of_ne_nil hne)
  -- As many delimiters are within the parts on both sides, and on one side there are none.
  have hparts' : ∀ part ∈ parts', d ∉ part := by
    have hnone := count_flatten_eq_zero_iff.mpr hparts
    have hcount := count_join (d := d) hne
    have hcount' := count_join (d := d) hne'
    rw [hjoin] at hcount'
    exact count_flatten_eq_zero_iff.mp (by omega)
  rw [← List.splitOn_intercalate d hparts' hne', ← List.splitOn_intercalate d hparts hne]
  exact congrArg (List.splitOn d) hjoin

/-! ## Delimiters within parts -/

/-- A delimiter within a part can be moved between two parts, for the one that was there. -/
theorem exists_ne_of_mem (htwo : 2 ≤ parts.length) (hpart : part ∈ parts) (hd : d ∈ part) :
    ∃ parts' : List (List α), parts'.length = parts.length ∧ join d parts' = join d parts ∧
      parts' ≠ parts := by
  induction parts with
  | nil => cases hpart
  | cons x parts ih =>
    cases parts with
    | nil => exact absurd htwo (Nat.not_le.mpr Nat.one_lt_two)
    | cons y parts =>
      rcases List.mem_cons.mp hpart with rfl | hpart
      -- a delimiter in the first part is taken for the one behind it
      · obtain ⟨a, b, rfl⟩ := List.append_of_mem hd
        refine ⟨a :: (b ++ d :: y) :: parts, rfl, ?_, fun h => ?_⟩
        · rw [join_cons_cons, join_append, join_cons_left, join_append, join_cons_left,
            join_cons_cons]
        · have hlen := congrArg List.length (List.cons.inj h).1
          rw [List.length_append, List.length_cons] at hlen
          omega
      · cases parts with
        -- in the last of two parts, for the one before it
        | nil =>
          obtain rfl := List.mem_singleton.mp hpart
          obtain ⟨a, b, rfl⟩ := List.append_of_mem hd
          refine ⟨[x ++ d :: a, b], rfl, ?_, fun h => ?_⟩
          · simp
          · have hlen := congrArg List.length (List.cons.inj h).1
            rw [List.length_append, List.length_cons] at hlen
            omega
        | cons z parts =>
          obtain ⟨parts', hlen, hjoin, hne⟩ := ih (Nat.le_add_left ..) hpart
          have hne' : parts' ≠ [] := List.ne_nil_of_length_pos (hlen ▸ Nat.succ_pos _)
          refine ⟨x :: parts', congrArg (· + 1) hlen, ?_, fun h => hne (List.cons.inj h).2⟩
          rw [join_cons hne', join_cons_cons, hjoin]

/-- **Two or more parts are told from the joined text** exactly if none contains the delimiter. -/
theorem readable_iff (htwo : 2 ≤ parts.length) : Readable d parts ↔ ∀ part ∈ parts, d ∉ part := by
  constructor
  · intro h part hpart hd
    obtain ⟨parts', hlen, hjoin, hne⟩ := exists_ne_of_mem htwo hpart hd
    exact hne (h parts' hlen hjoin)
  · intro h parts' hlen hjoin
    exact eq_of_join_eq hlen hjoin h

end Delimited
