import Comebackhere.Offchain.ScVal
import Mathlib.Data.List.Nodup

/-!
# The events of a contract, by pages

The RPC server returns the events of a contract after a paging token, or from a ledger. The tokens
are distinct, and the events come in the order of their ledgers.

## Main definitions

* `requested`: the events that a request is for, before the page is cut
* `Sequenced`: the events of a contract as the server has them

## Main results

* `requested_token`: after the token of an event come the events after it
* `suffix_filter`: the events from a ledger on are the end of the history
-/

namespace Offchain

/-- The events after a paging token, else from a ledger, else all. -/
def requested (history : List RpcEvent) (startLedger : Option ℕ) (cursor : Option String) :
    List RpcEvent :=
  match cursor with
  | some token => (history.dropWhile (·.pagingToken ≠ some token)).tail
  | none =>
    match startLedger with
    | some ledger => history.filter (ledger ≤ ·.ledger)
    | none => history

/-- The events have distinct tokens and come in the order of their ledgers. -/
structure Sequenced (history : List RpcEvent) : Prop where
  tokens : ∀ event ∈ history, ∃ token, event.pagingToken = some token ∧ token ≠ ""
  distinct : (history.map (·.pagingToken)).Nodup
  ordered : history.Pairwise (·.ledger ≤ ·.ledger)

/-- The events after a token are those after the event with the token. -/
theorem requested_token {history pre post : List RpcEvent} {e : RpcEvent} {token : String}
    (hdistinct : (history.map (·.pagingToken)).Nodup) (he : history = pre ++ e :: post)
    (htoken : e.pagingToken = some token) (startLedger : Option ℕ) :
    requested history startLedger (some token) = post := by
  rw [he, List.map_append, List.map_cons] at hdistinct
  obtain ⟨-, -, hdisjoint⟩ := List.nodup_append.mp hdistinct
  have hdrop : history.dropWhile (·.pagingToken ≠ some token) = e :: post := by
    rw [he, List.dropWhile_append_of_pos, List.dropWhile_cons_of_neg (by simp [htoken])]
    intro e' he'
    have hne := hdisjoint _ (List.mem_map_of_mem he') _ (List.mem_cons_self ..)
    simpa [htoken] using hne
  unfold requested
  dsimp only
  rw [hdrop, List.tail_cons]

/-- The events from a ledger on are the end of a history in the order of the ledgers. -/
theorem suffix_filter {events : List RpcEvent} (hordered : events.Pairwise (·.ledger ≤ ·.ledger))
    (ledger : ℕ) : events.filter (ledger ≤ ·.ledger) <:+ events := by
  induction events with
  | nil => exact List.suffix_refl _
  | cons e events ih =>
    obtain ⟨hfirst, hordered⟩ := List.pairwise_cons.mp hordered
    by_cases he : ledger ≤ e.ledger
    · have hall : (e :: events).filter (ledger ≤ ·.ledger) = e :: events :=
        List.filter_eq_self.mpr fun e' he' => by
          rcases List.mem_cons.mp he' with rfl | he'
          · simpa using he
          · simpa using he.trans (hfirst e' he')
      rw [hall]
    · rw [List.filter_cons_of_neg (by simpa using he)]
      exact (ih hordered).trans (List.suffix_cons e events)

/-- The events up to a ledger are the beginning of it. -/
theorem prefix_filter {events : List RpcEvent} (hordered : events.Pairwise (·.ledger ≤ ·.ledger))
    (ledger : ℕ) : events.filter (·.ledger ≤ ledger) <+: events := by
  induction events with
  | nil => exact List.prefix_refl _
  | cons e events ih =>
    obtain ⟨hfirst, hordered⟩ := List.pairwise_cons.mp hordered
    by_cases he : e.ledger ≤ ledger
    · rw [List.filter_cons_of_pos (by simpa using he)]
      exact List.cons_prefix_cons.mpr ⟨rfl, ih hordered⟩
    · have hnone : (e :: events).filter (·.ledger ≤ ledger) = [] :=
        List.filter_eq_nil_iff.mpr fun e' he' => by
          rcases List.mem_cons.mp he' with rfl | he'
          · simpa using he
          · simpa using (not_le.mp he).trans_le (hfirst e' he')
      rw [hnone]
      exact List.nil_prefix

end Offchain
