import Comebackhere.Library.Exclusive
import Comebackhere.Offchain.InvoicePollers

/-!
# The cursors that a poll saves

A poll loads the stored cursor, reads a page from where it resumes, and saves a cursor at the end of
the page. That one is not behind the cursor that was loaded. Another process may have saved one in
between, though; unless it has, the stored cursor does not move backwards.

## Main definitions

* `IndexerCursor.Behind`: one cursor is behind another
* `KeepsUp`: an action of a poll that has loaded a cursor
* `Unsaved`: no cursor has been saved since a process loaded the stored one

## Main results

* `nextCursor_not_behind`: the cursor after a page is not behind the one before it
* `comes_poll`: a poll saves no cursor behind the one it has loaded
* `loaded_run`: what the processes have loaded, throughout a run
-/

namespace Offchain

open Process Machine

variable {rpc : Rpc} {cfg : Config} {P : Type}

/-! ## Cursors -/

/-- The token that a cursor resumes after, if it does not resume at its ledger. -/
def IndexerCursor.token (cursor : IndexerCursor) : Option String :=
  cursor.pagingToken.filter (· ≠ "")

/-- A cursor is behind another: its last ledger is before the other's, or both resume after an event
and its event is before the other's. -/
def IndexerCursor.Behind (rpc : Rpc) (cursor other : IndexerCursor) : Prop :=
  cursor.lastLedger < other.lastLedger ∨
    ∃ token ∈ cursor.token, ∃ token' ∈ other.token, rpc.after token < rpc.after token'

instance (cursor other : IndexerCursor) : Decidable (cursor.Behind rpc other) :=
  inferInstanceAs (Decidable (_ ∨ _))

theorem IndexerCursor.not_behind_self (cursor : IndexerCursor) : ¬ cursor.Behind rpc cursor := by
  rintro (hledger | ⟨token, htoken, token', htoken', hafter⟩)
  · exact lt_irrefl _ hledger
  · rw [Option.mem_def] at htoken htoken'
    rw [htoken, Option.some.injEq] at htoken'
    exact hafter.ne (congrArg rpc.after htoken')

section Page

variable {floor : ℕ} {resume : Resume} {answer : Answer} {saved : IndexerCursor}

/-- A cursor with a token resumes after it. -/
theorem savedResume_of_mem_token {token : String} (htoken : token ∈ saved.token) :
    savedResume (some saved) = some (.cursor token) := by
  obtain ⟨hsome, hne⟩ := Option.filter_eq_some_iff.mp htoken
  obtain ⟨pagingToken, lastLedger⟩ := saved
  obtain rfl : pagingToken = some token := hsome
  exact Rpc.savedResume_of_token lastLedger (of_decide_eq_true hne)

/-- **The cursor after a page** is not behind the one that the page was read from. -/
theorem nextCursor_not_behind (hreads : rpc.ReadsAt floor resume saved.lastLedger)
    (hresume : ∀ token ∈ saved.token, resume = .cursor token)
    (hanswer : rpc.MayAnswer resume answer) :
    ¬ (nextCursor saved.lastLedger (rpc.page resume answer)).Behind rpc saved := by
  rcases rpc.nextCursor_page saved.lastLedger resume answer with
    ⟨hnil, hnext⟩ | ⟨last, n, -, hget, hnext⟩
  · -- an empty page: the ledger has not gone back, and its token resumes where the page was read
    obtain ⟨htoken, -⟩ := hanswer.2.2 hnil
    rw [hnext]
    rintro (hledger | ⟨token, hmem, token', hmem', hafter⟩)
    · exact (le_max_left _ _).not_gt hledger
    · obtain ⟨hsome, -⟩ := Option.filter_eq_some_iff.mp hmem
      obtain rfl := hresume token' hmem'
      exact hafter.ne (htoken token hsome)
  · -- the last event of the page comes after the place where the page was read
    rw [hnext]
    rintro (hledger | ⟨token, hmem, token', hmem', hafter⟩)
    · have hle := hreads.later last (mem_drop_of_getElem? hget (Nat.le_add_right _ _))
      exact hle.not_gt hledger
    · obtain ⟨hsome, -⟩ := Option.filter_eq_some_iff.mp hmem
      obtain rfl := hresume token' hmem'
      have hposition : rpc.position (.cursor token') = rpc.after token' := rfl
      rw [rpc.after_token _ last token hget hsome, hposition] at hafter
      omega

end Page

/-! ## A poll -/

/-- An action of a poll that has loaded the cursor `saved`: it loads no other one, and saves none
behind it. -/
def KeepsUp (rpc : Rpc) (saved : Option IndexerCursor) {β : Type} (o : Action β) : Prop :=
  match o with
  | .loadMongoCursor => False
  | .saveMongoCursor pagingToken lastLedger =>
    ∀ cursor ∈ saved, ¬ IndexerCursor.Behind rpc ⟨pagingToken, lastLedger⟩ cursor
  | _ => True

section Poll

variable {floor : ℕ} {resume : Resume} {answer : Answer} {saved : Option IndexerCursor}

theorem comes_handleEvent (contractId : String) (event : RpcEvent) :
    (indexer rpc).Comes (KeepsUp rpc saved) (handleEvent contractId event) := by
  unfold handleEvent
  split
  · trivial
  · next eventType =>
    dsimp only
    split
    · rw [recordTransition_eq]
      refine ⟨trivial, fun answer w _ => ?_⟩
      change (indexer rpc).Comes _ (if _ then _ else _)
      split
      · trivial
      · refine .bind ?_ fun _ => ⟨trivial, fun _ _ _ => ⟨trivial, fun _ _ _ => trivial⟩⟩
        unfold applyStatus
        split
        · exact ⟨trivial, fun _ _ _ => trivial⟩
        · trivial
    · exact ⟨trivial, fun _ _ _ => trivial⟩

theorem comes_handleEvents (contractId : String) (events : List RpcEvent) :
    (indexer rpc).Comes (KeepsUp rpc saved) (handleEvents contractId events) := by
  induction events with
  | nil => trivial
  | cons event events ih =>
    unfold handleEvents
    exact .bind (comes_handleEvent contractId event) fun _ => .bind ih fun _ => trivial

/-- The only cursor that is saved is the one after the page. -/
theorem comes_handlePage
    (hreads : rpc.ReadsAt floor resume ((saved.map (·.lastLedger)).getD 0))
    (hresume : ∀ cursor ∈ saved, ∀ token ∈ cursor.token, resume = .cursor token)
    (hanswer : rpc.MayAnswer resume answer) :
    (indexer rpc).Comes (KeepsUp rpc saved)
      (handlePage cfg ((saved.map (·.lastLedger)).getD 0) (rpc.page resume answer)) := by
  unfold handlePage
  refine .bind (comes_handleEvents _ _) fun _ => ⟨?_, fun _ _ _ => trivial⟩
  rintro cursor hcursor
  obtain rfl : saved = some cursor := hcursor
  exact nextCursor_not_behind hreads (hresume cursor rfl) hanswer

theorem comes_getEvents
    (hreads : rpc.ReadsAt floor resume ((saved.map (·.lastLedger)).getD 0))
    (hresume : ∀ cursor ∈ saved, ∀ token ∈ cursor.token, resume = .cursor token)
    {f : RpcError → Poll (Option ℕ)} (hf : f .other = .done none) :
    (indexer rpc).Comes (KeepsUp rpc saved) (Prog.act (.getEvents resume) fun
      | .ok response => some <$> handlePage cfg ((saved.map (·.lastLedger)).getD 0) response
      | .error error => f error) := by
  refine ⟨trivial, fun answer w hanswer => ?_⟩
  have hlegal : rpc.MayAnswer resume answer := hanswer
  cases herror : answer.error with
  | none =>
    have hexec : (indexer rpc).exec (.getEvents resume) answer w =
        (.ok (rpc.page resume answer), w) := by simp [indexer, execute, herror]
    rw [hexec]
    exact .bind (comes_handlePage hreads hresume hlegal) fun _ => trivial
  | some error =>
    -- the server retains every event that is asked for, so the error is another one
    obtain rfl := hlegal.1 error herror
    have hexec : (indexer rpc).exec (.getEvents resume) answer w = (.error .other, w) := by
      simp [indexer, execute, herror]
    rw [hexec]
    dsimp only
    rw [hf]
    trivial

/-- **A poll** loads a cursor, and then saves none behind it. -/
theorem comes_poll (rpc : Rpc) (cfg : Config) : ∃ k, poll cfg = .act .loadMongoCursor k ∧
    ∀ floor saved, rpc.CursorAt cfg floor saved →
      (indexer rpc).Comes (KeepsUp rpc saved) (k saved) := by
  unfold poll
  rw [pollOnce_eq]
  refine ⟨_, rfl, fun floor saved hcursor => .bind ?_ fun _ => trivial⟩
  dsimp only
  cases hresume : resumePoint cfg saved with
  | some resume =>
    rw [resumeFrom_of_some hresume]
    refine comes_getEvents (hcursor.readsAt hresume) ?_ rfl
    rintro cursor hsaved token htoken
    obtain rfl : saved = some cursor := hsaved
    rw [resumePoint, savedResume_of_mem_token htoken, Option.some_or, Option.some.injEq] at hresume
    exact hresume.symm
  | none =>
    rw [resumeFrom_of_none hresume]
    refine ⟨trivial, fun answer w hanswer => ?_⟩
    refine comes_getEvents (hcursor.readsAt_latest hresume hanswer).1 ?_ rfl
    rintro cursor hsaved token htoken
    obtain rfl : saved = some cursor := hsaved
    rw [resumePoint, savedResume_of_mem_token htoken, Option.some_or] at hresume
    cases hresume

end Poll

/-! ## Runs -/

/-- Whether an action loads the stored cursor. -/
def IsLoad {β : Type} (o : Action β) : Prop :=
  match o with
  | .loadMongoCursor => True
  | _ => False

/-- Whether an action saves a cursor. -/
def IsSave {β : Type} (o : Action β) : Prop :=
  match o with
  | .saveMongoCursor _ _ => True
  | _ => False

instance (β : Type) : ∀ o : Action β, Decidable (IsLoad o)
  | .loadMongoCursor => isTrue trivial
  | .findOneAndUpdate _ | .saveMongoCursor _ _ | .getLatestLedger | .getHealth | .getEvents _
  | .updateStatus _ _ | .markApplied _ | .persistTransition _ _
  | .recordRetentionGap _ _ _ => isFalse id

instance (β : Type) : ∀ o : Action β, Decidable (IsSave o)
  | .saveMongoCursor _ _ => isTrue trivial
  | .findOneAndUpdate _ | .loadMongoCursor | .getLatestLedger | .getHealth | .getEvents _
  | .updateStatus _ _ | .markApplied _ | .persistTransition _ _
  | .recordRetentionGap _ _ _ => isFalse id

/-- An input of a run, with the state it is taken in. -/
abbrev Move (P : Type) := State P Action World × Input P Answer

/-- No cursor has been saved since the process loaded the stored one. -/
def Unsaved (p : P) (h : List (Move P)) : Prop :=
  Since (fun _ t => t.2.process = p ∧ t.1.Takes IsLoad t.2) (fun t => t.1.Takes IsSave t.2) h

instance [DecidableEq P] (p : P) (h : List (Move P)) : Decidable (Unsaved p h) :=
  inferInstanceAs (Decidable (Since _ _ h))

/-- A process that is in the middle of a poll has loaded a cursor, and keeps up with it. It is the
stored one, unless another has been saved. -/
def Loaded (rpc : Rpc) (cfg : Config) (h : List (Move P)) (s : State P Action World) (p : P) :
    Prop :=
  System.Outside (poll cfg) (s.prog p) ∨ ∃ saved,
    (indexer rpc).Comes (KeepsUp rpc saved) (s.prog p) ∧
      (Unsaved p h → s.shared.db.cursor = saved)

section Runs

variable {h : List (Move P)} {s : State P Action World} {i : Input P Answer} {p : P}

theorem cursor_execute {β : Type} {o : Action β} (ho : ¬ IsSave o) (answer : Answer) (w : World) :
    (execute rpc o answer w).2.db.cursor = w.db.cursor := by
  cases o with
  | saveMongoCursor pagingToken lastLedger => exact absurd trivial ho
  | _ => rfl

theorem unsaved_snoc : Unsaved p (h ++ [(s, i)]) ↔
    (i.process = p ∧ s.Takes IsLoad i) ∨ Unsaved p h ∧ ¬ s.Takes IsSave i := since_snoc

theorem unsaved_of_not_load (hload : ¬ s.Takes IsLoad i) (hu : Unsaved p (h ++ [(s, i)])) :
    Unsaved p h :=
  ((unsaved_snoc.mp hu).resolve_left fun hloads => hload hloads.2).1

/-- A process that does nothing has loaded what it had, as long as no other one saves a cursor. -/
theorem Loaded.frame {h' : List (Move P)} {s' : State P Action World} (hs : Loaded rpc cfg h s p)
    (hprog : s'.prog p = s.prog p)
    (hsaved : Unsaved p h' → Unsaved p h ∧ s'.shared.db.cursor = s.shared.db.cursor) :
    Loaded rpc cfg h' s' p := by
  rcases hs with hout | ⟨saved, hcomes, hloaded⟩
  · exact Or.inl (hprog ▸ hout)
  · refine Or.inr ⟨saved, hprog ▸ hcomes, fun hu => ?_⟩
    obtain ⟨hu, hcursor⟩ := hsaved hu
    exact hcursor.trans (hloaded hu)

variable [DecidableEq P]

/-- A process that takes an action of its own keeps up with what it has loaded, or begins a poll. -/
theorem Loaded.own {floor : ℕ} {β : Type} {o : Action β} {k : β → Poll Unit} {answer : Answer}
    (hs : Loaded rpc cfg h s p) (hcursor : rpc.CursorAt cfg floor s.shared.db.cursor)
    (hp : s.prog p = .act o k) (hlegal : (indexer rpc).legal o answer s.shared) :
    Loaded rpc cfg (h ++ [(s, .tick p answer)])
      ((indexer rpc).step (poll cfg) s (.tick p answer)) p := by
  rw [System.step_tick_of_act hp]
  rcases hs with (hdone | hmain) | ⟨saved, hcomes, hsaved⟩
  · rw [hp] at hdone
    cases hdone
  · -- the poll begins: the stored cursor is the one it has loaded
    obtain ⟨k', hpoll, hk⟩ := comes_poll rpc cfg
    rw [hpoll, hp] at hmain
    cases hmain
    have hcomes := hk floor _ hcursor
    refine Or.inr ⟨s.shared.db.cursor, ?_, fun _ => rfl⟩
    dsimp only
    rwa [Function.update_self]
  · -- the poll goes on: it loads no other, and unless it saves one the stored one is the same
    rw [hp] at hcomes
    obtain ⟨hkeeps, hnext⟩ := hcomes
    refine Or.inr ⟨saved, ?_, fun hu => ?_⟩
    · dsimp only
      rw [Function.update_self]
      exact hnext answer s.shared hlegal
    · rcases unsaved_snoc.mp hu with ⟨-, hload⟩ | ⟨hu, hsave⟩
      · have hload := (State.takes_iff_of_act hp).mp hload
        cases o <;> first | exact hkeeps.elim | exact hload.elim
      · rw [State.takes_iff_of_act hp] at hsave
        exact (cursor_execute hsave answer s.shared).trans (hsaved hu)

/-- **One input** leaves every process with what it has loaded. -/
theorem loaded_step {floor : ℕ} (hs : ∀ p, Loaded rpc cfg h s p)
    (hcursor : rpc.CursorAt cfg floor s.shared.db.cursor) (hi : (indexer rpc).Permits s i) (p : P) :
    Loaded rpc cfg (h ++ [(s, i)]) ((indexer rpc).step (poll cfg) s i) p := by
  cases i with
  | crash q =>
    by_cases hp : p = q
    · subst hp
      exact Or.inl (Or.inl (Function.update_self _ _ _))
    · exact (hs p).frame (Function.update_of_ne hp _ _) fun hu => ⟨unsaved_of_not_load id hu, rfl⟩
  | tick q answer =>
    cases hq : s.prog q with
    | done a =>
      rw [System.step_tick_of_done hq]
      by_cases hp : p = q
      · subst hp
        exact Or.inl (Or.inr (Function.update_self _ _ _))
      · exact (hs p).frame (Function.update_of_ne hp _ _) fun hu =>
          ⟨unsaved_of_not_load (State.not_takes_of_done hq) hu, rfl⟩
    | act o k =>
      by_cases hp : p = q
      · subst hp
        exact (hs p).own hcursor hq ((System.permits_tick_of_act hq).mp hi)
      · rw [System.step_tick_of_act hq]
        refine (hs p).frame (Function.update_of_ne hp _ _) fun hu => ?_
        -- another process has acted: if the cursor is still unsaved, it was before
        rcases unsaved_snoc.mp hu with ⟨hprocess, -⟩ | ⟨hu, hsave⟩
        · exact absurd hprocess.symm hp
        · rw [State.takes_iff_of_act hq] at hsave
          exact ⟨hu, cursor_execute hsave answer s.shared⟩

/-- **Throughout a run** a process that is in the middle of a poll keeps up with what it has
loaded. -/
theorem loaded_run {start : Start rpc cfg} {is : List (Input P Answer)} (hlegal : start.Legal is)
    (hcursor : ∀ pre, pre <+: is →
      rpc.CursorAt cfg start.floor (start.after pre).shared.db.cursor) (p : P) :
    Loaded rpc cfg (transitions ((indexer rpc).step (poll cfg)) (start.state P) is)
      (start.after is) p := by
  induction is using List.reverseRecOn generalizing p with
  | nil => exact Or.inl (Or.inl rfl)
  | append_singleton is i ih =>
    obtain ⟨hlegal, hi⟩ := each_snoc.mp hlegal
    have hprefix := List.prefix_append is [i]
    have hs := ih hlegal fun pre hpre => hcursor pre (hpre.trans hprefix)
    rw [transitions_snoc, Start.after, run_snoc]
    exact loaded_step hs (hcursor is hprefix) hi p

end Runs

end Offchain
