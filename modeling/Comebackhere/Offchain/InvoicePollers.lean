import Comebackhere.Library.Interference
import Comebackhere.Offchain.InvoiceCalls

/-!
# Processes that poll the same database

Any number of processes poll the server and write to one database. While no two of them are at
work on one event, whatever else their order is, the database is that of its frontier and the hook
is called at most once for an event; unless a process crashes just before a call, it is called for
every event that is applied. A process that polls alone may crash anywhere.

## Main definitions

* `Mode`, `pollers`: the indexer with the actions and the crashes of its processes restricted
* `pollRules`: what the processes rely on and guarantee

## Main results

* `pollRules_sound`: a poll, and a crash where it is allowed, keep the database and the calls
* `pollers_run`, `consumed_run`: what holds throughout a run, and once all events are consumed
-/

namespace Offchain

open Process Machine
open Invoicing (InvoiceStatus)

variable {rpc : Rpc} {cfg : Config} {P : Type}

/-! ## Restricted processes -/

/-- The actions a process may take, and those before which it may crash. -/
structure Mode where
  mayAct : {β : Type} → Action β → World → Prop
  mayCrash : {β : Type} → Action β → Prop

/-- The indexer in a mode. -/
def pollers (rpc : Rpc) (mode : Mode) : System Action Answer World where
  exec o answer w := execute rpc o answer w
  legal o answer w := mayAnswer rpc o answer ∧ mode.mayAct o w
  crashes := mode.mayCrash

theorem pollers_exec {β : Type} (mode : Mode) (o : Action β) (answer : Answer) (w : World) :
    (pollers rpc mode).exec o answer w = execute rpc o answer w := rfl

namespace Mode

variable (mode : Mode)

/-- An input of the mode. -/
def Allows (s : State P Action World) : Input P Answer → Prop
  | .tick p _ => s.Next p fun o => mode.mayAct o s.shared
  | .crash p => s.Next p mode.mayCrash

/-- No process crashes before it calls the hook. -/
def Sure : Prop := ∀ eventId transition, ¬ mode.mayCrash (.persistTransition eventId transition)

/-- A process is alone, or takes up no event that is stored and not applied. -/
def Apart (P : Type) : Prop :=
  Subsingleton P ∨ ∀ record w, mode.mayAct (.findOneAndUpdate record) w →
    ∀ before ∈ w.db.invoiceEvents.find record.eventId, before.applied = true

end Mode

/-- A mode permits the inputs that the indexer permits and that are of the mode. -/
theorem permits_pollers {mode : Mode} {s : State P Action World} {i : Input P Answer}
    (hpermits : (indexer rpc).Permits s i) (hallows : mode.Allows s i) :
    (pollers rpc mode).Permits s i := by
  cases i with
  | tick p answer => exact State.Next.and hpermits hallows
  | crash p => exact hallows

/-! ## Rely and guarantee -/

/-- The database and the calls are those of the frontier. -/
structure Consistent (start : Start rpc cfg) (sure : Prop) (x : World × Frontier P) : Prop where
  synced : Synced start x.1.db x.2
  delivered : Delivered start sure x.1 x.2

/-- From one moment to a later one the frontier does not move back, no call is undone, and no event
behind the frontier is announced anew. -/
structure Later (rpc : Rpc) (cfg : Config) (x y : World × Frontier P) : Prop where
  count_le : x.2.count ≤ y.2.count
  calls : x.1.calls <+: y.1.calls
  announced : ∀ j record, j < x.2.count → (rpc.log cfg)[j]? = some record →
    Announced y.1 y.2 record.eventId → Announced x.1 x.2 record.eventId

/-- The database and the calls stay those of the frontier. -/
def Advances (start : Start rpc cfg) (sure : Prop) (x y : World × Frontier P) : Prop :=
  Consistent start sure x → Consistent start sure y ∧ Later rpc cfg x y

/-- Others leave a process the event it is at work on, and its pending call. -/
structure Untouched (p : P) (x y : World × Frontier P) : Prop where
  owned : x.2.owner = some p →
    y.2.owner = some p ∧ y.2.count = x.2.count ∧ y.2.phase = x.2.phase
  unowned : x.2.owner ≠ some p → y.2.owner ≠ some p
  pending : y.2.pending p = x.2.pending p
  alone : Subsingleton P → y = x

namespace Later

variable {x y z : World × Frontier P}

/-- Nothing is called or announced. -/
theorem of_eq (hcount : y.2.count = x.2.count) (hcalls : y.1.calls = x.1.calls)
    (hpending : y.2.pending = x.2.pending) : Later rpc cfg x y where
  count_le := hcount.ge
  calls := by rw [hcalls]
  announced _ _ _ _ h := by
    unfold Announced World.called at h ⊢
    rwa [hcalls, hpending] at h

theorem trans (hxy : Later rpc cfg x y) (hyz : Later rpc cfg y z) : Later rpc cfg x z where
  count_le := hxy.count_le.trans hyz.count_le
  calls := hxy.calls.trans hyz.calls
  announced j record hj hrecord h :=
    hxy.announced j record hj hrecord
      (hyz.announced j record (hj.trans_le hxy.count_le) hrecord h)

end Later

namespace Advances

variable {start : Start rpc cfg} {sure : Prop} {x y z : World × Frontier P}

theorem refl : Advances start sure x x := fun h => ⟨h, .of_eq rfl rfl rfl⟩

theorem trans (hxy : Advances start sure x y) (hyz : Advances start sure y z) :
    Advances start sure x z := by
  intro hx
  obtain ⟨hy, hlater⟩ := hxy hx
  obtain ⟨hz, hlater'⟩ := hyz hy
  exact ⟨hz, hlater.trans hlater'⟩

end Advances

namespace Untouched

variable {p : P} {x y z : World × Frontier P}

theorem refl : Untouched p x x where
  owned h := ⟨h, rfl, rfl⟩
  unowned h := h
  pending := rfl
  alone _ := rfl

theorem trans (hxy : Untouched p x y) (hyz : Untouched p y z) : Untouched p x z where
  owned h := by
    obtain ⟨howner, hcount, hphase⟩ := hxy.owned h
    obtain ⟨howner', hcount', hphase'⟩ := hyz.owned howner
    exact ⟨howner', hcount'.trans hcount, hphase'.trans hphase⟩
  unowned h := hyz.unowned (hxy.unowned h)
  pending := hyz.pending.trans hxy.pending
  alone h := (hyz.alone h).trans (hxy.alone h)

/-- An action of another process that leaves the event at the frontier alone, or takes it from no
one or its own to no one or its own. -/
theorem of_ne {q : P} (hqp : q ≠ p)
    (hframe : (y.2.owner = x.2.owner ∧ y.2.count = x.2.count ∧ y.2.phase = x.2.phase) ∨
      (x.2.owner ≠ some q ∧ y.2.owner ≠ some q))
    (hpending : y.2.pending q = x.2.pending q) : Untouched q x y where
  owned h := by
    rcases hframe with ⟨howner, hcount, hphase⟩ | ⟨hne, -⟩
    · exact ⟨howner.trans h, hcount, hphase⟩
    · exact absurd h hne
  unowned h := by
    rcases hframe with ⟨howner, -⟩ | ⟨-, hne⟩
    · exact howner ▸ h
    · exact hne
  pending := hpending
  alone h := absurd (h.elim q p) hqp

end Untouched

/-- **The rules of the pollers**. A process that is not at work on an event has nothing pending
but the call it is about to make. -/
def pollRules (start : Start rpc cfg) (sure : Prop) : Rules P Action World (Frontier P) where
  rely p x y := Advances start sure x y ∧ Untouched p x y
  guar p x y := Advances start sure x y ∧ ∀ q ≠ p, Untouched q x y
  pre p _ o x := Consistent start sure x ∧
    match o with
    | .persistTransition eventId transition =>
      (∃ id, eventId = some id ∧ x.2.pending p = some id) ∧
        (Subsingleton P → Durable x.1.db eventId transition)
    | _ => x.2.pending p = none
  idle p x := Consistent start sure x ∧ x.2.owner ≠ some p ∧ x.2.pending p = none
  rely_refl _ _ := ⟨Advances.refl, Untouched.refl⟩
  rely_trans _ _ _ _ hxy hyz := ⟨hxy.1.trans hyz.1, hxy.2.trans hyz.2⟩
  rely_of_guar _ _ _ _ h hne := ⟨h.1, h.2 _ hne⟩

/-! ## Assertions -/

/-- Between two events: the tracked events before `n` are applied. -/
structure Ready (start : Start rpc cfg) (sure : Prop) (p : P) (n : ℕ)
    (x : World × Frontier P) : Prop where
  consistent : Consistent start sure x
  unowned : x.2.owner ≠ some p
  pending : x.2.pending p = none
  le : n ≤ x.2.count

/-- At work on the event at the frontier, the tracked event `n`, in a phase of the kind `A`. -/
structure Holding (start : Start rpc cfg) (sure : Prop) (p : P) (n : ℕ) (A : Phase → Prop)
    (x : World × Frontier P) : Prop where
  consistent : Consistent start sure x
  owned : x.2.owner = some p
  pending : x.2.pending p = none
  count : x.2.count = n
  phase : A x.2.phase

/-- About to call the hook for the tracked event `n`. -/
structure Calling (start : Start rpc cfg) (sure : Prop) (p : P) (n : ℕ)
    (record : InvoiceEventRecord) (x : World × Frontier P) : Prop where
  consistent : Consistent start sure x
  unowned : x.2.owner ≠ some p
  pending : x.2.pending p = some record.eventId
  lt : n < x.2.count
  durable : Subsingleton P → Durable x.1.db (some record.eventId) record.transition

section Stability

variable {start : Start rpc cfg} {sure : Prop} {p : P} {n : ℕ} {x y : World × Frontier P}

theorem Ready.stable (h : Ready start sure p n x) (hxy : (pollRules start sure).rely p x y) :
    Ready start sure p n y := by
  obtain ⟨hconsistent, hlater⟩ := hxy.1 h.consistent
  exact ⟨hconsistent, hxy.2.unowned h.unowned, hxy.2.pending.trans h.pending,
    h.le.trans hlater.count_le⟩

theorem Holding.stable {A : Phase → Prop} (h : Holding start sure p n A x)
    (hxy : (pollRules start sure).rely p x y) : Holding start sure p n A y := by
  obtain ⟨hconsistent, -⟩ := hxy.1 h.consistent
  obtain ⟨howner, hcount, hphase⟩ := hxy.2.owned h.owned
  exact ⟨hconsistent, howner, hxy.2.pending.trans h.pending, hcount.trans h.count,
    hphase ▸ h.phase⟩

theorem Calling.stable {record : InvoiceEventRecord} (h : Calling start sure p n record x)
    (hxy : (pollRules start sure).rely p x y) : Calling start sure p n record y := by
  obtain ⟨hconsistent, hlater⟩ := hxy.1 h.consistent
  refine ⟨hconsistent, hxy.2.unowned h.unowned, hxy.2.pending.trans h.pending,
    h.lt.trans_le hlater.count_le, fun halone => ?_⟩
  rw [hxy.2.alone halone]
  exact h.durable halone

theorem idle_of_ready (h : Ready start sure p n x) : (pollRules start sure).idle p x :=
  ⟨h.consistent, h.unowned, h.pending⟩

theorem idle_stable (h : (pollRules start sure).idle p x)
    (hxy : (pollRules start sure).rely p x y) : (pollRules start sure).idle p y := by
  have hready : Ready start sure p 0 x := ⟨h.1, h.2.1, h.2.2, Nat.zero_le _⟩
  exact idle_of_ready (hready.stable hxy)

end Stability

/-! ## One event -/

section Event

variable [DecidableEq P] {start : Start rpc cfg} {mode : Mode} {p : P} {n : ℕ}
  {x : World × Frontier P} {record : InvoiceEventRecord}

/-- The call of the hook. -/
theorem keeps_persistTransition (hrecord : (rpc.log cfg)[n]? = some record)
    (h : Calling start mode.Sure p n record x) :
    (Prog.act (.persistTransition (some record.eventId) record.transition)
      fun _ => .done true).Keeps (pollers rpc mode) (pollRules start mode.Sure) p
        (fun _ => Ready start mode.Sure p (n + 1)) x := by
  intro y hy
  obtain ⟨⟨hsynced, hdelivered⟩, hunowned, hpending, hlt, hdurable⟩ := h.stable hy
  refine ⟨⟨⟨hsynced, hdelivered⟩, ⟨_, rfl, hpending⟩, hdurable⟩, fun i _ => ?_⟩
  have hdelivered' := hdelivered.call hrecord hpending
  have hsynced' := hsynced.reown y.2.owner (Function.update y.2.pending p none) hsynced.unowned
  refine ⟨{ y.2 with pending := Function.update y.2.pending p none },
    ⟨fun _ => ⟨⟨hsynced', hdelivered'⟩, le_rfl, List.prefix_append _ _, ?_⟩, fun q hq => ?_⟩, ?_⟩
  · -- the call was announced before it was made
    rintro j record' - - (hmem | ⟨q, hq⟩)
    · rw [World.called, pollers_exec] at hmem
      simp only [execute, List.map_append, List.map_singleton, List.mem_append,
        List.mem_singleton] at hmem
      rcases hmem with hmem | heq
      · exact Or.inl hmem
      · exact Or.inr ⟨p, hpending.trans heq.symm⟩
    · rcases update_eq_some hq with ⟨-, heq⟩ | ⟨-, hq⟩
      · cases heq
      · exact Or.inr ⟨q, hq⟩
  · -- the others have their own pending calls
    exact .of_ne hq (Or.inl ⟨rfl, rfl, rfl⟩) (Function.update_of_ne hq _ _)
  · refine Prog.keeps_done ?_ fun z hz hready => hready.stable hz
    exact ⟨⟨hsynced', hdelivered'⟩, hunowned, Function.update_self _ _ _, hlt⟩

/-- The event is marked, and the hook is called. -/
theorem keeps_markApplied (hrecord : (rpc.log cfg)[n]? = some record)
    (h : Holding start mode.Sure p n (fun phase => phase ≠ .fresh ∧
      (phase = .written ∨ statusByEvent record.transition.eventType = none)) x) :
    (Prog.act (.markApplied record.eventId) fun _ =>
      .act (.persistTransition (some record.eventId) record.transition)
        fun _ => .done true).Keeps (pollers rpc mode) (pollRules start mode.Sure) p
          (fun _ => Ready start mode.Sure p (n + 1)) x := by
  intro y hy
  obtain ⟨⟨hsynced, hdelivered⟩, howned, hpending, hcount, hphase, hwritten⟩ := h.stable hy
  refine ⟨⟨⟨hsynced, hdelivered⟩, hpending⟩, fun i _ => ?_⟩
  subst hcount
  have hsynced' := hsynced.setApplied hphase hrecord hwritten
    (Function.update y.2.pending p (some record.eventId))
  have hdelivered' := hdelivered.apply hsynced.base_le hrecord hpending
    { y.1.db with invoiceEvents := setApplied y.1.db.invoiceEvents record.eventId } rfl
  refine ⟨_, ⟨fun _ => ⟨⟨hsynced', hdelivered'⟩, Nat.le_succ _, List.prefix_rfl, ?_⟩,
    fun q hq => ?_⟩, ?_⟩
  · -- only the event that was at the frontier is announced
    rintro j record' hj hrecord' (hmem | ⟨q, hq⟩)
    · exact Or.inl hmem
    · rcases update_eq_some hq with ⟨-, heq⟩ | ⟨-, hq⟩
      · exact absurd (Rpc.log_index_unique hrecord' hrecord (Option.some.inj heq).symm) hj.ne
      · exact Or.inr ⟨q, hq⟩
  · -- the event was this process's, and the next one is no one's
    refine .of_ne hq (Or.inr ⟨?_, by simp⟩) (Function.update_of_ne hq _ _)
    rw [howned]
    exact fun heq => hq (Option.some.inj heq).symm
  · exact keeps_persistTransition hrecord ⟨⟨hsynced', hdelivered'⟩, by simp,
      Function.update_self _ _ _, Nat.lt_succ_self _,
      fun _ => hsynced'.durable hsynced.base_le rfl rfl hrecord⟩

/-- The status of the event is written, if it has one; then it is marked and the hook called. -/
theorem keeps_apply (hrecord : (rpc.log cfg)[n]? = some record)
    (h : Holding start mode.Sure p n (· ≠ .fresh) x) :
    (applyStatus record.transition >>= fun _ => Prog.act (.markApplied record.eventId) fun _ =>
      .act (.persistTransition (some record.eventId) record.transition)
        fun _ => .done true).Keeps (pollers rpc mode) (pollRules start mode.Sure) p
          (fun _ => Ready start mode.Sure p (n + 1)) x := by
  unfold applyStatus
  cases hstatus : statusByEvent record.transition.eventType with
  | none =>
    -- an allowance changes no status
    exact keeps_markApplied hrecord
      ⟨h.consistent, h.owned, h.pending, h.count, h.phase, Or.inr hstatus⟩
  | some status =>
    intro y hy
    obtain ⟨⟨hsynced, hdelivered⟩, howned, hpending, rfl, hphase⟩ := h.stable hy
    refine ⟨⟨⟨hsynced, hdelivered⟩, hpending⟩, fun i _ => ?_⟩
    have hsynced' := hsynced.setStatus hphase hrecord hstatus
    have hdelivered' := hdelivered.frame { y.1.db with
      invoices := setStatus y.1.db.invoices record.transition.invoiceId status } rfl .written
        y.2.owner
    refine ⟨_, ⟨fun _ => ⟨⟨hsynced', hdelivered'⟩, .of_eq rfl rfl rfl⟩, fun q hq => ?_⟩, ?_⟩
    · have hne : y.2.owner ≠ some q := howned ▸ fun heq => hq (Option.some.inj heq).symm
      exact .of_ne hq (Or.inr ⟨hne, hne⟩) rfl
    · exact keeps_markApplied hrecord
        ⟨⟨hsynced', hdelivered'⟩, howned, hpending, rfl, by simp, Or.inl rfl⟩

theorem recordTransition_eq (eventId : String) (pagingToken : Option String)
    (transition : InvoiceStateTransition) :
    recordTransition eventId pagingToken transition =
      .act (.findOneAndUpdate ⟨eventId, pagingToken, transition, false⟩) fun
        | .error .duplicateKey => .done false
        | .ok before => if before.any (·.applied) then .done false else
          applyStatus transition >>= fun _ => .act (.markApplied eventId) fun _ =>
            .act (.persistTransition (some eventId) transition) fun _ => .done true := rfl

/-- **One event**. It is found applied, or the process takes it up: it stores it, or finds it
stored by a process that crashed. -/
theorem keeps_recordTransition (hapart : mode.Apart P) (hfirst : start.first ≤ n)
    (hrecord : (rpc.log cfg)[n]? = some record) (h : Ready start mode.Sure p n x) :
    (recordTransition record.eventId record.pagingToken record.transition).Keeps
      (pollers rpc mode) (pollRules start mode.Sure) p
        (fun _ => Ready start mode.Sure p (n + 1)) x := by
  have hnew : (⟨record.eventId, record.pagingToken, record.transition, false⟩ :
      InvoiceEventRecord) = record := by
    have happlied := applied_of_mem_tracked (List.mem_of_getElem? hrecord)
    rw [← happlied]
  rw [recordTransition_eq, hnew]
  intro y hy
  obtain ⟨⟨hsynced, hdelivered⟩, hunowned, hpending, hle⟩ := h.stable hy
  refine ⟨⟨⟨hsynced, hdelivered⟩, hpending⟩, fun i hi => ?_⟩
  rw [pollers_exec]
  have hfind := hsynced.events n record hfirst hrecord
  rcases hle.lt_or_eq with hlt | rfl
  · -- behind the frontier: nothing is written
    obtain ⟨stored, hstored, happlied⟩ := hsynced.find_of_lt hfirst hlt hrecord
    have hexec : execute rpc (.findOneAndUpdate record) i y.1 = (.ok (some stored), y.1) := by
      simp [execute, hstored, Collection.insertIfAbsent]
    rw [hexec]
    refine ⟨y.2, ⟨Advances.refl, fun q _ => Untouched.refl⟩, ?_⟩
    dsimp only
    rw [Option.any_some, if_pos happlied]
    exact Prog.keeps_done ⟨⟨hsynced, hdelivered⟩, hunowned, hpending, hlt⟩
      fun z hz hready => hready.stable hz
  · rw [Frontier.mark_count] at hfind
    by_cases hphase : y.2.phase = .fresh
    · -- at the frontier and not stored
      rw [if_pos hphase, Option.map_eq_none_iff] at hfind
      have howner := hsynced.unowned hphase
      have hsynced' := hsynced.insert hphase hrecord p
      have hdelivered' := hdelivered.frame { y.1.db with
        invoiceEvents := y.1.db.invoiceEvents.insertIfAbsent record } rfl .stored (some p)
      have hexec : execute rpc (.findOneAndUpdate record) i y.1 =
          (.ok none, { y.1 with db.invoiceEvents := y.1.db.invoiceEvents.insertIfAbsent record }) :=
        by simp [execute, hfind]
      rw [hexec]
      refine ⟨_, ⟨fun _ => ⟨⟨hsynced', hdelivered'⟩, .of_eq rfl rfl rfl⟩, fun q hq => ?_⟩, ?_⟩
      · refine .of_ne hq (Or.inr ⟨by simp [howner], ?_⟩) rfl
        exact fun heq => hq (Option.some.inj heq).symm
      · exact keeps_apply hrecord
          ⟨⟨hsynced', hdelivered'⟩, rfl, hpending, rfl, by simp⟩
    · -- at the frontier and stored by a process that crashed: no other is at work on it
      rw [if_neg hphase] at hfind
      obtain ⟨stored, hstored, happlied⟩ := Option.map_eq_some_iff.mp hfind
      have howner : y.2.owner = none := by
        rcases hapart with halone | hapart
        · refine Option.eq_none_iff_forall_ne_some.mpr fun q hq => hunowned ?_
          rw [hq, halone.elim q p]
        · -- a process that is not alone takes up no such event
          have htrue := hapart record y.1 hi.2 stored hstored
          rw [happlied] at htrue
          cases htrue
      have hsynced' := hsynced.reown (some p) y.2.pending
        fun hfresh => absurd hfresh hphase
      have hdelivered' := hdelivered.frame y.1.db rfl y.2.phase (some p)
      have hexec : execute rpc (.findOneAndUpdate record) i y.1 = (.ok (some stored), y.1) := by
        simp [execute, hstored, Collection.insertIfAbsent]
      rw [hexec]
      refine ⟨_, ⟨fun _ => ⟨⟨hsynced', hdelivered'⟩, .of_eq rfl rfl rfl⟩, fun q hq => ?_⟩, ?_⟩
      · refine .of_ne hq (Or.inr ⟨by simp [howner], ?_⟩) rfl
        exact fun heq => hq (Option.some.inj heq).symm
      · dsimp only
        rw [Option.any_some, if_neg (by simp [happlied])]
        exact keeps_apply hrecord
          ⟨⟨hsynced', hdelivered'⟩, rfl, hpending, rfl, hphase⟩

end Event

/-! ## A poll -/

section Poll

variable [DecidableEq P] {start : Start rpc cfg} {mode : Mode} {p : P} {x : World × Frontier P}

/-- **The events of a page**: those tracked among them are applied. -/
theorem keeps_handleEvents (hapart : mode.Apart P) {events : List RpcEvent} {q : ℕ}
    (hevents : events <+: rpc.events.drop q) (hfirst : start.first ≤ rpc.rank cfg q)
    (h : Ready start mode.Sure p (rpc.rank cfg q) x) :
    (handleEvents cfg.contractId events).Keeps (pollers rpc mode) (pollRules start mode.Sure) p
      (fun _ => Ready start mode.Sure p (rpc.rank cfg (q + events.length))) x := by
  -- the position `q` goes along the log with the events that are left of the page
  induction events generalizing q x with
  | nil => exact Prog.keeps_done h fun y hy hready => hready.stable hy
  | cons event events ih =>
    obtain ⟨rest, hrest⟩ := hevents
    have hq : rpc.events[q]? = some event := by
      rw [← Nat.add_zero q, ← List.getElem?_drop, ← hrest]
      rfl
    have hevents : events <+: rpc.events.drop (q + 1) := by
      rw [← List.drop_drop, ← hrest]
      exact List.prefix_append _ _
    have hevent : (handleEvent cfg.contractId event).Keeps (pollers rpc mode)
        (pollRules start mode.Sure) p
          (fun _ => Ready start mode.Sure p (rpc.rank cfg (q + 1))) x := by
      cases hrecord : recordOf cfg.contractId event with
      | none =>
        rw [handleEvent_of_untracked (rpc.ids event (List.mem_of_getElem? hq)) hrecord,
          Rpc.rank_succ_of_untracked hq hrecord]
        exact Prog.keeps_done h fun y hy hready => hready.stable hy
      | some record =>
        rw [handleEvent_of_recordOf hrecord, Rpc.rank_succ hq hrecord]
        exact keeps_recordTransition hapart hfirst (Rpc.log_getElem_rank hq hrecord) h
    unfold handleEvents
    refine Prog.keeps_bind (Prog.keeps_mono hevent fun _ y hy => Prog.keeps_bind ?_)
    have hlen : q + (event :: events).length = q + 1 + events.length := by
      rw [List.length_cons]
      omega
    rw [hlen]
    refine Prog.keeps_mono (ih hevents (hfirst.trans (Rpc.rank_mono (Nat.le_succ q))) hy)
      fun _ z hz => Prog.keeps_done hz fun z' hz' hready => hready.stable hz'

/-- A page is handled and the cursor saved after it. -/
theorem keeps_handlePage (hapart : mode.Apart P) {resume : Resume} {lastLedger : ℕ}
    (hreads : rpc.ReadsAt start.floor resume lastLedger) {answer : Answer}
    (hanswer : rpc.MayAnswer resume answer)
    (h : Ready start mode.Sure p (rpc.rank cfg (rpc.position resume)) x) :
    (handlePage cfg lastLedger (rpc.page resume answer)).Keeps (pollers rpc mode)
      (pollRules start mode.Sure) p (fun _ => (pollRules start mode.Sure).idle p) x := by
  have hfirst : start.first ≤ rpc.rank cfg (rpc.position resume) :=
    Rpc.rank_mono (Rpc.position_startLedger_le hreads.floor_later)
  have hevents : (rpc.page resume answer).events <+: rpc.events.drop (rpc.position resume) :=
    List.take_prefix _ _
  unfold handlePage
  refine Prog.keeps_bind (Prog.keeps_mono (keeps_handleEvents hapart hevents hfirst h) ?_)
  intro applied y hy z hz
  obtain ⟨⟨hsynced, hdelivered⟩, hunowned, hpending, hle⟩ := hy.stable hz
  -- the new cursor is not ahead of the last event of the page, whatever others did meanwhile
  obtain ⟨hcursor, hresume⟩ := Rpc.nextCursor_at cfg hreads hanswer
  have hcount : rpc.rank cfg (rpc.resumePosition cfg
      (some (nextCursor lastLedger (rpc.page resume answer)))) ≤ z.2.count :=
    (Rpc.rank_mono hresume).trans hle
  refine ⟨⟨⟨hsynced, hdelivered⟩, hpending⟩, fun i _ => ?_⟩
  rw [pollers_exec]
  have hsynced' := hsynced.saveCursor hcursor hcount
  have hdelivered' := hdelivered.saveCursor hpending hcount
  refine ⟨z.2, ⟨fun _ => ⟨⟨hsynced', hdelivered'⟩, .of_eq rfl rfl rfl⟩, fun q hq => ?_⟩, ?_⟩
  · exact .of_ne hq (Or.inl ⟨rfl, rfl, rfl⟩) rfl
  · refine Prog.keeps_done ?_ fun z' hz' hidle => idle_stable hidle hz'
    exact ⟨⟨hsynced', hdelivered'⟩, hunowned, hpending⟩

/-- The server is asked for a page, and the page is handled. -/
theorem keeps_getEvents (hapart : mode.Apart P) {resume : Resume} {lastLedger : ℕ}
    (hreads : rpc.ReadsAt start.floor resume lastLedger)
    {f : RpcError → Poll (Option ℕ)} (hf : f .other = .done none)
    (h : Ready start mode.Sure p (rpc.rank cfg (rpc.position resume)) x) :
    (Prog.act (.getEvents resume) fun
      | .ok response => some <$> handlePage cfg lastLedger response
      | .error error => f error).Keeps (pollers rpc mode) (pollRules start mode.Sure) p
        (fun _ => (pollRules start mode.Sure).idle p) x := by
  intro y hy
  have hready := h.stable hy
  refine ⟨⟨hready.consistent, hready.pending⟩, fun answer hanswer => ?_⟩
  refine ⟨y.2, ⟨Advances.refl, fun q _ => Untouched.refl⟩, ?_⟩
  have hlegal : rpc.MayAnswer resume answer := hanswer.1
  rw [pollers_exec]
  cases herror : answer.error with
  | none =>
    have hexec : execute rpc (.getEvents resume) answer y.1 =
        (.ok (rpc.page resume answer), y.1) := by simp [execute, herror]
    rw [hexec]
    refine Prog.keeps_bind (Prog.keeps_mono (keeps_handlePage hapart hreads hlegal hready) ?_)
    exact fun _ z hz => Prog.keeps_done hz fun z' hz' hidle => idle_stable hidle hz'
  | some error =>
    -- the server retains every event that is asked for, so the error is another one
    obtain rfl := hlegal.1 error herror
    have hexec : execute rpc (.getEvents resume) answer y.1 = (.error .other, y.1) := by
      simp [execute, herror]
    rw [hexec]
    dsimp only
    rw [hf]
    exact Prog.keeps_done (idle_of_ready hready) fun z hz hidle => idle_stable hidle hz

theorem pollOnce_eq (cfg : Config) :
    pollOnce cfg = .act .loadMongoCursor fun saved => resumeFrom cfg saved >>= fun resume =>
      .act (.getEvents resume) fun
        | .ok response => some <$> handlePage cfg ((saved.map (·.lastLedger)).getD 0) response
        | .error error => match error with
          | .other => .done none
          | .retention (some oldest) => skipGap cfg resume ((saved.map (·.lastLedger)).getD 0) oldest
          | .retention none => .act .getHealth fun
            | some oldest => skipGap cfg resume ((saved.map (·.lastLedger)).getD 0) oldest
            | none => .done none := by
  unfold pollOnce
  refine congrArg _ (funext fun saved => congrArg _ (funext fun resume => congrArg _ ?_))
  funext result
  rcases result with error | response
  · rcases error with (_ | oldest) | _ <;> rfl
  · rfl

/-- **A poll**. -/
theorem keeps_poll (hapart : mode.Apart P) (h : (pollRules start mode.Sure).idle p x) :
    (poll cfg).Keeps (pollers rpc mode) (pollRules start mode.Sure) p
      (fun _ => (pollRules start mode.Sure).idle p) x := by
  unfold poll
  refine Prog.keeps_bind (Prog.keeps_mono ?_ fun _ y hy =>
    Prog.keeps_done hy fun z hz hidle => idle_stable hidle hz)
  rw [pollOnce_eq]
  intro y hy
  obtain ⟨⟨hsynced, hdelivered⟩, hunowned, hpending⟩ := idle_stable h hy
  refine ⟨⟨⟨hsynced, hdelivered⟩, hpending⟩, fun answer _ => ?_⟩
  refine ⟨y.2, ⟨Advances.refl, fun q _ => Untouched.refl⟩, ?_⟩
  rw [pollers_exec]
  change (resumeFrom cfg y.1.db.cursor >>= _).Keeps _ _ _ _ _
  -- no tracked event before the stored cursor is left
  have hready : Ready start mode.Sure p (rpc.rank cfg (rpc.resumePosition cfg y.1.db.cursor)) y :=
    ⟨⟨hsynced, hdelivered⟩, hunowned, hpending, hsynced.resume_le⟩
  cases hresume : resumePoint cfg y.1.db.cursor with
  | some resume =>
    rw [Rpc.resumePosition_of_some hresume] at hready
    rw [resumeFrom_of_some hresume]
    exact keeps_getEvents hapart (hsynced.cursor.readsAt hresume) rfl hready
  | none =>
    rw [resumeFrom_of_none hresume]
    intro z hz
    have hready' := hready.stable hz
    refine ⟨⟨hready'.consistent, hready'.pending⟩, fun answer' hanswer => ?_⟩
    refine ⟨z.2, ⟨Advances.refl, fun q _ => Untouched.refl⟩, ?_⟩
    obtain ⟨hreads, hposition⟩ := hsynced.cursor.readsAt_latest hresume hanswer.1
    rw [← hposition] at hready'
    exact keeps_getEvents hapart hreads rfl hready'

/-- **The rules are sound**: a poll keeps its assertions, and a crash loses at most a call. -/
theorem pollRules_sound (hapart : mode.Apart P) :
    (pollRules (P := P) start mode.Sure).Sound (pollers rpc mode) (poll cfg) where
  main _ _ hidle := keeps_poll hapart hidle
  crash p _ o x hcrash hpre := by
    -- a call is pending only just before it is made
    have hpending : x.2.pending p = none ∨ ¬ mode.Sure := by
      cases o with
      | persistTransition eventId transition =>
        exact Or.inr fun hsure => hsure eventId transition hcrash
      | _ => exact Or.inl hpre.2
    obtain ⟨hsynced, hdelivered⟩ := hpre.1
    -- the event the process was at work on is left to no one
    let owner := if x.2.owner = some p then none else x.2.owner
    have howner : owner ≠ some p := by
      by_cases howned : x.2.owner = some p <;> simp [owner, howned]
    have hsynced' := hsynced.reown owner (Function.update x.2.pending p none)
      fun hfresh => by simp [owner, hsynced.unowned hfresh]
    have hdelivered' := hdelivered.crash hpending owner
    refine ⟨{ x.2 with owner, pending := Function.update x.2.pending p none },
      ⟨fun _ => ⟨⟨hsynced', hdelivered'⟩, le_rfl, List.prefix_rfl, ?_⟩, fun q hq => ?_⟩,
      fun y hy => idle_stable ?_ hy⟩
    · rintro j record - - (hmem | ⟨q, hq⟩)
      · exact Or.inl hmem
      · rcases update_eq_some hq with ⟨-, heq⟩ | ⟨-, hq⟩
        · cases heq
        · exact Or.inr ⟨q, hq⟩
    · refine .of_ne hq ?_ (Function.update_of_ne hq _ _)
      by_cases howned : x.2.owner = some p
      · have hne : x.2.owner ≠ some q := howned ▸ fun heq => hq (Option.some.inj heq).symm
        exact Or.inr ⟨hne, by simp [owner, howned]⟩
      · exact Or.inl ⟨if_neg howned, rfl, rfl⟩
    · exact ⟨⟨hsynced', hdelivered'⟩, howner, Function.update_self _ _ _⟩

end Poll

/-! ## Runs -/

namespace Start

variable [DecidableEq P] (start : Start rpc cfg)

/-- No process has begun. -/
def state (P : Type) : State P Action World where
  prog _ := .done ()
  shared := ⟨start.db, []⟩

/-- The processes and the database after a run. -/
def after (is : List (Input P Answer)) : State P Action World :=
  run ((indexer rpc).step (poll cfg)) (start.state P) is

/-- The server's answers in the run are legal. -/
def Legal (is : List (Input P Answer)) : Prop :=
  Each ((indexer rpc).step (poll cfg)) (fun _ => (indexer rpc).Permits) (start.state P) is

/-- Every input of the run meets a condition on the state it is taken in. -/
def Throughout (C : State P Action World → Input P Answer → Prop) (is : List (Input P Answer)) :
    Prop :=
  Each ((indexer rpc).step (poll cfg)) (fun _ => C) (start.state P) is

instance {C : State P Action World → Input P Answer → Prop} [∀ s i, Decidable (C s i)]
    (is : List (Input P Answer)) : Decidable (start.Throughout C is) :=
  inferInstanceAs (Decidable (Each _ (fun _ => C) _ _))

/-- All events are consumed: the stored cursor has been behind the last of them. -/
def Consumed (is : List (Input P Answer)) : Prop :=
  ∃ pre, pre <+: is ∧
    rpc.events.length ≤ rpc.resumePosition cfg (start.after pre).shared.db.cursor

instance (is : List (Input P Answer)) : Decidable (start.Legal is) :=
  inferInstanceAs (Decidable (Each _ (fun _ => (indexer rpc).Permits) _ _))

end Start

section Runs

variable [DecidableEq P] {start : Start rpc cfg} {mode : Mode} {is : List (Input P Answer)}

/-- **Throughout a run** the processes keep their assertions, and from any moment on the frontier
and the calls only advance. -/
theorem pollers_run (mode : Mode) (hapart : mode.Apart P) (hlegal : start.Legal is)
    (hallows : start.Throughout mode.Allows is) {pre : List (Input P Answer)} (hpre : pre <+: is) :
    ∃ g g' : Frontier P,
      (pollRules start mode.Sure).Holds (pollers rpc mode) (start.after pre) g ∧
      Consistent start mode.Sure ((start.after pre).shared, g) ∧
      Consistent start mode.Sure ((start.after is).shared, g') ∧
      Later rpc cfg ((start.after pre).shared, g) ((start.after is).shared, g') := by
  have his : Each ((pollers rpc mode).step (poll cfg)) (fun _ => (pollers rpc mode).Permits)
      (start.state P) is := fun pre i hpre =>
    permits_pollers (hlegal pre i hpre) (hallows pre i hpre)
  obtain ⟨post, rfl⟩ := hpre
  let g₀ : Frontier P := ⟨start.base, .fresh, none, fun _ => none⟩
  have hstart : Consistent start mode.Sure ((start.state P).shared, g₀) :=
    ⟨start.synced, .of_start start mode.Sure⟩
  have hholds : (pollRules start mode.Sure).Holds (pollers rpc mode) (start.state P) g₀ :=
    fun p y hy => idle_stable ⟨hstart, by simp [g₀], rfl⟩ hy
  -- up to the moment `pre`, and on from there
  obtain ⟨g, hg, hadvances⟩ := hholds.run (pollRules_sound hapart)
    (his.restrict (List.prefix_append pre post)) (T := Advances start mode.Sure)
    (fun _ => Advances.refl) (fun _ _ _ hxy hyz => hxy.trans hyz) fun _ _ _ h => h.1
  have hconsistent := (hadvances hstart).1
  obtain ⟨g', -, hadvances'⟩ := hg.run (pollRules_sound hapart) his.rest
    (T := Advances start mode.Sure)
    (fun _ => Advances.refl) (fun _ _ _ hxy hyz => hxy.trans hyz) fun _ _ _ h => h.1
  obtain ⟨hconsistent', hlater⟩ := hadvances' hconsistent
  unfold Start.after
  rw [run_append]
  exact ⟨g, g', hg, hconsistent, hconsistent', hlater⟩

/-- Once all events are consumed, all are behind the frontier. -/
theorem consumed_run (mode : Mode) (hapart : mode.Apart P) (hlegal : start.Legal is)
    (hallows : start.Throughout mode.Allows is) (hconsumed : start.Consumed is) :
    ∃ g : Frontier P, Consistent start mode.Sure ((start.after is).shared, g) ∧
      (rpc.log cfg).length ≤ g.count := by
  obtain ⟨pre, hpre, hlen⟩ := hconsumed
  obtain ⟨g, g', -, hconsistent, hconsistent', hlater⟩ :=
    pollers_run mode hapart hlegal hallows hpre
  refine ⟨g', hconsistent', ?_⟩
  have hcount := hconsistent.synced.resume_le
  rw [Rpc.rank_of_length_le hlen] at hcount
  exact hcount.trans hlater.count_le

end Runs

/-! ## Two events -/

/-- An event of invoice 7. -/
def invoiceEvent (name : Soroban.Symbol) (id : String) (ledger : ℕ) : RpcEvent :=
  ⟨some id, some id, ledger, none, none, [.symbol name, .u64 7], .void⟩

/-- Invoice 7 is paid and then released. -/
def paidThenReleased : Rpc where
  events := [invoiceEvent "invoice_paid" "paid" 5, invoiceEvent "escrow_released" "released" 6]
  after token := if token = "paid" then 1 else if token = "released" then 2 else 0
  ids := by decide
  ids_nodup := by decide
  ledgers := by simp [invoiceEvent]
  ledger_pos := by decide
  after_token := by
    intro i event token hi htoken
    rcases i with _ | _ | i
    · obtain rfl := Option.some.inj hi
      obtain rfl := Option.some.inj htoken
      rfl
    · obtain rfl := Option.some.inj hi
      obtain rfl := Option.some.inj htoken
      rfl
    · cases hi

/-- The indexer has not polled yet, and invoice 7 is pending. -/
def firstPoll : Start paidThenReleased ⟨"invoice", some 4⟩ where
  db := ⟨.empty, ⟨[⟨"7", .pending⟩], by decide⟩, .empty, none⟩
  handled := 0
  resume_le := by decide
  later := by decide
  applied := by simp
  absent := by simp

end Offchain
