import Comebackhere.Cli.Config
import Comebackhere.Library.Crew
import Comebackhere.Library.Run
import Comebackhere.Library.Utf8

/-!
# Writing the configuration of the CLI

`cbh init` opens its output with `create_new`, or with `truncate` if it is forced, and then writes
the text of the configuration in one or more parts. Any number of processes do so, at the same paths
or at others, and each may be refused by the system or killed at any point. No one removes a file.

## Main definitions

* `Process`, `State`, `step`: the processes and the files, and what happens next
* `Moves s s'`: what a step can do
* `Safe p start path s`: what becomes of a file, and of the processes that write it

## Main results

* `step_moves`: a step does one of these
* `init_safe`: in every run every file is safe
-/

namespace Cli

open Machine Crew

/-! ## Files -/

/-- The permissions of the owner, the group and others. -/
abbrev Mode := BitVec 9

structure File where
  content : List UInt8
  mode : Mode
  deriving DecidableEq

abbrev Files := String → Option File

/-- The group and others have no permissions. -/
def Mode.Secret (mode : Mode) : Prop := mode &&& 0o077#9 = 0#9

/-- Bytes written at a position, which is filled up with zeros where the file is shorter. -/
def writeAt (content : List UInt8) (k : ℕ) (bytes : List UInt8) : List UInt8 :=
  content.take k ++ List.replicate (k - content.length) 0 ++ bytes ++
    content.drop (k + bytes.length)

/-! ## Processes -/

/-- What a process is about to write. -/
structure Job where
  call : Invocation
  config : Config
  text : List UInt8
  umask : Mode

def Job.output (job : Job) : String := job.call.output

def Job.force (job : Job) : Bool := job.call.force

/-- How a process ends. -/
inductive Outcome
  | written
  | failed (error : String)
  | killed
  deriving DecidableEq

/-- A process, with its position in the file that it has opened. -/
structure Process where
  job : Job
  handle : Option ℕ
  outcome : Option Outcome

structure State where
  files : Files
  processes : List Process

inductive Action
  | start (call : Invocation) (input : Input) (umask : Mode)
  /-- The next system call of a process, with an error, or with how many bytes may be written. -/
  | advance (i : ℕ) (answer : Except String ℕ)
  | kill (i : ℕ)

variable (p : Platform)

/-- The configuration is resolved and made a text. Nothing is written where one of them fails. -/
def prepare (call : Invocation) (input : Input) (umask : Mode) : Option Job :=
  match resolve p call input with
  | .error _ => none
  | .ok (config, _) =>
    (p.toToml config).map fun text => ⟨call, config, Utf8.encode text.toList, umask⟩

/-- The error of an output that is not opened, whatever the reason. -/
def openError (job : Job) : String :=
  if job.force then "failed to open " ++ p.debug job.output ++ " for writing"
  else job.output ++ " already exists; use --force to overwrite"

/-- `OpenOptions::open`: the mode is that of a file that is created. -/
def openFile (job : Job) : Option File → Except String File
  | none => .ok ⟨[], 0o600#9 &&& ~~~job.umask⟩
  | some file => if job.force then .ok ⟨[], file.mode⟩ else .error (openError p job)

def State.put (s : State) (i : ℕ) (process : Process) : State :=
  { s with processes := s.processes.set i process }

def State.setFile (s : State) (path : String) (file : Option File) : State :=
  { s with files := Function.update s.files path file }

/-- `write_config`, up to the answer to its next system call. -/
def advance (s : State) (i : ℕ) (process : Process) (answer : Except String ℕ) : State :=
  let job := process.job
  let stop (outcome : Outcome) := s.put i { process with outcome := some outcome }
  match process.outcome, process.handle, answer with
  | some _, _, _ => s
  | none, none, .error _ => stop (.failed (openError p job))
  | none, none, .ok _ =>
    match openFile p job (s.files job.output) with
    | .error e => stop (.failed e)
    | .ok file => (s.setFile job.output (some file)).put i { process with handle := some 0 }
  | none, some k, answer =>
    if k = job.text.length then stop .written
    else
      match answer with
      | .error e => stop (.failed e)
      | .ok 0 => stop (.failed "failed to write whole buffer")
      | .ok (n + 1) =>
        let bytes := (job.text.drop k).take (n + 1)
        let written := (s.files job.output).map fun file =>
          { file with content := writeAt file.content k bytes }
        (s.setFile job.output written).put i { process with handle := some (k + bytes.length) }

def step (s : State) : Action → State
  | .start call input umask =>
    match prepare p call input umask with
    | none => s
    | some job => { s with processes := s.processes ++ [⟨job, none, none⟩] }
  | .advance i answer =>
    match s.processes[i]? with
    | none => s
    | some process => advance p s i process answer
  | .kill i =>
    match s.processes[i]? with
    | none => s
    | some process =>
      if process.outcome = none then s.put i { process with outcome := some .killed } else s

/-! ## Steps -/

/-- Where the text of a job comes from. -/
def FromConfig (job : Job) : Prop :=
  WellFormed p job.call job.config ∧
    ∃ text, p.toToml job.config = some text ∧ job.text = Utf8.encode text.toList

/-- What a step can do. -/
inductive Moves (s : State) : State → Prop
  | stays : Moves s s
  | joins (job : Job) (hjob : FromConfig p job) :
      Moves s { s with processes := s.processes ++ [⟨job, none, none⟩] }
  | stops (i : ℕ) (process : Process) (outcome : Outcome) (hi : s.processes[i]? = some process)
      (hwritten : outcome = .written → process.handle = some process.job.text.length) :
      Moves s (s.put i { process with outcome := some outcome })
  | opens (i : ℕ) (process : Process) (file : File) (hi : s.processes[i]? = some process)
      (hhandle : process.handle = none)
      (hopen : openFile p process.job (s.files process.job.output) = .ok file)
      (houtcome : process.outcome = none) :
      Moves s ((s.setFile process.job.output (some file)).put i { process with handle := some 0 })
  | writes (i : ℕ) (process : Process) (k n : ℕ) (hi : s.processes[i]? = some process)
      (hhandle : process.handle = some k) (houtcome : process.outcome = none) :
      Moves s ((s.setFile process.job.output ((s.files process.job.output).map fun file =>
        { file with content := writeAt file.content k ((process.job.text.drop k).take n) })).put i
          { process with handle := some (k + ((process.job.text.drop k).take n).length) })

variable {p} {s : State} {i : ℕ} {process : Process}

theorem prepare_eq_some {call : Invocation} {input : Input} {umask : Mode} {job : Job}
    (h : prepare p call input umask = some job) : FromConfig p job := by
  rw [prepare] at h
  split at h
  · cases h
  · next config _ hresolve =>
    obtain ⟨text, htext, rfl⟩ := Option.map_eq_some_iff.mp h
    exact ⟨(resolve_eq_ok hresolve).1, text, htext, rfl⟩

theorem advance_moves (hi : s.processes[i]? = some process) (answer : Except String ℕ) :
    Moves p s (advance p s i process answer) := by
  obtain ⟨job, handle, outcome⟩ := process
  cases outcome with
  | some outcome => exact .stays
  | none =>
    cases handle with
    | none =>
      cases answer with
      | error e => exact .stops i ⟨job, none, none⟩ (.failed (openError p job)) hi (by simp)
      | ok n =>
        cases hopen : openFile p job (s.files job.output) with
        | error e =>
          simp only [advance, hopen]
          exact .stops i ⟨job, none, none⟩ (.failed e) hi (by simp)
        | ok file =>
          simp only [advance, hopen]
          exact .opens i ⟨job, none, none⟩ file hi rfl hopen rfl
    | some k =>
      by_cases hend : k = job.text.length
      · simp only [advance, hend, if_true]
        exact .stops i ⟨job, some job.text.length, none⟩ .written (hend ▸ hi) fun _ => rfl
      · simp only [advance, hend, if_false]
        cases answer with
        | error e => exact .stops i ⟨job, some k, none⟩ (.failed e) hi (by simp)
        | ok n =>
          cases n with
          | zero => exact .stops i ⟨job, some k, none⟩ (.failed _) hi (by simp)
          | succ n => exact .writes i ⟨job, some k, none⟩ k (n + 1) hi rfl rfl

/-- **A step** does nothing, or one of the four. -/
theorem step_moves (s : State) (a : Action) : Moves p s (step p s a) := by
  cases a with
  | start call input umask =>
    rw [step]
    split
    · exact .stays
    · next job hjob => exact .joins job (prepare_eq_some hjob)
  | advance i answer =>
    rw [step]
    split
    · exact .stays
    · next process hi => exact advance_moves hi answer
  | kill i =>
    rw [step]
    split
    · exact .stays
    · next process hi =>
      split
      · exact .stops i process .killed hi (by simp)
      · exact .stays

/-! ## Files without force -/

/-- A process has opened the path. -/
def Opened (path : String) (process : Process) : Prop :=
  process.job.output = path ∧ process.handle ≠ none

/-- No process is forced to write to the path. -/
def Forceless (path : String) (s : State) : Prop :=
  ∀ process ∈ s.processes, process.job.output = path → process.job.force = false

/-- What holds of the permissions of a file, and of the processes. -/
structure Inv (p : Platform) (start : Files) (path : String) (s : State) : Prop where
  kept : ∀ file, start path = some file →
    ∃ file', s.files path = some file' ∧ file'.mode = file.mode
  created : start path = none → ∀ file, s.files path = some file → Mode.Secret file.mode
  full : ∀ process ∈ s.processes, process.outcome = some .written →
    process.handle = some process.job.text.length
  fromConfig : ∀ process ∈ s.processes, FromConfig p process.job

/-- What holds of a path that no process is forced to write to: its file is the one that was there,
which none has opened, or has what the only process that has opened it has written. -/
structure Sole (start : Files) (path : String) (s : State) : Prop where
  untouched : ∀ file, start path = some file →
    s.files path = some file ∧ ∀ process ∈ s.processes, ¬ Opened path process
  one : Unique (Opened path) s.processes
  content : ∀ process ∈ s.processes, process.job.output = path → ∀ k, process.handle = some k →
    k ≤ process.job.text.length ∧
      ∃ file, s.files path = some file ∧ file.content = process.job.text.take k

variable {start : Files} {path : String} {s' : State}

@[simp] theorem put_files : (s.put i process).files = s.files := rfl

@[simp] theorem setFile_files {file : Option File} :
    (s.setFile path file).files = Function.update s.files path file := rfl

theorem setFile_of_ne {path' : String} (h : path ≠ path') (file : Option File) :
    (s.setFile path' file).files path = s.files path :=
  Function.update_of_ne h ..

theorem secret_created (umask : Mode) : Mode.Secret (0o600#9 &&& ~~~umask) := by
  have hbits : 0o600#9 &&& 0o077#9 = 0#9 := by decide
  rw [Mode.Secret, BitVec.and_assoc, BitVec.and_comm (~~~umask), ← BitVec.and_assoc, hbits,
    BitVec.zero_and]

/-- What is opened has the mode of the file, or is secret. -/
theorem openFile_eq_ok {job : Job} {old : Option File} {file : File}
    (h : openFile p job old = .ok file) :
    file.content = [] ∧ (old = none ∧ Mode.Secret file.mode ∨
      job.force = true ∧ ∃ f, old = some f ∧ file.mode = f.mode) := by
  cases old with
  | none =>
    obtain rfl := Except.ok.inj h
    exact ⟨rfl, Or.inl ⟨rfl, secret_created job.umask⟩⟩
  | some f =>
    rw [openFile] at h
    split at h
    · next hforce =>
      obtain rfl := Except.ok.inj h
      exact ⟨rfl, Or.inr ⟨hforce, f, rfl, rfl⟩⟩
    · cases h

/-- A part that is written where the parts before it end. -/
theorem writeAt_take {text content : List UInt8} {k : ℕ} (n : ℕ) (hk : k ≤ text.length)
    (hcontent : content = text.take k) :
    writeAt content k ((text.drop k).take n) =
      text.take (k + ((text.drop k).take n).length) := by
  have hlength : content.length = k := by rw [hcontent, List.length_take, min_eq_left hk]
  have hdrop : content.drop (k + ((text.drop k).take n).length) = [] :=
    List.drop_eq_nil_of_le (by omega)
  have hself : content.take k = text.take k := by rw [hcontent, List.take_take, min_self]
  rw [writeAt, hlength, Nat.sub_self, hdrop, hself, List.take_add, List.length_take,
    List.length_drop]
  simp only [List.replicate_zero, List.append_nil]
  congr 1
  rw [← List.length_drop, List.take_eq_take_min]

/-! ## One step -/

theorem Inv.step (h : Inv p start path s) (hm : Moves p s s') : Inv p start path s' := by
  cases hm with
  | stays => exact h
  | joins job hjob =>
    refine ⟨h.kept, h.created, fun q hq => ?_, fun q hq => ?_⟩
    · rcases List.mem_append.mp hq with hq | hq
      · exact h.full q hq
      · obtain rfl := List.mem_singleton.mp hq
        simp
    · rcases List.mem_append.mp hq with hq | hq
      · exact h.fromConfig q hq
      · obtain rfl := List.mem_singleton.mp hq
        exact hjob
  | stops i process outcome hi hwritten =>
    have hmem := List.mem_of_getElem? hi
    refine ⟨h.kept, h.created, forall_mem_set h.full ?_ i, forall_mem_set h.fromConfig ?_ i⟩
    · intro hout
      exact hwritten (Option.some.inj hout)
    · exact h.fromConfig process hmem
  | opens i process file hi hhandle hopen houtcome =>
    have hmem := List.mem_of_getElem? hi
    obtain ⟨-, hfile⟩ := openFile_eq_ok hopen
    constructor
    · intro old hold
      obtain ⟨f, hf, hmode⟩ := h.kept old hold
      by_cases hpath : path = process.job.output
      · subst hpath
        rcases hfile with ⟨hnone, -⟩ | ⟨-, f', hf', hmode'⟩
        · rw [hf] at hnone
          cases hnone
        · obtain rfl := Option.some.inj (hf.symm.trans hf')
          exact ⟨file, by simp, hmode'.trans hmode⟩
      · exact ⟨f, by simpa [hpath] using hf, hmode⟩
    · intro hnone f hf
      by_cases hpath : path = process.job.output
      · subst hpath
        obtain rfl : file = f := by simpa using hf
        rcases hfile with ⟨-, hsecret⟩ | ⟨-, f', hf', hmode⟩
        · exact hsecret
        · exact hmode ▸ h.created hnone f' hf'
      · exact h.created hnone f (by simpa [hpath] using hf)
    · refine forall_mem_set h.full ?_ i
      simp [houtcome]
    · refine forall_mem_set h.fromConfig ?_ i
      exact h.fromConfig process hmem
  | writes i process k n hi hhandle houtcome =>
    have hmem := List.mem_of_getElem? hi
    constructor
    · intro old hold
      obtain ⟨f, hf, hmode⟩ := h.kept old hold
      by_cases hpath : path = process.job.output
      · subst hpath
        exact ⟨{ f with content := writeAt f.content k ((process.job.text.drop k).take n) },
          by simp [hf], hmode⟩
      · exact ⟨f, by simpa [hpath] using hf, hmode⟩
    · intro hnone f hf
      by_cases hpath : path = process.job.output
      · subst hpath
        obtain ⟨f', hf', rfl⟩ : ∃ f', s.files process.job.output = some f' ∧ _ = f := by
          simpa using hf
        exact h.created hnone f' hf'
      · exact h.created hnone f (by simpa [hpath] using hf)
    · refine forall_mem_set h.full ?_ i
      simp [houtcome]
    · refine forall_mem_set h.fromConfig ?_ i
      exact h.fromConfig process hmem

/-- A step that leaves a path without force found it so. -/
theorem Forceless.of_step (h : Forceless path s') (hm : Moves p s s') : Forceless path s := by
  have hset : ∀ (i : ℕ) (process process' : Process), s.processes[i]? = some process →
      process'.job = process.job →
      (∀ q ∈ s.processes.set i process', q.job.output = path → q.job.force = false) →
      Forceless path s := by
    intro i process process' hi hjob h q hq hpath
    rcases mem_set_or hq i process' with hq' | hq'
    · exact h q hq' hpath
    · -- the process itself has the same job afterwards
      obtain rfl := Option.some.inj (hi.symm.trans hq')
      have hi' : i < s.processes.length := (List.getElem?_eq_some_iff.mp hi).1
      rw [← hjob] at hpath ⊢
      exact h process' (List.mem_set hi' process') hpath
  cases hm with
  | stays => exact h
  | joins job => exact fun q hq => h q (List.mem_append_left _ hq)
  | stops i process outcome hi =>
    refine hset i process _ hi ?_ h
    rfl
  | opens i process file hi =>
    refine hset i process _ hi ?_ h
    rfl
  | writes i process k n hi =>
    refine hset i process _ hi ?_ h
    rfl

/-- A process that opens or writes another path does nothing to this one. -/
theorem Sole.elsewhere (h : Sole start path s) (hi : s.processes[i]? = some process)
    (hpath : process.job.output ≠ path) (file : Option File) (handle : Option ℕ) :
    Sole start path
      ((s.setFile process.job.output file).put i { process with handle := handle }) := by
  have hfiles : (s.setFile process.job.output file).files path = s.files path :=
    setFile_of_ne (Ne.symm hpath) file
  have hnot : ¬ Opened path { process with handle := handle } := fun ho => hpath ho.1
  constructor
  · intro old hold
    obtain ⟨hkept, hnone⟩ := h.untouched old hold
    exact ⟨hfiles.trans hkept, forall_mem_set hnone hnot i⟩
  · exact h.one.set hi fun ho => absurd ho hnot
  · rw [put_files, hfiles]
    refine forall_mem_set h.content ?_ i
    exact fun hq => absurd hq hpath

theorem Sole.step (h : Sole start path s) (hforce : Forceless path s) (hm : Moves p s s') :
    Sole start path s' := by
  cases hm with
  | stays => exact h
  | joins job =>
    have hnot : ¬ Opened path ⟨job, none, none⟩ := fun ho => ho.2 rfl
    constructor
    · intro file hfile
      refine ⟨(h.untouched file hfile).1, fun q hq => ?_⟩
      rcases List.mem_append.mp hq with hq | hq
      · exact (h.untouched file hfile).2 q hq
      · exact List.mem_singleton.mp hq ▸ hnot
    · exact h.one.concat hnot
    · intro q hq hpath k hk
      rcases List.mem_append.mp hq with hq | hq
      · exact h.content q hq hpath k hk
      · obtain rfl := List.mem_singleton.mp hq
        cases hk
  | stops i process outcome hi =>
    have hmem := List.mem_of_getElem? hi
    constructor
    · intro file hfile
      obtain ⟨hkept, hnone⟩ := h.untouched file hfile
      refine ⟨hkept, forall_mem_set hnone ?_ i⟩
      exact hnone process hmem
    · exact h.one.set hi id
    · refine forall_mem_set h.content ?_ i
      exact h.content process hmem
  | opens i process file hi hhandle hopen =>
    have hmem := List.mem_of_getElem? hi
    by_cases hpath : process.job.output = path
    · -- without force there was no file, and so no process that has opened one
      subst hpath
      obtain ⟨hcontent, hfile⟩ := openFile_eq_ok hopen
      obtain ⟨hnone, -⟩ : s.files process.job.output = none ∧ Mode.Secret file.mode := by
        rcases hfile with hfile | ⟨hforced, -⟩
        · exact hfile
        · exact absurd hforced (by simp [hforce process hmem rfl])
      have hnew : ∀ q ∈ s.processes, ¬ Opened process.job.output q := by
        intro q hq hopened
        obtain ⟨k, hk⟩ := Option.ne_none_iff_exists'.mp hopened.2
        obtain ⟨-, f, hf, -⟩ := h.content q hq hopened.1 k hk
        rw [hnone] at hf
        cases hf
      constructor
      · intro old hold
        rw [(h.untouched old hold).1] at hnone
        cases hnone
      · exact unique_set_of_none hnew
      · intro q hq hq' k hk
        rcases List.mem_or_eq_of_mem_set hq with hq | rfl
        · exact absurd ⟨hq', by simp [hk]⟩ (hnew q hq)
        · obtain rfl := Option.some.inj hk
          exact ⟨Nat.zero_le _, file, by simp, hcontent⟩
    · exact h.elsewhere hi hpath _ _
  | writes i process k n hi hhandle =>
    have hmem := List.mem_of_getElem? hi
    by_cases hpath : process.job.output = path
    · subst hpath
      have hopened : Opened process.job.output process := ⟨rfl, by simp [hhandle]⟩
      obtain ⟨hk, f, hf, hcontent⟩ := h.content process hmem rfl k hhandle
      constructor
      · intro old hold
        exact absurd hopened ((h.untouched old hold).2 process hmem)
      · exact h.one.set hi fun _ => hopened
      · intro q hq hq' k' hk'
        rcases List.mem_iff_getElem?.mp hq with ⟨j, hj⟩
        rcases getElem?_set_eq_some hj with ⟨-, rfl⟩ | ⟨hne, hj⟩
        · obtain rfl := Option.some.inj hk'
          refine ⟨?_, _, by simp [hf]; rfl, writeAt_take n hk hcontent⟩
          simp only [List.length_take, List.length_drop]
          omega
        · -- the process that writes is the only one
          have hq := h.one j i q process hj hi ⟨hq', by simp [hk']⟩ hopened
          exact absurd hq hne
    · exact h.elsewhere hi hpath _ _

/-! ## Runs -/

/-- **A file is safe**: one that was there keeps its permissions, and one that was created is
secret. Where no process is forced, a file that was there is not touched and no process reports that
it has written it; at most one process opens the file, and when a process reports that it has
written it, the file has the whole text of its configuration. -/
structure Safe (p : Platform) (start : Files) (path : String) (s : State) : Prop where
  kept : ∀ file, start path = some file →
    ∃ file', s.files path = some file' ∧ file'.mode = file.mode
  created : start path = none → ∀ file, s.files path = some file → Mode.Secret file.mode
  untouched : Forceless path s → ∀ file, start path = some file → s.files path = some file ∧
    ∀ process ∈ s.processes, process.job.output = path → process.outcome ≠ some .written
  one : Forceless path s → Unique (Opened path) s.processes
  written : Forceless path s → ∀ process ∈ s.processes, process.job.output = path →
    process.outcome = some .written →
    WellFormed p process.job.call process.job.config ∧
      ∃ text file, p.toToml process.job.config = some text ∧ s.files path = some file ∧
        file.content = Utf8.encode text.toList

/-- What holds of the path at every point of a run. -/
theorem inv_run (start : Files) (path : String) (as : List Action) :
    Inv p start path (run (Cli.step p) ⟨start, []⟩ as) ∧
      (Forceless path (run (Cli.step p) ⟨start, []⟩ as) →
        Sole start path (run (Cli.step p) ⟨start, []⟩ as)) := by
  induction as using List.reverseRecOn with
  | nil =>
    refine ⟨⟨fun file hfile => ⟨file, hfile, rfl⟩, fun hnone file hfile => ?_, by simp, by simp⟩,
      fun _ => ⟨fun file hfile => ⟨hfile, by simp⟩, unique_nil, by simp⟩⟩
    rw [run_nil] at hfile
    exact absurd (hnone.symm.trans hfile) (by simp)
  | append_singleton as a ih =>
    rw [run_snoc]
    have hm := step_moves (p := p) (run (Cli.step p) ⟨start, []⟩ as) a
    refine ⟨ih.1.step hm, fun hforce => ?_⟩
    have hbefore := hforce.of_step hm
    exact (ih.2 hbefore).step hbefore hm

/-- **In every run every file is safe**, however the processes interleave and wherever they stop. -/
theorem init_safe (p : Platform) (start : Files) (path : String) (as : List Action) :
    Safe p start path (run (Cli.step p) ⟨start, []⟩ as) := by
  obtain ⟨hinv, hsole⟩ := inv_run (p := p) start path as
  constructor
  · exact hinv.kept
  · exact hinv.created
  · intro hforce file hfile
    obtain ⟨hkept, hnone⟩ := (hsole hforce).untouched file hfile
    refine ⟨hkept, fun process hmem hpath hwritten => hnone process hmem ⟨hpath, ?_⟩⟩
    simp [hinv.full process hmem hwritten]
  · exact fun hforce => (hsole hforce).one
  · intro hforce process hmem hpath hwritten
    have hfull := hinv.full process hmem hwritten
    obtain ⟨hconfig, text, htoml, htext⟩ := hinv.fromConfig process hmem
    obtain ⟨-, file, hfile, hcontent⟩ := (hsole hforce).content process hmem hpath _ hfull
    refine ⟨hconfig, text, file, htoml, hfile, ?_⟩
    rw [hcontent, List.take_length, htext]

end Cli
