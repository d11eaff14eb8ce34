import Comebackhere.Http.RateLimiter

/-!
# The configuration that the CLI writes

`cbh init` makes a configuration of its flags. What is missing it asks for, unless it must not or
standard input is no terminal. Input is read by lines, and a line that is blank means the default.
The text of a configuration is what the library for TOML makes of it, a parameter, and so is what
the standard library does with letters, blanks and quotes.

## Main definitions

* `parseNetwork`, `parseRules`, `resolveRequired`: the parts of a configuration
* `resolve`: the configuration of an invocation

## Main results

* `resolve_eq_ok`: a configuration has what was supplied, a network that is known, and rules
-/

namespace Cli

inductive Network
  | mainnet
  | testnet
  | futurenet
  | custom
  deriving DecidableEq

def Network.defaultHorizonUrl : Network → Option String
  | .mainnet => some "https://horizon.stellar.org"
  | .testnet => some "https://horizon-testnet.stellar.org"
  | .futurenet => some "https://horizon-futurenet.stellar.org"
  | .custom => none

structure RuleConfig where
  kind : String
  thresholdStroops : Option ℕ
  deriving DecidableEq

structure Config where
  label : String
  network : String
  horizonUrl : String
  webhookUrls : List String
  rules : List RuleConfig
  deriving DecidableEq

/-- What the standard library does with letters, blanks and quotes, and the library for TOML with a
configuration. -/
structure Platform where
  toLowercase : String → String
  trim : String → String
  debug : String → String
  toToml : Config → Option String

variable (p : Platform)

def parseNetwork (s : String) : Except String Network :=
  match p.toLowercase s with
  | "mainnet" => .ok .mainnet
  | "testnet" => .ok .testnet
  | "futurenet" => .ok .futurenet
  | "custom" => .ok .custom
  | other => .error ("unknown network " ++ p.debug other ++
      "; expected mainnet, testnet, futurenet, or custom")

/-- `str::strip_prefix` -/
def stripPrefix (first s : String) : Option String :=
  if first.toList <+: s.toList then some (String.ofList (s.toList.drop first.length)) else none

/-- One rule preset. The cause behind an error is not part of it. -/
def parseRule (s : String) : Except String RuleConfig :=
  match stripPrefix "large-transfer=" s with
  | some threshold =>
    match RateLimiter.parseU64 threshold with
    | some thresholdStroops => .ok ⟨"large_transfer", some thresholdStroops⟩
    | none => .error ("invalid threshold in rule " ++ p.debug s)
  | none =>
    match s with
    | "failed" => .ok ⟨"failed_transaction", none⟩
    | "admin" => .ok ⟨"admin_operation", none⟩
    | other => .error ("unknown rule preset " ++ p.debug other ++
        "; supported: failed, admin, large-transfer=<n>")

def anyTransaction : RuleConfig := ⟨"any_transaction", none⟩

/-- The rules of the presets, or the rule for any transaction where there are none. -/
def parseRules (strs : List String) : Except String (List RuleConfig) := do
  let rules ← strs.mapM (parseRule p)
  return if rules = [] then [anyTransaction] else rules

/-! ## Prompts -/

/-- The lines that standard input has left. -/
abbrev Input := List String

/-- What reads lines of the input and may fail. -/
abbrev Prompting := StateT Input (Except String)

/-- `read_line`: the end of the input is an empty line. -/
def readLine : Prompting String := fun input => .ok (input.headD "", input.tail)

/-- The value that was supplied, or else the one that a user enters. -/
def resolveRequired (value : Option String) (flagName : String) (default : Option String)
    (nonInteractive : Bool) : Prompting String := do
  match value with
  | some v => return v
  | none =>
    if nonInteractive then
      match default with
      | some d => return d
      | none => throw ("missing required flag --" ++ flagName ++
          " (stdin is not a TTY or --non-interactive was set)")
    else
      let trimmed := p.trim (← readLine)
      if trimmed = "" then
        match default with
        | some d => return d
        | none => throw ("--" ++ flagName ++ " is required")
      else return trimmed

/-! ## Invocations -/

/-- The flags of `cbh init`, and whether standard input is a terminal. -/
structure Invocation where
  output : String
  force : Bool
  nonInteractive : Bool
  label : Option String
  network : Option String
  horizonUrl : Option String
  webhookUrls : List String
  ruleStrs : List String
  isTty : Bool

/-- A network that is named on the command line is checked before anything is asked. -/
def Invocation.checkNetwork (call : Invocation) : Except String Unit :=
  match call.network with
  | none => .ok ()
  | some n =>
    match parseNetwork p n with
    | .error e => .error e
    | .ok network =>
      if network = .custom ∧ call.horizonUrl = none then
        .error "--horizon-url is required when --network custom is used"
      else .ok ()

/-- `cmd_init`, up to the configuration that it writes. -/
def resolve (call : Invocation) : Prompting Config := do
  let nonInteractive := call.nonInteractive || !call.isTty
  call.checkNetwork p
  let label ← resolveRequired p call.label "label" (some "My Contract") nonInteractive
  let network ← resolveRequired p call.network "network" (some "testnet") nonInteractive
  let parsed ← parseNetwork p network
  let horizonUrl ← resolveRequired p (call.horizonUrl.or parsed.defaultHorizonUrl) "horizon-url"
    none nonInteractive
  let rules ← parseRules p call.ruleStrs
  return ⟨label, network, horizonUrl, call.webhookUrls, rules⟩

/-- `cbh init` must not ask anything. -/
def Invocation.Silent (call : Invocation) : Prop := call.nonInteractive = true ∨ call.isTty = false

variable {p} {call : Invocation} {input : Input}

/-! ## What is resolved -/

/-- A value that was supplied is taken, and nothing is asked. -/
theorem resolveRequired_some (v flagName : String) (default : Option String)
    (nonInteractive : Bool) :
    resolveRequired p (some v) flagName default nonInteractive input = .ok (v, input) := rfl

/-- An invocation that must not ask takes the default, or fails. -/
theorem resolveRequired_silent (value : Option String) (flagName : String)
    (default : Option String) :
    resolveRequired p value flagName default true input =
      match value.or default with
      | some v => .ok (v, input)
      | none => .error ("missing required flag --" ++ flagName ++
          " (stdin is not a TTY or --non-interactive was set)") := by
  cases value <;> cases default <;> rfl

theorem bind_eq_ok {α β : Type} {m : Prompting α} {f : α → Prompting β} {r : β × Input} :
    (m >>= f) input = .ok r ↔ ∃ a rest, m input = .ok (a, rest) ∧ f a rest = .ok r := by
  change (m input >>= fun q => f q.1 q.2) = .ok r ↔ _
  cases hm : m input with
  | error e => simp [bind, Except.bind]
  | ok q => simp [bind, Except.bind, Prod.ext_iff]

theorem lift_eq_ok {α : Type} {x : Except String α} {r : α × Input} :
    (liftM x : Prompting α) input = .ok r ↔ x = .ok r.1 ∧ r.2 = input := by
  obtain ⟨a, rest⟩ := r
  change (x >>= fun a => pure (a, input)) = .ok (a, rest) ↔ _
  cases x with
  | error e => simp [bind, Except.bind]
  | ok b =>
    simp [bind, Except.bind, pure, Except.pure, eq_comm]

theorem parseRules_ne_nil {strs : List String} {rules : List RuleConfig}
    (h : parseRules p strs = .ok rules) : rules ≠ [] := by
  rw [parseRules] at h
  cases hm : strs.mapM (parseRule p) with
  | error e => simp [hm, bind, Except.bind] at h
  | ok found =>
    simp only [hm, bind, Except.bind, pure, Except.pure, Except.ok.injEq] at h
    subst h
    split
    · exact List.cons_ne_nil anyTransaction []
    · assumption

/-- **A configuration** has what was supplied, a network that is known, and rules. -/
structure WellFormed (p : Platform) (call : Invocation) (config : Config) : Prop where
  label : ∀ v ∈ call.label, config.label = v
  network : ∀ v ∈ call.network, config.network = v
  known : ∃ network, parseNetwork p config.network = .ok network ∧
    (call.horizonUrl = none → ∀ url ∈ network.defaultHorizonUrl, config.horizonUrl = url)
  horizonUrl : ∀ v ∈ call.horizonUrl, config.horizonUrl = v
  webhookUrls : config.webhookUrls = call.webhookUrls
  rules : parseRules p call.ruleStrs = .ok config.rules
  ruled : config.rules ≠ []

theorem resolveRequired_eq_ok {value default : Option String} {flagName : String}
    {nonInteractive : Bool} {r : String × Input}
    (h : resolveRequired p value flagName default nonInteractive input = .ok r) :
    (∀ v ∈ value, r.1 = v) ∧ (nonInteractive = true → r.2 = input) := by
  cases value with
  | some v =>
    rw [resolveRequired_some] at h
    obtain rfl := Except.ok.inj h
    refine ⟨fun v' hv => ?_, fun _ => rfl⟩
    exact Option.some.inj hv
  | none =>
    refine ⟨by simp, fun hsilent => ?_⟩
    subst hsilent
    rw [resolveRequired_silent] at h
    cases default with
    | none => cases h
    | some d =>
      obtain rfl := Except.ok.inj h
      rfl

/-- **What is resolved** is well formed, and an invocation that must not ask reads no input. -/
theorem resolve_eq_ok {r : Config × Input} (h : resolve p call input = .ok r) :
    WellFormed p call r.1 ∧ (call.Silent → r.2 = input) := by
  simp only [resolve, bind_eq_ok] at h
  obtain ⟨_, i₀, hcheck, label, i₁, hlabel, network, i₂, hnetwork, parsed, i₃, hparsed, horizonUrl,
    i₄, hhorizon, rules, i₅, hrules, hr⟩ := h
  obtain ⟨-, rfl⟩ := lift_eq_ok.mp hcheck
  obtain ⟨hknown, rfl⟩ := lift_eq_ok.mp hparsed
  obtain ⟨hfound, rfl⟩ := lift_eq_ok.mp hrules
  obtain rfl := Except.ok.inj hr
  have hlabel := resolveRequired_eq_ok hlabel
  have hnetwork := resolveRequired_eq_ok hnetwork
  have hhorizon := resolveRequired_eq_ok hhorizon
  dsimp only at hlabel hnetwork hhorizon hknown hfound ⊢
  constructor
  · constructor
    · exact hlabel.1
    · exact hnetwork.1
    · refine ⟨parsed, hknown, fun hnone url hurl => hhorizon.1 url ?_⟩
      rw [hnone]
      exact hurl
    · intro v hv
      apply hhorizon.1
      rw [Option.mem_def] at hv
      simp [hv]
    · rfl
    · exact hfound
    · exact parseRules_ne_nil hfound
  · intro hsilent
    have hno : (call.nonInteractive || !call.isTty) = true := by
      rcases hsilent with h | h <;> simp [h]
    rw [hhorizon.2 hno, hnetwork.2 hno, hlabel.2 hno]

end Cli
