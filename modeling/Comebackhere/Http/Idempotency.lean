import Comebackhere.Http.MerchantKeys
import Comebackhere.Library.Crew

/-!
# The idempotency middleware

The middleware stands before the invoice routes. For a request with an idempotency key it looks for
a stored response, in the process's memory and in Redis, waits for a request with the key that is
being handled, takes a lock in Redis, and lets the request through; the response is stored when it
is a success. All these are asynchronous: other requests are handled in between. What the route does
after the middleware begins with the check of the merchant's API key.

## Main definitions

* `Stored`: a stored response, with the request it was produced for
* `Phase`: where the handling of a request is
* `Action`, `step`: the next step of a request, and what happens in Redis and outside

## Main results

* `advance_move`, `step_advance`: the steps of a request
* `answer_eq`: what an answer of the route does
-/

namespace Http

namespace Idempotency

open Machine Offchain

/-! ## Data -/

/-- What the application reads of a request. -/
structure Request where
  method : String
  path : String
  idempotencyKey : Option String
  authorization : Option String
  body : Option Json
  requestId : Option String

structure Response where
  status : ℕ
  body : Json

def Response.ok (r : Response) : Bool := 200 ≤ r.status ∧ r.status < 300

/-- A stored response. The request and the merchant that it was produced for are no part of what the
middleware stores: they record where the response comes from. -/
structure Stored where
  fingerprint : String
  response : Response
  request : Request
  merchant : String

structure MemoryEntry where
  stored : Stored
  expiresAt : ℕ

/-- What Redis has under a key: a lock, which is the value `"1"`, or a stored response. -/
inductive RedisValue
  | lock
  | stored (stored : Stored)

/-- A command that has been sent to Redis and whose answer nobody waits for. -/
inductive RedisCommand
  | setex (key : String) (stored : Stored)
  | del (key : String)

/-- Whether Redis is configured; the hash of a body; and the hash of an API key. -/
structure Config where
  redis : Bool
  digest : Json → String
  hashMerchantApiKey : String → String

/-- Where the handling of a request is. -/
inductive Phase
  /-- Past the middleware, which is not for this request. -/
  | passed
  /-- Waiting for `cacheGet`. -/
  | reading
  /-- The stored response has been loaded, if there is one. -/
  | loaded (entry : Option RedisValue)
  /-- Waiting for the request that is being handled. -/
  | waiting (flight : ℕ)
  /-- Waiting for `cacheTryLock`, and after it. -/
  | locking
  | locked (owner : Bool)
  /-- Waiting for the request that has the lock. -/
  | waitingOwner (flight : ℕ)
  /-- Past `next()`: before the check of the API key, and after it. -/
  | entered
  | authorized (merchant : String)
  /-- Answered by the route, for a merchant if the API key was accepted. -/
  | answered (merchant : Option String) (response : Response)
  /-- Answered by the middleware. -/
  | replayed (stored : Stored)
  | refused (e : AppError)

structure Handler where
  request : Request
  phase : Phase

/-- A stored response has been sent to a request, which was authenticated as this merchant. -/
structure Replay where
  request : Request
  merchant : Option String
  stored : Stored

structure State where
  now : ℕ
  memory : String → Option MemoryEntry
  inFlight : String → Option ℕ
  handlers : List Handler
  /-- What is in Redis, and the commands on their way. -/
  cache : String → Option RedisValue
  pending : List RedisCommand
  keys : Keys
  replays : List Replay

def start (keys : Keys) : State where
  now := 0
  memory _ := none
  inFlight _ := none
  handlers := []
  cache _ := none
  pending := []
  keys
  replays := []

/-- What comes from outside while a request is handled: whether Redis and the database answer, and
what the route responds. -/
structure Answer where
  redisOk : Bool
  mongoOk : Bool
  response : Response

inductive Action
  | arrive (request : Request)
  /-- The next step of a request. -/
  | advance (i : ℕ) (answer : Answer)
  /-- Redis executes the next command that was sent, or fails to. -/
  | redis (ok : Bool)
  /-- What Redis has under a key expires. -/
  | expires (key : String)
  | wait (time : ℕ)
  /-- Merchant keys are created and revoked. -/
  | changeKeys (keys : Keys)

/-! ## The middleware -/

variable (cfg : Config)

/-- `s.trim()` -/
def trim (s : String) : String :=
  String.ofList (((s.toList.dropWhile isSpace).reverse.dropWhile isSpace).reverse)

/-- The key in the stores, for a request that the middleware is for. -/
def Request.storeKey (req : Request) : Option String :=
  if req.method = "POST" ∧ req.path = "/" then
    (present (req.idempotencyKey.map trim)).map ("idempotency:invoice:" ++ ·)
  else none

def Request.fingerprint (req : Request) : String := cfg.digest (req.body.getD .null)

/-- The merchant whose active API key the request carries. -/
def Request.merchant (keys : Keys) (req : Request) : Option String :=
  (req.authorization.bind bearerToken).bind fun token =>
    (findActive keys (cfg.hashMerchantApiKey token)).map (·.merchantAddress)

def ttlSeconds : ℕ := 24 * 60 * 60

def lockKey (key : String) : String := key ++ ":lock"

def State.setPhase (s : State) (i : ℕ) (h : Handler) (phase : Phase) : State :=
  { s with handlers := s.handlers.set i { h with phase } }

/-- `buildErrorEnvelope(err, correlationId)` -/
def errorEnvelope (req : Request) (e : AppError) : Json :=
  .object [("error", .object [("code", .string e.code), ("message", .string e.message),
    ("details", match e.details with
      | none => .null
      | some issues => .array (issues.map fun issue =>
          .object [("field", .string issue.field), ("message", .string issue.message)])),
    ("correlationId", req.requestId.elim .null .string)])]

/-- The load of the stored response: from memory, else from Redis. -/
def arrive (s : State) (req : Request) : State :=
  let push (phase : Phase) : State := { s with handlers := s.handlers ++ [⟨req, phase⟩] }
  match req.storeKey with
  | none => push .passed
  | some key =>
    match (s.memory key).filter (s.now < ·.expiresAt) with
    | some entry => push (.loaded (some (.stored entry.stored)))
    | none => push (if cfg.redis then .reading else .loaded none)

def State.replay (s : State) (i : ℕ) (h : Handler) (stored : Stored) : State :=
  let replay : Replay := ⟨h.request, h.request.merchant cfg s.keys, stored⟩
  { s with replays := s.replays ++ [replay] }.setPhase i h (.replayed stored)

/-- A response that is stored under the request's key. -/
def settle (s : State) (i : ℕ) (h : Handler) (stored : Stored) : State :=
  if stored.fingerprint = h.request.fingerprint cfg then s.replay cfg i h stored
  else s.setPhase i h
    (.refused (conflictError "Idempotency-Key was already used with a different request body"))

/-- After the load. A lock has no fingerprint. -/
def checkLoaded (s : State) (i : ℕ) (h : Handler) (key : String) : Option RedisValue → State
  | some (.stored stored) => settle cfg s i h stored
  | some .lock => s.setPhase i h
      (.refused (conflictError "Idempotency-Key was already used with a different request body"))
  | none =>
    -- the only look at the flight before the lock
    match s.inFlight key with
    | some flight => s.setPhase i h (.waiting flight)
    | none => s.setPhase i h .locking

/-- After a wait for another request. -/
def checkCompleted (s : State) (i : ℕ) (h : Handler) (key : String) : State :=
  match s.memory key with
  -- the memory is read as it is, expired or not
  | some entry => settle cfg s i h entry.stored
  | none => s.setPhase i h .locking

/-- `cacheTryLock` -/
def tryLock (s : State) (i : ℕ) (h : Handler) (key : String) (ok : Bool) : State :=
  -- without Redis, or when it fails, everybody gets the lock
  if cfg.redis = false ∨ ok = false then s.setPhase i h (.locked true)
  else
    match s.cache (lockKey key) with
    | some _ => s.setPhase i h (.locked false)
    | none => { s with cache := Function.update s.cache (lockKey key) (some .lock) }.setPhase i h
        (.locked true)

/-- Another request has the lock. -/
def checkOwner (s : State) (i : ℕ) (h : Handler) (key : String) : State :=
  match s.memory key with
  | some entry => settle cfg s i h entry.stored
  | none => s.setPhase i h
      (.refused (conflictError "A request with this Idempotency-Key is already in progress"))

/-- The request goes on to the route. -/
def enter (s : State) (i : ℕ) (h : Handler) (key : String) : State :=
  { s with inFlight := Function.update s.inFlight key (some i) }.setPhase i h .entered

/-- The commands are sent when Redis is configured. -/
def State.send (s : State) (commands : List RedisCommand) : State :=
  if cfg.redis then { s with pending := s.pending ++ commands } else s

/-- `memory.set` and `cacheSet` -/
def State.keep (s : State) (key : String) (stored : Stored) : State :=
  let entry := ⟨stored, s.now + ttlSeconds * 1000⟩
  { s with memory := Function.update s.memory key (some entry) }.send cfg [.setex key stored]

/-- `inFlight.delete` and `cacheReleaseLock` -/
def State.release (s : State) (key : String) : State :=
  { s with inFlight := Function.update s.inFlight key none }.send cfg [.del (lockKey key)]

/-- The response of the route goes through the middleware's `res.json`: a success is stored. -/
def answer (s : State) (i : ℕ) (h : Handler) (key : String) (merchant : Option String)
    (response : Response) : State :=
  let s := s.setPhase i h (.answered merchant response)
  match merchant with
  | some merchant =>
    if response.ok then
      (s.keep cfg key ⟨h.request.fingerprint cfg, response, h.request, merchant⟩).release cfg key
    else s.release cfg key
  | none => s.release cfg key

/-- `requireMerchantApiKey`; the errors are answered by the error handler. -/
def requireMerchantApiKey (s : State) (i : ℕ) (h : Handler) (key : String) (mongoOk : Bool) :
    State :=
  let fail := fun e : AppError =>
    answer cfg s i h key none ⟨e.status, errorEnvelope h.request e⟩
  match h.request.authorization.bind bearerToken with
  | none => fail (unauthorizedError "A merchant API key is required")
  | some token =>
    if mongoOk = false then fail (internalError "the database does not answer")
    else
      match findActive s.keys (cfg.hashMerchantApiKey token) with
      | none => fail (unauthorizedError "Merchant API key is invalid or revoked")
      | some record => s.setPhase i h (.authorized record.merchantAddress)

/-- The promise of a request in flight has been resolved. -/
def State.resolved (s : State) (flight : ℕ) : Bool :=
  (s.handlers[flight]?).any fun h => match h.phase with
    | .answered .. => true
    | _ => false

/-- The stored response that a request finds at its next step. -/
def State.found (s : State) (h : Handler) (key : String) : Option Stored :=
  match h.phase with
  | .loaded (some (.stored stored)) => some stored
  | .waiting flight | .waitingOwner flight =>
    if s.resolved flight then (s.memory key).map (·.stored) else none
  | .locked false => if s.inFlight key = none then (s.memory key).map (·.stored) else none
  | _ => none

/-- The next step of a request with a key. -/
def advance (s : State) (i : ℕ) (h : Handler) (key : String) (a : Answer) : State :=
  match h.phase with
  | .reading => s.setPhase i h (.loaded (if a.redisOk then s.cache key else none))
  | .loaded entry => checkLoaded cfg s i h key entry
  | .waiting flight => if s.resolved flight then checkCompleted cfg s i h key else s
  | .locking => tryLock cfg s i h key a.redisOk
  -- neither the flight nor the memory is looked at again
  | .locked true => enter s i h key
  | .locked false =>
    match s.inFlight key with
    | some flight => s.setPhase i h (.waitingOwner flight)
    | none => checkOwner cfg s i h key
  | .waitingOwner flight => if s.resolved flight then checkOwner cfg s i h key else s
  | .entered => requireMerchantApiKey cfg s i h key a.mongoOk
  | .authorized merchant => answer cfg s i h key (some merchant) a.response
  | .passed | .answered .. | .replayed _ | .refused _ => s

def executeRedis (s : State) (ok : Bool) : State :=
  match s.pending with
  | [] => s
  | command :: pending =>
    let s := { s with pending }
    if ok then
      match command with
      | .setex key stored => { s with cache := Function.update s.cache key (some (.stored stored)) }
      | .del key => { s with cache := Function.update s.cache key none }
    else s

def step (s : State) : Action → State
  | .arrive req => arrive cfg s req
  | .advance i a =>
    match s.handlers[i]? with
    | none => s
    | some h =>
      match h.request.storeKey with
      | none => s
      | some key => advance cfg s i h key a
  | .redis ok => executeRedis s ok
  | .expires key => { s with cache := Function.update s.cache key none }
  | .wait time => { s with now := s.now + time }
  | .changeKeys keys => { s with keys }

/-! ## What a step of a request does -/

/-- The request is not yet past `next()`, and not answered. -/
def Phase.before : Phase → Bool
  | .reading | .loaded _ | .waiting _ | .locking | .locked _ | .waitingOwner _ => true
  | _ => false

/-- The request is past `next()` and not answered. -/
def Phase.running : Phase → Bool
  | .entered | .authorized _ => true
  | _ => false

/-- The phases that a request may reach from before `next()` without a stored response. -/
inductive Phase.Quiet : Phase → Prop
  | missing : Quiet (.loaded none)
  | lock : Quiet (.loaded (some .lock))
  | waiting (flight : ℕ) : Quiet (.waiting flight)
  | locking : Quiet .locking
  | locked (owner : Bool) : Quiet (.locked owner)
  | waitingOwner (flight : ℕ) : Quiet (.waitingOwner flight)
  | refused (message : String) : Quiet (.refused (conflictError message))

/-- The steps of a request with a key. -/
inductive Move (s : State) (i : ℕ) (h : Handler) (key : String) : State → Prop
  | stay : Move s i h key s
  | quiet (phase : Phase) (hold : h.phase.before = true) (hquiet : phase.Quiet) :
      Move s i h key (s.setPhase i h phase)
  | lock (hold : h.phase = .locking) (hcache : s.cache (lockKey key) = none) :
      Move s i h key ({ s with
        cache := Function.update s.cache (lockKey key) (some .lock) }.setPhase i h (.locked true))
  | load (stored : Stored) (hold : h.phase = .reading)
      (hcache : s.cache key = some (.stored stored)) :
      Move s i h key (s.setPhase i h (.loaded (some (.stored stored))))
  | replay (stored : Stored) (hold : h.phase.before = true) (hfound : s.found h key = some stored)
      (hfingerprint : stored.fingerprint = h.request.fingerprint cfg) :
      Move s i h key (s.replay cfg i h stored)
  | enter (hold : h.phase = .locked true) : Move s i h key (enter s i h key)
  | authorize (merchant : String) (hold : h.phase = .entered)
      (hmerchant : h.request.merchant cfg s.keys = some merchant) :
      Move s i h key (s.setPhase i h (.authorized merchant))
  | fail (response : Response) (hold : h.phase = .entered) (hfail : response.ok = false) :
      Move s i h key (answer cfg s i h key none response)
  | answer (merchant : String) (response : Response) (hold : h.phase = .authorized merchant) :
      Move s i h key (answer cfg s i h key (some merchant) response)

section Move

variable {cfg} {s : State} {i : ℕ} {h : Handler} {key : String}

theorem found_eq_some {stored : Stored} (hfound : s.found h key = some stored) :
    h.phase = .loaded (some (.stored stored)) ∨
      ∃ entry, s.memory key = some entry ∧ entry.stored = stored := by
  unfold State.found at hfound
  split at hfound
  · next hphase =>
    obtain rfl := Option.some.inj hfound
    exact Or.inl hphase
  · split at hfound
    · exact Or.inr (Option.map_eq_some_iff.mp hfound)
    · cases hfound
  · split at hfound
    · exact Or.inr (Option.map_eq_some_iff.mp hfound)
    · cases hfound
  · split at hfound
    · exact Or.inr (Option.map_eq_some_iff.mp hfound)
    · cases hfound
  · cases hfound

theorem move_settle {stored : Stored} (hold : h.phase.before = true)
    (hfound : s.found h key = some stored) :
    Move cfg s i h key (settle cfg s i h stored) := by
  unfold settle
  split
  · next hfingerprint => exact Move.replay stored hold hfound hfingerprint
  · exact Move.quiet _ hold (.refused _)

theorem move_checkCompleted (hold : h.phase.before = true)
    (hfound : s.found h key = (s.memory key).map (·.stored)) :
    Move cfg s i h key (checkCompleted cfg s i h key) := by
  unfold checkCompleted
  split
  · next entry hentry => exact move_settle hold (by rw [hfound, hentry]; rfl)
  · exact Move.quiet _ hold .locking

theorem move_checkOwner (hold : h.phase.before = true)
    (hfound : s.found h key = (s.memory key).map (·.stored)) :
    Move cfg s i h key (checkOwner cfg s i h key) := by
  unfold checkOwner
  split
  · next entry hentry => exact move_settle hold (by rw [hfound, hentry]; rfl)
  · exact Move.quiet _ hold (.refused _)

theorem move_requireMerchantApiKey (hold : h.phase = .entered) (mongoOk : Bool) :
    Move cfg s i h key (requireMerchantApiKey cfg s i h key mongoOk) := by
  unfold requireMerchantApiKey
  simp only
  split
  · exact Move.fail _ hold rfl
  · next token htoken =>
    split
    · exact Move.fail _ hold rfl
    · split
      · exact Move.fail _ hold rfl
      · next record hrecord =>
        apply Move.authorize _ hold
        simp [Request.merchant, htoken, hrecord]

/-- **Every step of a request** with a key is one of these. -/
theorem advance_move (a : Answer) : Move cfg s i h key (advance cfg s i h key a) := by
  unfold advance
  cases hphase : h.phase with
  | reading =>
    have hold : h.phase.before = true := by rw [hphase]; rfl
    simp only
    split
    · cases hcache : s.cache key with
      | none => exact Move.quiet _ hold .missing
      | some value =>
        cases value with
        | lock => exact Move.quiet _ hold .lock
        | stored stored => exact Move.load stored hphase hcache
    · exact Move.quiet _ hold .missing
  | loaded entry =>
    have hold : h.phase.before = true := by rw [hphase]; rfl
    cases entry with
    | some value =>
      cases value with
      | lock => exact Move.quiet _ hold (.refused _)
      | stored stored => exact move_settle hold (by simp [State.found, hphase])
    | none =>
      simp only [checkLoaded]
      split
      · exact Move.quiet _ hold (.waiting _)
      · exact Move.quiet _ hold .locking
  | waiting flight =>
    have hold : h.phase.before = true := by rw [hphase]; rfl
    simp only
    split
    · next hresolved => exact move_checkCompleted hold (by simp [State.found, hphase, hresolved])
    · exact Move.stay
  | locking =>
    have hold : h.phase.before = true := by rw [hphase]; rfl
    simp only [tryLock]
    split
    · exact Move.quiet _ hold (.locked _)
    split
    · exact Move.quiet _ hold (.locked _)
    · next hcache => exact Move.lock hphase hcache
  | locked owner =>
    have hold : h.phase.before = true := by rw [hphase]; rfl
    cases owner with
    | true => exact Move.enter hphase
    | false =>
      simp only
      split
      · exact Move.quiet _ hold (.waitingOwner _)
      · next hflight => exact move_checkOwner hold (by simp [State.found, hphase, hflight])
  | waitingOwner flight =>
    have hold : h.phase.before = true := by rw [hphase]; rfl
    simp only
    split
    · next hresolved => exact move_checkOwner hold (by simp [State.found, hphase, hresolved])
    · exact Move.stay
  | entered => exact move_requireMerchantApiKey hphase a.mongoOk
  | authorized merchant => exact Move.answer merchant a.response hphase
  | passed | answered | replayed | refused => exact Move.stay

/-! ## What an answer of the route does -/

/-- The response that is stored when the route answers. -/
def stores (cfg : Config) (h : Handler) (merchant : Option String) (response : Response) :
    Option Stored :=
  if response.ok then merchant.map fun m => ⟨h.request.fingerprint cfg, response, h.request, m⟩
  else none

theorem stores_eq_some {merchant : Option String} {response : Response} {stored : Stored}
    (hstores : stores cfg h merchant response = some stored) :
    response.ok = true ∧ merchant = some stored.merchant ∧
      stored = ⟨h.request.fingerprint cfg, response, h.request, stored.merchant⟩ := by
  unfold stores at hstores
  split at hstores
  · next hok =>
    obtain ⟨m, rfl, rfl⟩ := Option.map_eq_some_iff.mp hstores
    exact ⟨hok, rfl, rfl⟩
  · cases hstores

theorem send_eq (cfg : Config) (s : State) (commands : List RedisCommand) :
    ∃ sent, s.send cfg commands = { s with pending := s.pending ++ sent } ∧ sent ⊆ commands := by
  unfold State.send
  split
  · exact ⟨commands, rfl, fun _ => id⟩
  · exact ⟨[], by simp, by simp⟩

theorem release_eq (cfg : Config) (key : String) (t : State) :
    ∃ sent, t.release cfg key = { t with
        inFlight := Function.update t.inFlight key none, pending := t.pending ++ sent } ∧
      ∀ key' stored, .setex key' stored ∉ sent := by
  obtain ⟨sent, he, hsent⟩ := send_eq cfg
    { t with inFlight := Function.update t.inFlight key none } [.del (lockKey key)]
  refine ⟨sent, he, fun key' stored hmem => ?_⟩
  simpa using hsent hmem

theorem keep_eq (cfg : Config) (key : String) (t : State) (stored : Stored) :
    ∃ sent, t.keep cfg key stored = { t with
        memory := Function.update t.memory key (some ⟨stored, t.now + ttlSeconds * 1000⟩)
        pending := t.pending ++ sent } ∧
      ∀ key' stored', .setex key' stored' ∈ sent → key' = key ∧ stored' = stored := by
  obtain ⟨sent, he, hsent⟩ := send_eq cfg { t with
    memory := Function.update t.memory key (some ⟨stored, t.now + ttlSeconds * 1000⟩) }
    [.setex key stored]
  refine ⟨sent, he, fun key' stored' hmem => ?_⟩
  simpa using hsent hmem

/-- **What an answer of the route does** to the state. -/
theorem answer_eq (cfg : Config) (s : State) (i : ℕ) (h : Handler) (key : String)
    (merchant : Option String) (response : Response) :
    ∃ sent, answer cfg s i h key merchant response = { s with
        handlers := s.handlers.set i { h with phase := .answered merchant response }
        memory := (stores cfg h merchant response).elim s.memory fun stored =>
          Function.update s.memory key (some ⟨stored, s.now + ttlSeconds * 1000⟩)
        inFlight := Function.update s.inFlight key none
        pending := s.pending ++ sent } ∧
      ∀ key' stored, .setex key' stored ∈ sent →
        key' = key ∧ stores cfg h merchant response = some stored := by
  let t := s.setPhase i h (.answered merchant response)
  cases hstores : stores cfg h merchant response with
  | none =>
    have hanswer : answer cfg s i h key merchant response = t.release cfg key := by
      cases merchant with
      | none => rfl
      | some m =>
        have hok : response.ok = false := by simpa [stores] using hstores
        simp [answer, hok, t]
    obtain ⟨sent, he, hsent⟩ := release_eq cfg key t
    rw [hanswer, he]
    exact ⟨sent, rfl, fun key' stored hmem => absurd hmem (hsent key' stored)⟩
  | some stored =>
    have hanswer : answer cfg s i h key merchant response =
        (t.keep cfg key stored).release cfg key := by
      cases merchant with
      | none => simp [stores] at hstores
      | some m =>
        obtain ⟨hok, rfl⟩ : response.ok = true ∧ _ = stored := by simpa [stores] using hstores
        simp [answer, hok, t]
    obtain ⟨kept, hk, hkept⟩ := keep_eq cfg key t stored
    obtain ⟨sent, hr, hsent⟩ := release_eq cfg key (t.keep cfg key stored)
    refine ⟨kept ++ sent, by rw [hanswer, hr, hk, ← List.append_assoc]; rfl,
      fun key' stored' hmem => ?_⟩
    rcases List.mem_append.mp hmem with hmem | hmem
    · obtain ⟨rfl, rfl⟩ := hkept key' stored' hmem
      exact ⟨rfl, rfl⟩
    · exact absurd hmem (hsent key' stored')

end Move

/-- A response is in Redis under the key, or on its way there. -/
def State.Sent (s : State) (key : String) (stored : Stored) : Prop :=
  s.cache key = some (.stored stored) ∨ .setex key stored ∈ s.pending

/-! ## What an input does -/

section Step

variable {cfg} {s : State}

/-- The next step of a request: nothing, or one of the steps of a request with a key. -/
theorem step_advance (cfg : Config) (s : State) (i : ℕ) (a : Answer) :
    step cfg s (.advance i a) = s ∨ ∃ h key, s.handlers[i]? = some h ∧
      h.request.storeKey = some key ∧ Move cfg s i h key (step cfg s (.advance i a)) := by
  cases hi : s.handlers[i]? with
  | none => exact Or.inl (by simp only [step, hi])
  | some h =>
    cases hkey : h.request.storeKey with
    | none => exact Or.inl (by simp only [step, hi, hkey])
    | some key =>
      refine Or.inr ⟨h, key, rfl, hkey, ?_⟩
      simp only [step, hi, hkey]
      exact advance_move a

/-- No response gets into Redis where a lock is written or a key is deleted. -/
theorem sent_of_update {key key' : String} {value : Option RedisValue} {stored : Stored}
    (hvalue : ∀ stored, value ≠ some (.stored stored))
    (hsent : State.Sent { s with cache := Function.update s.cache key' value } key stored) :
    s.Sent key stored := by
  apply hsent.imp_left
  intro hcache
  dsimp only at hcache
  rw [Function.update_apply] at hcache
  split at hcache
  · exact absurd hcache (hvalue stored)
  · exact hcache

/-- A request that arrives knows a stored response only from memory. -/
theorem arrive_eq (cfg : Config) (s : State) (req : Request) :
    ∃ phase, arrive cfg s req = { s with handlers := s.handlers ++ [⟨req, phase⟩] } ∧
      (phase = .passed ∨ phase.before = true) ∧
      ∀ stored, phase = .loaded (some (.stored stored)) → ∃ key entry,
        req.storeKey = some key ∧ s.memory key = some entry ∧ entry.stored = stored := by
  unfold arrive
  dsimp only
  split
  · exact ⟨.passed, rfl, Or.inl rfl, by simp⟩
  · next key hkey =>
    split
    · next entry hentry =>
      refine ⟨_, rfl, Or.inr rfl, fun stored hstored => ?_⟩
      exact ⟨key, entry, hkey, (Option.filter_eq_some_iff.mp hentry).1, by simpa using hstored⟩
    · refine ⟨_, rfl, Or.inr ?_, fun stored hstored => ?_⟩
      · split <;> rfl
      · split at hstored <;> cases hstored

/-- A response gets into Redis only by a command that was sent. -/
theorem executeRedis_eq (ok : Bool) :
    ∃ cache pending, executeRedis s ok = { s with cache, pending } ∧ pending ⊆ s.pending ∧
      ∀ key stored, cache key = some (.stored stored) →
        s.cache key = some (.stored stored) ∨ .setex key stored ∈ s.pending := by
  unfold executeRedis
  split
  · exact ⟨s.cache, s.pending, rfl, fun _ => id, fun key stored => Or.inl⟩
  · next command pending hpending =>
    have hsub : pending ⊆ s.pending := by
      rw [hpending]
      exact List.subset_cons_self _ _
    dsimp only
    split
    · cases command with
      | setex key stored =>
        refine ⟨_, pending, rfl, hsub, fun key' stored' hcache => ?_⟩
        rw [Function.update_apply] at hcache
        split at hcache
        · next heq =>
          obtain rfl : stored = stored' := by simpa using hcache
          exact Or.inr (by simp [hpending, heq])
        · exact Or.inl hcache
      | del key =>
        refine ⟨_, pending, rfl, hsub, fun key' stored' hcache => ?_⟩
        rw [Function.update_apply] at hcache
        split at hcache
        · cases hcache
        · exact Or.inl hcache
    · exact ⟨s.cache, pending, rfl, hsub, fun key stored => Or.inl⟩

end Step

namespace Example

open Http.Example

/-- A process without Redis. -/
def config : Config where
  redis := false
  digest
    | .object _ => "71b89bc1f5511db8e2b12c1892e0ca6d240542bf7e8de9490fbd58182a5eb328"
    | _ => "74234e98afe7498fb5daf1f36ac2d78acc339464f950703b8c019892f982b90b"
  hashMerchantApiKey := platform.hashMerchantApiKey

/-- The request for an invoice. -/
def invoiceRequest (authorization : Option String) : Request where
  method := "POST"
  path := "/"
  idempotencyKey := some "order-1"
  authorization
  body := some (.object [
    ("token", .string "CDLZFC3SYJYDZT7K67VZ75HPJVIEUVNIXF47ZG2FB2RMQQVU2HHGCYSC"),
    ("amount", .number 1000), ("due_date", .number 1900000000)])
  requestId := none

/-- The request with the merchant's API key. -/
def merchantRequest : Request := invoiceRequest (some ("Bearer ch_" ++ firstKey.secret))

def invoiceKey : String := "idempotency:invoice:order-1"

def created : Response where
  status := 201
  body := .object [("invoice_id", .string "1"), ("status", .string "Pending")]

/-- The merchant's first key is active. -/
def firstKeys : Keys := run (Http.step platform) Collection.empty firstCreated

def answers : Answer := ⟨true, true, created⟩

end Example

end Idempotency

end Http
