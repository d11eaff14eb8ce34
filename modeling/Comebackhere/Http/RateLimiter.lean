import Comebackhere.Library.Decimal
import Comebackhere.Library.Run
import Comebackhere.Library.SlidingWindow

/-!
# The rate limiter of the Rust backend

A layer around the routes of the Rust backend admits a number of requests of a client in a rolling
window, and answers the others with a status of 429. It keeps the times of the admitted requests in
a bucket for each client, behind a lock. Who the client is it reads from the `X-Forwarded-For`
header or, where there is none, from the address of the peer. A thread that panics with the lock in
its hands poisons it. Times are nanoseconds, and those of the two clocks are parts of the input.

## Main definitions

* `RateLimitConfig.fromEnv`: the configuration
* `Bucket.checkAndRecord`: the verdict on a request, unless the thread panics
* `extractIp`: the client that a request counts for
* `call`: what becomes of a request
* `admitted config ip h`: when the requests of a client were admitted

## Main results

* `Tracks.step`: the buckets have the recent ones of the admitted times
-/

namespace RateLimiter

open Machine SlidingWindow

/-! ## Configuration -/

/-- A second, in nanoseconds. -/
def second : ℕ := 1000000000

structure RateLimitConfig where
  maxRequests : ℕ
  window : ℕ
  deriving DecidableEq

/-- The environment variables that are set, to a text of Unicode. -/
abbrev Environment := String → Option String

/-- `str::parse::<u64>`: there may be a plus sign before the digits. -/
def parseU64 (text : String) : Option ℕ :=
  let digits :=
    match text.toList with
    | '+' :: digits => digits
    | digits => digits
  if digits ≠ [] ∧ digits.all Char.isDigit ∧ Decimal.value digits < 2 ^ 64 then
    some (Decimal.value digits)
  else none

def RateLimitConfig.fromEnv (env : Environment) : RateLimitConfig where
  maxRequests := ((env "RATE_LIMIT_POINTS").bind parseU64).getD 60
  window := ((env "RATE_LIMIT_DURATION").bind parseU64).getD 60 * second

/-! ## Buckets -/

/-- The times of the admitted requests, without those that have left the window. -/
structure Bucket where
  timestamps : List ℕ
  deriving DecidableEq

def Bucket.new : Bucket := ⟨[]⟩

/-- The verdict on a request, what is left for others, and how long to wait. -/
structure Verdict where
  allowed : Bool
  remaining : ℕ
  retryAfter : ℕ
  deriving DecidableEq

/-- The latest `Instant`: its seconds have 63 bits. -/
def maxInstant : ℕ := 2 ^ 63 * second - 1

/-- `Instant::checked_add` -/
def checkedAdd (t duration : ℕ) : Option ℕ :=
  if t + duration ≤ maxInstant then some (t + duration) else none

/-- Stale entries are purged, and the request is recorded if it is permitted. There is no verdict
when the thread panics: an index is out of bounds. A duration that would be negative is zero. -/
def Bucket.checkAndRecord (bucket : Bucket) (now window max : ℕ) : Option Verdict × Bucket :=
  let timestamps := bucket.timestamps.filter fun t => now - t < window
  if max ≤ timestamps.length then
    match timestamps[0]? with
    | none => (none, ⟨timestamps⟩)
    | some oldest =>
      let retryAfter := ((checkedAdd oldest window).map fun expiry => expiry - now).getD window
      (some ⟨false, 0, retryAfter⟩, ⟨timestamps⟩)
  else
    let timestamps := timestamps ++ [now]
    (some ⟨true, max - timestamps.length, 0⟩, ⟨timestamps⟩)

/-- The buckets of the clients, and whether the lock around them is poisoned. -/
structure RateLimiterStore where
  buckets : String → Option Bucket
  poisoned : Bool

def newStore : RateLimiterStore := ⟨fun _ => none, false⟩

/-- The bucket of a client, which a first request creates. -/
def RateLimiterStore.bucket (store : RateLimiterStore) (ip : String) : Bucket :=
  (store.buckets ip).getD .new

/-- What a request does while it holds the lock. -/
def RateLimiterStore.check (store : RateLimiterStore) (config : RateLimitConfig) (ip : String)
    (now : ℕ) : Option Verdict × RateLimiterStore :=
  if store.poisoned then (none, store)
  else
    let (verdict, bucket) :=
      (store.bucket ip).checkAndRecord now config.window config.maxRequests
    (verdict, ⟨Function.update store.buckets ip (some bucket), verdict = none⟩)

/-! ## Requests and responses -/

/-- What the limiter reads of a request: the headers, with names in lower case, and the address of
the peer, where the server passes it on. -/
structure Request (Addr : Type) where
  headers : List (String × List UInt8)
  connectInfo : Option Addr

/-- `HeaderValue::to_str`: a text of visible characters of ASCII, blanks and tabs. -/
def toStr (value : List UInt8) : Option (List Char) :=
  if value.all fun b => b = 9 ∨ (32 ≤ b ∧ b < 127) then some (value.map fun b => Char.ofNat b.toNat)
  else none

def isBlank (c : Char) : Bool := c = ' ' ∨ c = '\t'

/-- `str::trim`, of a text of a header. -/
def trim (cs : List Char) : List Char := (cs.dropWhile isBlank).rdropWhile isBlank

variable {Addr : Type} [ToString Addr]

/-- The first address of the `X-Forwarded-For` header. -/
def forwardedFor (request : Request Addr) : Option String :=
  match (request.headers.lookup "x-forwarded-for").bind toStr with
  | none => none
  | some forwarded =>
    let trimmed := trim (forwarded.takeWhile (· ≠ ','))
    if trimmed = [] then none else some (String.ofList trimmed)

def extractIp (request : Request Addr) : String :=
  match forwardedFor request with
  | some ip => ip
  | none => (request.connectInfo.map toString).getD "unknown"

structure RateLimitHeaders where
  limit : ℕ
  remaining : ℕ
  reset : ℕ
  deriving DecidableEq

/-- A response with the status 429: its headers, and the two fields of its body. -/
structure TooManyRequests where
  retryAfterHeader : ℕ
  error : String
  retryAfter : ℕ
  headers : RateLimitHeaders
  deriving DecidableEq

def buildRateLimitResponse (retryAfterSecs limit reset : ℕ) : TooManyRequests where
  retryAfterHeader := max retryAfterSecs 1
  error := "Too many requests. Please retry after the indicated number of seconds."
  retryAfter := retryAfterSecs
  headers := ⟨limit, 0, reset⟩

/-- What becomes of a request: it is handed to the routes, whose response gets some headers, or it is
answered at once, or the thread panics. -/
inductive Outcome
  | forwarded (headers : RateLimitHeaders)
  | limited (response : TooManyRequests)
  | panicked
  deriving DecidableEq

/-- A request, with the times of the monotonic clock and, in seconds, of the wall clock. -/
structure Arrival (Addr : Type) where
  request : Request Addr
  now : ℕ
  unixTime : ℕ

def Arrival.ip (arrival : Arrival Addr) : String := extractIp arrival.request

/-- When the window resets: a sum of 64 bits, in a release build. -/
def resetTimestamp (config : RateLimitConfig) (unixTime : ℕ) : ℕ :=
  (unixTime + config.window / second) % 2 ^ 64

/-- The outcome of a verdict. -/
def respond (config : RateLimitConfig) (unixTime : ℕ) : Option Verdict → Outcome
  | none => .panicked
  | some verdict =>
    let reset := resetTimestamp config unixTime
    if verdict.allowed then .forwarded ⟨config.maxRequests, verdict.remaining, reset⟩
    else
      let retryAfterSecs := max (verdict.retryAfter / second) 1
      .limited (buildRateLimitResponse retryAfterSecs config.maxRequests reset)

def call (config : RateLimitConfig) (store : RateLimiterStore) (arrival : Arrival Addr) :
    Outcome × RateLimiterStore :=
  let (verdict, store) := store.check config arrival.ip arrival.now
  (respond config arrival.unixTime verdict, store)

/-! ## Runs -/

/-- The limiter as a machine: one request after another. -/
def step (config : RateLimitConfig) (store : RateLimiterStore) (arrival : Arrival Addr) :
    RateLimiterStore :=
  (call config store arrival).2

def Outcome.isForwarded : Outcome → Bool
  | .forwarded _ => true
  | _ => false

/-- When the requests of a client were admitted, in a history. -/
def admitted (config : RateLimitConfig) (ip : String)
    (h : List (RateLimiterStore × Arrival Addr)) : List ℕ :=
  h.filterMap fun t =>
    if t.2.ip = ip ∧ (call config t.1 t.2).1.isForwarded then some t.2.now else none

/-! ## Verdicts -/

section Verdict

variable {bucket : Bucket} {now window max : ℕ}

theorem purge_eq {l : List ℕ} (h : ∀ t ∈ l, t ≤ now) :
    (l.filter fun t => now - t < window) = recent window now l := by
  apply List.filter_congr
  intro t ht
  have hle := h t ht
  simp only [decide_eq_decide]
  omega

/-- A verdict at a time after those of the bucket: the request is recorded if there is room for it
among the recent ones, and otherwise waits until the oldest of them leaves the window. -/
theorem checkAndRecord_cases (hmax : 1 ≤ max) (h : ∀ t ∈ bucket.timestamps, t ≤ now) :
    ((recent window now bucket.timestamps).length < max ∧
      bucket.checkAndRecord now window max =
        (some ⟨true, max - ((recent window now bucket.timestamps).length + 1), 0⟩,
          ⟨recent window now bucket.timestamps ++ [now]⟩)) ∨
    ∃ oldest, (recent window now bucket.timestamps).head? = some oldest ∧
      max ≤ (recent window now bucket.timestamps).length ∧
      bucket.checkAndRecord now window max =
        (some ⟨false, 0, ((checkedAdd oldest window).map fun expiry => expiry - now).getD window⟩,
          ⟨recent window now bucket.timestamps⟩) := by
  rw [Bucket.checkAndRecord, purge_eq h]
  by_cases hroom : max ≤ (recent window now bucket.timestamps).length
  · rw [if_pos hroom]
    cases hkept : recent window now bucket.timestamps with
    | nil =>
      rw [hkept, List.length_nil] at hroom
      omega
    | cons oldest rest => exact Or.inr ⟨oldest, rfl, hkept ▸ hroom, rfl⟩
  · rw [if_neg hroom]
    exact Or.inl ⟨by omega, by simp⟩

end Verdict

/-! ## The buckets of a run -/

section Run

variable {config : RateLimitConfig} {ip : String} {h : List (RateLimiterStore × Arrival Addr)}
  {s : RateLimiterStore} {a : Arrival Addr} {now : ℕ}

theorem admitted_snoc : admitted config ip (h ++ [(s, a)]) =
    admitted config ip h ++
      if a.ip = ip ∧ (call config s a).1.isForwarded then [a.now] else [] := by
  rw [admitted, List.filterMap_append]
  congr 1
  by_cases hip : a.ip = ip ∧ (call config s a).1.isForwarded <;> simp [hip]

theorem admitted_le (hnow : ∀ t ∈ h, t.2.now ≤ now) : ∀ t ∈ admitted config ip h, t ≤ now := by
  intro t ht
  obtain ⟨e, he, het⟩ := List.mem_filterMap.mp ht
  obtain ⟨-, het⟩ := Option.ite_none_right_eq_some.mp het
  obtain rfl := Option.some.inj het
  exact hnow e he

/-- The buckets have the recent ones of the times that were admitted, and no others than those. -/
structure Tracks (config : RateLimitConfig) (h : List (RateLimiterStore × Arrival Addr))
    (s : RateLimiterStore) : Prop where
  sound : s.poisoned = false
  admissible : ∀ ip, Admissible config.window config.maxRequests (admitted config ip h)
  recent_eq : ∀ ip now, (∀ t ∈ h, t.2.now ≤ now) →
    recent config.window now (s.bucket ip).timestamps =
      recent config.window now (admitted config ip h)
  among : ∀ ip, (s.bucket ip).timestamps.Sublist (admitted config ip h)
  short : ∀ ip, (s.bucket ip).timestamps.length ≤ config.maxRequests

theorem tracks_new : Tracks config ([] : List (RateLimiterStore × Arrival Addr)) newStore where
  sound := rfl
  admissible _ := .nil
  recent_eq _ _ _ := rfl
  among _ := List.Sublist.refl _
  short _ := Nat.zero_le _

/-- **The answer to a request**, by the admitted times in the window that ends with it. -/
theorem Tracks.call_cases (hs : Tracks config h s) (hmax : 1 ≤ config.maxRequests)
    (hnow : ∀ t ∈ h, t.2.now ≤ a.now) :
    ((recent config.window a.now (admitted config a.ip h)).length < config.maxRequests ∧
      call config s a =
        (.forwarded ⟨config.maxRequests, config.maxRequests -
            ((recent config.window a.now (admitted config a.ip h)).length + 1),
            resetTimestamp config a.unixTime⟩,
          ⟨Function.update s.buckets a.ip
            (some ⟨recent config.window a.now (admitted config a.ip h) ++ [a.now]⟩), false⟩)) ∨
    ∃ oldest, (recent config.window a.now (admitted config a.ip h)).head? = some oldest ∧
      (recent config.window a.now (admitted config a.ip h)).length = config.maxRequests ∧
      call config s a =
        (.limited (buildRateLimitResponse (max (((checkedAdd oldest config.window).map
            fun expiry => expiry - a.now).getD config.window / second) 1) config.maxRequests
            (resetTimestamp config a.unixTime)),
          ⟨Function.update s.buckets a.ip
            (some ⟨recent config.window a.now (admitted config a.ip h)⟩), false⟩) := by
  have hbefore : ∀ t ∈ (s.bucket a.ip).timestamps, t ≤ a.now := fun t ht =>
    admitted_le hnow t ((hs.among a.ip).subset ht)
  have hcheck := @checkAndRecord_cases _ a.now config.window _ hmax hbefore
  rw [hs.recent_eq a.ip a.now hnow] at hcheck
  rcases hcheck with ⟨hroom, hcheck⟩ | ⟨oldest, hold, hfull, hcheck⟩
  · refine Or.inl ⟨hroom, ?_⟩
    simp [call, RateLimiterStore.check, hs.sound, hcheck, respond]
  · have hle := (hs.admissible a.ip).length_recent_le (admitted_le hnow)
    refine Or.inr ⟨oldest, hold, hle.antisymm hfull, ?_⟩
    simp [call, RateLimiterStore.check, hs.sound, hcheck, respond]

/-- **One request** leaves the buckets with what is recent. -/
theorem Tracks.step (hs : Tracks config h s) (hmax : 1 ≤ config.maxRequests)
    (hnow : ∀ t ∈ h, t.2.now ≤ a.now) : Tracks config (h ++ [(s, a)]) (step config s a) := by
  have hle : ∀ t ∈ admitted config a.ip h, t ≤ a.now := admitted_le hnow
  -- the client's own bucket, and what is appended to the times it was admitted at
  obtain ⟨times, new, hcall, hadmitted, hadmissible, hrecent, hsub, hshort⟩ : ∃ times new,
      RateLimiter.step config s a = ⟨Function.update s.buckets a.ip (some ⟨times⟩), false⟩ ∧
      (∀ ip, admitted config ip (h ++ [(s, a)]) =
        admitted config ip h ++ if a.ip = ip then new else []) ∧
      Admissible config.window config.maxRequests (admitted config a.ip h ++ new) ∧
      (∀ now, a.now ≤ now → recent config.window now times =
        recent config.window now (admitted config a.ip h ++ new)) ∧
      times.Sublist (admitted config a.ip h ++ new) ∧ times.length ≤ config.maxRequests := by
    rcases hs.call_cases hmax hnow with ⟨hroom, hcall⟩ | ⟨oldest, -, hfull, hcall⟩
    · refine ⟨_, [a.now], congrArg Prod.snd hcall, fun ip => ?_,
        .snoc (hs.admissible a.ip) hle hroom, fun now hlater => ?_,
        recent_sublist.append_right _, ?_⟩
      · simp [admitted_snoc, hcall, Outcome.isForwarded]
      · rw [recent_append, recent_append, recent_recent hlater]
      · rw [List.length_append, List.length_singleton]
        omega
    · refine ⟨_, [], congrArg Prod.snd hcall, fun ip => ?_, ?_, fun now hlater => ?_, ?_, hfull.le⟩
      · simp [admitted_snoc, hcall, Outcome.isForwarded]
      · rw [List.append_nil]
        exact hs.admissible a.ip
      · rw [List.append_nil, recent_recent hlater]
      · rw [List.append_nil]
        exact recent_sublist
  have hbucket : ∀ ip, ((RateLimiter.step config s a).bucket ip).timestamps =
      if a.ip = ip then times else (s.bucket ip).timestamps := by
    intro ip
    by_cases hip : a.ip = ip
    · subst hip
      simp [hcall, RateLimiterStore.bucket]
    · simp [hcall, RateLimiterStore.bucket, Ne.symm hip, hip]
  constructor
  · rw [hcall]
  · intro ip
    rw [hadmitted]
    by_cases hip : a.ip = ip
    · subst hip
      simpa using hadmissible
    · simpa [hip] using hs.admissible ip
  · intro ip now hlater
    have ha : a.now ≤ now := hlater (s, a) (by simp)
    have hh := hs.recent_eq ip now fun t ht => hlater t (List.mem_append_left _ ht)
    rw [hbucket, hadmitted]
    by_cases hip : a.ip = ip
    · subst hip
      simpa using hrecent now ha
    · simpa [hip] using hh
  · intro ip
    rw [hbucket, hadmitted]
    by_cases hip : a.ip = ip
    · subst hip
      simpa using hsub
    · simpa [hip] using hs.among ip
  · intro ip
    rw [hbucket]
    by_cases hip : a.ip = ip
    · simpa [hip] using hshort
    · simpa [hip] using hs.short ip

/-- Requests that come one after the other. -/
def InOrder (rs : List (Arrival Addr)) : Prop := rs.Pairwise fun a b => a.now ≤ b.now

theorem InOrder.each {rs : List (Arrival Addr)} (hrs : InOrder rs) :
    Each (RateLimiter.step config) (fun h _ a => ∀ t ∈ h, t.2.now ≤ a.now) s rs := by
  intro pre a hpre t ht
  obtain ⟨q, hq, -⟩ := (mem_transitions_iff _).mp ht
  have hmem : t.2 ∈ pre := hq.subset (by simp)
  have horder : InOrder (pre ++ [a]) := hrs.sublist hpre.sublist
  exact (List.pairwise_append.mp horder).2.2 t.2 hmem a (List.mem_singleton_self a)

/-- **The buckets of a run** have the recent ones of the admitted times. -/
theorem tracks_run (hmax : 1 ≤ config.maxRequests) {rs : List (Arrival Addr)} (hrs : InOrder rs) :
    Tracks config (transitions (RateLimiter.step config) newStore rs)
      (run (RateLimiter.step config) newStore rs) :=
  inv_of_each tracks_new (fun _ _ _ hs hnow => hs.step hmax hnow) hrs.each

end Run

end RateLimiter
