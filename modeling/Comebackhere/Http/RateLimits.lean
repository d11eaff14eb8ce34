import Comebackhere.Http.RateLimiter

/-!
# What the rate limiter promises

With a maximum of one or more the limiter admits as many requests of a client as it may, and no
more, in every window. The wait that it tells a client is cut to whole seconds, so that a client who
waits so long may come too early. The client of a request is whoever its `X-Forwarded-For` header
names, also where the peer is no trusted proxy. With a maximum of zero the first request finds an
empty bucket full, and there is no oldest time in it.

## Main definitions

* `Limits`, `Answers`: what holds of the admitted times of a client, and of the answer to a request
* `TrustedProxies`, `rateLimiter`: what the router hands to the limiter
* `NotEvaded`: the requests of a peer are all counted together

## Main results

* `limits`: windows, answers and buckets of every client
* `retryAfter_iff`: when the wait that is told is long enough
* `notEvaded_iff`: when the requests of a peer are counted together
* `decides_iff`: when no request panics
-/

namespace RateLimiter

open Machine SlidingWindow

variable {Addr : Type} [ToString Addr]

/-! ## Windows -/

/-- No window has more than the maximum of admitted requests of a client, and its bucket is sorted
and no longer than that. -/
structure Limits (config : RateLimitConfig) (ip : String)
    (h : List (RateLimiterStore × Arrival Addr)) (s : RateLimiterStore) : Prop where
  admits : ∀ t, (during t config.window (admitted config ip h)).length ≤ config.maxRequests
  sorted : (s.bucket ip).timestamps.Pairwise (· ≤ ·)
  short : (s.bucket ip).timestamps.length ≤ config.maxRequests

/-- The admitted requests of a client, in the window that ends at `now`. -/
def inWindow (config : RateLimitConfig) (ip : String) (h : List (RateLimiterStore × Arrival Addr))
    (now : ℕ) : List ℕ :=
  recent config.window now (admitted config ip h)

/-- A request is answered with what remains of the maximum in the window that ends with it, and is
refused only where that window has the maximum of admitted requests. A request that is admitted is
in its window, also in one without any length. -/
def Answers (config : RateLimitConfig) (h : List (RateLimiterStore × Arrival Addr))
    (s : RateLimiterStore) (a : Arrival Addr) : Prop :=
  let before := (inWindow config a.ip h a.now).length
  match (call config s a).1 with
  | .forwarded headers => headers.remaining + (before + 1) = config.maxRequests
  | .limited response =>
    before = config.maxRequests ∧ response.headers.remaining + before = config.maxRequests
  | .panicked => False

variable {config : RateLimitConfig} {h : List (RateLimiterStore × Arrival Addr)}
  {s : RateLimiterStore} {a : Arrival Addr} {rs : List (Arrival Addr)}

theorem Tracks.toLimits (hs : Tracks config h s) (ip : String) : Limits config ip h s where
  admits := (hs.admissible ip).length_during_le
  sorted := (hs.admissible ip).sorted.sublist (hs.among ip)
  short := hs.short ip

theorem Tracks.answers (hs : Tracks config h s) (hmax : 1 ≤ config.maxRequests)
    (hnow : ∀ t ∈ h, t.2.now ≤ a.now) : Answers config h s a := by
  rcases hs.call_cases hmax hnow with ⟨hroom, hcall⟩ | ⟨oldest, -, hfull, hcall⟩
  · rw [Answers, hcall]
    exact Nat.sub_add_cancel hroom
  · rw [Answers, hcall]
    exact ⟨hfull, (Nat.zero_add _).trans hfull⟩

/-- A request is admitted if its window has room. -/
theorem Tracks.isForwarded_iff (hs : Tracks config h s) (hmax : 1 ≤ config.maxRequests)
    (hnow : ∀ t ∈ h, t.2.now ≤ a.now) :
    (call config s a).1.isForwarded ↔
      (inWindow config a.ip h a.now).length < config.maxRequests := by
  rcases hs.call_cases hmax hnow with ⟨hroom, hcall⟩ | ⟨oldest, -, hfull, hcall⟩
  · rw [hcall]
    exact iff_of_true rfl hroom
  · rw [hcall]
    exact iff_of_false Bool.false_ne_true (by rw [inWindow, hfull]; exact lt_irrefl _)

/-- **Windows, answers and buckets** of every client, with a maximum of one or more. -/
theorem limits (config : RateLimitConfig) (hmax : 1 ≤ config.maxRequests) (hrs : InOrder rs)
    (ip : String) :
    Always (step config) (Limits config ip) newStore rs ∧
      Each (step config) (Answers config) newStore rs := by
  constructor
  · intro pre hpre
    exact (tracks_run hmax (hrs.sublist hpre.sublist)).toLimits ip
  · intro pre a hpre
    have hpre' := (List.prefix_append pre [a]).trans hpre
    exact (tracks_run hmax (hrs.sublist hpre'.sublist)).answers hmax (hrs.each pre a hpre)

/-- One request in a minute. -/
def oneInAMinute : RateLimitConfig := ⟨1, 60 * second⟩

/-- A request without any header. -/
def plain (now : ℕ) : Arrival String := ⟨⟨[], some "203.0.113.9"⟩, now, 0⟩

theorem limits_twice :
    Always (step oneInAMinute) (Limits oneInAMinute "203.0.113.9") newStore [plain 0, plain 0] ∧
      Each (step oneInAMinute) (Answers oneInAMinute) newStore [plain 0, plain 0] :=
  limits oneInAMinute le_rfl (by simp [InOrder, plain]) "203.0.113.9"

/-! ## The wait -/

/-- The seconds that a client is told to wait last until the oldest request leaves the window, or
what they cut off is missing. -/
theorem le_add_wait_iff {oldest now window n : ℕ} (hwhole : second ∣ window)
    (hrecent : now < oldest + window) (hbefore : oldest ≤ now)
    (hn : n = max (max (((checkedAdd oldest window).map fun expiry => expiry - now).getD window /
      second) 1) 1) (hlast : now + n * second ≤ maxInstant) :
    oldest + window ≤ now + n * second ↔
      oldest + window ≤ now + second ∨ now % second = oldest % second := by
  obtain ⟨k, rfl⟩ := hwhole
  rw [checkedAdd] at hn
  split at hn
  · rw [Option.map_some, Option.getD_some] at hn
    simp only [second] at *
    omega
  · next hover =>
    -- the expiry is after the last instant, and with it the time that the client comes
    rw [Option.map_none, Option.getD_none] at hn
    simp only [second] at *
    omega

/-- **The wait that a client is told is long enough** exactly if what is left of the oldest request's
window is a whole number of seconds, or no more than one. -/
theorem retryAfter_iff (config : RateLimitConfig) (hmax : 1 ≤ config.maxRequests)
    (hwhole : second ∣ config.window) {a later : Arrival Addr} (hrs : InOrder (rs ++ [a]))
    {response : TooManyRequests}
    (hlimited : (call config (run (step config) newStore rs) a).1 = .limited response)
    (hip : later.ip = a.ip) (hnow : later.now = a.now + response.retryAfterHeader * second)
    (hlast : later.now ≤ maxInstant) :
    (call config (run (step config) newStore (rs ++ [a])) later).1.isForwarded ↔
      ∃ oldest, (inWindow config a.ip (transitions (step config) newStore rs) a.now).head? =
          some oldest ∧
        (oldest + config.window ≤ a.now + second ∨ a.now % second = oldest % second) := by
  have hs : Tracks config (transitions (step config) newStore rs) (run (step config) newStore rs) :=
    tracks_run hmax (hrs.sublist (List.sublist_append_left ..))
  have hbefore : ∀ t ∈ transitions (step config) newStore rs, t.2.now ≤ a.now :=
    hrs.each rs a List.prefix_rfl
  rcases hs.call_cases hmax hbefore with ⟨-, hcall⟩ | ⟨oldest, hold, hfull, hcall⟩
  · rw [hcall] at hlimited
    cases hlimited
  have hresponse := hlimited
  rw [hcall] at hresponse
  obtain rfl := Outcome.limited.inj hresponse
  -- the request that was refused has not been recorded
  have hadmitted : admitted config later.ip (transitions (step config) newStore (rs ++ [a])) =
      admitted config a.ip (transitions (step config) newStore rs) := by
    rw [transitions_snoc, hip, admitted_snoc, hlimited]
    simp [Outcome.isForwarded]
  have hle : a.now ≤ later.now := hnow ▸ Nat.le_add_right ..
  have hrs' : InOrder (rs ++ [a] ++ [later]) := by
    refine List.pairwise_append.mpr ⟨hrs, List.pairwise_singleton .., fun b hb c hc => ?_⟩
    obtain rfl := List.mem_singleton.mp hc
    rcases List.mem_append.mp hb with hb | hb
    · exact ((List.pairwise_append.mp hrs).2.2 b hb a (List.mem_singleton_self a)).trans hle
    · exact List.mem_singleton.mp hb ▸ hle
  have hs' : Tracks config (transitions (step config) newStore (rs ++ [a]))
      (run (step config) newStore (rs ++ [a])) := tracks_run hmax hrs
  rw [hs'.isForwarded_iff hmax (hrs'.each (rs ++ [a]) later List.prefix_rfl), inWindow, hadmitted,
    ← recent_recent hle, ← hfull, length_recent_lt_iff
      ((hs.admissible a.ip).sorted.sublist recent_sublist) hold]
  have hmem := mem_recent.mp (List.mem_of_head? hold)
  rw [hnow]
  refine (le_add_wait_iff hwhole hmem.2 (admitted_le hbefore oldest hmem.1) rfl
    (hnow ▸ hlast)).trans ?_
  constructor
  · exact fun hwait => ⟨oldest, hold, hwait⟩
  · rintro ⟨oldest', hold', hwait⟩
    obtain rfl := Option.some.inj (hold.symm.trans hold')
    exact hwait
/-- A refusal a second after the request in the window: the wait of 59 seconds is long enough. -/
theorem retryAfter_iff_wholeSecond :
    (call oneInAMinute (run (step oneInAMinute) newStore [plain 0, plain second])
        (plain (60 * second))).1.isForwarded ↔
      ∃ oldest, (inWindow oneInAMinute "203.0.113.9"
          (transitions (step oneInAMinute) newStore [plain 0]) second).head? = some oldest ∧
        (oldest + 60 * second ≤ second + second ∨ second % second = oldest % second) := by
  have hrs : InOrder ([plain 0] ++ [plain second]) := by simp [InOrder, plain]
  have hlimited : (call oneInAMinute (run (step oneInAMinute) newStore [plain 0])
      (plain second)).1 = .limited (buildRateLimitResponse 59 1 60) := by decide
  exact retryAfter_iff oneInAMinute le_rfl ⟨60, mul_comm ..⟩ hrs hlimited rfl (by decide)
    (by decide)

/-- A refusal half a second after it: 59 seconds are told, and half a second is missing. -/
theorem not_retryAfter_sufficient :
    ¬ ∀ (config : RateLimitConfig) (rs : List (Arrival String)) (a later : Arrival String)
      (response : TooManyRequests), 1 ≤ config.maxRequests → second ∣ config.window →
      InOrder (rs ++ [a]) →
      (call config (run (step config) newStore rs) a).1 = .limited response →
      later.ip = a.ip → later.now = a.now + response.retryAfterHeader * second →
      (call config (run (step config) newStore (rs ++ [a])) later).1.isForwarded := by
  intro h
  have hcall := h oneInAMinute [plain 0] (plain (second / 2)) (plain (59 * second + second / 2))
    (buildRateLimitResponse 59 1 60) le_rfl ⟨60, mul_comm ..⟩ (by simp [InOrder, plain])
    (by decide) rfl (by decide)
  exact absurd hcall (by decide)
/-! ## Trusted proxies -/

section Proxies

variable [DecidableEq Addr]

/-- The peers whose `X-Forwarded-For` header is to be trusted. -/
structure TrustedProxies (Addr : Type) where
  addrs : List Addr

def TrustedProxies.isTrusted (proxies : TrustedProxies Addr) (peer : Addr) : Bool :=
  proxies.addrs.any fun addr => addr = peer

/-- The limiter that the router puts around its routes. It is handed the trusted proxies, but the
layer has no field for them and no method that takes them, and `extractIp` does not ask. -/
def rateLimiter (env : Environment) (_trustedProxies : TrustedProxies Addr) : RateLimitConfig :=
  .fromEnv env

/-- When the requests of a peer were admitted, in a history. -/
def admittedFrom (config : RateLimitConfig) (peer : Addr)
    (h : List (RateLimiterStore × Arrival Addr)) : List ℕ :=
  h.filterMap fun t =>
    if t.2.request.connectInfo = some peer ∧ (call config t.1 t.2).1.isForwarded then some t.2.now
    else none

/-- The requests of a peer count for the same client with and without their headers, and no window
has more than the maximum of them. -/
structure NotEvaded (config : RateLimitConfig) (peer : Addr) (rs : List (Arrival Addr)) : Prop where
  independent : ∀ a ∈ rs, a.request.connectInfo = some peer →
    a.ip = extractIp { a.request with headers := [] }
  admits : ∀ pre, pre <+: rs → ∀ t, (during t config.window
    (admittedFrom config peer (transitions (step config) newStore pre))).length ≤ config.maxRequests

/-- A request names no one else in its header: there is no header, or it cannot be read, or its first
item is blank or is the peer itself. -/
def NamesNoOther (peer : Addr) (a : Arrival Addr) : Prop :=
  forwardedFor a.request = none ∨ forwardedFor a.request = some (toString peer)

variable {peer : Addr}

omit [DecidableEq Addr] in
theorem namesNoOther_iff (h : a.request.connectInfo = some peer) :
    NamesNoOther peer a ↔ a.ip = toString peer := by
  rw [NamesNoOther, Arrival.ip, extractIp, h]
  cases forwardedFor a.request with
  | none => simp
  | some ip => simp

omit [DecidableEq Addr] in
theorem extractIp_no_headers (request : Request Addr) (h : request.connectInfo = some peer) :
    extractIp { request with headers := [] } = toString peer := by
  simp [extractIp, forwardedFor, h]

omit [DecidableEq Addr] in
/-- A maximum of zero admits no one. -/
theorem isForwarded_eq_false (hmax : config.maxRequests = 0) :
    (call config s a).1.isForwarded = false := by
  simp only [call, RateLimiterStore.check, hmax, Bucket.checkAndRecord, Nat.zero_le, if_true]
  split
  · rfl
  · split <;> rfl

/-- The requests of a peer who names no other are among those of one client. -/
theorem admittedFrom_sublist (hpeer : ∀ t ∈ h, t.2.request.connectInfo = some peer →
    NamesNoOther peer t.2) :
    (admittedFrom config peer h).Sublist (admitted config (toString peer) h) := by
  induction h with
  | nil => exact List.Sublist.refl []
  | cons t h ih =>
    have ih := ih fun u hu => hpeer u (List.mem_cons_of_mem t hu)
    by_cases hfrom : t.2.request.connectInfo = some peer ∧ (call config t.1 t.2).1.isForwarded
    · have hip := (namesNoOther_iff hfrom.1).mp (hpeer t List.mem_cons_self hfrom.1)
      have hcons : admittedFrom config peer (t :: h) = t.2.now :: admittedFrom config peer h := by
        simp [admittedFrom, hfrom]
      have hcons' : admitted config (toString peer) (t :: h) =
          t.2.now :: admitted config (toString peer) h := by
        simp [admitted, hip, hfrom.2]
      rw [hcons, hcons']
      exact ih.cons_cons _
    · have hcons : admittedFrom config peer (t :: h) = admittedFrom config peer h := by
        rw [admittedFrom, List.filterMap_cons, if_neg hfrom]
        rfl
      rw [hcons]
      exact ih.trans ((List.sublist_cons_self t h).filterMap _)

theorem admittedFrom_eq_nil (hmax : config.maxRequests = 0) : admittedFrom config peer h = [] := by
  apply List.filterMap_eq_nil_iff.mpr
  intro t _
  rw [isForwarded_eq_false hmax]
  exact if_neg fun hfrom => Bool.false_ne_true hfrom.2

/-- **The requests of a peer are counted together** exactly if none of them names another client,
whether the peer is trusted or not. -/
theorem notEvaded_iff (env : Environment) (proxies : TrustedProxies Addr) (peer : Addr)
    (hrs : InOrder rs) :
    NotEvaded (rateLimiter env proxies) peer rs ↔
      ∀ a ∈ rs, a.request.connectInfo = some peer → NamesNoOther peer a := by
  constructor
  · intro hne a ha hfrom
    rw [namesNoOther_iff hfrom, hne.independent a ha hfrom, extractIp_no_headers _ hfrom]
  · intro hnames
    refine ⟨fun a ha hfrom => ?_, fun pre hpre t => ?_⟩
    · rw [extractIp_no_headers _ hfrom, ← namesNoOther_iff hfrom]
      exact hnames a ha hfrom
    · generalize rateLimiter env proxies = config
      rcases Nat.eq_zero_or_pos config.maxRequests with hmax | hmax
      · rw [admittedFrom_eq_nil hmax]
        exact Nat.zero_le _
      · have hsub : (admittedFrom config peer (transitions (step config) newStore pre)).Sublist
            (admitted config (toString peer) (transitions (step config) newStore pre)) := by
          refine admittedFrom_sublist fun u hu => ?_
          obtain ⟨q, hq, -⟩ := (mem_transitions_iff _).mp hu
          exact hnames u.2 (hpre.subset (hq.subset (by simp)))
        exact (hsub.filter _).length_le.trans
          (((tracks_run hmax (hrs.sublist hpre.sublist)).admissible _).length_during_le t)

/-- A request of one peer, whose header names a client. -/
def naming (value : List UInt8) : Arrival String :=
  ⟨⟨[("x-forwarded-for", value)], some "203.0.113.9"⟩, 0, 0⟩

/-- One request in a minute. -/
def onePoint : Environment := fun name => if name = "RATE_LIMIT_POINTS" then some "1" else none

theorem notEvaded_iff_twice :
    NotEvaded (rateLimiter onePoint ⟨["10.0.0.1"]⟩) "203.0.113.9" [plain 0, plain 0] ↔
      ∀ a ∈ [plain 0, plain 0], a.request.connectInfo = some "203.0.113.9" →
        NamesNoOther "203.0.113.9" a :=
  notEvaded_iff onePoint ⟨["10.0.0.1"]⟩ "203.0.113.9" (by simp [InOrder, plain])

/-- A peer that is not trusted names the clients "1" and "2", and has two requests admitted at the
same moment. -/
theorem evaded :
    ¬ ∀ (env : Environment) (proxies : TrustedProxies String) (peer : String)
      (rs : List (Arrival String)), proxies.isTrusted peer = false → InOrder rs →
      NotEvaded (rateLimiter env proxies) peer rs := by
  intro h
  have hne := h onePoint ⟨["10.0.0.1"]⟩ "203.0.113.9" [naming [49], naming [50]] (by decide)
    (by simp [InOrder, naming])
  exact absurd (hne.admits _ List.prefix_rfl 0) (by decide)

end Proxies

/-! ## Panics -/

/-- There is no verdict only where there is no room and no oldest time. -/
theorem verdict_eq_none_iff {bucket : Bucket} {now window max : ℕ} :
    (bucket.checkAndRecord now window max).1 = none ↔
      max = 0 ∧ bucket.timestamps.filter (fun t => now - t < window) = [] := by
  rw [Bucket.checkAndRecord]
  generalize bucket.timestamps.filter _ = timestamps
  by_cases hroom : max ≤ timestamps.length
  · rw [if_pos hroom]
    cases timestamps with
    | nil => simpa using hroom
    | cons oldest rest => simp
  · rw [if_neg hroom]
    simp only [reduceCtorEq, false_iff]
    omega

theorem respond_eq_panicked {unixTime : ℕ} {verdict : Option Verdict} :
    respond config unixTime verdict = .panicked ↔ verdict = none := by
  cases verdict with
  | none => exact iff_of_true rfl rfl
  | some verdict => cases hallowed : verdict.allowed <;> simp [respond, hallowed]

theorem panicked_iff :
    (call config s a).1 = .panicked ↔ (s.check config a.ip a.now).1 = none :=
  respond_eq_panicked

/-- With a maximum of one or more the lock is never poisoned, whatever the times. -/
theorem not_poisoned (hmax : 1 ≤ config.maxRequests) (hs : s.poisoned = false)
    (a : Arrival Addr) :
    (step config s a).poisoned = false ∧ (call config s a).1 ≠ .panicked := by
  have hverdict : ((s.bucket a.ip).checkAndRecord a.now config.window config.maxRequests).1 ≠
      none := by
    rw [Ne, verdict_eq_none_iff]
    omega
  constructor
  · simpa [step, call, RateLimiterStore.check, hs] using hverdict
  · rw [Ne, panicked_iff]
    simpa [RateLimiterStore.check, hs] using hverdict

theorem poisoned_run (hmax : 1 ≤ config.maxRequests) (rs : List (Arrival Addr)) :
    (run (step config) newStore rs).poisoned = false := by
  induction rs using List.reverseRecOn with
  | nil => rfl
  | append_singleton rs a ih =>
    rw [run_snoc]
    exact (not_poisoned hmax ih a).1

/-- With a maximum of zero the first request panics. -/
theorem panicked_new (hmax : config.maxRequests = 0) (a : Arrival Addr) :
    (call config newStore a).1 = .panicked := by
  rw [panicked_iff]
  have hverdict : (Bucket.new.checkAndRecord a.now config.window config.maxRequests).1 = none :=
    verdict_eq_none_iff.mpr ⟨hmax, rfl⟩
  exact hverdict

theorem maxRequests_fromEnv_eq_zero_iff {env : Environment} :
    (RateLimitConfig.fromEnv env).maxRequests = 0 ↔
      (env "RATE_LIMIT_POINTS").bind parseU64 = some 0 := by
  rw [RateLimitConfig.fromEnv]
  cases (env "RATE_LIMIT_POINTS").bind parseU64 <;> simp

/-- **No request panics** exactly if the maximum is not set to zero, or there is no request. -/
theorem decides_iff (env : Environment) (rs : List (Arrival Addr)) :
    (∀ t ∈ transitions (step (.fromEnv env)) newStore rs,
        (call (.fromEnv env) t.1 t.2).1 ≠ .panicked) ↔
      (env "RATE_LIMIT_POINTS").bind parseU64 ≠ some 0 ∨ rs = [] := by
  rw [Ne, ← maxRequests_fromEnv_eq_zero_iff]
  constructor
  · intro hdecides
    cases rs with
    | nil => exact Or.inr rfl
    | cons a rs =>
      refine Or.inl fun hmax => ?_
      exact hdecides (newStore, a) List.mem_cons_self (panicked_new hmax a)
  · rintro (hmax | rfl) t ht
    · obtain ⟨pre, -, hstate⟩ := (mem_transitions_iff _).mp ht
      have hs := poisoned_run (Nat.pos_of_ne_zero hmax) pre
      rw [← hstate] at hs
      exact (not_poisoned (Nat.pos_of_ne_zero hmax) hs t.2).2
    · cases ht

/-- A limit of zero points panics on the first request. -/
theorem not_decides :
    ¬ ∀ (env : Environment) (rs : List (Arrival String)),
      ∀ t ∈ transitions (step (.fromEnv env)) newStore rs,
        (call (.fromEnv env) t.1 t.2).1 ≠ .panicked := by
  intro h
  exact h (fun name => if name = "RATE_LIMIT_POINTS" then some "0" else none) [plain 0]
    (newStore, plain 0) List.mem_cons_self (by decide)

end RateLimiter
