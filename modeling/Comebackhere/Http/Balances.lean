import Comebackhere.Library.Run
import Mathlib.Logic.Function.Basic

/-!
# The cache of balances

The balance of the treasury is read from the chain and cached for five seconds. The cache is
evicted when a settlement is executed, so that the next request reads the balance again. A request
that misses the cache waits for the chain, and fills the cache when it goes on: a balance that was
read before an eviction is cached after it.

A balance is stamped with its epoch, which is the number of evictions before it was read. The stamps
are there for the statements only, and nothing the backend does depends on them.

## Main definitions

* `memoryCacheGet`, `memoryCacheSet`, `invalidateCacheKey`: the cache in the process
* `State`, `step`: the requests for balances, the reads of the chain, and the evictions
* `Fresh`: what a request is answered was read after the evictions before it started
* `FillsCurrent`: the cache is filled with a balance read since the last eviction

## Main results

* `Sound.step`: the cache is current as long as it is filled with current balances
* `fresh_iff`: all answers are fresh, also those to come, in exactly the runs that fill the cache
  with current balances
-/

namespace Http.Balances

open Machine

/-! ## The cache in the process -/

section Memory

variable {V : Type}

structure MemoryCacheEntry (V : Type) where
  value : V
  expiresAt : ℕ

abbrev MemoryCache (V : Type) := String → Option (MemoryCacheEntry V)

/-- The value of a key, if it has not expired, and the cache without it if it has. -/
def memoryCacheGet (cache : MemoryCache V) (key : String) (now : ℕ) : Option V × MemoryCache V :=
  match cache key with
  | none => (none, cache)
  | some entry =>
    if entry.expiresAt ≤ now then (none, Function.update cache key none)
    else (some entry.value, cache)

def memoryCacheSet (cache : MemoryCache V) (key : String) (value : V) (ttlMs now : ℕ) :
    MemoryCache V :=
  Function.update cache key (some ⟨value, now + ttlMs⟩)

/-- The cache without a key, and whether it was there. -/
def invalidateCacheKey (cache : MemoryCache V) (key : String) : Bool × MemoryCache V :=
  ((cache key).isSome, Function.update cache key none)

/-- A value that is set is there until it expires. -/
theorem memoryCacheGet_set (cache : MemoryCache V) (key : String) (value : V) {ttlMs : ℕ} (now : ℕ)
    (httl : 0 < ttlMs) :
    (memoryCacheGet (memoryCacheSet cache key value ttlMs now) key now).1 = some value := by
  have hlive : ¬ now + ttlMs ≤ now := by omega
  simp [memoryCacheGet, memoryCacheSet, hlive]

/-- What is found is the value of an entry of the cache. -/
theorem of_memoryCacheGet {cache : MemoryCache V} {key : String} {now : ℕ} {value : V}
    (h : (memoryCacheGet cache key now).1 = some value) :
    ∃ entry, cache key = some entry ∧ entry.value = value := by
  unfold memoryCacheGet at h
  split at h
  · cases h
  · next entry hentry =>
    split_ifs at h
    exact ⟨entry, hentry, Option.some.inj h⟩

/-- A look at the cache adds no entry. -/
theorem of_memoryCacheGet_snd {cache : MemoryCache V} {key key' : String} {now : ℕ}
    {entry : MemoryCacheEntry V} (h : (memoryCacheGet cache key now).2 key' = some entry) :
    cache key' = some entry := by
  unfold memoryCacheGet at h
  split at h
  · exact h
  · split_ifs at h
    · change Function.update cache key none key' = some entry at h
      rw [Function.update_apply] at h
      split_ifs at h
      exact h
    · exact h

end Memory

/-! ## Requests for balances -/

structure TokenBalance where
  token : String
  balance : String
  deriving DecidableEq

/-- What is answered and cached, with the epoch in which it was read. -/
structure TreasuryBalances where
  data : List TokenBalance
  epoch : ℕ
  deriving DecidableEq

def balanceCacheKey : String := "treasury:balances"

def balanceCacheTtlMs : ℕ := 5000

/-- A request has not come or was refused; it waits for the chain, which has not been read yet or
has; it is answered. The epoch in which it started is kept. -/
inductive Phase
  | idle
  | waiting (started : ℕ)
  | read (started : ℕ) (balances : TreasuryBalances)
  | answered (started : ℕ) (balances : TreasuryBalances)

/-- The place of a request is free for another one. -/
def Phase.free : Phase → Bool
  | idle | answered _ _ => true
  | waiting _ | read _ _ => false

structure State (P : Type) where
  cache : MemoryCache TreasuryBalances
  phase : P → Phase
  epoch : ℕ

/-- A request starts; the chain is read for it; it goes on with the balance, or with an error; the
cache is evicted. -/
inductive Input (P : Type)
  | get (p : P) (now : ℕ)
  | readChain (p : P) (balance : ℤ)
  | resume (p : P) (now : ℕ)
  | fail (p : P)
  | invalidate

variable {P : Type}

/-- The state of a process without requests so far. -/
def State.start : State P := ⟨fun _ => none, fun _ => .idle, 0⟩

def State.setPhase [DecidableEq P] (s : State P) (p : P) (phase : Phase) : State P :=
  { s with phase := Function.update s.phase p phase }

/-- One input. An input that does not fit the phase of the request changes nothing. -/
def step [DecidableEq P] (usdcContractId : String) (s : State P) : Input P → State P
  | .get p now =>
    if (s.phase p).free then
      let found := memoryCacheGet s.cache balanceCacheKey now
      match found.1 with
      | some cached => { s with cache := found.2 }.setPhase p (.answered s.epoch cached)
      | none => { s with cache := found.2 }.setPhase p (.waiting s.epoch)
    else s
  | .readChain p balance =>
    match s.phase p with
    | .waiting started =>
      s.setPhase p (.read started ⟨[⟨usdcContractId, toString balance⟩], s.epoch⟩)
    | .idle | .read _ _ | .answered _ _ => s
  | .resume p now =>
    match s.phase p with
    | .read started balances =>
      { s with
        cache := memoryCacheSet s.cache balanceCacheKey balances balanceCacheTtlMs now }.setPhase p
          (.answered started balances)
    | .idle | .waiting _ | .answered _ _ => s
  | .fail p =>
    match s.phase p with
    | .waiting _ | .read _ _ => s.setPhase p .idle
    | .idle | .answered _ _ => s
  | .invalidate =>
    { s with cache := (invalidateCacheKey s.cache balanceCacheKey).2, epoch := s.epoch + 1 }

/-! ## Freshness -/

/-- No request is answered a balance that was read before an eviction before the request. -/
def Fresh (s : State P) : Prop :=
  ∀ p started balances, s.phase p = .answered started balances → started ≤ balances.epoch

/-- The answers are fresh, and so is that to a request which starts now, whatever the clock says. -/
def StaysFresh [DecidableEq P] (usdcContractId : String) (s : State P) : Prop :=
  Fresh s ∧ ∀ p now, Fresh (step usdcContractId s (.get p now))

/-- A request that goes on fills the cache with a balance read since the last eviction. -/
def FillsCurrent (s : State P) : Input P → Prop
  | .resume p _ => ∀ started balances, s.phase p = .read started balances →
      balances.epoch = s.epoch
  | _ => True

/-- No request has a balance that was read before it started. -/
def Phase.Sound (epoch : ℕ) : Phase → Prop
  | idle => True
  | waiting started => started ≤ epoch
  | read started balances => started ≤ balances.epoch ∧ balances.epoch ≤ epoch
  | answered started balances => started ≤ balances.epoch

/-- What is cached is current, too. -/
structure Sound (s : State P) : Prop where
  cached : ∀ entry, s.cache balanceCacheKey = some entry → entry.value.epoch = s.epoch
  phases : ∀ p, (s.phase p).Sound s.epoch

theorem Sound.fresh {s : State P} (h : Sound s) : Fresh s := by
  intro p started balances hp
  have hphase := h.phases p
  rwa [hp] at hphase

theorem Phase.Sound.succ {epoch : ℕ} {phase : Phase} (h : phase.Sound epoch) :
    phase.Sound (epoch + 1) := by
  cases phase with
  | idle => trivial
  | waiting started => exact Nat.le_succ_of_le h
  | read started balances => exact ⟨h.1, Nat.le_succ_of_le h.2⟩
  | answered started balances => exact h

theorem sound_start : Sound (State.start : State P) := ⟨by simp [State.start], fun _ => trivial⟩

variable [DecidableEq P] {usdcContractId : String} {s : State P}

theorem Sound.setPhase (h : Sound s) {cache : MemoryCache TreasuryBalances} {p : P} {phase : Phase}
    (hcache : ∀ entry, cache balanceCacheKey = some entry → entry.value.epoch = s.epoch)
    (hphase : phase.Sound s.epoch) : Sound ({ s with cache }.setPhase p phase) := by
  refine ⟨hcache, fun q => ?_⟩
  simp only [State.setPhase, Function.update_apply]
  split_ifs
  · exact hphase
  · exact h.phases q

/-- **One input** that fills the cache with a current balance, if at all. -/
theorem Sound.step (h : Sound s) {i : Input P} (hi : FillsCurrent s i) :
    Sound (step usdcContractId s i) := by
  cases i with
  | get p now =>
    simp only [Balances.step]
    split
    · have hcache (entry : MemoryCacheEntry TreasuryBalances)
          (hentry : (memoryCacheGet s.cache balanceCacheKey now).2 balanceCacheKey = some entry) :
          entry.value.epoch = s.epoch := h.cached entry (of_memoryCacheGet_snd hentry)
      split
      · next cached hcached =>
        obtain ⟨entry, hentry, rfl⟩ := of_memoryCacheGet hcached
        exact h.setPhase hcache (h.cached entry hentry).ge
      · exact h.setPhase hcache le_rfl
    · exact h
  | readChain p balance =>
    simp only [Balances.step]
    split
    · next started hp =>
      have hstarted := h.phases p
      rw [hp] at hstarted
      exact h.setPhase h.cached ⟨hstarted, le_rfl⟩
    all_goals exact h
  | resume p now =>
    simp only [Balances.step]
    split
    · next started balances hp =>
      have hread := h.phases p
      rw [hp] at hread
      refine h.setPhase (fun entry hentry => ?_) hread.1
      obtain rfl : ⟨balances, now + balanceCacheTtlMs⟩ = entry := by
        simpa [memoryCacheSet] using hentry
      exact hi started balances hp
    all_goals exact h
  | fail p =>
    simp only [Balances.step]
    split
    all_goals first | exact h | exact h.setPhase h.cached trivial
  | invalidate =>
    refine ⟨fun entry hentry => ?_, fun p => (h.phases p).succ⟩
    simp [Balances.step, invalidateCacheKey] at hentry

/-- When the cache is filled with an old balance, the next request is answered that. -/
theorem fillsCurrent_of_staysFresh (h : Sound s) {i : Input P}
    (hfresh : StaysFresh usdcContractId (Balances.step usdcContractId s i)) : FillsCurrent s i := by
  cases i with
  | resume p now =>
    intro started balances hp
    have hread := h.phases p
    rw [hp] at hread
    -- the request itself is done, and another one takes its place at the same time
    have hanswered : (Balances.step usdcContractId (Balances.step usdcContractId s (.resume p now))
        (.get p now)).phase p = .answered s.epoch balances := by
      have hfound := memoryCacheGet_set s.cache balanceCacheKey balances now
        (show 0 < balanceCacheTtlMs by decide)
      simp [Balances.step, hp, State.setPhase, Phase.free, hfound]
    exact Nat.le_antisymm hread.2 (hfresh.2 p now p s.epoch balances hanswered)
  | get p now | readChain p balance | fail p | invalidate => trivial

/-- **All answers are fresh**, also those to come, in exactly the runs in which every request that
goes on fills the cache with a balance read since the last eviction. -/
theorem fresh_iff (usdcContractId : String) (is : List (Input P)) :
    Always (Balances.step usdcContractId) (fun _ => StaysFresh usdcContractId) State.start is ↔
      Each (Balances.step usdcContractId) (fun _ => FillsCurrent) State.start is := by
  apply always_iff_each (I := fun _ => Sound) sound_start
  · exact fun _ t h => ⟨h.fresh, fun p now => (h.step (i := .get p now) trivial).fresh⟩
  · exact fun _ t i h hi => h.step hi
  · exact fun _ t i h hfresh => fillsCurrent_of_staysFresh h hfresh

/-- A balance is read, and cached after an eviction; then another request starts. -/
def slowReader : List (Input Bool) :=
  [.get false 0, .readChain false 100, .invalidate, .resume false 1, .get true 2]

/-- The other request is answered the balance from before the eviction. -/
theorem not_fresh_slowReader : ¬ ∀ (P : Type) (_ : DecidableEq P) (usdcContractId : String)
    (is : List (Input P)), Always (Balances.step usdcContractId) (fun _ => Fresh) State.start is := by
  intro h
  have hfresh := (h Bool inferInstance "CUSDC" slowReader).at_end
  exact absurd (hfresh true 1 ⟨[⟨"CUSDC", "100"⟩], 0⟩ rfl) (by decide)

end Http.Balances
