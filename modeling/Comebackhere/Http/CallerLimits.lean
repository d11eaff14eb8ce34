import Comebackhere.Library.FixedWindow
import Comebackhere.Library.Run
import Mathlib.Algebra.Order.Ring.Int

/-!
# Rate limits of verified callers

The Rust backend counts the requests of each verified merchant, and those of everyone else together,
in windows of a minute. A bucket is found under a key that is made of the verified identity. A
request that finds its bucket full is told how many seconds are left of the window. Each call holds
the entry of its bucket in the map, so that the calls take their effect one after the other. Times
are nanoseconds.

## Main definitions

* `checkRateLimit`: the verdict on a request, and what it leaves in the store
* `Caller.key`, `Caller.limit`: the bucket of a caller, and how much it holds
* `Waits s r retryAfter free`: a caller who has been told `retryAfter` is refused up to `free`
* `Served c rs`: what a caller can rely on, in a run

## Main results

* `Follows.step`: the buckets count the requests that were admitted in their windows
* `callers_limited`: what a caller is admitted, what it is told, and that others do not matter
-/

namespace CallerLimits

open Machine FixedWindow SlidingWindow

/-! ## Buckets -/

/-- A second, in nanoseconds. -/
def second : ℤ := 1000000000

def merchantRateLimit : ℕ := 120

def anonymousRateLimit : ℕ := 30

def rateLimitWindowSeconds : ℤ := 60

def rateLimitWindow : ℤ := rateLimitWindowSeconds * second

structure RateLimitEntry where
  count : ℕ
  windowStart : ℤ

abbrev RateLimitStore := String → Option RateLimitEntry

def createRateLimitStore : RateLimitStore := fun _ => none

def merchantRateLimitKey (publicKey : String) : String := "merchant:" ++ publicKey

def anonymousRateLimitKey : String := "anonymous"

/-- `Duration::num_seconds`, which cuts off what is no whole second. -/
def numSeconds (duration : ℤ) : ℤ := duration.tdiv second

/-- The request is counted, or the seconds are returned after which to try again. A count that goes
up is below a limit of 32 bits. -/
def checkRateLimit (store : RateLimitStore) (key : String) (limit : ℕ) (now : ℤ) :
    Except ℤ Unit × RateLimitStore :=
  let entry := (store key).getD ⟨0, now⟩
  let entry := if rateLimitWindow ≤ now - entry.windowStart then ⟨0, now⟩ else entry
  if limit ≤ entry.count then
    let elapsed := numSeconds (now - entry.windowStart)
    let retryAfter := max (rateLimitWindowSeconds - elapsed) 1
    (.error retryAfter, Function.update store key (some entry))
  else
    (.ok (), Function.update store key (some { entry with count := entry.count + 1 }))

/-! ## Callers -/

/-- Whose request it is: that of a merchant whose signature was verified, or of anyone else. -/
inductive Caller
  | merchant (publicKey : String)
  | anonymous
  deriving DecidableEq

def Caller.key : Caller → String
  | .merchant publicKey => merchantRateLimitKey publicKey
  | .anonymous => anonymousRateLimitKey

def Caller.limit : Caller → ℕ
  | .merchant _ => merchantRateLimit
  | .anonymous => anonymousRateLimit

structure Request where
  caller : Caller
  now : ℤ

def check (s : RateLimitStore) (r : Request) : Except ℤ Unit × RateLimitStore :=
  checkRateLimit s r.caller.key r.caller.limit r.now

def step (s : RateLimitStore) (r : Request) : RateLimitStore := (check s r).2

/-- The key of a merchant is not that of the anonymous callers. -/
theorem merchantRateLimitKey_ne (publicKey : String) :
    merchantRateLimitKey publicKey ≠ anonymousRateLimitKey := by
  intro h
  have hchars := congrArg String.toList h
  simp [merchantRateLimitKey, anonymousRateLimitKey] at hchars

/-- No two callers share a bucket. -/
theorem Caller.key_inj {c d : Caller} : c.key = d.key ↔ c = d := by
  refine ⟨fun h => ?_, congrArg _⟩
  cases c with
  | merchant publicKey =>
    cases d with
    | merchant publicKey' => simpa [Caller.key, merchantRateLimitKey] using h
    | anonymous => exact absurd h (merchantRateLimitKey_ne publicKey)
  | anonymous =>
    cases d with
    | merchant publicKey => exact absurd h.symm (merchantRateLimitKey_ne publicKey)
    | anonymous => rfl

theorem Caller.limit_pos (c : Caller) : 0 < c.limit := by
  cases c
  · exact Nat.succ_pos 119
  · exact Nat.succ_pos 29

/-! ## Verdicts -/

section Verdict

variable {s : RateLimitStore} {r : Request} {now : ℤ}

/-- An entry as a window of its bucket. -/
def RateLimitEntry.window (entry : RateLimitEntry) : Window ℤ := ⟨entry.windowStart, entry.count⟩

/-- The window that a request comes in. -/
def windowAt (s : RateLimitStore) (c : Caller) (now : ℤ) : Window ℤ :=
  current rateLimitWindow now ((s c.key).map RateLimitEntry.window)

/-- **A verdict**, by the window that the request comes in. -/
theorem check_eq (s : RateLimitStore) (r : Request) :
    check s r =
      let window := windowAt s r.caller r.now
      if r.caller.limit ≤ window.count then
        (.error (max (rateLimitWindowSeconds - numSeconds (r.now - window.start)) 1),
          Function.update s r.caller.key (some ⟨window.count, window.start⟩))
      else (.ok (), Function.update s r.caller.key (some ⟨window.count + 1, window.start⟩)) := by
  rw [check, checkRateLimit, windowAt]
  cases hentry : s r.caller.key with
  | none =>
    simp [current]
  | some entry =>
    have hpassed : rateLimitWindow ≤ r.now - entry.windowStart ↔
        entry.windowStart + rateLimitWindow ≤ r.now := by omega
    by_cases h : entry.windowStart + rateLimitWindow ≤ r.now
    · simp [current, RateLimitEntry.window, hpassed, h]
    · simp [current, RateLimitEntry.window, hpassed, h]

theorem check_of_full (h : r.caller.limit ≤ (windowAt s r.caller r.now).count) :
    check s r =
      (.error (max (rateLimitWindowSeconds -
          numSeconds (r.now - (windowAt s r.caller r.now).start)) 1),
        Function.update s r.caller.key
          (some ⟨(windowAt s r.caller r.now).count, (windowAt s r.caller r.now).start⟩)) :=
  (check_eq s r).trans (if_pos h)

theorem check_of_room (h : ¬ r.caller.limit ≤ (windowAt s r.caller r.now).count) :
    check s r =
      (.ok (), Function.update s r.caller.key
        (some ⟨(windowAt s r.caller r.now).count + 1, (windowAt s r.caller r.now).start⟩)) :=
  (check_eq s r).trans (if_neg h)

theorem step_of_ne {c : Caller} (h : r.caller ≠ c) : step s r c.key = s c.key := by
  have hkey : c.key ≠ r.caller.key := fun heq => h (Caller.key_inj.mp heq).symm
  rw [step, check_eq]
  dsimp only
  split <;> exact Function.update_of_ne hkey ..

/-- What a caller finds does not depend on the buckets of the others. -/
theorem check_congr {s' : RateLimitStore} (h : s r.caller.key = s' r.caller.key) :
    (check s r).1 = (check s' r).1 ∧ step s r r.caller.key = step s' r r.caller.key := by
  have hwindow : windowAt s r.caller r.now = windowAt s' r.caller r.now := by
    rw [windowAt, windowAt, h]
  rw [step, step, check_eq, check_eq, hwindow]
  dsimp only
  split <;> simp

end Verdict

/-! ## Runs -/

section Run

variable {c : Caller} {h : List (RateLimitStore × Request)} {s : RateLimitStore} {r : Request}
  {now : ℤ}

/-- When the requests of a caller were admitted, in a history. -/
def admitted (c : Caller) (h : List (RateLimitStore × Request)) : List ℤ :=
  h.filterMap fun t => if t.2.caller = c ∧ (check t.1 t.2).1.isOk then some t.2.now else none

theorem admitted_snoc : admitted c (h ++ [(s, r)]) =
    admitted c h ++ if r.caller = c ∧ (check s r).1.isOk then [r.now] else [] := by
  rw [admitted, List.filterMap_append]
  congr 1
  by_cases hadmitted : r.caller = c ∧ (check s r).1.isOk <;> simp [hadmitted]

/-- The bucket of each caller counts the requests that were admitted in its window, and has been
used. -/
structure Follows (c : Caller) (h : List (RateLimitStore × Request)) (s : RateLimitStore) :
    Prop where
  unused : s c.key = none → admitted c h = []
  tracks : ∀ entry, s c.key = some entry →
    Tracks rateLimitWindow c.limit (admitted c h) entry.window
  used : ∀ entry, s c.key = some entry → 0 < entry.count
  started : ∀ entry, s c.key = some entry → ∃ t ∈ h, t.2.now = entry.windowStart

theorem follows_nil : Follows c [] createRateLimitStore :=
  ⟨fun _ => rfl, by simp [createRateLimitStore], by simp [createRateLimitStore],
    by simp [createRateLimitStore]⟩

theorem lt_add_window : now < now + rateLimitWindow :=
  lt_add_of_pos_right now (by decide)

/-- The window that a request comes in, in a run. -/
theorem Follows.windowAt (hs : Follows c h s) (hnow : ∀ t ∈ h, t.2.now ≤ now) :
    Tracks rateLimitWindow c.limit (admitted c h) (windowAt s c now) ∧
      (windowAt s c now).start ≤ now ∧ now < (windowAt s c now).start + rateLimitWindow ∧
      ((windowAt s c now).count = 0 → (windowAt s c now).start = now) := by
  refine ⟨tracks_current lt_add_window ?_ ?_, ?_⟩
  · simpa using hs.unused
  · intro window hwindow
    obtain ⟨entry, hentry, rfl⟩ := Option.map_eq_some_iff.mp hwindow
    exact hs.tracks entry hentry
  · rw [CallerLimits.windowAt]
    cases hentry : s c.key with
    | none => exact ⟨le_rfl, lt_add_window, fun _ => rfl⟩
    | some entry =>
      rw [Option.map_some, current]
      split
      · exact ⟨le_rfl, lt_add_window, fun _ => rfl⟩
      · next hnot =>
        obtain ⟨t, ht, hstart⟩ := hs.started entry hentry
        have hused := hs.used entry hentry
        have hle : entry.windowStart ≤ now := hstart ▸ hnow t ht
        exact ⟨hle, not_le.mp hnot, fun hzero => absurd hzero hused.ne'⟩

/-- A request of another caller leaves a bucket as it is. -/
theorem Follows.step_other (hs : Follows c h s) (hother : r.caller ≠ c) :
    Follows c (h ++ [(s, r)]) (step s r) := by
  have hadmitted : admitted c (h ++ [(s, r)]) = admitted c h := by
    rw [admitted_snoc]
    simp [hother]
  constructor
  · rw [hadmitted, step_of_ne hother]
    exact hs.unused
  · rw [hadmitted, step_of_ne hother]
    exact hs.tracks
  · rw [step_of_ne hother]
    exact hs.used
  · intro entry hentry
    rw [step_of_ne hother] at hentry
    obtain ⟨t, ht, hstart⟩ := hs.started entry hentry
    exact ⟨t, List.mem_append_left _ ht, hstart⟩

/-- A request of the caller itself is counted, or finds the bucket full. -/
theorem Follows.step_own (hs : Follows c h s) (hcaller : r.caller = c)
    (hnow : ∀ t ∈ h, t.2.now ≤ r.now) : Follows c (h ++ [(s, r)]) (step s r) := by
  subst hcaller
  obtain ⟨htracks, hstart, hin, hfirst⟩ := hs.windowAt hnow
  -- what the bucket holds afterwards, and what it counts
  obtain ⟨count, hstored, hpos, hcounts⟩ : ∃ count,
      step s r r.caller.key = some ⟨count, (CallerLimits.windowAt s r.caller r.now).start⟩ ∧
      0 < count ∧ Tracks rateLimitWindow r.caller.limit (admitted r.caller (h ++ [(s, r)]))
        ⟨(CallerLimits.windowAt s r.caller r.now).start, count⟩ := by
    rw [admitted_snoc, CallerLimits.step]
    by_cases hfull : r.caller.limit ≤ (CallerLimits.windowAt s r.caller r.now).count
    · rw [check_of_full hfull]
      refine ⟨_, Function.update_self .., r.caller.limit_pos.trans_le hfull, ?_⟩
      simpa [Except.isOk, Except.toBool] using htracks
    · rw [check_of_room hfull]
      refine ⟨_, Function.update_self .., Nat.succ_pos _, ?_⟩
      simpa [Except.isOk, Except.toBool] using
        htracks.admit hstart hin (not_le.mp hfull) hfirst
  -- the window starts with this request, or with the one that the bucket was started by
  have hfrom : ∃ t ∈ h ++ [(s, r)],
      t.2.now = (CallerLimits.windowAt s r.caller r.now).start := by
    rw [CallerLimits.windowAt]
    cases hentry : s r.caller.key with
    | none => exact ⟨(s, r), by simp, rfl⟩
    | some entry =>
      rw [Option.map_some, current]
      split
      · exact ⟨(s, r), by simp, rfl⟩
      · obtain ⟨t, ht, hstarted⟩ := hs.started entry hentry
        exact ⟨t, List.mem_append_left _ ht, hstarted⟩
  constructor
  · intro hnone
    rw [hstored] at hnone
    cases hnone
  · intro entry hentry
    obtain rfl := Option.some.inj (hstored.symm.trans hentry)
    exact hcounts
  · intro entry hentry
    obtain rfl := Option.some.inj (hstored.symm.trans hentry)
    exact hpos
  · intro entry hentry
    obtain rfl := Option.some.inj (hstored.symm.trans hentry)
    exact hfrom

/-- **One request** leaves the bucket of every caller with what it counts. -/
theorem Follows.step (hs : Follows c h s) (hnow : ∀ t ∈ h, t.2.now ≤ r.now) :
    Follows c (h ++ [(s, r)]) (step s r) := by
  by_cases hcaller : r.caller = c
  · exact hs.step_own hcaller hnow
  · exact hs.step_other hcaller

/-- Requests that come one after the other. -/
def InOrder (rs : List Request) : Prop := rs.Pairwise fun a b => a.now ≤ b.now

theorem InOrder.each {rs : List Request} (hrs : InOrder rs) :
    Each CallerLimits.step (fun h _ r => ∀ t ∈ h, t.2.now ≤ r.now) s rs := by
  intro pre r hpre t ht
  obtain ⟨q, hq, -⟩ := (mem_transitions_iff _).mp ht
  have hmem : t.2 ∈ pre := hq.subset (by simp)
  have horder : InOrder (pre ++ [r]) := hrs.sublist hpre.sublist
  exact (List.pairwise_append.mp horder).2.2 t.2 hmem r (List.mem_singleton_self r)

theorem follows_run {rs : List Request} (hrs : InOrder rs) :
    Follows c (transitions CallerLimits.step createRateLimitStore rs)
      (run CallerLimits.step createRateLimitStore rs) :=
  inv_of_each (C := fun h _ r => ∀ t ∈ h, t.2.now ≤ r.now) follows_nil
    (fun _ _ _ hs hnow => hs.step hnow) hrs.each

end Run

/-! ## The wait -/

/-- What the caller of `r` gets who has been told to wait for `retryAfter` seconds: there is a moment
in the last second of them up to which it is refused, whatever comes in between, and from which on
it is admitted. That it asks again does not make the wait any longer. -/
structure Waits (s : RateLimitStore) (r : Request) (retryAfter free : ℤ) : Prop where
  range : 1 ≤ retryAfter ∧ retryAfter ≤ rateLimitWindowSeconds
  free_mem : r.now + (retryAfter - 1) * second < free ∧ free ≤ r.now + retryAfter * second
  refused : ∀ rs later, (∀ b ∈ rs, b.caller = r.caller → b.now < free) →
    later.caller = r.caller → later.now < free →
      (check (run step (step s r) rs) later).1.isOk = false
  admitted : ∀ rs later, (∀ b ∈ rs, b.caller = r.caller → b.now < free) →
    later.caller = r.caller → free ≤ later.now →
      (check (run step (step s r) rs) later).1.isOk = true

/-- The seconds that are told are those to the end of the window, rounded up. -/
theorem retryAfter_bounds {elapsed retryAfter : ℤ} (h0 : 0 ≤ elapsed)
    (hin : elapsed < rateLimitWindow)
    (hretry : retryAfter = max (rateLimitWindowSeconds - numSeconds elapsed) 1) :
    (1 ≤ retryAfter ∧ retryAfter ≤ rateLimitWindowSeconds) ∧
      elapsed + (retryAfter - 1) * second < rateLimitWindow ∧
      rateLimitWindow ≤ elapsed + retryAfter * second := by
  rw [numSeconds, Int.tdiv_eq_ediv_of_nonneg h0] at hretry
  simp only [rateLimitWindow, rateLimitWindowSeconds, second] at *
  omega

section Wait

variable {c : Caller} {s : RateLimitStore} {r : Request} {entry : RateLimitEntry}

/-- In its window, a full bucket refuses the requests of its caller and stays as it is. -/
theorem check_full (hentry : s r.caller.key = some entry) (hfull : r.caller.limit ≤ entry.count)
    (hin : r.now < entry.windowStart + rateLimitWindow) :
    (check s r).1.isOk = false ∧ step s r r.caller.key = some entry := by
  have hwindow : windowAt s r.caller r.now = entry.window := by
    rw [windowAt, hentry, Option.map_some, current]
    exact if_neg (not_le.mpr hin)
  rw [step, check_of_full (hwindow ▸ hfull), hwindow]
  exact ⟨rfl, Function.update_self ..⟩

/-- After its window, a bucket has room for a request of its caller. -/
theorem check_passed (hentry : s r.caller.key = some entry)
    (hpassed : entry.windowStart + rateLimitWindow ≤ r.now) : (check s r).1.isOk = true := by
  have hwindow : windowAt s r.caller r.now = ⟨r.now, 0⟩ := by
    rw [windowAt, hentry, Option.map_some, current]
    exact if_pos hpassed
  rw [check_of_room (hwindow ▸ not_le.mpr r.caller.limit_pos)]
  rfl

/-- A full bucket stays as it is while its caller comes in its window only. -/
theorem run_full (rs : List Request) (hentry : s c.key = some entry)
    (hfull : c.limit ≤ entry.count)
    (hin : ∀ b ∈ rs, b.caller = c → b.now < entry.windowStart + rateLimitWindow) :
    run step s rs c.key = some entry := by
  induction rs using List.reverseRecOn with
  | nil => exact hentry
  | append_singleton rs b ih =>
    have hrs := ih fun b' hb' => hin b' (List.mem_append_left _ hb')
    rw [run_snoc]
    by_cases hcaller : b.caller = c
    · subst hcaller
      exact (check_full hrs hfull (hin b (by simp) rfl)).2
    · rw [step_of_ne hcaller]
      exact hrs

/-- **The wait** of a caller who is refused. -/
theorem waits {h : List (RateLimitStore × Request)} (hs : Follows r.caller h s)
    (hnow : ∀ t ∈ h, t.2.now ≤ r.now) {retryAfter : ℤ}
    (hrefused : (check s r).1 = .error retryAfter) : ∃ free, Waits s r retryAfter free := by
  obtain ⟨-, hstart, hin, -⟩ := hs.windowAt hnow
  by_cases hfull : r.caller.limit ≤ (windowAt s r.caller r.now).count
  case neg =>
    rw [check_of_room hfull] at hrefused
    cases hrefused
  have hentry : step s r r.caller.key = some
      ⟨(windowAt s r.caller r.now).count, (windowAt s r.caller r.now).start⟩ := by
    rw [step, check_of_full hfull]
    exact Function.update_self ..
  rw [check_of_full hfull] at hrefused
  have hretry := (Except.error.inj hrefused).symm
  generalize windowAt s r.caller r.now = window at *
  obtain ⟨hrange, hbefore, hafter⟩ := retryAfter_bounds (by omega) (by omega) hretry
  -- the window is what the caller waits for
  refine ⟨window.start + rateLimitWindow, hrange, ⟨by omega, by omega⟩, ?_, ?_⟩
  · intro rs later hrs hcaller hlater
    have hrun := run_full rs hentry hfull hrs
    rw [← hcaller] at hrun hfull
    exact (check_full hrun hfull hlater).1
  · intro rs later hrs hcaller hlater
    have hrun := run_full rs hentry hfull hrs
    rw [← hcaller] at hrun
    exact check_passed hrun hlater

end Wait

/-! ## What callers can rely on -/

/-- The answers that a caller gets. -/
def answers (c : Caller) (h : List (RateLimitStore × Request)) : List (Except ℤ Unit) :=
  h.filterMap fun t => if t.2.caller = c then some (check t.1 t.2).1 else none

theorem answers_snoc {c : Caller} {h : List (RateLimitStore × Request)} {s : RateLimitStore}
    {r : Request} : answers c (h ++ [(s, r)]) =
      answers c h ++ if r.caller = c then [(check s r).1] else [] := by
  rw [answers, List.filterMap_append]
  congr 1
  by_cases hcaller : r.caller = c <;> simp [hcaller]

/-- **A caller's requests are as if they came alone**: so is its bucket, and so are its answers. -/
theorem run_alone (c : Caller) (rs : List Request) :
    run step createRateLimitStore rs c.key =
        run step createRateLimitStore (rs.filter (·.caller = c)) c.key ∧
      answers c (transitions step createRateLimitStore rs) =
        answers c (transitions step createRateLimitStore (rs.filter (·.caller = c))) := by
  induction rs using List.reverseRecOn with
  | nil => exact ⟨rfl, rfl⟩
  | append_singleton rs r ih =>
    obtain ⟨hbucket, hanswers⟩ := ih
    rw [List.filter_append, run_snoc, transitions_snoc, answers_snoc]
    by_cases hcaller : r.caller = c
    · subst hcaller
      have hsame := check_congr hbucket
      rw [List.filter_singleton, decide_eq_true rfl, cond_true, run_snoc, transitions_snoc,
        answers_snoc, if_pos rfl, if_pos rfl, hanswers, hsame.1]
      exact ⟨hsame.2, rfl⟩
    · rw [step_of_ne hcaller]
      simpa [hcaller] using ⟨hbucket, hanswers⟩

/-- No minute admits twice the limit of a caller. It is refused only where it has been admitted that
often in the minute that ends with the request, and is told how long to wait. What others ask for
makes no difference. -/
structure Served (c : Caller) (rs : List Request) : Prop where
  atMost : ∀ t, (during t rateLimitWindow
    (admitted c (transitions step createRateLimitStore rs))).length ≤ 2 * c.limit - 1
  refused : Each step (fun h s r => r.caller = c → ∀ retryAfter,
    (check s r).1 = .error retryAfter →
      c.limit ≤ (recent rateLimitWindow r.now (admitted c h)).length ∧
        ∃ free, Waits s r retryAfter free)
    createRateLimitStore rs
  alone : answers c (transitions step createRateLimitStore rs) =
    answers c (transitions step createRateLimitStore (rs.filter (·.caller = c)))

/-- **A caller is refused** only where its limit has been admitted within the last minute. -/
theorem Follows.refused {h : List (RateLimitStore × Request)} {s : RateLimitStore} {r : Request}
    (hs : Follows r.caller h s) (hnow : ∀ t ∈ h, t.2.now ≤ r.now) {retryAfter : ℤ}
    (hrefused : (check s r).1 = .error retryAfter) :
    r.caller.limit ≤ (recent rateLimitWindow r.now (admitted r.caller h)).length := by
  obtain ⟨htracks, -, hin, -⟩ := hs.windowAt hnow
  by_cases hfull : r.caller.limit ≤ (CallerLimits.windowAt s r.caller r.now).count
  · rw [← htracks.count] at hfull
    refine hfull.trans (List.Sublist.length_le ?_)
    apply List.monotone_filter_right
    intro t ht
    simp only [decide_eq_true_eq] at ht ⊢
    omega
  · rw [check_of_room hfull] at hrefused
    cases hrefused

/-- **Every caller is served** as it should, whoever else sends requests. -/
theorem callers_limited {rs : List Request} (hrs : InOrder rs) (c : Caller) : Served c rs where
  atMost t := by
    have hs := @follows_run c rs hrs
    cases hentry : run step createRateLimitStore rs c.key with
    | none =>
      rw [hs.unused hentry]
      exact Nat.zero_le _
    | some entry => exact (hs.tracks entry hentry).length_during_le t
  refused := by
    intro pre r hpre hcaller retryAfter hrefused
    subst hcaller
    have hpre' := (List.prefix_append pre [r]).trans hpre
    have hs := @follows_run r.caller pre (hrs.sublist hpre'.sublist)
    have hnow := hrs.each (s := createRateLimitStore) pre r hpre
    exact ⟨hs.refused hnow hrefused, waits hs hnow hrefused⟩
  alone := (run_alone c rs).2

/-- The anonymous callers fill their bucket at once, and ask again after half a second and after a
minute. -/
def filledAtOnce : List Request :=
  List.replicate 30 ⟨.anonymous, 0⟩ ++
    [⟨.anonymous, 500000000⟩, ⟨.merchant "G", 30 * second⟩, ⟨.anonymous, 60 * second⟩]

/-- They are told to wait for 60 seconds, and are admitted half a second before. -/
theorem filledAtOnce_limited : Served .anonymous filledAtOnce ∧
    answers .anonymous (transitions step createRateLimitStore filledAtOnce) =
      List.replicate 30 (.ok ()) ++ [.error 60, .ok ()] := by
  have hinOrder : InOrder filledAtOnce := by
    unfold InOrder
    decide
  exact ⟨callers_limited hinOrder .anonymous, by rfl⟩

end CallerLimits
