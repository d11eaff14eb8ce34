import Comebackhere.Http.Idempotency

/-!
# Stored responses and merchants

A stored response should be sent only to the merchant it was produced for. The key of the stores is
made of the idempotency key alone, and the middleware stands before the check of the API key: who
knows a merchant's idempotency key and body gets the merchant's response.

## Main definitions

* `Isolated`: a stored response is sent only to its merchant
* `OwnKey`: a request finds a stored response only where its own merchant's requests succeeded
* `Produced`: a stored response is the response to a request of its merchant

## Main results

* `Provenance.step`: every stored response is the response of the route to a request with the key
* `isolated_of_ownKey`: responses are isolated in every run in which merchants keep to their own keys
-/

namespace Http

namespace Idempotency

open Machine Offchain

variable {cfg : Config}

/-- A stored response has been sent only to requests with an active API key of the merchant it was
produced for, of the same method and path. -/
def Isolated (s : State) : Prop :=
  ∀ r ∈ s.replays, r.merchant = some r.stored.merchant ∧
    r.request.method = r.stored.request.method ∧ r.request.path = r.stored.request.path

/-- The merchant whose request has been answered with a success. -/
def Phase.success : Phase → Option String
  | .answered merchant response => if response.ok then merchant else none
  | _ => none

/-- When a request finds a stored response for its body, every request with its idempotency key and
its body that has been answered with a success was of the merchant whose API key it carries. -/
def OwnKey (cfg : Config) (s : State) : Action → Prop
  | .advance i _ => ∀ h ∈ s.handlers[i]?, ∀ key ∈ h.request.storeKey, ∀ stored ∈ s.found h key,
      stored.fingerprint = h.request.fingerprint cfg →
      ∀ h' ∈ s.handlers, h'.request.storeKey = some key →
      h'.request.fingerprint cfg = h.request.fingerprint cfg →
      ∀ merchant ∈ h'.phase.success, h.request.merchant cfg s.keys = some merchant
  | _ => True

instance (cfg : Config) (s : State) (a : Action) : Decidable (OwnKey cfg s a) :=
  match a with
  | .advance i _ => inferInstanceAs (Decidable (∀ h ∈ s.handlers[i]?, ∀ key ∈ h.request.storeKey,
      ∀ stored ∈ s.found h key, stored.fingerprint = h.request.fingerprint cfg →
      ∀ h' ∈ s.handlers, h'.request.storeKey = some key →
      h'.request.fingerprint cfg = h.request.fingerprint cfg →
      ∀ merchant ∈ h'.phase.success, h.request.merchant cfg s.keys = some merchant))
  | .arrive _ | .redis _ | .expires _ | .wait _ | .changeKeys _ => inferInstanceAs (Decidable True)

/-! ## Where stored responses come from -/

/-- The response is the route's success for a request with the key, of the merchant. -/
structure Produced (cfg : Config) (key : String) (handlers : List Handler) (stored : Stored) :
    Prop where
  ok : stored.response.ok = true
  storeKey : stored.request.storeKey = some key
  fingerprint : stored.fingerprint = stored.request.fingerprint cfg
  answered : ⟨stored.request, .answered (some stored.merchant) stored.response⟩ ∈ handlers

/-- Every response that is stored, or loaded, has been produced for a request with the key. -/
structure Provenance (cfg : Config) (s : State) : Prop where
  memory : ∀ key entry, s.memory key = some entry → Produced cfg key s.handlers entry.stored
  redis : ∀ key stored, s.Sent key stored → Produced cfg key s.handlers stored
  loaded : ∀ h ∈ s.handlers, ∀ key, h.request.storeKey = some key → ∀ stored,
    h.phase = .loaded (some (.stored stored)) → Produced cfg key s.handlers stored

variable {s s' : State} {i : ℕ} {h : Handler} {key : String} {stored : Stored}
  {handlers : List Handler} {phase : Phase}

theorem Produced.concat (hs : Produced cfg key handlers stored) :
    Produced cfg key (handlers ++ [h]) stored :=
  { hs with answered := List.mem_append_left _ hs.answered }

/-- A request that is not answered goes on. -/
theorem Produced.set (hs : Produced cfg key handlers stored) (hi : handlers[i]? = some h)
    (hphase : ∀ merchant response, h.phase ≠ .answered merchant response) :
    Produced cfg key (handlers.set i { h with phase }) stored := by
  refine { hs with answered := ?_ }
  obtain ⟨j, hj⟩ := List.getElem?_of_mem hs.answered
  have hne : i ≠ j := by
    rintro rfl
    obtain rfl := Option.some.inj (hi.symm.trans hj)
    exact hphase _ _ rfl
  apply List.mem_of_getElem? (i := j)
  rwa [List.getElem?_set_ne hne]

theorem Provenance.found (hs : Provenance cfg s) (hh : h ∈ s.handlers)
    (hkey : h.request.storeKey = some key) (hfound : s.found h key = some stored) :
    Produced cfg key s.handlers stored := by
  rcases found_eq_some hfound with hphase | ⟨entry, hentry, rfl⟩
  · exact hs.loaded h hh key hkey stored hphase
  · exact hs.memory key entry hentry

/-- A request goes on to another phase, and knows no other stored response there. -/
theorem Provenance.setPhase (hs : Provenance cfg s) (phase : Phase) (hi : s.handlers[i]? = some h)
    (hphase : ∀ merchant response, h.phase ≠ .answered merchant response)
    (hloaded : ∀ key, h.request.storeKey = some key → ∀ stored,
      phase = .loaded (some (.stored stored)) → Produced cfg key s.handlers stored) :
    Provenance cfg (s.setPhase i h phase) := by
  refine ⟨fun key entry hentry => (hs.memory key entry hentry).set hi hphase,
    fun key stored hstored => (hs.redis key stored hstored).set hi hphase,
    fun h' hh' key hkey stored hstored => ?_⟩
  rcases List.mem_or_eq_of_mem_set hh' with hh' | rfl
  · exact (hs.loaded h' hh' key hkey stored hstored).set hi hphase
  · exact (hloaded key hkey stored hstored).set hi hphase

theorem ne_answered_of_before (hphase : phase.before = true) (merchant : Option String)
    (response : Response) : phase ≠ .answered merchant response := by
  rintro rfl
  cases hphase

theorem ne_answered_of_running (hphase : phase.running = true) (merchant : Option String)
    (response : Response) : phase ≠ .answered merchant response := by
  rintro rfl
  cases hphase

/-- The route answers a request, and its success is stored. -/
theorem Provenance.answer (hs : Provenance cfg s) (hi : s.handlers[i]? = some h)
    (hkey : h.request.storeKey = some key) (hrunning : h.phase.running = true)
    (merchant : Option String) (response : Response) :
    Provenance cfg (answer cfg s i h key merchant response) := by
  have hlt : i < s.handlers.length := (List.getElem?_eq_some_iff.mp hi).1
  have hset := hs.setPhase (.answered merchant response) hi
    (ne_answered_of_running hrunning) (by simp)
  obtain ⟨sent, he, hsent⟩ := answer_eq cfg s i h key merchant response
  rw [he]
  -- the response that is stored is the one just given
  have hnew : ∀ stored, stores cfg h merchant response = some stored → Produced cfg key
      (s.handlers.set i { h with phase := .answered merchant response }) stored := by
    intro stored hstores
    obtain ⟨hok, rfl, heq⟩ := stores_eq_some hstores
    rw [heq]
    exact ⟨hok, hkey, rfl, List.mem_of_getElem? (List.getElem?_set_self hlt)⟩
  refine ⟨fun key' entry hentry => ?_, fun key' stored hstored => ?_, hset.loaded⟩
  -- the memory: the entry is new, or it was there
  · cases hstores : stores cfg h merchant response with
    | none =>
      rw [hstores] at hentry
      exact hset.memory key' entry hentry
    | some stored =>
      rw [hstores, Option.elim_some] at hentry
      dsimp only at hentry
      rcases eq_or_ne key' key with rfl | hne
      · rw [Function.update_self] at hentry
        obtain rfl := Option.some.inj hentry
        exact hnew stored hstores
      · rw [Function.update_of_ne hne] at hentry
        exact hset.memory key' entry hentry
  -- Redis: the command is new, or it was sent before
  · rcases hstored with hcache | hmem
    · exact hset.redis key' stored (Or.inl hcache)
    · rcases List.mem_append.mp hmem with hmem | hmem
      · exact hset.redis key' stored (Or.inr hmem)
      · obtain ⟨rfl, hstores⟩ := hsent key' stored hmem
        exact hnew stored hstores

/-! ## Steps -/

theorem Provenance.move (hs : Provenance cfg s) (hi : s.handlers[i]? = some h)
    (hkey : h.request.storeKey = some key) (hmove : Move cfg s i h key s') : Provenance cfg s' := by
  cases hmove with
  | stay => exact hs
  | quiet phase hold hquiet =>
    apply hs.setPhase _ hi (ne_answered_of_before hold)
    intro key' _ stored he
    subst he
    cases hquiet
  | lock hold hcache =>
    have hset := hs.setPhase (.locked true) hi
      (ne_answered_of_before (by rw [hold]; rfl)) (by simp)
    exact { hset with
      redis := fun key' stored hstored =>
        hset.redis key' stored (sent_of_update (s := s) (by simp) hstored) }
  | load stored hold hcache =>
    have hbefore : h.phase.before = true := by rw [hold]; rfl
    apply hs.setPhase _ hi (ne_answered_of_before hbefore)
    intro key' hkey' stored' he
    obtain rfl : key = key' := Option.some.inj (hkey.symm.trans hkey')
    obtain rfl : stored = stored' := by simpa using he
    exact hs.redis key stored (Or.inl hcache)
  | replay stored hold hfound hfingerprint =>
    have hset := hs.setPhase (.replayed stored) hi (ne_answered_of_before hold) (by simp)
    exact ⟨hset.memory, hset.redis, hset.loaded⟩
  | enter hold =>
    have hset := hs.setPhase .entered hi
      (ne_answered_of_before (by rw [hold]; rfl)) (by simp)
    exact ⟨hset.memory, hset.redis, hset.loaded⟩
  | authorize merchant hold hmerchant =>
    exact hs.setPhase _ hi (ne_answered_of_running (by rw [hold]; rfl)) (by simp)
  | fail response hold hfail => exact hs.answer hi hkey (by rw [hold]; rfl) _ _
  | answer merchant response hold => exact hs.answer hi hkey (by rw [hold]; rfl) _ _

/-- **Where stored responses come from** is kept by every step. -/
theorem Provenance.step (hs : Provenance cfg s) (a : Action) : Provenance cfg (step cfg s a) := by
  cases a with
  | arrive req =>
    obtain ⟨phase, he, -, hknown⟩ := arrive_eq cfg s req
    rw [Idempotency.step, he]
    refine ⟨fun key entry hentry => (hs.memory key entry hentry).concat,
      fun key stored hstored => (hs.redis key stored hstored).concat,
      fun h hh key hkey stored hstored => ?_⟩
    rcases List.mem_append.mp hh with hh | hh
    · exact (hs.loaded h hh key hkey stored hstored).concat
    · obtain rfl := List.mem_singleton.mp hh
      obtain ⟨key', entry, hkey', hentry, rfl⟩ := hknown stored hstored
      obtain rfl : key' = key := Option.some.inj (hkey'.symm.trans hkey)
      exact (hs.memory key' entry hentry).concat
  | advance i ans =>
    rcases step_advance cfg s i ans with he | ⟨h, key, hi, hkey, hmove⟩
    · rw [he]
      exact hs
    · exact hs.move hi hkey hmove
  | redis ok =>
    obtain ⟨cache, pending, he, hpending, hcache⟩ := executeRedis_eq (s := s) ok
    rw [Idempotency.step, he]
    refine { hs with redis := fun key stored hstored => hs.redis key stored ?_ }
    rcases hstored with hstored | hstored
    · exact hcache key stored hstored
    · exact Or.inr (hpending hstored)
  | expires key =>
    exact { hs with
      redis := fun key' stored hstored =>
        hs.redis key' stored (sent_of_update (s := s) (by simp) hstored) }
  | wait | changeKeys => exact ⟨hs.memory, hs.redis, hs.loaded⟩

/-! ## What is sent -/

theorem storeKey_eq_some {req : Request} (hkey : req.storeKey = some key) :
    req.method = "POST" ∧ req.path = "/" := by
  unfold Request.storeKey at hkey
  split at hkey
  · assumption
  · cases hkey

/-- A response that a request finds is its own merchant's. -/
theorem isolated_move (hs : Provenance cfg s) (his : Isolated s) (hi : s.handlers[i]? = some h)
    (hkey : h.request.storeKey = some key) {ans : Answer} (hown : OwnKey cfg s (.advance i ans))
    (hmove : Move cfg s i h key s') : Isolated s' := by
  cases hmove with
  | stay | quiet | lock | load | enter | authorize => exact his
  | replay stored hold hfound hfingerprint =>
    refine List.forall_mem_append.mpr ⟨his, List.forall_mem_singleton.mpr ?_⟩
    have hproduced := hs.found (List.mem_of_getElem? hi) hkey hfound
    -- only `POST /` has a key at all
    obtain ⟨hmethod, hpath⟩ := storeKey_eq_some hkey
    obtain ⟨hmethod', hpath'⟩ := storeKey_eq_some hproduced.storeKey
    refine ⟨?_, hmethod.trans hmethod'.symm, hpath.trans hpath'.symm⟩
    refine hown h hi key hkey stored hfound hfingerprint _ hproduced.answered hproduced.storeKey
      (hproduced.fingerprint.symm.trans hfingerprint) _ ?_
    simp [Phase.success, hproduced.ok]
  | fail response hold hfail =>
    obtain ⟨sent, he, -⟩ := answer_eq cfg s i h key none response
    rw [he]
    exact his
  | answer merchant response hold =>
    obtain ⟨sent, he, -⟩ := answer_eq cfg s i h key (some merchant) response
    rw [he]
    exact his

theorem isolated_step (hs : Provenance cfg s) (his : Isolated s) {a : Action}
    (hown : OwnKey cfg s a) : Isolated (step cfg s a) := by
  cases a with
  | arrive req =>
    obtain ⟨phase, he, -⟩ := arrive_eq cfg s req
    rw [step, he]
    exact his
  | advance i ans =>
    rcases step_advance cfg s i ans with he | ⟨h, key, hi, hkey, hmove⟩
    · rw [he]
      exact his
    · exact isolated_move hs his hi hkey hown hmove
  | redis ok =>
    obtain ⟨cache, pending, he, -⟩ := executeRedis_eq (s := s) ok
    rw [step, he]
    exact his
  | expires | wait | changeKeys => exact his

theorem provenance_start (keys : Keys) : Provenance cfg (start keys) := by
  refine ⟨?_, ?_, ?_⟩ <;> simp [start, State.Sent]

/-- **Tenant isolation.** In every run in which a request finds a stored response only where its own
merchant's requests succeeded, a stored response is sent to its merchant alone. -/
theorem isolated_of_ownKey {keys : Keys} {as : List Action}
    (hown : Each (step cfg) (fun _ => OwnKey cfg) (start keys) as) :
    Always (step cfg) (fun _ => Isolated) (start keys) as := by
  intro pre hpre
  refine (inv_of_each (I := fun _ s => Provenance cfg s ∧ Isolated s)
    ⟨provenance_start keys, by simp [Isolated, start]⟩ ?_ (hown.restrict hpre)).2
  exact fun _ s a ⟨hs, his⟩ hown => ⟨hs.step a, isolated_step hs his hown⟩

open Http.Idempotency.Example in
/-- A request without an API key gets the response to the merchant's request. -/
theorem not_isolated_unauthenticated : ¬ ∀ (cfg : Config) (keys : Keys) (as : List Action),
    Always (step cfg) (fun _ => Isolated) (start keys) as := by
  intro h
  have hisolated := (h config firstKeys [.arrive merchantRequest, .advance 0 answers,
    .advance 0 answers, .advance 0 answers, .advance 0 answers, .advance 0 answers,
    .arrive (invoiceRequest none), .advance 1 answers]).at_end
  exact absurd (hisolated _ (List.mem_singleton.mpr rfl)).1 (by decide)

open Http.Idempotency.Example in
/-- The merchant sends its request again. -/
theorem isolated_of_ownKey_again : Always (step config) (fun _ => Isolated) (start firstKeys)
    [.arrive merchantRequest, .advance 0 answers, .advance 0 answers, .advance 0 answers,
      .advance 0 answers, .advance 0 answers, .arrive merchantRequest, .advance 1 answers] :=
  isolated_of_ownKey (by decide)

end Idempotency

end Http
