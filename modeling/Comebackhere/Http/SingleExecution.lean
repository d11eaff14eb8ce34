import Comebackhere.Http.Idempotency
import Comebackhere.Library.Run

/-!
# One execution for an idempotency key

The requests with one idempotency key should be executed one at a time, and not at all after one has
succeeded. The middleware looks for a request in flight before it asks for the lock, and does not
look again after it has the lock: where the lock does not keep requests out, or is free again, two
requests are executed.

## Main definitions

* `Enters`: a request with the key goes past the middleware
* `SingleExecution`: what is promised of the requests with one key
* `Alone`: a request goes past the middleware only when no other is in flight and nothing is stored

## Main results

* `InFlight.enter`, `InFlight.answer`: a request that is executed is the one in flight
* `Served.enter`, `Served.answer`: what is stored is the response of the one that has succeeded
* `singleExecution_of_alone`: the promise is kept in every run in which requests enter alone, and in
  no other run within the lifetime of what is stored
-/

namespace Http

namespace Idempotency

open Machine Offchain

variable {cfg : Config} {key : String}

/-- A request with the key goes past `next()`. -/
def Enters (key : String) (s : State) : Action → Prop
  | .advance i _ => ∃ h ∈ s.handlers[i]?, h.request.storeKey = some key ∧ h.phase = .locked true
  | _ => False

/-- The requests with the key. -/
def State.requests (s : State) (key : String) (h : Handler) : Prop :=
  h ∈ s.handlers ∧ h.request.storeKey = some key

/-- The request has been answered by the route, with a success. -/
def Phase.succeeded (phase : Phase) (response : Response) : Prop :=
  response.ok = true ∧ ∃ merchant, phase = .answered merchant response

/-- What is stored under the key has not expired. -/
def WithinLifetime (key : String) (s : State) (_ : Action) : Prop :=
  ∀ entry ∈ s.memory key, s.now < entry.expiresAt

/-- At no moment are two requests with the key past `next()` and not answered. Within the lifetime of
what is stored, no request enters after one has been answered with a success, and what the
middleware sends to the others is that response, or a conflict. -/
structure SingleExecution (key : String) (h : List (State × Action)) (s : State) : Prop where
  running : Crew.Unique
    (fun h => h.request.storeKey = some key ∧ h.phase.running = true) s.handlers
  entered : (∀ t ∈ h, WithinLifetime key t.1 t.2) → ∀ t ∈ h, Enters key t.1 t.2 →
    ∀ h', t.1.requests key h' → ∀ r, ¬ h'.phase.succeeded r
  same : (∀ t ∈ h, WithinLifetime key t.1 t.2) → ∀ h' h'', s.requests key h' →
    s.requests key h'' → ∀ r stored, h'.phase.succeeded r → h''.phase = .replayed stored →
    stored.response = r
  refused : ∀ h', s.requests key h' → ∀ e, h'.phase = .refused e → e.status = 409

/-- A request with the key enters only when none is in flight and no response is stored. -/
def Alone (key : String) (s : State) (a : Action) : Prop :=
  Enters key s a → s.inFlight key = none ∧ ∀ entry ∈ s.memory key, entry.expiresAt ≤ s.now

instance (phase : Phase) : Decidable (phase = .locked true) :=
  decidable_of_iff ((match phase with | .locked owner => owner | _ => false) = true)
    (by cases phase <;> simp)

instance (key : String) (s : State) (a : Action) : Decidable (Enters key s a) :=
  match a with
  | .advance i _ => inferInstanceAs
      (Decidable (∃ h ∈ s.handlers[i]?, h.request.storeKey = some key ∧ h.phase = .locked true))
  | .arrive _ | .redis _ | .expires _ | .wait _ | .changeKeys _ => inferInstanceAs (Decidable False)

instance (key : String) (s : State) (a : Action) : Decidable (Alone key s a) :=
  inferInstanceAs (Decidable (Enters key s a →
    s.inFlight key = none ∧ ∀ entry ∈ s.memory key, entry.expiresAt ≤ s.now))

/-! ## The requests with one key -/

/-- The request in flight is the one that is executed. -/
structure InFlight (key : String) (flight : Option ℕ) (handlers : List Handler) : Prop where
  current : ∀ (i : ℕ) (h : Handler), handlers[i]? = some h → h.request.storeKey = some key →
    h.phase.running = true → flight = some i
  running : ∀ i, flight = some i → ∃ h, handlers[i]? = some h ∧
    h.request.storeKey = some key ∧ h.phase.running = true
  refused : ∀ h ∈ handlers, h.request.storeKey = some key → ∀ e, h.phase = .refused e →
    e.status = 409

/-- What the entry under the key, the flight under the key, the responses in Redis or on their way
there, and the requests have to do with each other. -/
structure Served (key : String) (entry : Option MemoryEntry) (flight : Option ℕ)
    (sent : Stored → Prop) (handlers : List Handler) : Prop where
  alone : ∀ i, flight = some i → entry = none
  produced : ∀ e, entry = some e → ∃ h ∈ handlers, h.request.storeKey = some key ∧
    h.phase.succeeded e.stored.response
  succeeded : ∀ h ∈ handlers, h.request.storeKey = some key → ∀ r, h.phase.succeeded r →
    ∃ e, entry = some e ∧ e.stored.response = r
  redis : ∀ stored, sent stored → ∃ e, entry = some e ∧ e.stored = stored
  known : ∀ h ∈ handlers, h.request.storeKey = some key → ∀ stored,
    h.phase = .loaded (some (.stored stored)) ∨ h.phase = .replayed stored →
    ∃ e, entry = some e ∧ e.stored = stored

section Served

variable {entry : Option MemoryEntry} {flight : Option ℕ} {sent : Stored → Prop}
  {handlers : List Handler} {i : ℕ} {h : Handler} {phase : Phase}

theorem succeeded_of_before (hphase : phase.before = true) {r : Response} : ¬ phase.succeeded r := by
  rintro ⟨-, merchant, rfl⟩
  cases hphase

theorem succeeded_of_running (hphase : phase.running = true) {r : Response} :
    ¬ phase.succeeded r := by
  rintro ⟨-, merchant, rfl⟩
  cases hphase

theorem running_of_before (hphase : phase.before = true) : phase.running = false := by
  cases phase <;> first | rfl | cases hphase

/-- What a request with the key does that neither enters nor is answered by the route. -/
structure Steps (key : String) (entry : Option MemoryEntry) (before after : Phase) : Prop where
  running : after.running = before.running
  unanswered : ∀ r, ¬ before.succeeded r ∧ ¬ after.succeeded r
  known : ∀ stored, after = .loaded (some (.stored stored)) ∨ after = .replayed stored →
    ∃ e, entry = some e ∧ e.stored = stored

theorem inFlight_nil : InFlight key none [] := by
  refine ⟨fun i h hi => ?_, ?_, ?_⟩
  · simp at hi
  all_goals simp

theorem served_nil (key : String) : Served key none none (fun _ => False) [] := by
  refine ⟨?_, ?_, ?_, ?_, ?_⟩ <;> simp

/-- A request arrives that is not past `next()`. -/
theorem InFlight.concat (hs : InFlight key flight handlers) (hrunning : h.phase.running = false)
    (hrefused : ∀ e, h.phase ≠ .refused e) : InFlight key flight (handlers ++ [h]) := by
  refine ⟨fun i h' hi hkey hr => ?_, fun i hi => ?_, fun h' hh' hkey e he => ?_⟩
  · rcases lt_or_ge i handlers.length with hlt | hge
    · rw [List.getElem?_append_left hlt] at hi
      exact hs.current i h' hi hkey hr
    · rw [List.getElem?_append_right hge] at hi
      obtain rfl : h' = h := by simpa using List.mem_of_getElem? hi
      rw [hrunning] at hr
      cases hr
  · obtain ⟨h', hh', hrest⟩ := hs.running i hi
    obtain ⟨hlt, -⟩ := List.getElem?_eq_some_iff.mp hh'
    exact ⟨h', by rwa [List.getElem?_append_left hlt], hrest⟩
  · rcases List.mem_append.mp hh' with hh' | hh'
    · exact hs.refused h' hh' hkey e he
    · obtain rfl := List.mem_singleton.mp hh'
      exact absurd he (hrefused e)

theorem Served.concat (hs : Served key entry flight sent handlers)
    (hsucceeded : ∀ r, ¬ h.phase.succeeded r)
    (hknown : h.request.storeKey = some key → ∀ stored,
      h.phase = .loaded (some (.stored stored)) ∨ h.phase = .replayed stored →
      ∃ e, entry = some e ∧ e.stored = stored) :
    Served key entry flight sent (handlers ++ [h]) := by
  refine ⟨hs.alone, fun e he => ?_, fun h' hh' hkey r hr => ?_, hs.redis,
    fun h' hh' hkey stored hstored => ?_⟩
  · obtain ⟨h', hh', hrest⟩ := hs.produced e he
    exact ⟨h', List.mem_append_left _ hh', hrest⟩
  · rcases List.mem_append.mp hh' with hh' | hh'
    · exact hs.succeeded h' hh' hkey r hr
    · obtain rfl := List.mem_singleton.mp hh'
      exact absurd hr (hsucceeded r)
  · rcases List.mem_append.mp hh' with hh' | hh'
    · exact hs.known h' hh' hkey stored hstored
    · obtain rfl := List.mem_singleton.mp hh'
      exact hknown hkey stored hstored

/-- A request goes on. One with another key may do anything. -/
theorem InFlight.set (hs : InFlight key flight handlers) (hi : handlers[i]? = some h)
    (hrunning : h.request.storeKey = some key → phase.running = h.phase.running)
    (hrefused : h.request.storeKey = some key → ∀ e, phase = .refused e → e.status = 409) :
    InFlight key flight (handlers.set i { h with phase }) := by
  obtain ⟨hlt, -⟩ := List.getElem?_eq_some_iff.mp hi
  refine ⟨fun j h' hj hkey hr => ?_, fun j hj => ?_, fun h' hh' hkey e he => ?_⟩
  · rcases Crew.getElem?_set_eq_some hj with ⟨rfl, rfl⟩ | ⟨-, hj⟩
    · exact hs.current j h hi hkey (hrunning hkey ▸ hr)
    · exact hs.current j h' hj hkey hr
  · obtain ⟨h', hh', hkey, hr⟩ := hs.running j hj
    rcases eq_or_ne i j with rfl | hne
    · obtain rfl := Option.some.inj (hi.symm.trans hh')
      exact ⟨_, List.getElem?_set_self hlt, hkey, (hrunning hkey).trans hr⟩
    · exact ⟨h', by rwa [List.getElem?_set_ne hne], hkey, hr⟩
  · rcases List.mem_or_eq_of_mem_set hh' with hh' | rfl
    · exact hs.refused h' hh' hkey e he
    · exact hrefused hkey e he

theorem Served.set (hs : Served key entry flight sent handlers) (phase : Phase)
    (hi : handlers[i]? = some h)
    (hsteps : h.request.storeKey = some key → Steps key entry h.phase phase) :
    Served key entry flight sent (handlers.set i { h with phase }) := by
  refine ⟨hs.alone, fun e he => ?_, fun h' hh' hkey r hr => ?_,
    hs.redis, fun h' hh' hkey stored hstored => ?_⟩
  · obtain ⟨h', hh', hkey, hr⟩ := hs.produced e he
    obtain ⟨j, hj⟩ := List.getElem?_of_mem hh'
    have hne : i ≠ j := by
      rintro rfl
      obtain rfl := Option.some.inj (hi.symm.trans hj)
      exact ((hsteps hkey).unanswered _).1 hr
    refine ⟨h', List.mem_of_getElem? (i := j) ?_, hkey, hr⟩
    rwa [List.getElem?_set_ne hne]
  · rcases List.mem_or_eq_of_mem_set hh' with hh' | rfl
    · exact hs.succeeded h' hh' hkey r hr
    · exact absurd hr ((hsteps hkey).unanswered r).2
  · rcases List.mem_or_eq_of_mem_set hh' with hh' | rfl
    · exact hs.known h' hh' hkey stored hstored
    · exact (hsteps hkey).known stored hstored

/-- A request enters alone. -/
theorem InFlight.enter (hs : InFlight key none handlers) (hi : handlers[i]? = some h)
    (hkey : h.request.storeKey = some key) :
    InFlight key (some i) (handlers.set i { h with phase := .entered }) := by
  obtain ⟨hlt, -⟩ := List.getElem?_eq_some_iff.mp hi
  refine ⟨fun j h' hj hkey' hr => ?_, fun j hj => ?_, fun h' hh' hkey' e he => ?_⟩
  · rcases Crew.getElem?_set_eq_some hj with ⟨rfl, -⟩ | ⟨-, hj⟩
    · rfl
    · cases hs.current j h' hj hkey' hr
  · obtain rfl := Option.some.inj hj
    exact ⟨_, List.getElem?_set_self hlt, hkey, rfl⟩
  · rcases List.mem_or_eq_of_mem_set hh' with hh' | rfl
    · exact hs.refused h' hh' hkey' e he
    · cases he

theorem Served.enter (hs : Served key none none sent handlers) :
    Served key none (some i) sent (handlers.set i { h with phase := .entered }) := by
  refine ⟨fun j _ => rfl, by simp, fun h' hh' hkey' r hr => ?_,
    hs.redis, fun h' hh' hkey' stored hstored => ?_⟩
  · rcases List.mem_or_eq_of_mem_set hh' with hh' | rfl
    · exact hs.succeeded h' hh' hkey' r hr
    · exact absurd hr (succeeded_of_running rfl)
  · rcases List.mem_or_eq_of_mem_set hh' with hh' | rfl
    · exact hs.known h' hh' hkey' stored hstored
    · rcases hstored with h | h <;> cases h

/-- The route answers the request in flight. -/
theorem InFlight.answer (hs : InFlight key flight handlers) (hi : handlers[i]? = some h)
    (hkey : h.request.storeKey = some key) (hrunning : h.phase.running = true)
    {merchant : Option String} {response : Response} :
    InFlight key none (handlers.set i { h with phase := .answered merchant response }) := by
  obtain rfl := hs.current i h hi hkey hrunning
  refine ⟨fun j h' hj hkey' hr => ?_, by simp, fun h' hh' hkey' e he => ?_⟩
  · rcases Crew.getElem?_set_eq_some hj with ⟨-, rfl⟩ | ⟨hne, hj⟩
    · cases hr
    · exact absurd (Option.some.inj (hs.current j h' hj hkey' hr)).symm hne
  · rcases List.mem_or_eq_of_mem_set hh' with hh' | rfl
    · exact hs.refused h' hh' hkey' e he
    · cases he

/-- The route answers the request in flight, and its success is stored. -/
theorem Served.answer (hs : Served key none flight sent handlers) (hi : handlers[i]? = some h)
    (hkey : h.request.storeKey = some key) {merchant : Option String} {response : Response}
    {sent' : Stored → Prop}
    (hentry : ∀ e, entry = some e → response.ok = true ∧ e.stored.response = response)
    (hok : response.ok = true → ∃ e, entry = some e)
    (hsent : ∀ stored, sent' stored → sent stored ∨ ∃ e, entry = some e ∧ e.stored = stored) :
    Served key entry none sent' (handlers.set i { h with phase := .answered merchant response }) := by
  obtain ⟨hlt, -⟩ := List.getElem?_eq_some_iff.mp hi
  refine ⟨by simp, fun e he => ?_, fun h' hh' hkey' r hr => ?_,
    fun stored hstored => ?_, fun h' hh' hkey' stored hstored => ?_⟩
  · obtain ⟨hresponse, heq⟩ := hentry e he
    refine ⟨_, List.mem_of_getElem? (List.getElem?_set_self hlt), hkey, ?_⟩
    rw [heq]
    exact ⟨hresponse, merchant, rfl⟩
  · rcases List.mem_or_eq_of_mem_set hh' with hh' | rfl
    · obtain ⟨e, he, -⟩ := hs.succeeded h' hh' hkey' r hr
      cases he
    · obtain ⟨hresponse, m, hm⟩ := hr
      obtain ⟨rfl, rfl⟩ : merchant = m ∧ response = r := by simpa using hm
      obtain ⟨e, he⟩ := hok hresponse
      exact ⟨e, he, (hentry e he).2⟩
  · rcases hsent stored hstored with hold | hnew
    · obtain ⟨e, he, -⟩ := hs.redis stored hold
      cases he
    · exact hnew
  · rcases List.mem_or_eq_of_mem_set hh' with hh' | rfl
    · obtain ⟨e, he, -⟩ := hs.known h' hh' hkey' stored hstored
      cases he
    · rcases hstored with h | h <;> cases h

end Served

/-! ## Steps -/

def State.Executes (key : String) (s : State) : Prop :=
  InFlight key (s.inFlight key) s.handlers

def State.Serves (key : String) (s : State) : Prop :=
  Served key (s.memory key) (s.inFlight key) (s.Sent key) s.handlers

section Step

variable {s s' : State} {i : ℕ} {h : Handler} {key' : String}

theorem quiet_steps (key : String) (entry : Option MemoryEntry) {phase phase' : Phase}
    (hold : phase.before = true) (hquiet : phase'.Quiet) : Steps key entry phase phase' := by
  refine ⟨?_, fun r => ⟨succeeded_of_before hold, ?_⟩, ?_⟩
  · rw [running_of_before hold]
    cases hquiet <;> rfl
  · rintro ⟨-, m, rfl⟩
    cases hquiet
  · rintro stored (rfl | rfl) <;> cases hquiet

theorem executes_answer (hs : s.Executes key) (hi : s.handlers[i]? = some h)
    (hkey : h.request.storeKey = some key') (hrunning : h.phase.running = true)
    {merchant : Option String} {response : Response} :
    (answer cfg s i h key' merchant response).Executes key := by
  obtain ⟨sent, he, -⟩ := answer_eq cfg s i h key' merchant response
  rw [he]
  unfold State.Executes
  dsimp only
  rcases eq_or_ne key' key with rfl | hne
  · rw [Function.update_self]
    exact hs.answer hi hkey hrunning
  · rw [Function.update_of_ne hne.symm]
    exact InFlight.set hs hi (fun hkey' => absurd (Option.some.inj (hkey.symm.trans hkey')) hne)
      fun hkey' => absurd (Option.some.inj (hkey.symm.trans hkey')) hne

theorem serves_answer (hin : s.Executes key) (hs : s.Serves key)
    (hi : s.handlers[i]? = some h) (hkey : h.request.storeKey = some key')
    (hrunning : h.phase.running = true) {merchant : Option String} {response : Response}
    (hmerchant : merchant = none → response.ok = false) :
    (answer cfg s i h key' merchant response).Serves key := by
  obtain ⟨sent, he, hsent⟩ := answer_eq cfg s i h key' merchant response
  rw [he]
  rcases eq_or_ne key' key with rfl | hne
  · have hentry : s.memory key' = none := hs.alone i (hin.current i h hi hkey hrunning)
    have hs : Served key' none (s.inFlight key') (s.Sent key') s.handlers := hentry ▸ hs
    unfold State.Serves
    dsimp only
    rw [Function.update_self]
    cases hstores : stores cfg h merchant response with
    | none =>
      rw [Option.elim_none, hentry]
      refine hs.answer hi hkey (by simp) (fun hok => ?_) fun stored hstored => Or.inl ?_
      · cases merchant with
        | none => simp [hmerchant rfl] at hok
        | some m => simp [stores, hok] at hstores
      · apply hstored.imp_right
        intro hmem
        rcases List.mem_append.mp hmem with hmem | hmem
        · exact hmem
        · exact absurd (hsent key' stored hmem).2 (by simp [hstores])
    | some stored =>
      obtain ⟨hok, -, hstored⟩ := stores_eq_some hstores
      rw [Option.elim_some, Function.update_self]
      refine hs.answer hi hkey (fun e he => ?_) (fun _ => ⟨_, rfl⟩) fun stored' hstored' => ?_
      · obtain rfl := Option.some.inj he
        exact ⟨hok, by rw [hstored]⟩
      · rcases hstored' with hcache | hmem
        · exact Or.inl (Or.inl hcache)
        · rcases List.mem_append.mp hmem with hmem | hmem
          · exact Or.inl (Or.inr hmem)
          · refine Or.inr ⟨_, rfl, ?_⟩
            exact Option.some.inj (hstores.symm.trans (hsent key' stored' hmem).2)
  · have hset := Served.set hs (.answered merchant response) hi
      fun hkey' => absurd (Option.some.inj (hkey.symm.trans hkey')) hne
    unfold State.Serves
    dsimp only
    rw [Function.update_of_ne hne.symm]
    have hmemory : (stores cfg h merchant response).elim s.memory (fun stored =>
        Function.update s.memory key' (some ⟨stored, s.now + ttlSeconds * 1000⟩)) key =
        s.memory key := by
      cases stores cfg h merchant response with
      | none => rfl
      | some stored => exact Function.update_of_ne hne.symm _ _
    rw [hmemory]
    refine { hset with redis := fun stored hstored => hs.redis stored (hstored.imp_right ?_) }
    intro hmem
    rcases List.mem_append.mp hmem with hmem | hmem
    · exact hmem
    · exact absurd (hsent key stored hmem).1 hne.symm

/-- What a request does, that enters alone if it does. -/
theorem executes_move (hs : s.Executes key) (hi : s.handlers[i]? = some h)
    (hkey : h.request.storeKey = some key')
    (halone : key' = key → h.phase = .locked true → s.inFlight key = none)
    (hmove : Move cfg s i h key' s') : s'.Executes key := by
  cases hmove with
  | stay => exact hs
  | quiet phase hold hquiet =>
    refine InFlight.set hs hi (fun _ => (quiet_steps key none hold hquiet).running)
      fun _ e he => ?_
    subst he
    cases hquiet
    rfl
  -- before `next()`, and not refused
  | lock hold hcache =>
    exact InFlight.set hs hi (fun _ => by rw [hold]; rfl) fun _ e he => by cases he
  | load stored hold hcache =>
    exact InFlight.set hs hi (fun _ => by rw [hold]; rfl) fun _ e he => by cases he
  | replay stored hold hfound hfingerprint =>
    exact InFlight.set hs hi (fun _ => (running_of_before hold).symm) fun _ e he => by cases he
  | enter hold =>
    unfold State.Executes enter
    dsimp only [State.setPhase]
    -- a request with this key enters alone, one with another does not count
    rcases eq_or_ne key' key with rfl | hne
    · rw [Function.update_self]
      refine InFlight.enter ?_ hi hkey
      rw [← halone rfl hold]
      exact hs
    · rw [Function.update_of_ne hne.symm]
      exact InFlight.set hs hi (fun hkey' => absurd (Option.some.inj (hkey.symm.trans hkey')) hne)
        fun hkey' => absurd (Option.some.inj (hkey.symm.trans hkey')) hne
  | authorize merchant hold hmerchant =>
    exact InFlight.set hs hi (fun _ => by rw [hold]; rfl) fun _ e he => by cases he
  | fail response hold hfail => exact executes_answer hs hi hkey (by rw [hold]; rfl)
  | answer merchant response hold => exact executes_answer hs hi hkey (by rw [hold]; rfl)

theorem serves_move (hin : s.Executes key) (hs : s.Serves key) (hi : s.handlers[i]? = some h)
    (hkey : h.request.storeKey = some key')
    (halone : key' = key → h.phase = .locked true → s.inFlight key = none ∧ s.memory key = none)
    (hmove : Move cfg s i h key' s') : s'.Serves key := by
  have hh : h ∈ s.handlers := List.mem_of_getElem? hi
  cases hmove with
  | stay => exact hs
  | quiet phase hold hquiet => exact Served.set hs _ hi fun _ => quiet_steps _ _ hold hquiet
  | lock hold hcache =>
    have hset : Served key (s.memory key) (s.inFlight key) (s.Sent key) _ :=
      Served.set hs (.locked true) hi
        fun _ => quiet_steps _ _ (by rw [hold]; rfl) (.locked true)
    exact { hset with
      redis := fun stored hstored =>
        hs.redis stored (sent_of_update (s := s) (by simp) hstored) }
  | load stored hold hcache =>
    refine Served.set hs _ hi fun hkey' => ⟨by rw [hold]; rfl,
      fun r => ⟨succeeded_of_before (by rw [hold]; rfl), succeeded_of_before rfl⟩, ?_⟩
    obtain rfl : key' = key := Option.some.inj (hkey.symm.trans hkey')
    rintro stored' (he | he)
    · obtain rfl : stored = stored' := by simpa using he
      exact hs.redis stored (Or.inl hcache)
    · cases he
  | replay stored hold hfound hfingerprint =>
    refine Served.set hs _ hi fun hkey' => ⟨(running_of_before hold).symm,
      fun r => ⟨succeeded_of_before hold, fun hr => ?_⟩, ?_⟩
    · obtain ⟨-, m, hm⟩ := hr
      cases hm
    · obtain rfl : key' = key := Option.some.inj (hkey.symm.trans hkey')
      rintro stored' (he | he)
      · cases he
      · obtain rfl : stored = stored' := by simpa using he
        rcases found_eq_some hfound with hloaded | hentry
        · exact hs.known h hh hkey stored (Or.inl hloaded)
        · exact hentry
  | enter hold =>
    unfold State.Serves enter
    dsimp only [State.setPhase]
    -- nothing is stored where a request enters alone within the lifetime
    rcases eq_or_ne key' key with rfl | hne
    · obtain ⟨hflight, hentry⟩ := halone rfl hold
      unfold State.Serves at hs
      rw [hflight, hentry] at hs
      rw [Function.update_self, hentry]
      exact hs.enter
    · rw [Function.update_of_ne hne.symm]
      exact Served.set hs _ hi fun hkey' => absurd (Option.some.inj (hkey.symm.trans hkey')) hne
  | authorize merchant hold hmerchant =>
    refine Served.set hs _ hi fun _ => ⟨by rw [hold]; rfl,
      fun r => ⟨succeeded_of_running (by rw [hold]; rfl), succeeded_of_running rfl⟩, ?_⟩
    rintro stored (he | he) <;> cases he
  | fail response hold hfail =>
    exact serves_answer hin hs hi hkey (by rw [hold]; rfl) fun _ => hfail
  | answer merchant response hold =>
    exact serves_answer hin hs hi hkey (by rw [hold]; rfl) (by simp)

theorem enters_of_locked {a : Answer} (hi : s.handlers[i]? = some h)
    (hkey : h.request.storeKey = some key) (hphase : h.phase = .locked true) :
    Enters key s (.advance i a) := ⟨h, hi, hkey, hphase⟩

/-- **The request in flight** is the one that is executed, after a step in which requests enter
alone. -/
theorem executes_step (hs : s.Executes key) {a : Action} (halone : Alone key s a) :
    (step cfg s a).Executes key := by
  cases a with
  | arrive req =>
    obtain ⟨phase, he, hphase, -⟩ := arrive_eq cfg s req
    rw [step, he]
    refine InFlight.concat hs ?_ ?_
    · rcases hphase with rfl | hphase
      · rfl
      · exact running_of_before hphase
    · rintro e rfl
      rcases hphase with hphase | hphase <;> cases hphase
  | advance i ans =>
    rcases step_advance cfg s i ans with he | ⟨h, key', hi, hkey, hmove⟩
    · rw [he]
      exact hs
    · refine executes_move hs hi hkey (fun heq hphase => ?_) hmove
      exact (halone (enters_of_locked hi (heq ▸ hkey) hphase)).1
  | redis ok =>
    obtain ⟨cache, pending, he, -⟩ := executeRedis_eq (s := s) ok
    rw [step, he]
    exact hs
  | expires | wait | changeKeys => exact hs

/-- **What is stored** is the response of the one request that has succeeded. -/
theorem serves_step (hin : s.Executes key) (hs : s.Serves key) {a : Action}
    (hlifetime : WithinLifetime key s a) (halone : Alone key s a) :
    (step cfg s a).Serves key := by
  cases a with
  | arrive req =>
    obtain ⟨phase, he, hphase, hknown⟩ := arrive_eq cfg s req
    rw [step, he]
    refine Served.concat hs (fun r => ?_) fun hkey stored hstored => ?_
    · rcases hphase with rfl | hphase
      · rintro ⟨-, m, hm⟩
        cases hm
      · exact succeeded_of_before hphase
    · rcases hstored with hstored | hstored
      · obtain ⟨key', entry, hkey', hentry, he⟩ := hknown stored hstored
        obtain rfl : key' = key := Option.some.inj (hkey'.symm.trans hkey)
        exact ⟨entry, hentry, he⟩
      · obtain rfl : phase = .replayed stored := hstored
        rcases hphase with hphase | hphase <;> cases hphase
  | advance i ans =>
    rcases step_advance cfg s i ans with he | ⟨h, key', hi, hkey, hmove⟩
    · rw [he]
      exact hs
    · refine serves_move hin hs hi hkey (fun heq hphase => ?_) hmove
      -- what is stored would have expired, which it has not
      obtain ⟨hflight, hexpired⟩ := halone (enters_of_locked hi (heq ▸ hkey) hphase)
      refine ⟨hflight, Option.eq_none_iff_forall_not_mem.mpr fun entry hentry => ?_⟩
      exact absurd (hexpired entry hentry) (not_le.mpr (hlifetime entry hentry))
  | redis ok =>
    obtain ⟨cache, pending, he, hpending, hcache⟩ := executeRedis_eq (s := s) ok
    rw [step, he]
    refine { hs with redis := fun stored hstored => hs.redis stored ?_ }
    rcases hstored with hstored | hstored
    · exact hcache key stored hstored
    · exact Or.inr (hpending hstored)
  | expires key' =>
    exact { hs with
      redis := fun stored hstored =>
        hs.redis stored (sent_of_update (s := s) (by simp) hstored) }
  | wait | changeKeys => exact hs

end Step

/-! ## Runs -/

/-- What holds throughout a run in which requests enter alone. -/
structure Invariant (key : String) (h : List (State × Action)) (s : State) : Prop where
  executes : s.Executes key
  serves : (∀ t ∈ h, WithinLifetime key t.1 t.2) → s.Serves key
  entered : (∀ t ∈ h, WithinLifetime key t.1 t.2) → ∀ t ∈ h, Enters key t.1 t.2 →
    ∀ h', t.1.requests key h' → ∀ r, ¬ h'.phase.succeeded r

variable {h : List (State × Action)} {s : State} {a : Action}

theorem invariant_start (key : String) (keys : Keys) : Invariant key [] (start keys) := by
  refine ⟨inFlight_nil, fun _ => ?_, by simp⟩
  exact { served_nil key with redis := by simp [State.Sent, start] }

theorem Invariant.snoc (hinv : Invariant key h s) (halone : Alone key s a) :
    Invariant key (h ++ [(s, a)]) (step cfg s a) := by
  refine ⟨executes_step hinv.executes halone, fun hlifetime => ?_, fun hlifetime => ?_⟩
  · obtain ⟨hbefore, hlast⟩ := List.forall_mem_append.mp hlifetime
    exact serves_step (a := a) hinv.executes (hinv.serves hbefore)
      (List.forall_mem_singleton.mp hlast :) halone
  · obtain ⟨hbefore, hlast⟩ := List.forall_mem_append.mp hlifetime
    refine List.forall_mem_append.mpr ⟨hinv.entered hbefore, List.forall_mem_singleton.mpr ?_⟩
    rintro henters h' ⟨hmem, hkey⟩ r hr
    obtain ⟨entry, hentry, -⟩ := (hinv.serves hbefore).succeeded h' hmem hkey r hr
    have hexpired := (halone henters).2 entry hentry
    exact absurd (List.forall_mem_singleton.mp hlast entry hentry) (not_lt.mpr hexpired)

theorem Invariant.singleExecution (hinv : Invariant key h s) : SingleExecution key h s := by
  refine ⟨fun i j h' h'' hi hj hr hr' => ?_, hinv.entered,
    fun hlifetime h' h'' hh' hh'' r stored hr he => ?_,
    fun h' hh' => hinv.executes.refused h' hh'.1 hh'.2⟩
  · have hflight := hinv.executes.current i h' hi hr.1 hr.2
    exact Option.some.inj (hflight.symm.trans (hinv.executes.current j h'' hj hr'.1 hr'.2))
  · obtain ⟨e, hentry, hresponse⟩ := (hinv.serves hlifetime).succeeded h' hh'.1 hh'.2 r hr
    obtain ⟨e', hentry', hstored⟩ :=
      (hinv.serves hlifetime).known h'' hh''.1 hh''.2 stored (Or.inr he)
    obtain rfl := Option.some.inj (hentry.symm.trans hentry')
    rw [← hstored, hresponse]

theorem step_locked {i : ℕ} {h' : Handler} (hi : s.handlers[i]? = some h')
    (hkey : h'.request.storeKey = some key) (hphase : h'.phase = .locked true) (ans : Answer) :
    step cfg s (.advance i ans) = enter s i h' key := by
  simp [step, hi, hkey, advance, hphase]

/-- A request that enters when another is in flight, or when a response is stored, breaks the
promise. -/
theorem Invariant.alone (hinv : Invariant key h s)
    (hlifetime : ∀ t ∈ h ++ [(s, a)], WithinLifetime key t.1 t.2)
    (hsingle : SingleExecution key (h ++ [(s, a)]) (step cfg s a)) : Alone key s a := by
  intro henters
  have hentered := hsingle.entered hlifetime (s, a) (by simp) henters
  cases a with
  | advance i ans =>
    obtain ⟨h', hi, hkey, hphase⟩ := henters
    have hrunning := hsingle.running
    rw [step_locked hi hkey hphase] at hrunning
    obtain ⟨hlt, -⟩ := List.getElem?_eq_some_iff.mp hi
    constructor
    -- the one in flight would be past `next()` with it
    · cases hflight : s.inFlight key with
      | none => rfl
      | some j =>
        obtain ⟨h'', hj, hkey', hr⟩ := hinv.executes.running j hflight
        have hne : i ≠ j := by
          rintro rfl
          obtain rfl := Option.some.inj (hi.symm.trans hj)
          simp [hphase, Phase.running] at hr
        refine absurd (hrunning i j _ h'' (List.getElem?_set_self hlt) ?_ ⟨hkey, rfl⟩ ⟨hkey', hr⟩) hne
        exact (List.getElem?_set_ne hne).trans hj
    -- what is stored has been answered with a success
    · intro entry hentry
      obtain ⟨hbefore, -⟩ := List.forall_mem_append.mp hlifetime
      obtain ⟨h'', hmem, hkey', hr⟩ := (hinv.serves hbefore).produced entry hentry
      exact absurd hr (hentered h'' ⟨hmem, hkey'⟩ _)
  | _ => exact henters.elim

/-- **One execution for a key.** In every run in which the requests with the key enter alone, they
are executed one at a time, and not after one has succeeded within the lifetime of what is stored.
Of the runs within that lifetime, these are all in which the promise is kept. -/
theorem singleExecution_of_alone (cfg : Config) (keys : Keys) (key : String) (as : List Action) :
    (Each (step cfg) (fun _ => Alone key) (start keys) as →
      Always (step cfg) (SingleExecution key) (start keys) as) ∧
    (Each (step cfg) (fun _ => WithinLifetime key) (start keys) as →
      Always (step cfg) (SingleExecution key) (start keys) as →
      Each (step cfg) (fun _ => Alone key) (start keys) as) := by
  constructor
  · intro halone pre hpre
    refine (inv_of_each (I := Invariant key) (invariant_start key keys) ?_
      (halone.restrict hpre)).singleExecution
    exact fun h s a hinv halone => hinv.snoc halone
  · intro hlifetime halways
    refine (always_iff_each_assuming (A := fun _ => WithinLifetime key)
      (I := fun h s => Invariant key h s ∧ ∀ t ∈ h, WithinLifetime key t.1 t.2)
      ⟨invariant_start key keys, by simp⟩ (fun h s hinv => hinv.1.singleExecution)
      (fun h s a hinv hlife halone => ⟨hinv.1.snoc halone, ?_⟩)
      (fun h s a hinv hlife hsingle => hinv.1.alone ?_ hsingle) hlifetime).mp halways
    · exact List.forall_mem_append.mpr ⟨hinv.2, List.forall_mem_singleton.mpr hlife⟩
    · exact List.forall_mem_append.mpr ⟨hinv.2, List.forall_mem_singleton.mpr hlife⟩

open Http.Idempotency.Example in
/-- Two requests wait for a third, which is refused: both then get the lock, and both go on. -/
theorem not_singleExecution : ¬ ∀ (cfg : Config) (keys : Keys) (key : String) (as : List Action),
    Always (step cfg) (SingleExecution key) (start keys) as := by
  intro h
  have hrunning := (h config firstKeys invoiceKey
    [.arrive (invoiceRequest none), .arrive merchantRequest, .arrive merchantRequest,
      .advance 0 answers, .advance 0 answers, .advance 0 answers, .advance 1 answers,
      .advance 2 answers, .advance 0 answers, .advance 1 answers, .advance 2 answers,
      .advance 1 answers, .advance 2 answers, .advance 1 answers,
      .advance 2 answers]).at_end.running
  have h12 := hrunning 1 2 ⟨merchantRequest, .entered⟩ ⟨merchantRequest, .entered⟩ (by rfl) (by rfl)
    ⟨by decide, rfl⟩ ⟨by decide, rfl⟩
  cases h12

open Http.Idempotency.Example in
/-- A request waits for another, which succeeds, and gets its response. -/
theorem singleExecution_of_alone_waiting : Always (step config) (SingleExecution invoiceKey)
    (start firstKeys) [.arrive merchantRequest, .arrive merchantRequest, .advance 0 answers,
      .advance 0 answers, .advance 0 answers, .advance 1 answers, .advance 0 answers,
      .advance 0 answers, .advance 1 answers] :=
  (singleExecution_of_alone config firstKeys invoiceKey _).1 (by decide)

end Idempotency

end Http
