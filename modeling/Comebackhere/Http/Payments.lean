import Comebackhere.Library.Crew
import Comebackhere.Library.Run
import Comebackhere.Offchain.InvoiceDecoders
import Comebackhere.Webhooks.Dispatcher

/-!
# The payment routes of the Rust backend

The routes `pay`, `cancel` and `refund` submit a transaction that the client has signed, and keep
the response under the request's idempotency key. A handler looks its key up, asks the chain for
the invoice, sends the transaction and stores the response; other handlers run between these steps.

## Main definitions

* `Route`, `payInvoice`, `cancelInvoice`, `refundInvoice`: the three handlers, by what they differ in
* `Store.get`, `Store.insert`: the idempotency store
* `Phase`, `Action`, `step`: where a handler is, and its next step
* `Idempotent k s`: at most one request with the key `k` has been sent, and all have its response
* `NoOverlap k s a`: no lookup of `k` fails while a request with the key is in flight

## Main results

* `Served.step`: what the store and the requests with one key have to do with each other
* `idempotent_of_noOverlap`: the routes are idempotent in the runs without overlap
-/

namespace Payments

open Machine Offchain Webhooks

/-! ## Responses -/

structure Response where
  status : UInt16
  body : Json

/-- The body of an `ErrorResponse`. -/
def errorResponse (status : UInt16) (error : String) : Response :=
  ⟨status, .object [("code", .number status.toNat), ("error", .string error)]⟩

/-- `StatusCode::from_u16(status).unwrap_or(StatusCode::OK)` -/
def fromU16 (status : UInt16) : UInt16 := if 100 ≤ status ∧ status ≤ 999 then status else 200

/-- One string occurs in another. -/
def contains (s needle : String) : Bool := decide (needle.toList <:+: s.toList)

/-- An error of the chain that a route answers with a status and a text of its own. -/
structure Rejection where
  needle : String
  status : UInt16
  error : UInt64 → String

/-- What the three handlers differ in. -/
structure Route where
  endpoint : String
  /-- The party named in the request may do this to the invoice. -/
  authorises : Backend.InvoiceResponse → String → Bool
  /-- The invoice's status in the response. -/
  status : String
  rejections : List Rejection
  /-- The event that a transaction leads to. -/
  event : Option String

/-- The payer of the invoice, if it has one, is the party. -/
def isPayer (invoice : Backend.InvoiceResponse) (party : String) : Bool :=
  match invoice.payer with
  | some expected => expected = "" ∨ expected = party
  | none => true

def notFound : Rejection :=
  ⟨"NOT_FOUND", 404, fun id => "Invoice " ++ toString id ++ " not found"⟩

def payInvoice : Route where
  endpoint := "pay"
  authorises := isPayer
  status := "paid"
  rejections :=
    [⟨"UNAUTHORIZED", 403, fun _ => "Payer does not match the expected address for this invoice"⟩,
      notFound]
  event := none

def cancelInvoice : Route where
  endpoint := "cancel"
  authorises invoice party := invoice.merchant = party
  status := "cancelled"
  rejections :=
    [⟨"UNAUTHORIZED", 403, fun _ =>
      "Only the invoice merchant is authorised to cancel this invoice"⟩, notFound]
  event := some "invoice.cancelled"

def refundInvoice : Route where
  endpoint := "refund"
  authorises := isPayer
  status := "refund_requested"
  rejections :=
    [⟨"NOT_PAID", 422, fun _ =>
      "Invoice has not been paid and is not eligible for a refund"⟩,
      ⟨"UNAUTHORIZED", 403, fun _ =>
      "Only the invoice payer is authorised to request a refund"⟩, notFound]
  event := none

inductive Endpoint
  | pay
  | cancel
  | refund
  deriving DecidableEq

def Endpoint.route : Endpoint → Route
  | .pay => payInvoice
  | .cancel => cancelInvoice
  | .refund => refundInvoice

/-- The body of a successful response. -/
def Route.succeeded (route : Route) (transactionHash : String) : Json :=
  .object [("status", .string route.status), ("transaction_hash", .string transactionHash)]

/-- The response to what the client of the chain returned. -/
def Route.respond (route : Route) (id : UInt64) : Except String String → Response
  | .ok transactionHash => ⟨200, route.succeeded transactionHash⟩
  | .error e =>
    match route.rejections.find? fun rejection => contains e rejection.needle with
    | some rejection => errorResponse rejection.status (rejection.error id)
    | none => errorResponse 500 e

/-! ## The idempotency store -/

structure CachedResponse where
  response : Response
  recordedAt : ℕ

structure Store where
  inner : String → Option CachedResponse
  ttl : ℕ

def makeKey (endpoint : String) (invoiceId : UInt64) (idempotencyKey : String) : String :=
  endpoint ++ ":" ++ toString invoiceId ++ ":" ++ idempotencyKey

/-- The entry is younger than the store's lifetime of entries. -/
def Store.fresh (store : Store) (now : ℕ) (entry : CachedResponse) : Bool :=
  now - entry.recordedAt < store.ttl

/-- An expired entry is evicted. -/
def Store.get (store : Store) (now : ℕ) (key : String) : Option CachedResponse × Store :=
  match store.inner key with
  | none => (none, store)
  | some entry =>
    if store.fresh now entry then (some entry, store)
    else (none, { store with inner := Function.update store.inner key none })

def Store.insert (store : Store) (now : ℕ) (key : String) (response : Response) : Store :=
  { store with inner := Function.update store.inner key (some ⟨response, now⟩) }

def Store.purgeExpired (store : Store) (now : ℕ) : Store :=
  { store with inner := fun key => (store.inner key).filter (store.fresh now) }

/-! ## Handlers -/

/-- A request: the header, the path and the body. -/
structure Request where
  endpoint : Endpoint
  idempotencyKey : Option String
  id : UInt64
  party : String
  signedXdr : String
  deriving DecidableEq

/-- The key of the response in the store. -/
def Request.storeKey (request : Request) : Option String :=
  request.idempotencyKey.map (makeKey request.endpoint.route.endpoint request.id)

/-- Where a handler is: before its lookup, waiting for the invoice, waiting for the transaction's
hash, about to store its response, or done with its own response or with a stored one. -/
inductive Phase
  | lookingUp
  | reading
  | sending
  | storing (response : Response)
  | answered (response : Response)
  | replayed (response : Response)

/-- A request and its handler. `sent` records that the transaction has been sent. -/
structure Handler where
  request : Request
  phase : Phase
  sent : Bool

structure State where
  store : Store
  now : ℕ
  handlers : List Handler
  /-- The events handed to the dispatcher. -/
  emitted : List WebhookEvent

def start (ttl : ℕ) : State := ⟨⟨fun _ => none, ttl⟩, 0, [], []⟩

/-- What the chain answers when a handler asks for its invoice, or sends its transaction. -/
structure Answer where
  invoice : Except String Backend.InvoiceResponse
  transactionHash : Except String String

inductive Action
  | arrive (request : Request)
  /-- The next step of a handler, with the chain's answer if it is waiting for one. -/
  | handle (i : ℕ) (answer : Answer)
  | wait (time : ℕ)
  | purgeExpired

def State.setHandler (s : State) (i : ℕ) (handler : Handler) : State :=
  { s with handlers := s.handlers.set i handler }

/-- What a handler does with what it has found, in the store that the lookup has left. -/
def lookedUp (s : State) (i : ℕ) (h : Handler) : Option CachedResponse × Store → State
  | (some cached, store) =>
    { s with store }.setHandler i { h with
      phase := .replayed ⟨fromU16 cached.response.status, cached.response.body⟩ }
  | (none, store) => { s with store }.setHandler i { h with phase := .reading }

def lookUp (s : State) (i : ℕ) (h : Handler) : State :=
  match h.request.storeKey with
  | none => s.setHandler i { h with phase := .reading }
  | some key => lookedUp s i h (s.store.get s.now key)

/-- The first half of the client's call. -/
def readInvoice (s : State) (i : ℕ) (h : Handler) (answer : Except String Backend.InvoiceResponse) :
    State :=
  let route := h.request.endpoint.route
  match answer with
  | .error e => s.setHandler i { h with phase := .storing (route.respond h.request.id (.error e)) }
  -- the invoice names the party, or nobody
  | .ok invoice =>
    if route.authorises invoice h.request.party then
      s.setHandler i { h with phase := .sending, sent := true }
    else
      s.setHandler i { h with
        phase := .storing (route.respond h.request.id (.error "UNAUTHORIZED")) }

/-- The second half, and the event that a transaction leads to. -/
def sendTransaction (s : State) (i : ℕ) (h : Handler) (answer : Except String String) : State :=
  let route := h.request.endpoint.route
  let s := s.setHandler i { h with phase := .storing (route.respond h.request.id answer) }
  match answer, route.event with
  | .ok transactionHash, some eventType =>
    { s with emitted := s.emitted ++ [{
      eventType, invoiceId := h.request.id, merchant := h.request.party
      data := route.succeeded transactionHash, createdAt := .ofNat s.now }] }
  | _, _ => s

def storeResponse (s : State) (i : ℕ) (h : Handler) (response : Response) : State :=
  let s := s.setHandler i { h with phase := .answered response }
  match h.request.storeKey with
  | none => s
  | some key => { s with store := s.store.insert s.now key response }

def handle (s : State) (i : ℕ) (h : Handler) (answer : Answer) : State :=
  match h.phase with
  | .lookingUp => lookUp s i h
  | .reading => readInvoice s i h answer.invoice
  | .sending => sendTransaction s i h answer.transactionHash
  | .storing response => storeResponse s i h response
  | .answered _ | .replayed _ => s

def step (s : State) : Action → State
  | .arrive request => { s with handlers := s.handlers ++ [⟨request, .lookingUp, false⟩] }
  | .handle i answer =>
    match s.handlers[i]? with
    | none => s
    | some h => handle s i h answer
  | .wait time => { s with now := s.now + time }
  | .purgeExpired => { s with store := s.store.purgeExpired s.now }

/-! ## What the routes promise -/

def Phase.inFlight : Phase → Bool
  | .reading | .sending | .storing _ => true
  | _ => false

/-- The handler has called the chain's client. -/
def Phase.called : Phase → Bool
  | .reading | .sending | .storing _ | .answered _ => true
  | _ => false

/-- What the request has been answered. -/
def Phase.answer : Phase → Option Response
  | .answered response | .replayed response => some response
  | _ => none

/-- The response to what the handler's own call came to. -/
def Phase.outcome : Phase → Option Response
  | .storing response | .answered response => some response
  | _ => none

/-- The requests with one key in the store. -/
def State.requests (s : State) (key : String) (h : Handler) : Prop :=
  h ∈ s.handlers ∧ h.request.storeKey = some key

/-- At most one request with the key has been sent to the chain, and the requests with the key have
one answer, which is that one's outcome. -/
structure Idempotent (key : String) (s : State) : Prop where
  once : Crew.Unique (fun h => h.request.storeKey = some key ∧ h.sent = true) s.handlers
  same : ∀ h h', s.requests key h → s.requests key h' →
    ∀ r r', h.phase.answer = some r → h'.phase.answer = some r' → r = r'
  own : ∀ h h', s.requests key h → s.requests key h' → h.sent = true →
    ∀ r r', h.phase.outcome = some r → h'.phase.answer = some r' → r = r'

/-- An entry under the key has not expired. -/
def WithinLifetime (key : String) (s : State) (_ : Action) : Prop :=
  ∀ entry ∈ s.store.inner key, s.store.fresh s.now entry = true

/-- The handler is about to look its key up, and nothing is stored under it. -/
def Misses (key : String) (s : State) (h : Handler) : Prop :=
  h.request.storeKey = some key ∧ h.phase = .lookingUp ∧ s.store.inner key = none

/-- No lookup of the key fails while a request with the key is in flight. -/
def NoOverlap (key : String) (s : State) : Action → Prop
  | .handle i _ => ∀ h ∈ s.handlers[i]?, Misses key s h →
    ∀ h' ∈ s.handlers, h'.request.storeKey = some key → h'.phase.inFlight = false
  | _ => True

instance : (phase : Phase) → Decidable (phase = .lookingUp)
  | .lookingUp => isTrue rfl
  | .reading | .sending | .storing _ | .answered _ | .replayed _ => isFalse (by simp)

instance {key : String} {s : State} {h : Handler} : Decidable (Misses key s h) :=
  inferInstanceAs (Decidable (_ ∧ _ ∧ _))

instance {key : String} {s : State} {a : Action} : Decidable (WithinLifetime key s a) :=
  inferInstanceAs (Decidable (∀ entry ∈ s.store.inner key, _))

instance {key : String} {s : State} : (a : Action) → Decidable (NoOverlap key s a)
  | .handle i _ => inferInstanceAs (Decidable (∀ h ∈ s.handlers[i]?, Misses key s h →
      ∀ h' ∈ s.handlers, h'.request.storeKey = some key → h'.phase.inFlight = false))
  | .arrive _ | .wait _ | .purgeExpired => isTrue trivial

/-! ## Requests with one key -/

/-- A response that a lookup returns as it is. -/
def Response.Valid (r : Response) : Prop := fromU16 r.status = r.status

/-- What is stored under the key, and where a handler with the key may be. -/
def Phase.Agrees : Option CachedResponse → Phase → Prop
  | none, .lookingUp | none, .reading | none, .sending => True
  | none, .storing response => response.Valid
  | some _, .lookingUp => True
  | some entry, .answered response | some entry, .replayed response => response = entry.response
  | _, _ => False

/-- What the entry under the key and the handlers have to do with each other. -/
structure Served (key : String) (entry : Option CachedResponse) (handlers : List Handler) :
    Prop where
  unique : Crew.Unique
    (fun h => h.request.storeKey = some key ∧ h.phase.called = true) handlers
  called : ∀ h ∈ handlers, h.sent = true → h.phase.called = true
  valid : ∀ cached, entry = some cached → cached.response.Valid
  agrees : ∀ h ∈ handlers, h.request.storeKey = some key → h.phase.Agrees entry

theorem respond_valid (endpoint : Endpoint) (id : UInt64) (r : Except String String) :
    (endpoint.route.respond id r).Valid := by
  have hrejections : ∀ rejection ∈ endpoint.route.rejections,
      fromU16 rejection.status = rejection.status := by
    cases endpoint <;> decide
  unfold Route.respond
  cases r with
  | ok transactionHash => exact rfl
  | error e =>
    simp only
    split
    · next rejection hfind => exact hrejections rejection (List.mem_of_find?_eq_some hfind)
    · exact rfl

theorem Store.get_eq {store : Store} {now : ℕ} {key : String}
    (h : ∀ entry, store.inner key = some entry → store.fresh now entry = true) :
    store.get now key = (store.inner key, store) := by
  unfold Store.get
  cases hk : store.inner key with
  | none => rfl
  | some entry => simp [h entry hk]

theorem Store.get_inner_of_ne (store : Store) (now : ℕ) {key key' : String} (h : key ≠ key') :
    (store.get now key').2.inner key = store.inner key := by
  unfold Store.get
  cases store.inner key' with
  | none => rfl
  | some entry =>
    simp only
    split
    · rfl
    · simp [Function.update_of_ne h]

section Served

variable {key : String} {entry : Option CachedResponse} {handlers : List Handler} {i : ℕ}
  {h h' : Handler}

theorem served_nil : Served key none [] :=
  ⟨Crew.unique_nil, by simp, by simp, by simp⟩

theorem Served.arrive (hs : Served key entry handlers) (request : Request) :
    Served key entry (handlers ++ [⟨request, .lookingUp, false⟩]) := by
  refine ⟨hs.unique.concat (by simp [Phase.called]), fun h hh hsent => ?_, hs.valid,
    fun h hh hkey => ?_⟩
  · rcases List.mem_append.mp hh with hh | hh
    · exact hs.called h hh hsent
    · obtain rfl := List.mem_singleton.mp hh
      simp at hsent
  · rcases List.mem_append.mp hh with hh | hh
    · exact hs.agrees h hh hkey
    · obtain rfl := List.mem_singleton.mp hh
      cases entry <;> trivial

/-- A handler goes on, and what is stored under the key stays. -/
theorem Served.set (hs : Served key entry handlers) (h' : Handler) (hi : handlers[i]? = some h)
    (hrequest : h'.request = h.request) (hsent : h'.sent = true → h'.phase.called = true)
    (hcalled : h.request.storeKey = some key → h'.phase.called = true → h.phase.called = true)
    (hagrees : h.request.storeKey = some key → h'.phase.Agrees entry) :
    Served key entry (handlers.set i h') := by
  refine ⟨hs.unique.set hi ?_, Crew.forall_mem_set hs.called hsent i, hs.valid,
    Crew.forall_mem_set hs.agrees (fun hkey => hagrees (hrequest ▸ hkey)) i⟩
  rintro ⟨hkey, hc⟩
  rw [hrequest] at hkey
  exact ⟨hkey, hcalled hkey hc⟩

/-- While nothing is stored under the key, what has been called is in flight. -/
theorem Phase.Agrees.inFlight_of_called {phase : Phase} (h : phase.Agrees none)
    (hc : phase.called = true) : phase.inFlight = true := by
  cases phase with
  | lookingUp | replayed => simp [Phase.called] at hc
  | reading | sending | storing => rfl
  | answered response => exact h.elim

/-- A handler finds nothing under its key, and no request with the key is in flight. -/
theorem Served.miss (hs : Served key none handlers) (i : ℕ) (h : Handler)
    (hnone : ∀ h' ∈ handlers, h'.request.storeKey = some key → h'.phase.inFlight = false) :
    Served key none (handlers.set i { h with phase := .reading }) := by
  refine ⟨Crew.unique_set_of_none ?_, Crew.forall_mem_set hs.called (fun _ => rfl) i, hs.valid,
    Crew.forall_mem_set hs.agrees (b := { h with phase := .reading }) (fun _ => trivial) i⟩
  rintro h' hh' ⟨hkey, hc⟩
  have hin := (hs.agrees h' hh' hkey).inFlight_of_called hc
  rw [hnone h' hh' hkey] at hin
  exact Bool.false_ne_true hin

/-- A handler stores its response under its key. -/
theorem Served.insert (hs : Served key entry handlers) (hi : handlers[i]? = some h)
    (hkey : h.request.storeKey = some key) {response : Response}
    (hphase : h.phase = .storing response) (now : ℕ) :
    Served key (some ⟨response, now⟩)
      (handlers.set i { h with phase := .answered response }) := by
  have hh : h ∈ handlers := List.mem_of_getElem? hi
  have hagrees := hs.agrees h hh hkey
  rw [hphase] at hagrees
  -- nothing was stored, as the handler was about to store
  cases entry with
  | some cached => exact hagrees.elim
  | none =>
    refine ⟨hs.unique.set hi fun _ => ⟨hkey, by rw [hphase]; rfl⟩,
      Crew.forall_mem_set hs.called (fun _ => rfl) i, ?_, fun h' hh' hkey' => ?_⟩
    · rintro cached ⟨⟩
      exact hagrees
    · -- the other handlers with the key have not looked it up
      obtain ⟨j, hj⟩ := List.getElem?_of_mem hh'
      rcases Crew.getElem?_set_eq_some hj with ⟨-, rfl⟩ | ⟨hne, hj⟩
      · rfl
      · have hagrees' := hs.agrees h' (List.mem_of_getElem? hj) hkey'
        have hnot : h'.phase.called = false := by
          rw [← Bool.not_eq_true]
          intro hc
          exact hne (hs.unique j i h' h hj hi ⟨hkey', hc⟩ ⟨hkey, by rw [hphase]; rfl⟩)
        cases hp : h'.phase with
        | lookingUp => trivial
        | reading | sending | storing | answered => simp [hp, Phase.called] at hnot
        | replayed r =>
          rw [hp] at hagrees'
          exact hagrees'.elim

end Served

section Step

variable {key : String} {s : State} {i : ℕ} {h : Handler}

/-- What the store holds under the key, and the handlers. -/
def State.Serves (key : String) (s : State) : Prop := Served key (s.store.inner key) s.handlers

theorem serves_lookUp (hs : s.Serves key) (hi : s.handlers[i]? = some h)
    (hphase : h.phase = .lookingUp)
    (hlive : ∀ entry, s.store.inner key = some entry → s.store.fresh s.now entry = true)
    (hmiss : Misses key s h →
      ∀ h' ∈ s.handlers, h'.request.storeKey = some key → h'.phase.inFlight = false) :
    (lookUp s i h).Serves key := by
  have hnotsent : ¬ h.sent = true := by
    intro hsent
    have hc := hs.called h (List.mem_of_getElem? hi) hsent
    rw [hphase] at hc
    exact Bool.false_ne_true hc
  unfold lookUp
  cases hk : h.request.storeKey with
  | none =>
    exact hs.set _ hi rfl (fun hsent => absurd hsent hnotsent)
      (fun hkey => by simp [hk] at hkey) (fun hkey => by simp [hk] at hkey)
  | some key' =>
    simp only
    rcases eq_or_ne key key' with rfl | hne
    · rw [Store.get_eq hlive]
      unfold State.Serves at hs ⊢
      cases hentry : s.store.inner key with
      | none =>
        rw [hentry] at hs
        have hnone := hmiss ⟨hk, hphase, hentry⟩
        have hmissed := hs.miss i h hnone
        simpa only [lookedUp, State.setHandler, hentry] using hmissed
      | some cached =>
        rw [hentry] at hs
        have hvalid : fromU16 cached.response.status = cached.response.status :=
          hs.valid cached rfl
        have hset := hs.set { h with
            phase := .replayed ⟨fromU16 cached.response.status, cached.response.body⟩ } hi rfl
          (fun hsent => absurd hsent hnotsent) (fun _ hc => by simp [Phase.called] at hc)
          (fun _ => by rw [hvalid]; rfl)
        simpa only [lookedUp, State.setHandler, hentry] using hset
    · -- the lookup is of another key
      have hother : h.request.storeKey ≠ some key := by
        rw [hk]
        exact fun he => hne (Option.some.inj he).symm
      have hinner := Store.get_inner_of_ne s.store s.now hne
      unfold State.Serves at hs ⊢
      rcases hget : s.store.get s.now key' with ⟨cached, store⟩
      rw [hget] at hinner
      simp only at hinner
      cases cached with
      | none =>
        have hset := hs.set { h with phase := .reading } hi rfl
          (fun hsent => absurd hsent hnotsent) (fun hkey => absurd hkey hother)
          (fun hkey => absurd hkey hother)
        simpa only [lookedUp, State.setHandler, hinner] using hset
      | some cached =>
        have hset := hs.set { h with
            phase := .replayed ⟨fromU16 cached.response.status, cached.response.body⟩ } hi rfl
          (fun hsent => absurd hsent hnotsent) (fun hkey => absurd hkey hother)
          (fun hkey => absurd hkey hother)
        simpa only [lookedUp, State.setHandler, hinner] using hset

/-- A handler in flight goes on to another such phase. -/
theorem serves_setHandler (hs : s.Serves key) (hi : s.handlers[i]? = some h)
    (hphase : h.phase = .reading ∨ h.phase = .sending) {phase : Phase} (sent : Bool)
    (hnext : phase = .sending ∨ ∃ r : Response, phase = .storing r ∧ r.Valid) :
    (s.setHandler i { h with phase, sent }).Serves key := by
  have hcalled : h.phase.called = true := by
    rcases hphase with hphase | hphase <;> rw [hphase] <;> rfl
  have hnext' : phase.called = true := by
    rcases hnext with rfl | ⟨r, rfl, -⟩ <;> rfl
  refine hs.set _ hi rfl (fun _ => hnext') (fun _ _ => hcalled) fun hkey => ?_
  have hagrees := hs.agrees h (List.mem_of_getElem? hi) hkey
  cases hentry : s.store.inner key with
  | some cached =>
    rw [hentry] at hagrees
    rcases hphase with hphase | hphase <;> rw [hphase] at hagrees <;> exact hagrees.elim
  | none =>
    rcases hnext with rfl | ⟨r, rfl, hr⟩
    · trivial
    · exact hr

theorem serves_readInvoice (hs : s.Serves key) (hi : s.handlers[i]? = some h)
    (hphase : h.phase = .reading) (answer : Except String Backend.InvoiceResponse) :
    (readInvoice s i h answer).Serves key := by
  unfold readInvoice
  cases answer with
  | error e =>
    exact serves_setHandler hs hi (Or.inl hphase) _ (Or.inr ⟨_, rfl, respond_valid _ _ _⟩)
  | ok invoice =>
    simp only
    split
    · exact serves_setHandler hs hi (Or.inl hphase) _ (Or.inl rfl)
    · exact serves_setHandler hs hi (Or.inl hphase) _ (Or.inr ⟨_, rfl, respond_valid _ _ _⟩)

theorem serves_sendTransaction (hs : s.Serves key) (hi : s.handlers[i]? = some h)
    (hphase : h.phase = .sending) (answer : Except String String) :
    (sendTransaction s i h answer).Serves key := by
  have hset := serves_setHandler hs hi (Or.inr hphase) h.sent
    (Or.inr ⟨_, rfl, respond_valid h.request.endpoint h.request.id answer⟩)
  simp only [sendTransaction]
  split <;> exact hset

theorem serves_storeResponse (hs : s.Serves key) (hi : s.handlers[i]? = some h)
    {response : Response} (hphase : h.phase = .storing response) :
    (storeResponse s i h response).Serves key := by
  have hcalled : h.phase.called = true := by rw [hphase]; rfl
  simp only [storeResponse]
  cases hk : h.request.storeKey with
  | none =>
    exact hs.set _ hi rfl (fun _ => rfl) (fun hkey => by simp [hk] at hkey)
      (fun hkey => by simp [hk] at hkey)
  | some key' =>
    unfold State.Serves at hs ⊢
    rcases eq_or_ne key key' with rfl | hne
    · simpa [State.setHandler, Store.insert] using hs.insert hi hk hphase s.now
    · have hother : h.request.storeKey ≠ some key := by
        rw [hk]
        exact fun he => hne (Option.some.inj he).symm
      have hset := hs.set { h with phase := .answered response } hi rfl (fun _ => rfl)
        (fun _ _ => hcalled) (fun hkey => absurd hkey hother)
      simpa [State.setHandler, Store.insert, Function.update_of_ne hne] using hset

/-- What a step does, when the key's entry has not expired and no lookup overlaps. -/
theorem serves_step (hs : s.Serves key) {a : Action} (hlive : WithinLifetime key s a)
    (hover : NoOverlap key s a) : (step s a).Serves key := by
  cases a with
  | arrive request => exact hs.arrive request
  | wait time => exact hs
  | purgeExpired =>
    unfold State.Serves at hs ⊢
    have hinner : (s.store.inner key).filter (s.store.fresh s.now) = s.store.inner key := by
      cases hentry : s.store.inner key with
      | none => rfl
      | some entry => simp [hlive entry hentry]
    simpa only [step, Store.purgeExpired, hinner] using hs
  | handle i answer =>
    cases hi : s.handlers[i]? with
    | none => simpa only [step, hi] using hs
    | some h =>
      simp only [step, hi, handle]
      cases hphase : h.phase with
      | lookingUp => exact serves_lookUp hs hi hphase hlive (hover h hi)
      | reading => exact serves_readInvoice hs hi hphase answer.invoice
      | sending => exact serves_sendTransaction hs hi hphase answer.transactionHash
      | storing response => exact serves_storeResponse hs hi hphase
      | answered | replayed => exact hs

theorem State.Serves.idempotent (hs : s.Serves key) : Idempotent key s := by
  -- an answer is the stored one, which there is
  have hanswer : ∀ h, s.requests key h → ∀ r, h.phase.answer = some r →
      ∃ cached, s.store.inner key = some cached ∧ r = cached.response := by
    rintro h ⟨hh, hkey⟩ r hr
    have hagrees := hs.agrees h hh hkey
    cases hentry : s.store.inner key with
    | none =>
      rw [hentry] at hagrees
      cases hp : h.phase <;> simp_all [Phase.answer, Phase.Agrees]
    | some cached =>
      rw [hentry] at hagrees
      cases hp : h.phase <;> simp_all [Phase.answer, Phase.Agrees]
  refine ⟨?_, ?_, ?_⟩
  · rintro i j h h' hi hj ⟨hkey, hsent⟩ ⟨hkey', hsent'⟩
    exact hs.unique i j h h' hi hj ⟨hkey, hs.called h (List.mem_of_getElem? hi) hsent⟩
      ⟨hkey', hs.called h' (List.mem_of_getElem? hj) hsent'⟩
  · intro h h' hh hh' r r' hr hr'
    obtain ⟨cached, hc, rfl⟩ := hanswer h hh r hr
    obtain ⟨cached', hc', rfl⟩ := hanswer h' hh' r' hr'
    rw [Option.some.inj (hc.symm.trans hc')]
  · rintro h h' ⟨hh, hkey⟩ hh' - r r' hr hr'
    obtain ⟨cached, hc, rfl⟩ := hanswer h' hh' r' hr'
    have hagrees := hs.agrees h hh hkey
    rw [hc] at hagrees
    cases hp : h.phase <;> simp_all [Phase.outcome, Phase.Agrees]

end Step

/-! ## Runs -/

/-- **One submission for a key.** While no entry under the key expires, the requests with the key are
sent at most once and have that one's answer, in the runs in which no lookup of the key fails while
a request with the key is in flight. -/
theorem idempotent_of_noOverlap (ttl : ℕ) (key : String) (as : List Action)
    (hlive : Each step (fun _ => WithinLifetime key) (start ttl) as)
    (hover : Each step (fun _ => NoOverlap key) (start ttl) as) :
    Always step (fun _ => Idempotent key) (start ttl) as := by
  intro pre hpre
  have hstart : (start ttl).Serves key := served_nil
  refine State.Serves.idempotent (inv_of_each (I := fun _ s => s.Serves key)
    (C := fun _ s a => WithinLifetime key s a ∧ NoOverlap key s a) hstart ?_ fun q a hq => ?_)
  · rintro - s a hs ⟨hlive, hover⟩
    exact serves_step hs hlive hover
  · exact ⟨hlive q a (hq.trans hpre), hover q a (hq.trans hpre)⟩

/-! ## Two payments with one key -/

/-- Two payments of invoice 1 with the same key and body. -/
def payment : Request := ⟨.pay, some "k", 1, "payer", "AAAA"⟩

/-- The chain has the invoice with this payer, and accepts the transaction. -/
def accepts (transactionHash : String) : Answer where
  invoice := .ok ⟨1, "merchant", some "payer", none, 100, 100, .pending, 0, none, none⟩
  transactionHash := .ok transactionHash

/-- The second payment looks its key up before the first has stored its response. -/
def overlapping : List Action :=
  [.arrive payment, .arrive payment, .handle 0 (accepts "a"), .handle 1 (accepts "b"),
    .handle 0 (accepts "a"), .handle 1 (accepts "b")]

theorem not_idempotent_overlapping : ¬ ∀ (ttl : ℕ) (key : String) (as : List Action),
    Each step (fun _ => WithinLifetime key) (start ttl) as →
    Always step (fun _ => Idempotent key) (start ttl) as := by
  intro h
  have hlive : Each step (fun _ => WithinLifetime "pay:1:k") (start 86400) overlapping := by
    rw [each_iff_transitions]
    intro t ht entry hentry
    have hnone : ∀ t ∈ transitions step (start 86400) overlapping,
        t.1.store.inner "pay:1:k" = none := by decide
    simp [hnone t ht] at hentry
  have honce := (h 86400 "pay:1:k" overlapping hlive).at_end.once
  have hzero := honce 0 1 ⟨payment, .sending, true⟩ ⟨payment, .sending, true⟩ rfl rfl
    ⟨by decide, rfl⟩ ⟨by decide, rfl⟩
  exact absurd hzero (by decide)

/-- The second payment comes after the first has been stored. -/
theorem idempotent_of_noOverlap_retry :
    Always step (fun _ => Idempotent "pay:1:k") (start 86400)
      [.arrive payment, .handle 0 (accepts "a"), .handle 0 (accepts "a"), .handle 0 (accepts "a"),
        .handle 0 (accepts "a"), .arrive payment, .handle 1 (accepts "b")] :=
  idempotent_of_noOverlap 86400 "pay:1:k" _ (by decide) (by decide)

end Payments
