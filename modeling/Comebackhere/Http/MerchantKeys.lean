import Comebackhere.Http.Express
import Comebackhere.Library.Checked
import Comebackhere.Library.Collection
import Comebackhere.Library.Run

/-!
# The routes of the merchant API keys

A merchant's API keys are created, rotated and revoked on the admin key, on a merchant address that
the request names, or on one of the merchant's own keys. The address is not proved: whoever names a
merchant acts for that merchant.

## Main definitions

* `Platform`: the environment variable and the libraries that the routes rely on
* `requireMerchantOrAdmin`: on whose behalf a request acts
* `Route`, `serve`: the three routes
* `HoldsAdminKey`, `HoldsKeyOf`, `Names`: the credentials that a request may carry

## Main results

* `locals_of_ok`: a request acts on one of the three credentials
* `authority`: a request without one for a merchant leaves the merchant's keys alone
-/

namespace Http

open Checked Machine Offchain

/-! ## Data -/

structure MerchantApiKeyRecord where
  keyId : String
  merchantAddress : String
  keyHash : String
  createdAt : ℕ
  revokedAt : Option ℕ
  lastUsedAt : Option ℕ
  deriving DecidableEq

/-- The collection `merchant_api_keys`, with its unique index. -/
abbrev Keys := Collection MerchantApiKeyRecord String (·.keyId)

/-- The variable `ADMIN_KEY`; whether `Keypair.fromPublicKey` accepts an address; the hash of a key;
whether a text is a UUID; and what the schema reports of a body it rejects. -/
structure Platform where
  adminKey : Option String
  validPublicKey : String → Bool
  hashMerchantApiKey : String → String
  isUuid : String → Bool
  issues : Option Json → List FieldIssue

/-- What a middleware leaves in `res.locals`. -/
structure Locals where
  isAdmin : Bool
  merchantAddress : Option String

/-- What a route draws for a new key, and the time. -/
structure Fresh where
  secret : String
  keyId : String
  now : ℕ

inductive Response
  | created (keyId merchantAddress apiKey : String) (createdAt : ℕ) (rotatedAt : Option ℕ)
      (isActive : Bool)
  | noContent
  | error (e : AppError)

variable (p : Platform) (keys : Keys)

/-! ## The middleware -/

/-- `req.get("x-merchant-address") || req.body?.merchant_address || req.query?.merchant_address` -/
def Request.named (req : Request) : Option Json :=
  (present req.merchantAddress).map .string <|>
    (req.body.bind (·.get "merchant_address")).filter truthy <|>
    req.queryMerchantAddress.filter truthy

/-- `keys.findOne({ key_hash, revoked_at: { $exists: false } })` -/
def findActive (keyHash : String) : Option MerchantApiKeyRecord :=
  keys.docs.find? fun record => record.keyHash = keyHash ∧ record.revokedAt = none

def requireAdmin (adminKey : String) : Except AppError Locals :=
  match present p.adminKey with
  | none => .error (serviceMisconfiguredError "ADMIN_KEY is not configured")
  | some configuredAdminKey =>
    if adminKey = configuredAdminKey then .ok ⟨true, none⟩
    else .error (forbiddenError "Admin credentials are invalid")

def requireMerchantAddress : Json → Except AppError Locals
  | .string merchantAddress =>
    if p.validPublicKey merchantAddress then .ok ⟨false, some merchantAddress⟩
    else .error (forbiddenError "Invalid merchant Stellar address")
  -- `Keypair.fromPublicKey` throws for what is no string
  | _ => .error (forbiddenError "Invalid merchant Stellar address")

def requireBearer (token : String) : Except AppError Locals :=
  match findActive keys (p.hashMerchantApiKey token) with
  | none => .error (unauthorizedError "Merchant API key is invalid or revoked")
  | some record => .ok ⟨false, some record.merchantAddress⟩

def requireMerchantOrAdmin (req : Request) : Except AppError Locals :=
  match present req.adminKey with
  -- a wrong admin key is an error, whatever else the request carries
  | some adminKey => requireAdmin p adminKey
  | none =>
    match req.named with
    -- the address is taken at its word
    | some merchantAddress => requireMerchantAddress p merchantAddress
    | none =>
      match req.bearer with
      | some token => requireBearer p keys token
      | none => .error (unauthorizedError
          "Merchant address (X-Merchant-Address) or Admin credentials (X-Admin-Key) required")

/-- The routes go on unless the request acts for another merchant. -/
def Locals.mayActFor (locals : Locals) (merchantAddress : String) : Bool :=
  locals.isAdmin ∨ present locals.merchantAddress = none ∨
    locals.merchantAddress = some merchantAddress

/-! ## Validation -/

/-- A body that `merchantApiKeySchema` accepts. -/
structure NewKey where
  merchantAddress : String
  rotate : Option Bool

/-- `stellarAddress` -/
def parseStellarAddress : Option Json → Option String
  | some (.string address) => if address ≠ "" ∧ p.validPublicKey address then some address else none
  | _ => none

/-- `z.boolean().optional()` -/
def parseRotate : Option Json → Option (Option Bool)
  | none => some none
  | some (.bool rotate) => some (some rotate)
  | some _ => none

def parseNewKey : Option Json → Option NewKey
  | some (.object members) =>
    let body := Json.object members
    (parseStellarAddress p (body.get "merchant_address")).bind fun merchantAddress =>
      (parseRotate (body.get "rotate")).map fun rotate => ⟨merchantAddress, rotate⟩
  | _ => none

/-- `field: message; field: message` -/
def joinIssues (details : List FieldIssue) : String :=
  "; ".intercalate (details.map fun d => d.field ++ ": " ++ d.message)

def validateBody (body : Option Json) : Except AppError NewKey :=
  match parseNewKey p body with
  | some newKey => .ok newKey
  | none => .error (validationError (joinIssues (p.issues body)) (p.issues body))

def validateKeyId (keyId : String) : Except AppError Unit :=
  if p.isUuid keyId then .ok ()
  else
    let details := [⟨"keyId", "keyId must be a UUID"⟩]
    .error (validationError (joinIssues details) details)

/-! ## The operations on the collection -/

/-- The record of a new key: its hash, not the key. -/
def newRecord (merchantAddress : String) (fresh : Fresh) : MerchantApiKeyRecord where
  keyId := fresh.keyId
  merchantAddress
  keyHash := p.hashMerchantApiKey ("ch_" ++ fresh.secret)
  createdAt := fresh.now
  revokedAt := none
  lastUsedAt := none

/-- The unique index rejects an id that is in the collection. -/
def insertOne (record : MerchantApiKeyRecord) : Except AppError Keys :=
  if keys.find record.keyId = none then .ok (keys.insertIfAbsent record)
  else .error (internalError "E11000 duplicate key error")

def MerchantApiKeyRecord.revoke (now : ℕ) (record : MerchantApiKeyRecord) :
    MerchantApiKeyRecord := { record with revokedAt := some now }

/-- The update of `rotate`: the merchant's other active keys are revoked. -/
def revokeOthers (merchantAddress keyId : String) (now : ℕ) : Keys :=
  keys.updateMany
    (fun record => record.merchantAddress = merchantAddress ∧ record.keyId ≠ keyId ∧
      record.revokedAt = none) (·.revoke now) fun _ => rfl

/-! ## Routes -/

def createKey (req : Request) (fresh : Fresh) : Except AppError (Response × Keys) := do
  let locals ← requireMerchantOrAdmin p keys req
  let body ← validateBody p req.body
  if locals.mayActFor body.merchantAddress = false then
    .error (forbiddenError "Cannot create key for another merchant address")
  else
    let keys ← insertOne keys (newRecord p body.merchantAddress fresh)
    let keys := if body.rotate = some true then
      revokeOthers keys body.merchantAddress fresh.keyId fresh.now else keys
    return (.created fresh.keyId body.merchantAddress ("ch_" ++ fresh.secret) fresh.now none true,
      keys)

def rotateKey (req : Request) (fresh : Fresh) : Except AppError (Response × Keys) := do
  let locals ← requireMerchantOrAdmin p keys req
  let body ← validateBody p req.body
  if locals.mayActFor body.merchantAddress = false then
    .error (forbiddenError "Cannot rotate key for another merchant address")
  else
    let keys ← insertOne keys (newRecord p body.merchantAddress fresh)
    return (.created fresh.keyId body.merchantAddress ("ch_" ++ fresh.secret) fresh.now
      (some fresh.now) true, revokeOthers keys body.merchantAddress fresh.keyId fresh.now)

def deleteKey (req : Request) (keyId : String) (now : ℕ) : Except AppError (Response × Keys) := do
  let locals ← requireMerchantOrAdmin p keys req
  validateKeyId p keyId
  match keys.find keyId with
  | none => .error (notFoundError "Active merchant API key not found")
  | some record =>
    if record.revokedAt ≠ none then
      .error (notFoundError "Active merchant API key not found")
    else if locals.mayActFor record.merchantAddress = false then
      .error (forbiddenError "You are not authorized to revoke this key")
    else return (.noContent, keys.updateOne keyId (·.revoke now) fun _ => rfl)

inductive Route
  | create
  | rotate
  | delete (keyId : String)

def Route.handle (route : Route) (req : Request) (fresh : Fresh) :
    Except AppError (Response × Keys) :=
  match route with
  | .create => createKey p keys req fresh
  | .rotate => rotateKey p keys req fresh
  | .delete keyId => deleteKey p keys req keyId fresh.now

/-- The response, and the keys after the request. -/
def serve (route : Route) (req : Request) (fresh : Fresh) : Response × Keys :=
  match route.handle p keys req fresh with
  | .ok (response, keys) => (response, keys)
  | .error e => (.error e, keys)

/-! ## Credentials -/

variable {p keys}

/-- The request carries the admin key. -/
def HoldsAdminKey (p : Platform) (req : Request) : Prop :=
  present req.adminKey ≠ none ∧ present req.adminKey = present p.adminKey

/-- The request carries an active key of the merchant. -/
def HoldsKeyOf (p : Platform) (keys : Keys) (merchantAddress : String) (req : Request) : Prop :=
  ∃ token ∈ req.bearer, ∃ record ∈ keys.docs, record.keyHash = p.hashMerchantApiKey token ∧
    record.revokedAt = none ∧ record.merchantAddress = merchantAddress

/-- The request names the merchant: in the header, else in the body, else in the query. -/
def Names (merchantAddress : String) (req : Request) : Prop :=
  req.named = some (.string merchantAddress)

/-- The merchants of a collection are not empty texts. -/
def Named (keys : Keys) : Prop := ∀ record ∈ keys.docs, record.merchantAddress ≠ ""

/-- **On whose behalf a request acts**: the admin's, or that of a merchant it names or has a key
of. -/
theorem locals_of_ok {req : Request} {locals : Locals} (hempty : p.validPublicKey "" = false)
    (hnamed : Named keys) (h : requireMerchantOrAdmin p keys req = .ok locals) :
    (locals.isAdmin = true ∧ HoldsAdminKey p req) ∨
    ∃ merchantAddress, locals = ⟨false, some merchantAddress⟩ ∧ merchantAddress ≠ "" ∧
      (Names merchantAddress req ∨ HoldsKeyOf p keys merchantAddress req) := by
  unfold requireMerchantOrAdmin at h
  cases hadmin : present req.adminKey with
  | some adminKey =>
    simp only [hadmin, requireAdmin] at h
    split at h
    · cases h
    · next configured hconfigured =>
      split at h
      · next heq =>
        obtain rfl := Except.ok.inj h
        refine Or.inl ⟨rfl, by simp [hadmin], ?_⟩
        rw [hadmin, hconfigured, heq]
      · cases h
  | none =>
    simp only [hadmin] at h
    cases hname : req.named with
    | some address =>
      simp only [hname] at h
      cases address with
      | string merchantAddress =>
        simp only [requireMerchantAddress] at h
        split at h
        · next hvalid =>
          obtain rfl := Except.ok.inj h
          refine Or.inr ⟨merchantAddress, rfl, ?_, Or.inl hname⟩
          rintro rfl
          exact absurd hvalid (by simp [hempty])
        · cases h
      | null | bool | number | array | object => cases h
    | none =>
      simp only [hname] at h
      cases hbearer : req.bearer with
      | none => simp [hbearer] at h
      | some token =>
        simp only [hbearer, requireBearer] at h
        split at h
        · cases h
        · next record hfind =>
          obtain rfl := Except.ok.inj h
          have hmem : record ∈ keys.docs := List.mem_of_find?_eq_some hfind
          have hactive := List.find?_some hfind
          simp only [decide_eq_true_eq] at hactive
          exact Or.inr ⟨record.merchantAddress, rfl, hnamed record hmem,
            Or.inr ⟨token, hbearer, record, hmem, hactive.1, hactive.2, rfl⟩⟩

/-- The request carries no credential for the merchant. -/
structure Powerless (p : Platform) (keys : Keys) (merchantAddress : String) (req : Request) :
    Prop where
  admin : ¬ HoldsAdminKey p req
  bearer : ¬ HoldsKeyOf p keys merchantAddress req
  name : ¬ Names merchantAddress req

theorem Powerless.not_mayActFor {req : Request} {locals : Locals} {merchantAddress : String}
    (h : Powerless p keys merchantAddress req) (hempty : p.validPublicKey "" = false)
    (hnamed : Named keys) (hok : requireMerchantOrAdmin p keys req = .ok locals) :
    locals.mayActFor merchantAddress = false := by
  rcases locals_of_ok hempty hnamed hok with ⟨-, hadmin⟩ | ⟨other, rfl, hne, hother⟩
  · exact absurd hadmin h.admin
  · have hdiffer : other ≠ merchantAddress := by
      rintro rfl
      rcases hother with hname | hkey
      · exact h.name hname
      · exact h.bearer hkey
    simp [Locals.mayActFor, present, hne, hdiffer]

/-! ## Accepted requests -/

/-- The keys of a merchant, with their revocation states. -/
def keysOf (merchantAddress : String) (keys : Keys) : List MerchantApiKeyRecord :=
  keys.docs.filter fun record => record.merchantAddress = merchantAddress

/-- The request acts for the merchant. -/
def ActsFor (p : Platform) (keys : Keys) (req : Request) (merchantAddress : String) : Prop :=
  ∃ locals, requireMerchantOrAdmin p keys req = .ok locals ∧
    locals.mayActFor merchantAddress = true

/-- What an accepted request does: it creates a key, and may revoke the merchant's others, or it
revokes one key; and it acts for the merchant of that key. -/
inductive Effect (p : Platform) (keys : Keys) (req : Request) (fresh : Fresh) :
    Response → Keys → Prop
  | created {merchantAddress : String} {rotatedAt : Option ℕ} (rotate : Bool)
      (hacts : ActsFor p keys req merchantAddress) (hne : merchantAddress ≠ "")
      (hfresh : keys.find fresh.keyId = none) :
      Effect p keys req fresh
        (.created fresh.keyId merchantAddress ("ch_" ++ fresh.secret) fresh.now rotatedAt true)
        (if rotate then
          revokeOthers (keys.insertIfAbsent (newRecord p merchantAddress fresh)) merchantAddress
            fresh.keyId fresh.now
        else keys.insertIfAbsent (newRecord p merchantAddress fresh))
  | revoked {keyId : String} {record : MerchantApiKeyRecord} (hrecord : keys.find keyId = some record)
      (hacts : ActsFor p keys req record.merchantAddress) :
      Effect p keys req fresh .noContent (keys.updateOne keyId (·.revoke fresh.now) fun _ => rfl)

variable {req : Request} {fresh : Fresh} {response : Response} {keys' : Keys}

theorem parseNewKey_ne {body : Option Json} {newKey : NewKey}
    (h : parseNewKey p body = some newKey) : newKey.merchantAddress ≠ "" := by
  unfold parseNewKey at h
  split at h
  · next members =>
    obtain ⟨merchantAddress, haddress, h⟩ := Option.bind_eq_some_iff.mp h
    obtain ⟨rotate, -, rfl⟩ := Option.map_eq_some_iff.mp h
    unfold parseStellarAddress at haddress
    split at haddress
    · next address =>
      split at haddress
      · next hvalid =>
        obtain rfl := Option.some.inj haddress
        exact hvalid.1
      · cases haddress
    · cases haddress
  · cases h

theorem validateBody_eq_ok {body : Option Json} {newKey : NewKey} :
    validateBody p body = .ok newKey ↔ parseNewKey p body = some newKey := by
  unfold validateBody
  cases parseNewKey p body <;> simp

theorem insertOne_eq_ok {record : MerchantApiKeyRecord} :
    insertOne keys record = .ok keys' ↔
      keys.find record.keyId = none ∧ keys' = keys.insertIfAbsent record := by
  unfold insertOne
  split
  · next h => simp [h, eq_comm]
  · next h => simp [h]

theorem createKey_effect (h : createKey p keys req fresh = .ok (response, keys')) :
    Effect p keys req fresh response keys' := by
  obtain ⟨locals, hlocals, h⟩ := bind_eq_ok.mp h
  obtain ⟨body, hbody, h⟩ := bind_eq_ok.mp h
  have hne := parseNewKey_ne (validateBody_eq_ok.mp hbody)
  split at h
  · cases h
  · next hmay =>
    obtain ⟨keys₁, hinsert, h⟩ := bind_eq_ok.mp h
    obtain ⟨hfresh, rfl⟩ := insertOne_eq_ok.mp hinsert
    obtain ⟨rfl, rfl⟩ := Prod.mk.inj (pure_eq_ok.mp h)
    have heffect := @Effect.created p keys req fresh _ none (body.rotate = some true)
      ⟨locals, hlocals, by simpa using hmay⟩ hne hfresh
    simpa using heffect

theorem rotateKey_effect (h : rotateKey p keys req fresh = .ok (response, keys')) :
    Effect p keys req fresh response keys' := by
  obtain ⟨locals, hlocals, h⟩ := bind_eq_ok.mp h
  obtain ⟨body, hbody, h⟩ := bind_eq_ok.mp h
  have hne := parseNewKey_ne (validateBody_eq_ok.mp hbody)
  split at h
  · cases h
  · next hmay =>
    obtain ⟨keys₁, hinsert, h⟩ := bind_eq_ok.mp h
    obtain ⟨hfresh, rfl⟩ := insertOne_eq_ok.mp hinsert
    obtain ⟨rfl, rfl⟩ := Prod.mk.inj (pure_eq_ok.mp h)
    exact Effect.created true ⟨locals, hlocals, by simpa using hmay⟩ hne hfresh

theorem deleteKey_effect {keyId : String}
    (h : deleteKey p keys req keyId fresh.now = .ok (response, keys')) :
    Effect p keys req fresh response keys' := by
  obtain ⟨locals, hlocals, h⟩ := bind_eq_ok.mp h
  obtain ⟨-, -, h⟩ := bind_eq_ok.mp h
  split at h
  · cases h
  · next record hrecord =>
    split at h
    · cases h
    split at h
    · cases h
    · next hmay =>
      obtain ⟨rfl, rfl⟩ := Prod.mk.inj (pure_eq_ok.mp h)
      exact Effect.revoked hrecord ⟨locals, hlocals, by simpa using hmay⟩

/-- **Every accepted request** has one of these effects. -/
theorem effect_of_ok {route : Route} (h : route.handle p keys req fresh = .ok (response, keys')) :
    Effect p keys req fresh response keys' := by
  cases route with
  | create => exact createKey_effect h
  | rotate => exact rotateKey_effect h
  | delete keyId => exact deleteKey_effect h

/-! ## What an effect leaves -/

theorem keysOf_insertIfAbsent (record : MerchantApiKeyRecord) {merchantAddress : String}
    (hfresh : keys.find record.keyId = none) (hne : record.merchantAddress ≠ merchantAddress) :
    keysOf merchantAddress (keys.insertIfAbsent record) = keysOf merchantAddress keys := by
  simp [keysOf, Collection.docs_insertIfAbsent hfresh, hne]

theorem keysOf_revokeOthers {merchantAddress other keyId : String} {now : ℕ}
    (hne : other ≠ merchantAddress) :
    keysOf merchantAddress (revokeOthers keys other keyId now) = keysOf merchantAddress keys := by
  apply Collection.filter_update keys.docs
  intro record _ hrecord
  simp only [decide_eq_true_eq] at hrecord
  have hmerchant : record.merchantAddress ≠ merchantAddress := by
    rw [hrecord.1]
    exact hne
  simp [MerchantApiKeyRecord.revoke, hmerchant]

theorem keysOf_updateOne {record : MerchantApiKeyRecord} {merchantAddress keyId : String} {now : ℕ}
    (hrecord : keys.find keyId = some record) (hne : record.merchantAddress ≠ merchantAddress) :
    keysOf merchantAddress (keys.updateOne keyId (·.revoke now) fun _ => rfl) =
      keysOf merchantAddress keys := by
  apply Collection.filter_update keys.docs
  intro d hd hkey
  have hkey : d.keyId = keyId := hkey
  have hfound : keys.find d.keyId = some d := Collection.find_of_mem hd
  rw [hkey, hrecord] at hfound
  obtain rfl := Option.some.inj hfound
  simp [MerchantApiKeyRecord.revoke, hne]

theorem Effect.keysOf {merchantAddress : String} (h : Effect p keys req fresh response keys')
    (hnot : ¬ ActsFor p keys req merchantAddress) :
    keysOf merchantAddress keys' = keysOf merchantAddress keys := by
  cases h with
  | @created other _ rotate hacts hne hfresh =>
    have hother : other ≠ merchantAddress := by
      rintro rfl
      exact hnot hacts
    have hinsert := keysOf_insertIfAbsent (newRecord p other fresh) hfresh hother
    split
    · rw [keysOf_revokeOthers hother, hinsert]
    · exact hinsert
  | @revoked keyId record hrecord hacts =>
    apply keysOf_updateOne hrecord
    rintro rfl
    exact hnot hacts

/-- The merchant whose key is in the response. -/
def Response.discloses : Response → Option String
  | .created _ merchantAddress .. => some merchantAddress
  | .noContent | .error _ => none

theorem Effect.discloses {merchantAddress : String} (h : Effect p keys req fresh response keys')
    (hnot : ¬ ActsFor p keys req merchantAddress) :
    response.discloses ≠ some merchantAddress := by
  cases h with
  | created rotate hacts hne hfresh =>
    intro he
    rw [← Option.some.inj he] at hnot
    exact hnot hacts
  | revoked hrecord hacts => simp [Response.discloses]

theorem named_update {q : MerchantApiKeyRecord → Prop} [DecidablePred q]
    {f : MerchantApiKeyRecord → MerchantApiKeyRecord}
    (hf : ∀ record, (f record).merchantAddress = record.merchantAddress) (hnamed : Named keys) :
    ∀ record ∈ keys.docs.map fun d => if q d then f d else d, record.merchantAddress ≠ "" := by
  intro record hrecord
  obtain ⟨d, hd, rfl⟩ := List.mem_map.mp hrecord
  split
  · rw [hf]
    exact hnamed d hd
  · exact hnamed d hd

theorem Effect.named (h : Effect p keys req fresh response keys') (hnamed : Named keys) :
    Named keys' := by
  cases h with
  | @created merchantAddress _ rotate hacts hne hfresh =>
    have hinsert : Named (keys.insertIfAbsent (newRecord p merchantAddress fresh)) := by
      intro record hrecord
      rw [Collection.docs_insertIfAbsent hfresh] at hrecord
      rcases List.mem_append.mp hrecord with hrecord | hrecord
      · exact hnamed record hrecord
      · obtain rfl := List.mem_singleton.mp hrecord
        exact hne
    split
    · exact named_update (fun _ => rfl) hinsert
    · exact hinsert
  | revoked hrecord hacts => exact named_update (fun _ => rfl) hnamed

/-! ## Runs -/

/-- A request to one of the routes, or the note of another route that a key has been used. -/
inductive Input
  | request (route : Route) (req : Request) (fresh : Fresh)
  | used (keyId : String) (now : ℕ)

def step (p : Platform) (keys : Keys) : Input → Keys
  | .request route req fresh => (serve p keys route req fresh).2
  | .used keyId now =>
    keys.updateOne keyId (fun record => { record with lastUsedAt := some now }) fun _ => rfl

theorem named_step (hnamed : Named keys) (i : Input) : Named (step p keys i) := by
  cases i with
  | used keyId now => exact named_update (fun _ => rfl) hnamed
  | request route req fresh =>
    simp only [step, serve]
    split
    · next response keys' h => exact (effect_of_ok h).named hnamed
    · exact hnamed

/-- **Authority over the keys.** Whatever keys the routes have made, a request that carries neither
the admin key nor an active key of a merchant, and does not name the merchant, leaves the merchant's
keys as they are and returns none. -/
theorem authority (hempty : p.validPublicKey "" = false) (is : List Input) (merchantAddress : String)
    (route : Route) (req : Request) (fresh : Fresh)
    (hpowerless : Powerless p (run (step p) Collection.empty is) merchantAddress req) :
    let keys := run (step p) Collection.empty is
    keysOf merchantAddress (serve p keys route req fresh).2 = keysOf merchantAddress keys ∧
      (serve p keys route req fresh).1.discloses ≠ some merchantAddress := by
  intro keys
  have hnamed : Named keys :=
    inv_of_each (I := fun _ keys => Named keys) (C := fun _ _ _ => True)
      (by simp [Named, Collection.empty]) (fun _ _ i hnamed _ => named_step hnamed i)
      fun _ _ _ => trivial
  -- whoever acts for the merchant has one of the three credentials
  have hnot : ¬ ActsFor p keys req merchantAddress := by
    rintro ⟨locals, hok, hmay⟩
    rw [hpowerless.not_mayActFor hempty hnamed hok] at hmay
    exact Bool.false_ne_true hmay
  unfold serve
  split
  · next response keys' h =>
    have heffect := effect_of_ok h
    exact ⟨heffect.keysOf hnot, heffect.discloses hnot⟩
  · exact ⟨rfl, by simp [Response.discloses]⟩

/-! ## A merchant's name -/

namespace Example

def merchant : String := "GBBD47IF6LWK7P7MDEVSCWR7DPUWV3NY3DTQEVFL4NAT4AQH3ZLLFLA5"

def otherMerchant : String := "GAAAAAAAAAAAAAAAAAAAAAAAAAAAAAAAAAAAAAAAAAAAAAAAAAAAAWHF"

def firstKey : Fresh where
  secret := "0000000000000000000000000000000000000000000000000000000000000000"
  keyId := "c1f721d2-7fb2-47b2-841f-889ad4db1a7f"
  now := 1

def secondKey : Fresh where
  secret := "1111111111111111111111111111111111111111111111111111111111111111"
  keyId := "96b6d57a-9a94-4d22-8cc6-4eb13e00be92"
  now := 2

def platform : Platform where
  adminKey := some "admin"
  validPublicKey address := address = merchant ∨ address = otherMerchant
  hashMerchantApiKey key :=
    if key = "ch_" ++ firstKey.secret then
      "b47d70503572b79b9bce86ee02beb0069cbbebe9520ba0af41e6f9fffe8eed00"
    else if key = "ch_" ++ secondKey.secret then
      "a847cac7e82d820c3719ee81fde53fddb4c43067ce51f420389f860b2682b5ec"
    else ""
  isUuid keyId := keyId = firstKey.keyId ∨ keyId = secondKey.keyId
  issues _ := []

/-- A request for a key of the merchant. -/
def keyRequest (adminKey merchantAddress : Option String) : Request where
  adminKey
  merchantAddress
  authorization := none
  idempotencyKey := none
  body := some (.object [("merchant_address", .string merchant)])
  queryMerchantAddress := none

/-- The admin creates the merchant's first key. -/
def firstCreated : List Input := [.request .create (keyRequest (some "admin") none) firstKey]

end Example

open Example in
/-- A request that names the merchant, and carries nothing else, rotates the merchant's key. -/
theorem not_authority_named : ¬ ∀ (p : Platform), p.validPublicKey "" = false →
    ∀ (is : List Input) (merchantAddress : String) (route : Route) (req : Request) (fresh : Fresh),
      ¬ HoldsAdminKey p req →
      ¬ HoldsKeyOf p (run (step p) Collection.empty is) merchantAddress req →
      keysOf merchantAddress (serve p (run (step p) Collection.empty is) route req fresh).2 =
          keysOf merchantAddress (run (step p) Collection.empty is) ∧
        (serve p (run (step p) Collection.empty is) route req fresh).1.discloses ≠
          some merchantAddress := by
  intro h
  have hkept := (h platform (by decide) firstCreated merchant .rotate
    (keyRequest none (some merchant)) secondKey (by simp [HoldsAdminKey, present, keyRequest])
    (by simp [HoldsKeyOf, Request.bearer, keyRequest])).1
  exact absurd hkept (by decide)

open Example in
/-- The same request in the name of another merchant is refused. -/
theorem authority_otherMerchant :
    let keys := run (step platform) Collection.empty firstCreated
    keysOf merchant (serve platform keys .rotate (keyRequest none (some otherMerchant))
        secondKey).2 = keysOf merchant keys ∧
      (serve platform keys .rotate (keyRequest none (some otherMerchant))
        secondKey).1.discloses ≠ some merchant :=
  authority (by decide) firstCreated merchant .rotate _ secondKey
    ⟨by simp [HoldsAdminKey, present, keyRequest], by simp [HoldsKeyOf, Request.bearer, keyRequest],
      by simp [Names, Request.named, present, keyRequest, merchant, otherMerchant]⟩

end Http
