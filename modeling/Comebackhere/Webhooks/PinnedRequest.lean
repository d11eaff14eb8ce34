import Comebackhere.Library.Process
import Comebackhere.Webhooks.AddressFilter

/-!
# Requests to pinned addresses

A webhook is posted to an address that was checked before. The host is resolved once, every address
in the answer has to pass the filter, and the request is made with a lookup that answers the
address it was checked for. A resolver that answers differently a moment later is not asked again.

## Main definitions

* `parseWebhookUrl`, `resolvePublicAddress`, `createPinnedLookup`: the checks, and the lookup
* `sendWebhookRequest`: the program that sends one request
* `platform`: the resolver, the abort signal and the connections, which may be as they like
* `Trace.Confined`: what is promised of the resolutions and the connections of a request

## Main results

* `public_of_passes`: an address that passes the filter is public, however it is written
* `requests_confined`: every connection goes to a public address that the one resolution answered
-/

namespace WebhookHttp

open Ipv6 Process
open Prog (perform)

/-! ## Endpoints -/

/-- A URL, as the platform parses it. -/
structure Url where
  protocol : String
  username : String
  password : String
  hostname : List Char
  port : Option ℕ
  pathname : String
  search : String

/-- What is thrown: an error of the source, or what the platform throws. -/
inductive Thrown
  | error (message : String)
  | platform (message : String)

structure ResolvedAddress where
  address : List Char
  family : ℕ
  deriving DecidableEq

/-- `hostname.replace(/^\[|\]$/g, "")` -/
def stripBrackets (hostname : List Char) : List Char :=
  let hostname := if hostname.head? = some '[' then hostname.tail else hostname
  if hostname.getLast? = some ']' then hostname.dropLast else hostname

/-- The platform parses URLs, and says of which version an address is: 0 of a text that is none. -/
structure Platform where
  parseUrl : String → Option Url
  isIP : List Char → ℕ

variable {P : Platform}

/-- The names that are no public hosts. -/
def isLocalName (hostname : List Char) : Bool :=
  hostname = [] || hostname = "localhost".toList || ".localhost".toList.isSuffixOf hostname ||
    ".local".toList.isSuffixOf hostname || ".internal".toList.isSuffixOf hostname ||
    ".home.arpa".toList.isSuffixOf hostname

/-- `isBlockedAddress`, which throws on a text that it cannot read. -/
def checkBlocked (P : Platform) (address : List Char) : Except Thrown Bool :=
  match isBlockedAddress P.isIP address with
  | some blocked => .ok blocked
  | none => .error (.platform "Cannot convert to a BigInt")

def notPublicAddress : Thrown := .error "Webhook endpoint resolves to a non-public address"

def parseWebhookUrl (P : Platform) (value : String) : Except Thrown Url :=
  match P.parseUrl value with
  | none => .error (.error "Webhook endpoint must be a valid HTTPS URL")
  | some url => do
    let hostname := stripBrackets url.hostname
    if url.protocol ≠ "https:" ∨ url.username ≠ "" ∨ url.password ≠ "" ∨ isLocalName hostname then
      throw (.error "Webhook endpoint must be a public HTTPS URL")
    else if P.isIP hostname ≠ 0 then
      if ← checkBlocked P hostname then throw notPublicAddress else return url
    else
      return url

/-- `addresses.some(({ address }) => isBlockedAddress(address))` -/
def anyBlocked (P : Platform) : List ResolvedAddress → Except Thrown Bool
  | [] => return false
  | resolved :: addresses => do
    if ← checkBlocked P resolved.address then return true else anyBlocked P addresses

/-- The address to pin, of those the host resolves to. -/
def pickAddress (P : Platform) : List ResolvedAddress → Except Thrown ResolvedAddress
  | [] => throw notPublicAddress
  | resolved :: addresses => do
    if ← anyBlocked P (resolved :: addresses) then throw notPublicAddress else return resolved

/-! ## Requests -/

/-- What a lookup calls back with: all addresses, or one. -/
inductive LookupAnswer
  | all (addresses : List ResolvedAddress)
  | one (address : List Char) (family : ℕ)

/-- The lookup of a request, given its option `all`. -/
def createPinnedLookup (resolved : ResolvedAddress) (all : Bool) : LookupAnswer :=
  if all then .all [resolved] else .one resolved.address resolved.family

/-- The options of `https.request` that decide where it connects to. -/
structure RequestOptions where
  hostname : List Char
  port : ℕ
  path : String
  lookup : Bool → LookupAnswer
  servername : Option (List Char)

/-- What a request asks of the platform. -/
inductive Op : Type → Type
  | lookupHost (hostname : List Char) : Op (Except Thrown (List ResolvedAddress))
  | aborted : Op Bool
  | httpsRequest (options : RequestOptions) : Op (Except Thrown ℕ)

/-- An address is its own resolution; any other host is looked up. -/
def resolvePublicAddress (P : Platform) (hostname : List Char) :
    Prog Op (Except Thrown ResolvedAddress) := do
  if P.isIP hostname ≠ 0 then
    return pickAddress P [⟨hostname, P.isIP hostname⟩]
  else
    match ← perform (.lookupHost hostname) with
    | .error err => return .error err
    | .ok addresses => return pickAddress P addresses

/-- The options of the one request that is made. -/
def requestOptions (P : Platform) (url : Url) (resolved : ResolvedAddress) : RequestOptions where
  hostname := stripBrackets url.hostname
  port := url.port.getD 443
  path := url.pathname ++ url.search
  lookup := createPinnedLookup resolved
  servername :=
    if P.isIP (stripBrackets url.hostname) ≠ 0 then none else some (stripBrackets url.hostname)

/-- One request, where `fetchFn` is the `fetch` of the platform. The branch for another `fetchFn`,
which is called with the endpoint itself, is left out. Redirects are not followed. -/
def sendWebhookRequest (P : Platform) (endpoint : String) : Prog Op (Except Thrown ℕ) :=
  match parseWebhookUrl P endpoint with
  | .error err => return .error err
  | .ok url => do
    match ← resolvePublicAddress P (stripBrackets url.hostname) with
    | .error err => return .error err
    | .ok resolved =>
      -- the signal or the timer may have fired while the host was resolved
      if ← perform .aborted then
        return .error (.error "Webhook request aborted or timed out")
      else
        perform (.httpsRequest (requestOptions P url resolved))

/-! ## The platform -/

/-- What happens on the network: a resolution with its answer, or a connection. -/
inductive NetEvent
  | lookup (hostname : List Char) (addresses : List ResolvedAddress)
  | connect (address : List Char) (port : ℕ) (servername : Option (List Char))
  deriving DecidableEq

abbrev Trace := List NetEvent

/-- What the platform answers with: the answer of the resolver, whether the signal has fired,
whether the lookup of a request is asked for all addresses, and how the request ends. -/
structure Answer where
  addresses : Except Thrown (List ResolvedAddress)
  aborted : Bool
  all : Bool
  response : Except Thrown ℕ

/-- The addresses that a request connects to: the host if it is an address, and otherwise those of
its lookup. -/
def targets (P : Platform) (options : RequestOptions) (all : Bool) : List (List Char) :=
  if P.isIP options.hostname ≠ 0 then [options.hostname]
  else
    match options.lookup all with
    | .all addresses => addresses.map (·.address)
    | .one address _ => [address]

def execute (P : Platform) {β : Type} (o : Op β) (answer : Answer) (trace : Trace) : β × Trace :=
  match o with
  | .lookupHost hostname =>
    (answer.addresses, trace ++ [.lookup hostname (answer.addresses.toOption.getD [])])
  | .aborted => (answer.aborted, trace)
  | .httpsRequest options => (answer.response, trace ++
      (targets P options answer.all).map fun address =>
        .connect address options.port options.servername)

/-- The platform, whose resolver may answer anything at any time. -/
def platform (P : Platform) : System Op Answer Trace where
  exec := execute P
  legal _ _ _ := True
  crashes _ := True

/-! ## Addresses that pass the filter -/

/-- The address passes the filter. -/
def Passes (P : Platform) (address : List Char) : Prop :=
  isBlockedAddress P.isIP address = some false

/-- The address is of version 4 and in no reserved network, or of version 6 and public, in any of
its spellings. -/
structure Public (P : Platform) (address : List Char) : Prop where
  version : P.isIP address = 4 ∨ P.isIP address = 6
  ipv4 : ∀ q : Quad, address = q.text → P.isIP address = 4 → ¬ ReservedIpv4 q.value
  ipv6 : ∀ x : Spelling, address = x.text → P.isIP address = 6 → ¬ NonPublic x.value

/-- **What passes the filter is public.** -/
theorem public_of_passes {address : List Char} (h : Passes P address) : Public P address where
  version := by
    by_contra hversion
    obtain ⟨h4, h6⟩ := not_or.mp hversion
    simp [Passes, isBlockedAddress, h4, h6] at h
  ipv4 q hq hversion hreserved := by
    have hblocked := (isBlockedIpv4_text q).mpr hreserved
    simp [Passes, isBlockedAddress, hversion, hq ▸ hblocked] at h
  ipv6 x hx hversion hnonPublic := by
    subst hx
    have hblocked := isBlockedIpv6_of_nonPublic hnonPublic
    simp [Passes, isBlockedAddress, hversion, ipv6ToBigInt_text, hblocked] at h

@[simp] theorem checkBlocked_eq_false {address : List Char} :
    checkBlocked P address = .ok false ↔ Passes P address := by
  unfold checkBlocked Passes
  cases isBlockedAddress P.isIP address <;> simp

theorem anyBlocked_eq_false {addresses : List ResolvedAddress} :
    anyBlocked P addresses = .ok false ↔ ∀ resolved ∈ addresses, Passes P resolved.address := by
  induction addresses with
  | nil => simp [anyBlocked, pure, Except.pure]
  | cons resolved addresses ih =>
    rw [anyBlocked, List.forall_mem_cons, ← ih, ← checkBlocked_eq_false]
    rcases checkBlocked P resolved.address with err | _ | _ <;>
      simp [bind, Except.bind, pure, Except.pure]

/-- **The first address is picked** when all of them pass the filter. -/
theorem pickAddress_eq_ok {addresses : List ResolvedAddress} {resolved : ResolvedAddress} :
    pickAddress P addresses = .ok resolved ↔
      addresses.head? = some resolved ∧ ∀ other ∈ addresses, Passes P other.address := by
  cases addresses with
  | nil => simp [pickAddress, throw, throwThe, MonadExceptOf.throw]
  | cons first addresses =>
    rw [pickAddress, ← anyBlocked_eq_false]
    rcases anyBlocked P (first :: addresses) with err | _ | _ <;>
      simp [bind, Except.bind, pure, Except.pure, throw, throwThe, MonadExceptOf.throw]

theorem protocol_of_parse {endpoint : String} {url : Url}
    (h : parseWebhookUrl P endpoint = .ok url) : url.protocol = "https:" := by
  unfold parseWebhookUrl at h
  split at h
  · cases h
  · next parsed _ =>
    by_cases hpublic : parsed.protocol ≠ "https:" ∨ parsed.username ≠ "" ∨
        parsed.password ≠ "" ∨ isLocalName (stripBrackets parsed.hostname)
    · rw [if_pos hpublic] at h
      cases h
    · have hprotocol : parsed.protocol = "https:" := by
        by_contra hne
        exact hpublic (Or.inl hne)
      rw [if_neg hpublic] at h
      split at h
      · rcases hblocked : checkBlocked P (stripBrackets parsed.hostname) with err | _ | _ <;>
          rw [hblocked] at h <;> cases h
        exact hprotocol
      · cases h
        exact hprotocol

/-! ## Confinement -/

variable {url : Url} {resolved : ResolvedAddress} {trace : Trace} {endpoint : String}

/-- What has happened when a host is resolved to an address: the host is the address and passes the
filter, or it was looked up, and all the addresses in the answer pass. -/
inductive Resolved (P : Platform) (hostname : List Char) : ResolvedAddress → Trace → Prop
  | literal {resolved : ResolvedAddress} (hversion : P.isIP hostname ≠ 0)
      (haddress : resolved.address = hostname) (hpasses : Passes P hostname) :
      Resolved P hostname resolved []
  | lookedUp {resolved : ResolvedAddress} {addresses : List ResolvedAddress}
      (hversion : P.isIP hostname = 0) (hmem : resolved ∈ addresses)
      (hpass : ∀ other ∈ addresses, Passes P other.address) :
      Resolved P hostname resolved [.lookup hostname addresses]

/-- What is promised of the network events of a request to a URL. -/
structure Confined (P : Platform) (url : Url) (trace : Trace) : Prop where
  /-- The host is resolved at most once, and there is at most one connection. -/
  once : trace.length ≤ 2 ∧ (trace.filter fun | .lookup _ _ => true | _ => false).length ≤ 1 ∧
    (trace.filter fun | .connect _ _ _ => true | _ => false).length ≤ 1
  /-- Only the host is resolved. -/
  lookups : ∀ hostname addresses, .lookup hostname addresses ∈ trace →
    hostname = stripBrackets url.hostname
  /-- A connection goes to a public address: to the host, or to one that it was resolved to, with
  the name of the host for the certificate. -/
  connections : ∀ address port servername, .connect address port servername ∈ trace →
    Public P address ∧ port = url.port.getD 443 ∧
      (address = stripBrackets url.hostname ∧ servername = none ∨
        servername = some (stripBrackets url.hostname) ∧
          ∃ addresses, .lookup (stripBrackets url.hostname) addresses ∈ trace ∧
            (∃ resolved ∈ addresses, resolved.address = address) ∧
            ∀ other ∈ addresses, Public P other.address)

theorem confined_nil : Confined P url [] := ⟨by simp, by simp, by simp⟩

theorem confined_lookup (addresses : List ResolvedAddress) :
    Confined P url [.lookup (stripBrackets url.hostname) addresses] :=
  ⟨by simp, by simp, by simp⟩

theorem targets_requestOptions (h : Resolved P (stripBrackets url.hostname) resolved trace)
    (all : Bool) : targets P (requestOptions P url resolved) all = [resolved.address] := by
  unfold targets
  cases h with
  | literal hversion haddress _ =>
    rw [haddress]
    exact if_pos hversion
  | lookedUp hversion _ _ =>
    refine (if_neg (not_not.mpr hversion)).trans ?_
    -- whether all addresses are asked for or one, it is the pinned one
    cases all <;> rfl

/-- The connection to a resolved address is confined. -/
theorem Resolved.confined (h : Resolved P (stripBrackets url.hostname) resolved trace) :
    Confined P url (trace ++ [.connect resolved.address (requestOptions P url resolved).port
      (requestOptions P url resolved).servername]) := by
  cases h with
  | literal hversion haddress hpasses =>
    refine ⟨by simp, by simp, fun address port servername hmem => ?_⟩
    obtain ⟨rfl, rfl, rfl⟩ := NetEvent.connect.inj (List.mem_singleton.mp hmem)
    rw [haddress]
    exact ⟨public_of_passes hpasses, rfl, Or.inl ⟨rfl, if_pos hversion⟩⟩
  | @lookedUp addresses hversion hmem hpass =>
    refine ⟨by simp, by simp, fun address port servername hconnect => ?_⟩
    obtain ⟨rfl, rfl, rfl⟩ := NetEvent.connect.inj (by simpa using hconnect)
    refine ⟨public_of_passes (hpass resolved hmem), rfl,
      Or.inr ⟨if_neg (not_not.mpr hversion), addresses, by simp, ⟨resolved, hmem, rfl⟩, ?_⟩⟩
    exact fun other hother => public_of_passes (hpass other hother)

/-- **The resolution** asks once, and answers an address only if all addresses pass. -/
theorem resolvePublicAddress_ensures :
    (platform P).Ensures (Confined P url)
      (fun result trace => ∀ resolved, result = .ok resolved →
        Resolved P (stripBrackets url.hostname) resolved trace)
      (resolvePublicAddress P (stripBrackets url.hostname)) [] := by
  unfold resolvePublicAddress
  split
  · next hversion =>
    refine ⟨confined_nil, fun resolved hok => ?_⟩
    obtain ⟨hhead, hpass⟩ := pickAddress_eq_ok.mp hok
    obtain rfl := Option.some.inj hhead
    exact .literal hversion rfl (hpass _ List.mem_cons_self)
  · next hversion =>
    rw [Prog.perform_bind]
    apply System.ensures_act confined_nil
    intro answer
    cases haddresses : answer.addresses with
    | error err =>
      simp only [platform, execute, haddresses]
      exact ⟨confined_lookup _, fun resolved hok => by cases hok⟩
    | ok addresses =>
      simp only [platform, execute, haddresses]
      refine ⟨confined_lookup _, fun resolved hok => ?_⟩
      obtain ⟨hhead, hpass⟩ := pickAddress_eq_ok.mp hok
      exact .lookedUp (not_not.mp hversion) (List.mem_of_mem_head? hhead) hpass

/-- A request that is answered has connected. -/
def Connected (result : Except Thrown ℕ) (trace : Trace) : Prop :=
  ∀ status, result = .ok status →
    ∃ address port servername, NetEvent.connect address port servername ∈ trace

/-- **The request** is confined, at every moment and whatever the platform answers. -/
theorem sendWebhookRequest_ensures (h : parseWebhookUrl P endpoint = .ok url) :
    (platform P).Ensures (Confined P url) Connected (sendWebhookRequest P endpoint) [] := by
  unfold sendWebhookRequest
  rw [h]
  apply System.Ensures.bind
  apply System.Ensures.mono resolvePublicAddress_ensures fun _ hI => hI
  intro result trace hI hresolved
  cases result with
  | error err => exact ⟨hI, fun status hok => by cases hok⟩
  | ok resolved =>
    have hr := hresolved resolved rfl
    dsimp only
    rw [Prog.perform_bind]
    apply System.ensures_act hI
    intro answer
    show (platform P).Ensures _ _ (if answer.aborted = true then _ else _) trace
    by_cases haborted : answer.aborted = true
    · rw [if_pos haborted]
      exact ⟨hI, fun status hok => by cases hok⟩
    · rw [if_neg haborted]
      apply System.ensures_act hI
      intro answer'
      simp only [platform, execute, targets_requestOptions hr, List.map_singleton]
      exact ⟨hr.confined, fun _ _ => ⟨_, _, _, List.mem_append_right _ (List.mem_singleton_self _)⟩⟩

/-- **Requests are confined**: whatever the resolver answers, and answers a moment later, whenever
the signal fires and wherever the request stops, nothing happens on the network unless the endpoint
is an HTTPS URL that passes the checks; its host is resolved at most once, and a connection goes to
a public address only, the host itself or one of the addresses it was resolved to, all of which are
public. A request that is answered has connected. -/
theorem requests_confined (P : Platform) (endpoint : String) (answers : List Answer) :
    let sent := (platform P).feed answers (sendWebhookRequest P endpoint) []
    (sent.2 = [] ∨ ∃ url, parseWebhookUrl P endpoint = .ok url ∧ url.protocol = "https:" ∧
      Confined P url sent.2) ∧
    ∀ result, sent.1 = some result → Connected result sent.2 := by
  intro sent
  cases h : parseWebhookUrl P endpoint with
  | error err =>
    have hsent : sent = (some (.error err), []) := by
      show (platform P).feed answers (sendWebhookRequest P endpoint) [] = _
      unfold sendWebhookRequest
      rw [h]
      exact System.feed_done _ _ _ _
    rw [hsent]
    refine ⟨Or.inl rfl, fun result hresult status hok => ?_⟩
    cases hresult
    cases hok
  | ok url =>
    obtain ⟨hconfined, hresult⟩ := (sendWebhookRequest_ensures h).feed answers
    exact ⟨Or.inr ⟨url, rfl, protocol_of_parse h, hconfined⟩, hresult⟩

end WebhookHttp
