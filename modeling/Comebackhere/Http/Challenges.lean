import Comebackhere.Http.AuditLog
import Comebackhere.Library.Crew
import Comebackhere.Library.Run

/-!
# Authentication challenges

The Rust backend hands out challenges, and a request that presents one with a signature of it is let
through. A challenge is kept in a map with the time it expires at. A request looks it up, reads the
clock with the entry in hand, lets go of the entry, and removes the challenge. Each operation on the
map is one step, and a removal waits for those who have the entry in hand. Between the look-up and
the removal another request can find the challenge as well, and both are let through.

The clock reads anything at any time. The libraries that decode keys and verify signatures are
parameters.

## Main definitions

* `Call`, `Action`, `step`: the requests in progress, and the next step of one of them
* `issues c h`, `accepted c h`, `admitted c h`: what a history did with a challenge
* `SingleUse c h`: a challenge is accepted no more often than it was issued, and before it expires
* `Present c`: whoever is about to use a challenge up still finds it there
* `Alone c`: whoever finds a challenge is the only one to have found it

## Main results

* `Holds.step`: what is issued is accepted at most once
* `singleUse_of_present`: runs in which challenges are used up while they are there
* `each_present_of_alone`: runs in which no two requests have found the same challenge
-/

namespace Challenges

open Machine

/-! ## Signatures -/

/-- What base32, hexadecimal digits, public keys and signatures are decoded and verified with. -/
structure Crypto (κ : Type) where
  base32 : String → Option (List UInt8)
  hex : String → Option (List UInt8)
  fromBytes : List UInt8 → Option κ
  verifyStrict : κ → List UInt8 → List UInt8 → Except String Unit

structure AuthError where
  error : String

def decodeStellarPubkey {κ : Type} (crypto : Crypto κ) (encoded : String) :
    Except AuthError (List UInt8) :=
  if encoded.toList.head? ≠ some 'G' ∨ (Utf8.encode encoded.toList).length ≠ 56 then
    .error ⟨"Invalid Stellar public key format"⟩
  else
    match crypto.base32 encoded with
    | none => .error ⟨"Failed to decode Stellar public key"⟩
    | some bytes =>
      if bytes.length ≠ 35 then .error ⟨"Invalid decoded public key length"⟩
      -- a byte for the version before the key, and a checksum behind it
      else .ok ((bytes.drop 1).take 32)

def verifyEd25519 {κ : Type} (crypto : Crypto κ) (pubKeyBytes message : List UInt8)
    (signatureHex : String) : Except AuthError Unit :=
  match crypto.hex signatureHex with
  | none => .error ⟨"Invalid signature hex encoding"⟩
  | some signature =>
    if signature.length ≠ 64 then .error ⟨"Invalid signature length"⟩
    else
      match crypto.fromBytes pubKeyBytes with
      | none => .error ⟨"Invalid public key"⟩
      | some key =>
        match crypto.verifyStrict key message signature with
        | .error e => .error ⟨"Signature verification failed: " ++ e⟩
        | .ok () => .ok ()

/-! ## Requests -/

/-- The headers of a request, where they are there and text. -/
structure Headers where
  publicKey : Option String
  signature : Option String
  challenge : Option String

structure Presented where
  publicKey : String
  signature : String
  challenge : String

structure VerifiedSigner where
  publicKey : String

inductive Response
  | unauthorized (error : AuthError)
  /-- The request goes on to its handler. -/
  | admitted (signer : VerifiedSigner)

/-- A request in the middleware. -/
inductive Call
  | lookingUp (request : Presented)
  /-- The entry is in hand. -/
  | checking (request : Presented) (expiresAt : ℤ)
  | discarding (request : Presented)
  /-- The challenge had not expired when the clock was read. -/
  | consuming (request : Presented) (checkedAt expiresAt : ℤ)
  | answered (response : Response)

/-- All headers are needed, and asked for in this order. -/
def receive (headers : Headers) : Call :=
  match headers.publicKey, headers.signature, headers.challenge with
  | none, _, _ => .answered (.unauthorized ⟨"Missing X-Stellar-Public-Key header"⟩)
  | some _, none, _ => .answered (.unauthorized ⟨"Missing X-Stellar-Signature header"⟩)
  | some _, some _, none => .answered (.unauthorized ⟨"Missing X-Stellar-Challenge header"⟩)
  | some publicKey, some signature, some challenge => .lookingUp ⟨publicKey, signature, challenge⟩

/-- What becomes of a request whose challenge is valid. -/
def authenticate {κ : Type} (crypto : Crypto κ) (request : Presented) : Response :=
  match decodeStellarPubkey crypto request.publicKey with
  | .error e => .unauthorized e
  | .ok pubKeyBytes =>
    match verifyEd25519 crypto pubKeyBytes (Utf8.encode request.challenge.toList)
        request.signature with
    | .error e => .unauthorized e
    | .ok () => .admitted ⟨request.publicKey⟩

/-! ## Steps -/

/-- The map, and the requests in progress. -/
structure State where
  store : String → Option ℤ
  calls : List Call

def start : State := ⟨fun _ => none, []⟩

def challengePrefix : String := "COMEBACKHERE Auth Challenge:"

/-- The lifetime of a challenge, in nanoseconds. -/
def challengeTtl : ℤ := 300 * 1000000000

def challengeText (nonce : Vector UInt8 32) : String :=
  challengePrefix ++ " " ++ Audit.hexText nonce

def State.setCall (s : State) (i : ℕ) (call : Call) : State :=
  { s with calls := s.calls.set i call }

def State.put (s : State) (challenge : String) (expiresAt : Option ℤ) : State :=
  { s with store := Function.update s.store challenge expiresAt }

def Call.InHand (challenge : String) : Call → Prop
  | .checking request _ => request.challenge = challenge
  | _ => False

instance {challenge : String} : (call : Call) → Decidable (call.InHand challenge)
  | .checking request _ => inferInstanceAs (Decidable (request.challenge = challenge))
  | .lookingUp _ | .discarding _ | .consuming .. | .answered _ => isFalse id

/-- Somebody has the entry in hand, so that it is neither removed nor replaced. -/
def State.Held (s : State) (challenge : String) : Prop :=
  ∃ call ∈ s.calls, call.InHand challenge

instance {s : State} {challenge : String} : Decidable (s.Held challenge) :=
  inferInstanceAs (Decidable (∃ call ∈ s.calls, _))

inductive Action
  /-- `generate_challenge`, with random bytes and a reading of the clock. -/
  | generate (nonce : Vector UInt8 32) (now : ℤ)
  | request (headers : Headers)
  /-- The next step of a request, with a reading of the clock if it reads it. -/
  | advance (call : ℕ) (now : ℤ)

/-- The next step of a request. -/
def advance {κ : Type} (crypto : Crypto κ) (s : State) (i : ℕ) (now : ℤ) : Call → State
  | .lookingUp request =>
    match s.store request.challenge with
    | none =>
      s.setCall i (.answered (.unauthorized ⟨"Challenge not found or already used"⟩))
    | some expiresAt => s.setCall i (.checking request expiresAt)
  | .checking request expiresAt =>
    if expiresAt < now then s.setCall i (.discarding request)
    else s.setCall i (.consuming request now expiresAt)
  | .discarding request =>
    if s.Held request.challenge then s
    else (s.put request.challenge none).setCall i
      (.answered (.unauthorized ⟨"Challenge has expired"⟩))
  | .consuming request _ _ =>
    if s.Held request.challenge then s
    else (s.put request.challenge none).setCall i (.answered (authenticate crypto request))
  | .answered _ => s

def step {κ : Type} (crypto : Crypto κ) (s : State) : Action → State
  | .generate nonce now =>
    if s.Held (challengeText nonce) then s
    else s.put (challengeText nonce) (some (now + challengeTtl))
  | .request headers => { s with calls := s.calls ++ [receive headers] }
  | .advance i now =>
    match s.calls[i]? with
    | none => s
    | some call => advance crypto s i now call

/-! ## Single use -/

/-- When the challenge expires, if it is issued now. -/
def issue (c : String) (t : State × Action) : Option ℤ :=
  match t.2 with
  | .generate nonce now =>
    if challengeText nonce = c ∧ ¬t.1.Held c then some (now + challengeTtl) else none
  | _ => none

/-- The call for the challenge that returns now without an error: when it has read the clock, and
when the challenge that it has found expires. -/
def Call.accepts (c : String) (s : State) : Call → Option (ℤ × ℤ)
  | .consuming request checkedAt expiresAt =>
    if request.challenge = c ∧ ¬s.Held c then some (checkedAt, expiresAt) else none
  | _ => none

def accept (c : String) (t : State × Action) : Option (ℤ × ℤ) :=
  match t.2 with
  | .advance i _ => t.1.calls[i]?.bind (Call.accepts c t.1)
  | _ => none

/-- The signer that is let through with the challenge now. -/
def Call.admits {κ : Type} (crypto : Crypto κ) (c : String) (s : State) :
    Call → Option VerifiedSigner
  | .consuming request _ _ =>
    if request.challenge = c ∧ ¬s.Held c then
      match authenticate crypto request with
      | .admitted signer => some signer
      | .unauthorized _ => none
    else none
  | _ => none

def admission {κ : Type} (crypto : Crypto κ) (c : String) (t : State × Action) :
    Option VerifiedSigner :=
  match t.2 with
  | .advance i _ => t.1.calls[i]?.bind (Call.admits crypto c t.1)
  | _ => none

/-- When the challenges of this text expire that a history has issued. -/
def issues (c : String) (h : List (State × Action)) : List ℤ := h.filterMap (issue c)

/-- The calls for the challenge that have returned without an error. -/
def accepted (c : String) (h : List (State × Action)) : List (ℤ × ℤ) := h.filterMap (accept c)

/-- The signers that have been let through with the challenge. -/
def admitted {κ : Type} (crypto : Crypto κ) (c : String) (h : List (State × Action)) :
    List VerifiedSigner :=
  h.filterMap (admission crypto c)

/-- A challenge is accepted at most once for each time it was issued, and never after it has
expired, so that no more requests are let through with it. -/
structure SingleUse {κ : Type} (crypto : Crypto κ) (c : String) (h : List (State × Action)) :
    Prop where
  once : (accepted c h).length ≤ (issues c h).length
  unexpired : ∀ u ∈ accepted c h, u.1 ≤ u.2 ∧ u.2 ∈ issues c h
  signers : (admitted crypto c h).length ≤ (issues c h).length

/-- Whoever is about to use the challenge up still finds it there. -/
def Call.Present (c : String) (s : State) : Call → Prop
  | .consuming request _ _ => request.challenge = c → ¬s.Held c → (s.store c).isSome
  | _ => True

def Present (c : String) (s : State) : Action → Prop
  | .advance i _ => ∀ call ∈ s.calls[i]?, call.Present c s
  | _ => True

instance {c : String} {s : State} : (call : Call) → Decidable (call.Present c s)
  | .consuming request _ _ => inferInstanceAs
      (Decidable (request.challenge = c → ¬s.Held c → (s.store c).isSome))
  | .lookingUp _ | .checking .. | .discarding _ | .answered _ => isTrue trivial

instance {c : String} {s : State} : (a : Action) → Decidable (Present c s a)
  | .advance i _ => inferInstanceAs (Decidable (∀ call ∈ s.calls[i]?, call.Present c s))
  | .generate .. | .request _ => isTrue trivial

/-! ## What is issued is accepted at most once -/

section Holds

variable {κ : Type} {crypto : Crypto κ} {c : String} {s s' : State} {a : Action}
  {h : List (State × Action)} {t : State × Action}

theorem issues_snoc : issues c (h ++ [t]) = issues c h ++ (issue c t).toList := by
  rw [issues, List.filterMap_append, List.filterMap_cons]
  cases issue c t <;> rfl

theorem accepted_snoc : accepted c (h ++ [t]) = accepted c h ++ (accept c t).toList := by
  rw [accepted, List.filterMap_append, List.filterMap_cons]
  cases accept c t <;> rfl

@[simp] theorem put_store {challenge : String} {expiresAt : Option ℤ} :
    (s.put challenge expiresAt).store c =
      if c = challenge then expiresAt else s.store c := Function.update_apply ..

/-- Who is let through has had the challenge accepted. -/
theorem isSome_accept_of_admission {signer : VerifiedSigner}
    (hsigner : admission crypto c t = some signer) : (accept c t).isSome := by
  obtain ⟨s, a⟩ := t
  cases a with
  | advance i now =>
    obtain ⟨call, hcall, hsigner⟩ := Option.bind_eq_some_iff.mp hsigner
    simp only [accept, hcall, Option.bind_some]
    cases call with
    | consuming request checkedAt expiresAt =>
      rw [Call.admits] at hsigner
      rw [Call.accepts]
      split at hsigner
      · next hc => rw [if_pos hc, Option.isSome_some]
      · cases hsigner
    | _ => cases hsigner
  | _ => cases hsigner

theorem length_admitted_le : (admitted crypto c h).length ≤ (accepted c h).length := by
  induction h with
  | nil => exact le_rfl
  | cons t h ih =>
    rw [admitted, accepted, List.filterMap_cons, List.filterMap_cons]
    cases hsigner : admission crypto c t with
    | none =>
      cases accept c t with
      | none => exact ih
      | some u => exact Nat.le_succ_of_le ih
    | some signer =>
      obtain ⟨u, hu⟩ := Option.isSome_iff_exists.mp (isSome_accept_of_admission hsigner)
      rw [hu]
      exact Nat.succ_le_succ ih

/-- What a request knows of the challenge. -/
def Call.Sound (c : String) (expiries : List ℤ) : Call → Prop
  | .checking request expiresAt => request.challenge = c → expiresAt ∈ expiries
  | .consuming request checkedAt expiresAt =>
    request.challenge = c → checkedAt ≤ expiresAt ∧ expiresAt ∈ expiries
  | _ => True

theorem Call.Sound.mono {call : Call} {expiries expiries' : List ℤ}
    (hcall : call.Sound c expiries) (hsub : expiries ⊆ expiries') : call.Sound c expiries' := by
  cases call with
  | checking request expiresAt => exact fun hc => hsub (hcall hc)
  | consuming request checkedAt expiresAt => exact fun hc => ⟨(hcall hc).1, hsub (hcall hc).2⟩
  | _ => trivial

theorem receive_sound (headers : Headers) (expiries : List ℤ) :
    (receive headers).Sound c expiries := by
  obtain ⟨publicKey, signature, challenge⟩ := headers
  cases publicKey <;> cases signature <;> cases challenge <;> trivial

/-- Each challenge in the map and each one accepted was issued, and not the same time. -/
structure Holds (c : String) (h : List (State × Action)) (s : State) : Prop where
  once : (accepted c h).length + (s.store c).toList.length ≤ (issues c h).length
  stored : ∀ expiresAt ∈ s.store c, expiresAt ∈ issues c h
  calls : ∀ call ∈ s.calls, call.Sound c (issues c h)
  unexpired : ∀ u ∈ accepted c h, u.1 ≤ u.2 ∧ u.2 ∈ issues c h

/-- A step that neither issues nor accepts the challenge, and does not put it into the map. -/
theorem Holds.frame (hs : Holds c h s) (hissue : issue c t = none) (haccept : accept c t = none)
    (hstore : s'.store c = s.store c ∨ s'.store c = none)
    (hcalls : ∀ call ∈ s'.calls, call.Sound c (issues c h)) : Holds c (h ++ [t]) s' := by
  have hissues : issues c (h ++ [t]) = issues c h := by
    rw [issues_snoc, hissue, Option.toList_none, List.append_nil]
  have haccepted : accepted c (h ++ [t]) = accepted c h := by
    rw [accepted_snoc, haccept, Option.toList_none, List.append_nil]
  have honce := hs.once
  constructor
  · rw [hissues, haccepted]
    rcases hstore with hstore | hstore
    · rw [hstore]
      exact honce
    · rw [hstore, Option.toList_none, List.length_nil]
      omega
  · rw [hissues]
    rcases hstore with hstore | hstore
    · rw [hstore]
      exact hs.stored
    · rw [hstore]
      intro expiresAt he
      cases he
  · rw [hissues]
    exact hcalls
  · rw [hissues, haccepted]
    exact hs.unexpired

/-- **The challenge is issued.** -/
theorem Holds.generate (hs : Holds c h s) (nonce : Vector UInt8 32) (now : ℤ) :
    Holds c (h ++ [(s, .generate nonce now)]) (step crypto s (.generate nonce now)) := by
  rw [step]
  by_cases hheld : s.Held (challengeText nonce)
  · rw [if_pos hheld]
    refine hs.frame (if_neg ?_) rfl (Or.inl rfl) hs.calls
    rintro ⟨rfl, hnot⟩
    exact hnot hheld
  · rw [if_neg hheld]
    by_cases hc : challengeText nonce = c
    · have hissue : issue c (s, .generate nonce now) = some (now + challengeTtl) :=
        if_pos ⟨hc, hc ▸ hheld⟩
      have hissues : issues c (h ++ [(s, .generate nonce now)]) =
          issues c h ++ [now + challengeTtl] := by
        rw [issues_snoc, hissue]
        rfl
      have haccepted : accepted c (h ++ [(s, .generate nonce now)]) = accepted c h := by
        rw [accepted_snoc]
        exact List.append_nil _
      have hsub := List.subset_append_left (issues c h) [now + challengeTtl]
      have honce := hs.once
      constructor
      · rw [hissues, haccepted, put_store, if_pos hc.symm, List.length_append]
        simp only [Option.toList_some, List.length_singleton]
        omega
      · rw [put_store, if_pos hc.symm, hissues]
        intro expiresAt he
        obtain rfl := Option.some.inj he
        exact List.mem_append_right _ (List.mem_singleton_self _)
      · rw [hissues]
        exact fun call hcall => (hs.calls call hcall).mono hsub
      · rw [haccepted, hissues]
        exact fun u hu => ⟨(hs.unexpired u hu).1, hsub (hs.unexpired u hu).2⟩
    · refine hs.frame (if_neg fun hcand => hc hcand.1) rfl (Or.inl ?_) hs.calls
      rw [put_store, if_neg (Ne.symm hc)]

theorem accept_advance {i : ℕ} {now : ℤ} {call : Call} (hcall : s.calls[i]? = some call) :
    accept c (s, .advance i now) = call.accepts c s := by
  change s.calls[i]?.bind (Call.accepts c s) = call.accepts c s
  rw [hcall, Option.bind_some]

theorem step_advance {i : ℕ} {now : ℤ} {call : Call} (hcall : s.calls[i]? = some call) :
    step crypto s (.advance i now) = advance crypto s i now call := by
  rw [step, hcall]

/-- The challenge or another one is removed. -/
theorem store_put_none (challenge : String) :
    (s.put challenge none).store c = s.store c ∨ (s.put challenge none).store c = none := by
  rw [put_store]
  split
  · exact Or.inr rfl
  · exact Or.inl rfl

/-- **The challenge is accepted**, and is no longer there. -/
theorem Holds.consume (hs : Holds c h s) {i : ℕ} {now : ℤ} {request : Presented}
    {checkedAt expiresAt : ℤ} {response : Response}
    (hcall : s.calls[i]? = some (.consuming request checkedAt expiresAt))
    (hc : request.challenge = c) (hheld : ¬s.Held c) (hpresent : (s.store c).isSome) :
    Holds c (h ++ [(s, .advance i now)])
      ((s.put request.challenge none).setCall i (.answered response)) := by
  have haccept : accept c (s, .advance i now) = some (checkedAt, expiresAt) := by
    rw [accept_advance hcall]
    exact if_pos ⟨hc, hheld⟩
  have haccepted : accepted c (h ++ [(s, .advance i now)]) =
      accepted c h ++ [(checkedAt, expiresAt)] := by
    rw [accepted_snoc, haccept]
    rfl
  have hissues : issues c (h ++ [(s, .advance i now)]) = issues c h := by
    rw [issues_snoc]
    exact List.append_nil _
  have hstore : ((s.put request.challenge none).setCall i (.answered response)).store c = none := by
    change (s.put request.challenge none).store c = none
    rw [put_store, if_pos hc.symm]
  have hsound := hs.calls _ (List.mem_of_getElem? hcall) hc
  -- What is accepted takes the place of what was in the map.
  have honce := hs.once
  obtain ⟨e, he⟩ := Option.isSome_iff_exists.mp hpresent
  rw [he, Option.toList_some, List.length_singleton] at honce
  constructor
  · rw [haccepted, hissues, hstore, List.length_append]
    exact honce
  · rw [hstore]
    intro expiresAt he
    cases he
  · rw [hissues]
    exact Crew.forall_mem_set hs.calls (show (Call.answered response).Sound c _ from trivial) i
  · rw [haccepted, hissues]
    intro u hu
    rcases List.mem_append.mp hu with hu | hu
    · exact hs.unexpired u hu
    · obtain rfl := List.mem_singleton.mp hu
      exact hsound

/-- **A request goes on.** -/
theorem Holds.advance (hs : Holds c h s) {i : ℕ} {now : ℤ} (hp : Present c s (.advance i now)) :
    Holds c (h ++ [(s, .advance i now)]) (step crypto s (.advance i now)) := by
  cases hcall : s.calls[i]? with
  | none =>
    rw [step, hcall]
    refine hs.frame rfl ?_ (Or.inl rfl) hs.calls
    change s.calls[i]?.bind (Call.accepts c s) = none
    rw [hcall, Option.bind_none]
  | some call =>
    rw [step_advance hcall]
    have haccept : accept c (s, .advance i now) = call.accepts c s := accept_advance hcall
    have hsound := hs.calls call (List.mem_of_getElem? hcall)
    have hcalls : ∀ {call'}, call'.Sound c (issues c h) →
        ∀ x ∈ s.calls.set i call', x.Sound c (issues c h) :=
      fun hcall' => Crew.forall_mem_set hs.calls hcall' i
    -- only the last step of a call accepts anything
    cases call with
    | lookingUp request =>
      rw [Challenges.advance]
      cases hfound : s.store request.challenge with
      | none => exact hs.frame rfl haccept (Or.inl rfl) (hcalls trivial)
      | some expiresAt =>
        refine hs.frame rfl haccept (Or.inl rfl) (hcalls ?_)
        intro hc
        exact hs.stored expiresAt (hc ▸ hfound)
    | checking request expiresAt =>
      rw [Challenges.advance]
      split
      · exact hs.frame rfl haccept (Or.inl rfl) (hcalls trivial)
      · next hnow =>
        exact hs.frame rfl haccept (Or.inl rfl) (hcalls fun hc => ⟨Int.not_lt.mp hnow, hsound hc⟩)
    | discarding request =>
      rw [Challenges.advance]
      split
      · exact hs.frame rfl haccept (Or.inl rfl) hs.calls
      · exact hs.frame rfl haccept (store_put_none _) (hcalls trivial)
    | consuming request checkedAt expiresAt =>
      rw [Challenges.advance]
      by_cases hc : request.challenge = c
      · split
        · next hheld =>
          refine hs.frame rfl (haccept.trans (if_neg ?_)) (Or.inl rfl) hs.calls
          exact fun hnot => hnot.2 (hc ▸ hheld)
        · next hheld => exact hs.consume hcall hc (hc ▸ hheld) (hp _ hcall hc (hc ▸ hheld))
      · have haccept' : accept c (s, .advance i now) = none :=
          haccept.trans (if_neg fun hcand => hc hcand.1)
        split
        · exact hs.frame rfl haccept' (Or.inl rfl) hs.calls
        · exact hs.frame rfl haccept' (store_put_none _) (hcalls trivial)
    | answered response => exact hs.frame rfl haccept (Or.inl rfl) hs.calls

theorem Holds.step (hs : Holds c h s) (hp : Present c s a) :
    Holds c (h ++ [(s, a)]) (step crypto s a) := by
  cases a with
  | generate nonce now => exact hs.generate nonce now
  | request headers =>
    refine hs.frame rfl rfl (Or.inl rfl) ?_
    exact List.forall_mem_append.mpr
      ⟨hs.calls, List.forall_mem_singleton.mpr (receive_sound headers _)⟩
  | advance i now => exact hs.advance hp

theorem Holds.singleUse (hs : Holds c h s) : SingleUse crypto c h := by
  have honce : (accepted c h).length ≤ (issues c h).length := by
    have hsum := hs.once
    omega
  exact ⟨honce, hs.unexpired, length_admitted_le.trans honce⟩

end Holds

/-- **A challenge is used once** in every run in which whoever is about to use it up still finds it
there. -/
theorem singleUse_of_present {κ : Type} (crypto : Crypto κ) (c : String) (as : List Action)
    (h : Each (step crypto) (fun _ s a => Present c s a) start as) :
    Always (step crypto) (fun h _ => SingleUse crypto c h) start as := by
  intro pre hpre
  have hholds : Holds c (transitions (step crypto) start pre) (run (step crypto) start pre) := by
    refine inv_of_each ⟨Nat.le_refl _, ?_, ?_, ?_⟩ (fun _ s a hs hp => hs.step hp) (h.restrict hpre)
    · intro expiresAt he
      cases he
    · exact List.forall_mem_nil _
    · exact List.forall_mem_nil _
  exact hholds.singleUse

def zeros : Vector UInt8 32 := Vector.replicate 32 0

/-- A request that presents the challenge under a key that is too short. -/
def presenting : Headers := ⟨some "GA", some "00", some (challengeText zeros)⟩

/-- Nothing is decoded, which only shows for keys of the right length. -/
def undecoded : Crypto Unit :=
  ⟨fun _ => none, fun _ => none, fun _ => none, fun _ _ _ => .error ""⟩

/-- One request uses the challenge up before the other one presents it. -/
def usedOnce : List Action :=
  [.generate zeros 0, .request presenting, .advance 0 1, .advance 0 2, .advance 0 3,
    .request presenting, .advance 1 4]

theorem singleUse_usedOnce : Always (step undecoded)
    (fun h _ => SingleUse undecoded (challengeText zeros) h) start usedOnce :=
  singleUse_of_present undecoded (challengeText zeros) usedOnce (by decide)

/-- Both requests look the challenge up before either removes it. -/
def usedTwice : List Action :=
  [.generate zeros 0, .request presenting, .request presenting, .advance 0 1, .advance 1 1,
    .advance 0 2, .advance 1 2, .advance 0 3, .advance 1 3]

theorem not_singleUse_usedTwice :
    ¬ ∀ (κ : Type) (crypto : Crypto κ) (c : String) (as : List Action),
      Always (step crypto) (fun h _ => SingleUse crypto c h) start as := by
  intro h
  have honce := (h Unit undecoded (challengeText zeros) usedTwice).at_end.once
  have htwo : (accepted (challengeText zeros)
      (transitions (step undecoded) start usedTwice)).length = 2 := by decide
  have hone : (issues (challengeText zeros)
      (transitions (step undecoded) start usedTwice)).length = 1 := by decide
  rw [htwo, hone] at honce
  exact absurd honce (by decide)

/-! ## Requests that do not overlap -/

/-- The request has found the challenge, and has not yet removed it. -/
def Call.Found (c : String) : Call → Prop
  | .checking request _ | .discarding request | .consuming request _ _ => request.challenge = c
  | _ => False

/-- A request finds the challenge only when no other one has found it. -/
def Call.Alone (c : String) (s : State) : Call → Prop
  | .lookingUp request =>
    request.challenge = c → (s.store c).isSome → ∀ call ∈ s.calls, ¬call.Found c
  | _ => True

def Alone (c : String) (s : State) : Action → Prop
  | .advance i _ => ∀ call ∈ s.calls[i]?, call.Alone c s
  | _ => True

section Alone

variable {κ : Type} {crypto : Crypto κ} {c : String} {s s' : State} {a : Action}

/-- At most one request has found the challenge, and then the challenge is still there. -/
structure Single (c : String) (s : State) : Prop where
  unique : Crew.Unique (Call.Found c) s.calls
  there : ∀ call ∈ s.calls, call.Found c → (s.store c).isSome

theorem not_found_receive (headers : Headers) : ¬(receive headers).Found c := by
  obtain ⟨publicKey, signature, challenge⟩ := headers
  cases publicKey <;> cases signature <;> cases challenge <;> exact id

/-- A request goes on that has not found the challenge, or had found it before. -/
theorem Single.set (hs : Single c s) {i : ℕ} {call call' : Call} (hcall : s.calls[i]? = some call)
    (hfound : call'.Found c → call.Found c) : Single c (s.setCall i call') :=
  ⟨hs.unique.set hcall hfound, Crew.forall_mem_set hs.there
    (fun hc => hs.there call (List.mem_of_getElem? hcall) (hfound hc)) i⟩

/-- The only request that has found the challenge removes it. -/
theorem Single.remove (hs : Single c s) {i : ℕ} {call : Call} {response : Response}
    {challenge : String} (hcall : s.calls[i]? = some call)
    (hfound : challenge = c → call.Found c) :
    Single c ((s.put challenge none).setCall i (.answered response)) := by
  refine ⟨hs.unique.set hcall False.elim, ?_⟩
  change ∀ x ∈ s.calls.set i (.answered response), x.Found c →
    ((s.put challenge none).store c).isSome
  rw [put_store]
  split
  · next hc =>
    intro x hx hxc
    exact absurd hxc (hs.unique.forall_mem_set_not hcall (hfound hc.symm) id x hx)
  · exact Crew.forall_mem_set hs.there False.elim i

theorem Single.step (hs : Single c s) (ha : Alone c s a) : Single c (step crypto s a) := by
  cases a with
  | generate nonce now =>
    rw [Challenges.step]
    split
    · exact hs
    · refine ⟨hs.unique, fun call hcall hc => ?_⟩
      rw [put_store]
      split
      · rfl
      · exact hs.there call hcall hc
  | request headers =>
    refine ⟨hs.unique.concat (not_found_receive headers), ?_⟩
    exact List.forall_mem_append.mpr ⟨hs.there, List.forall_mem_singleton.mpr
      fun hc => absurd hc (not_found_receive headers)⟩
  | advance i now =>
    cases hcall : s.calls[i]? with
    | none =>
      rw [Challenges.step, hcall]
      exact hs
    | some call =>
      rw [step_advance hcall]
      cases call with
      | lookingUp request =>
        rw [advance]
        cases hstore : s.store request.challenge with
        | none => exact hs.set hcall False.elim
        | some expiresAt =>
          -- the request is the only one now, as there was none before
          by_cases hc : request.challenge = c
          · have hthere : (s.store c).isSome := by
              rw [← hc, hstore, Option.isSome_some]
            exact ⟨Crew.unique_set_of_none (ha _ hcall hc hthere),
              Crew.forall_mem_set hs.there (fun _ => hthere) i⟩
          · exact hs.set hcall fun hfound => absurd hfound hc
      | checking request expiresAt =>
        rw [advance]
        split <;> exact hs.set hcall id
      | discarding request =>
        rw [advance]
        split
        · exact hs
        · exact hs.remove hcall id
      | consuming request checkedAt expiresAt =>
        rw [advance]
        split
        · exact hs
        · exact hs.remove hcall id
      | answered response => exact hs

/-- **Whoever is alone finds the challenge still there** when it comes to use it up. -/
theorem each_present_of_alone {as : List Action}
    (h : Each (Challenges.step crypto) (fun _ s a => Alone c s a) start as) :
    Each (Challenges.step crypto) (fun _ s a => Present c s a) start as := by
  intro pre a hpre
  have hsingle : Single c (run (Challenges.step crypto) start pre) := by
    refine inv_of_each (I := fun _ s => Single c s) ⟨Crew.unique_nil, List.forall_mem_nil _⟩
      (fun _ s a hs ha => hs.step ha) (h.restrict ((List.prefix_append _ _).trans hpre))
  cases a with
  | advance i now =>
    intro call hcall
    cases call with
    | consuming request checkedAt expiresAt =>
      exact fun hc _ => hsingle.there _ (List.mem_of_getElem? hcall) hc
    | _ => trivial
  | _ => trivial

end Alone

end Challenges
