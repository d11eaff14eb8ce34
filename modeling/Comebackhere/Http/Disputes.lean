import Comebackhere.Http.Express
import Comebackhere.Http.InvoiceRecord
import Comebackhere.Library.Collection
import Comebackhere.Library.Double
import Comebackhere.Library.Run

/-!
# Disputes of the Express backend

The backend keeps disputes in memory. Signers vote on a dispute, each with a weight, until one side
has the weight that a threshold asks for. The weights of the sides are numbers of JavaScript, which
are rounded when a sum has more bits than a double.

## Main definitions

* `createDispute`, `vote`: the two routes that change disputes
* `castVote`: what an accepted vote does to its dispute
* `Tallied`: the weights, the votes and the outcome of a dispute fit together
* `AddsExactly`: an accepted vote is added without rounding

## Main results

* `find_freeTime`: a new dispute has an id of its own
* `tallied_castVote_iff`: a vote keeps the tallies exactly if it is added without rounding
* `sound_iff`: the disputes are sound in exactly the runs without rounding
-/

namespace Http.Disputes

open Machine Double

/-! ## Disputes -/

/-- A number of JavaScript that is not negative: a double, or infinity. -/
abbrev Number := Option ℚ

/-- `x + y` -/
def add (x y : Number) : Number := x.bind fun p => y.bind fun q => double (p + q)

/-- `x >= threshold` -/
def reaches : Number → Number → Bool
  | none, _ => true
  | some _, none => false
  | some q, some threshold => threshold ≤ q

inductive VoteValue
  | resolvedClaimant
  | resolvedCounterparty
  deriving DecidableEq

structure DisputeVote where
  signer : String
  vote : VoteValue
  weight : ℕ
  votedAt : Date
  deriving DecidableEq

/-- A dispute. Its votes are in the order in which they were cast. -/
structure DisputeRecord where
  disputeId : String
  settlementId : String
  claimantAddress : String
  reason : Option String
  createdAt : Date
  resolvedAt : Option Date
  votes : List DisputeVote
  claimantWeight : Number
  counterpartyWeight : Number
  outcome : Option VoteValue
  deriving DecidableEq

/-- The weight of a side. -/
def DisputeRecord.weight (d : DisputeRecord) : VoteValue → Number
  | .resolvedClaimant => d.claimantWeight
  | .resolvedCounterparty => d.counterpartyWeight

abbrev Store := Collection DisputeRecord String (·.disputeId)

/-! ## Requests -/

/-- The threshold of votes, and the environment variables. -/
structure Config where
  threshold : Number
  env : String → Option String

/-- The body of a request to vote, as its schema accepts it. -/
structure VoteBody where
  signerAddress : String
  vote : VoteValue
  weight : ℕ
  positive : 0 < weight
  safe : weight < 2 ^ 53

structure CreateDisputeBody where
  claimantAddress : String
  settlementId : String
  reason : Option String

/-- An error, with the outcome that its details have. -/
structure Rejection where
  error : AppError
  outcome : Option VoteValue := none

structure CreateResponse where
  disputeId : String
  settlementId : String
  claimantAddress : String
  status : String
  settlementStatus : String

structure VoteResponse where
  disputeId : String
  signerAddress : String
  vote : VoteValue
  claimantWeight : Number
  counterpartyWeight : Number
  resolutionWeight : Number
  threshold : Number
  outcome : Option VoteValue

variable (cfg : Config)

/-- Variables that are not set or empty, and a passphrase that is blank. -/
def requireEnv (vars : List String) : Except Rejection Unit :=
  if (("SOROBAN_RPC_URL" :: vars).any fun name => present (cfg.env name) = none) then
    .error ⟨serviceMisconfiguredError
      "Service misconfiguration: missing required environment variables", none⟩
  else if ((cfg.env "NETWORK_PASSPHRASE").getD "").toList.all isSpace then
    .error ⟨⟨503, "SERVICE_UNAVAILABLE", "NETWORK_PASSPHRASE is not set. Configure it to match " ++
      "your target Stellar network (e.g. \"Test SDF Network ; September 2015\" for testnet).",
      none⟩, none⟩
  else .ok ()

/-- The id of a dispute. -/
def idAt (settlementId : String) (createdAt : ℤ) : String :=
  settlementId ++ "-" ++ toString createdAt

/-- The first time from `createdAt` on whose id is free, among as many as there are disputes. -/
def freeTime (disputes : Store) (settlementId : String) : ℕ → ℤ → ℤ
  | 0, createdAt => createdAt
  | n + 1, createdAt =>
    if (disputes.find (idAt settlementId createdAt)).isSome then
      freeTime disputes settlementId n (createdAt + 1)
    else createdAt

def newDispute (body : CreateDisputeBody) (createdAt : ℤ) : DisputeRecord where
  disputeId := idAt body.settlementId createdAt
  settlementId := body.settlementId
  claimantAddress := body.claimantAddress
  reason := body.reason
  createdAt := newDate createdAt
  resolvedAt := none
  votes := []
  claimantWeight := some 0
  counterpartyWeight := some 0
  outcome := none

/-- `POST /disputes`, at a time. -/
def createDispute (disputes : Store) (body : CreateDisputeBody) (now : ℤ) :
    Except Rejection (CreateResponse × Store) := do
  requireEnv cfg ["SETTLEMENT_CONTRACT_ID", "SIGNER_SECRET_KEY"]
  let createdAt := freeTime disputes body.settlementId disputes.docs.length now
  let dispute := newDispute body createdAt
  let response := ⟨dispute.disputeId, body.settlementId, body.claimantAddress, "Raised", "OnHold"⟩
  return (response, disputes.replaceOne dispute)

/-- An accepted vote is recorded, its weight is added, and the dispute is resolved if a side has
reached the threshold. -/
def castVote (threshold : Number) (vote : DisputeVote) (now : ℤ) (d : DisputeRecord) :
    DisputeRecord :=
  let d := { d with votes := d.votes ++ [vote] }
  let d :=
    match vote.vote with
    | .resolvedClaimant => { d with claimantWeight := add d.claimantWeight (some vote.weight) }
    | .resolvedCounterparty =>
      { d with counterpartyWeight := add d.counterpartyWeight (some vote.weight) }
  let d :=
    if reaches d.claimantWeight threshold then { d with outcome := some .resolvedClaimant }
    else if reaches d.counterpartyWeight threshold then
      { d with outcome := some .resolvedCounterparty }
    else d
  if d.outcome ≠ none then { d with resolvedAt := some (newDate now) } else d

theorem disputeId_castVote (threshold : Number) (vote : DisputeVote) (now : ℤ)
    (d : DisputeRecord) : (castVote threshold vote now d).disputeId = d.disputeId := by
  rw [castVote]
  cases vote.vote <;> dsimp only <;> (repeat' split) <;> rfl

/-- `POST /disputes/:id/vote`, with the times of the vote and of a resolution. -/
def vote (disputes : Store) (disputeId : String) (body : VoteBody) (votedAt resolvedAt : ℤ) :
    Except Rejection (VoteResponse × Store) :=
  match disputes.find disputeId with
  | none => .error ⟨notFoundError ("Dispute " ++ disputeId ++ " not found"), none⟩
  | some state =>
    if state.outcome ≠ none then
      .error ⟨conflictError "Dispute already resolved", state.outcome⟩
    else if state.votes.any (·.signer = body.signerAddress) then
      .error ⟨conflictError "Signer has already voted on this dispute", none⟩
    else
      let cast := castVote cfg.threshold
        ⟨body.signerAddress, body.vote, body.weight, newDate votedAt⟩ resolvedAt
      let state := cast state
      let response := ⟨disputeId, body.signerAddress, body.vote, state.claimantWeight,
        state.counterpartyWeight, add state.claimantWeight state.counterpartyWeight, cfg.threshold,
        state.outcome⟩
      .ok (response, disputes.updateOne disputeId cast (disputeId_castVote _ _ _))

/-- A request that has passed its schema. -/
inductive Input
  | create (body : CreateDisputeBody) (now : ℤ)
  | vote (disputeId : String) (body : VoteBody) (votedAt resolvedAt : ℤ)

/-- The store after a request. An error leaves it as it is. -/
def step (disputes : Store) : Input → Store
  | .create body now =>
    match createDispute cfg disputes body now with
    | .ok (_, disputes') => disputes'
    | .error _ => disputes
  | .vote disputeId body votedAt resolvedAt =>
    match vote cfg disputes disputeId body votedAt resolvedAt with
    | .ok (_, disputes') => disputes'
    | .error _ => disputes

/-! ## What a vote does -/

section CastVote

variable {threshold : Number} {x : DisputeVote} {now : ℤ} {d : DisputeRecord}

/-- The weights of the recorded votes for a side, added up. -/
def sumFor (side : VoteValue) (votes : List DisputeVote) : ℕ :=
  ((votes.filter (·.vote = side)).map (·.weight)).sum

theorem sumFor_snoc (side : VoteValue) (votes : List DisputeVote) (x : DisputeVote) :
    sumFor side (votes ++ [x]) = sumFor side votes + if x.vote = side then x.weight else 0 := by
  by_cases hx : x.vote = side <;> simp [sumFor, hx]

/-- The weights, the votes and the outcome of a dispute fit together: nobody has voted twice, the
weights are the sums of the votes, the outcome is the side with the threshold, which no side had
before the last vote. -/
structure Tallied (threshold : Number) (d : DisputeRecord) : Prop where
  signers : (d.votes.map (·.signer)).Nodup
  weight : ∀ side, d.weight side = some (sumFor side d.votes : ℚ)
  outcome : ∀ side, d.outcome = some side ↔ reaches (d.weight side) threshold
  first : ∀ side, d.outcome = some side → ∃ earlier last, d.votes = earlier ++ [last] ∧
    last.vote = side ∧ ∀ side', reaches (some (sumFor side' earlier)) threshold = false
  resolvedAt : d.resolvedAt = none ↔ d.outcome = none

@[simp] theorem votes_castVote : (castVote threshold x now d).votes = d.votes ++ [x] := by
  rw [castVote]
  cases x.vote <;> dsimp only <;> (repeat' split) <;> rfl

@[simp] theorem weight_castVote (side : VoteValue) : (castVote threshold x now d).weight side =
    if x.vote = side then add (d.weight side) (some x.weight) else d.weight side := by
  rw [castVote]
  cases hx : x.vote <;> cases side <;> dsimp only <;> (repeat' split) <;>
    simp_all [DisputeRecord.weight]

theorem Tallied.not_reached (hd : Tallied threshold d) (hopen : d.outcome = none)
    (side : VoteValue) : reaches (d.weight side) threshold = false := by
  by_contra hreached
  rw [Bool.not_eq_false, ← hd.outcome side, hopen] at hreached
  cases hreached

theorem outcome_castVote (hd : Tallied threshold d) (hopen : d.outcome = none) :
    (castVote threshold x now d).outcome =
      if reaches (add (d.weight x.vote) (some x.weight)) threshold then some x.vote else none := by
  have hclaimant : reaches d.claimantWeight threshold = false :=
    hd.not_reached hopen .resolvedClaimant
  have hcounterparty : reaches d.counterpartyWeight threshold = false :=
    hd.not_reached hopen .resolvedCounterparty
  rw [castVote]
  cases hx : x.vote with
  | resolvedClaimant =>
    by_cases hreached : reaches (add d.claimantWeight (some x.weight)) threshold <;>
      simp [DisputeRecord.weight, hreached, hcounterparty, hopen]
  | resolvedCounterparty =>
    by_cases hreached : reaches (add d.counterpartyWeight (some x.weight)) threshold <;>
      simp [DisputeRecord.weight, hreached, hclaimant, hopen]

theorem resolvedAt_castVote : (castVote threshold x now d).resolvedAt =
    if (castVote threshold x now d).outcome ≠ none then some (newDate now) else d.resolvedAt := by
  rw [castVote]
  cases x.vote <;> dsimp only <;> (repeat' split) <;> simp_all

/-- An accepted vote is added without rounding. -/
def Exact (d : DisputeRecord) (side : VoteValue) (weight : ℕ) : Prop :=
  add (d.weight side) (some weight) = (d.weight side).map (· + (weight : ℚ))

/-- Nothing is rounded as long as the weight of the side is a safe integer. -/
theorem exact_of_safe {side : VoteValue} {sum weight : ℕ} (hside : d.weight side = some (sum : ℚ))
    (hsafe : sum + weight < 2 ^ 53) : Exact d side weight := by
  have hdouble : double ((sum + weight : ℕ) : ℤ) = some (((sum + weight : ℕ) : ℤ) : ℚ) :=
    double_intCast hsafe
  rw [Exact, hside]
  simpa [add] using hdouble

/-- **A vote keeps the tallies** exactly if it is added without rounding. -/
theorem tallied_castVote_iff (hd : Tallied threshold d) (hopen : d.outcome = none)
    (hnew : x.signer ∉ d.votes.map (·.signer)) :
    Tallied threshold (castVote threshold x now d) ↔ Exact d x.vote x.weight := by
  have hsum : (d.weight x.vote).map (· + (x.weight : ℚ)) =
      some ((sumFor x.vote (d.votes ++ [x]) : ℕ) : ℚ) := by
    rw [hd.weight, sumFor_snoc, if_pos rfl]
    push_cast
    rfl
  have houtcome : (castVote threshold x now d).outcome =
      if reaches (add (d.weight x.vote) (some x.weight)) threshold then some x.vote else none :=
    outcome_castVote hd hopen
  constructor
  · intro h
    have hweight := h.weight x.vote
    rw [weight_castVote, if_pos rfl, votes_castVote] at hweight
    rw [Exact, hsum, hweight]
  · intro hexact
    have hweight : ∀ side, (castVote threshold x now d).weight side =
        some (sumFor side (d.votes ++ [x]) : ℚ) := by
      intro side
      rw [weight_castVote]
      split
      · next hside => rw [← hside, hexact, hsum]
      · next hside => rw [hd.weight, sumFor_snoc, if_neg hside, Nat.add_zero]
    constructor
    · rw [votes_castVote, List.map_append, List.map_singleton]
      exact List.nodup_append.mpr ⟨hd.signers, List.nodup_singleton _, by
        intro signer hsigner signer' hsigner' he
        exact hnew (List.mem_singleton.mp hsigner' ▸ he ▸ hsigner)⟩
    · rw [votes_castVote]
      exact hweight
    · intro side
      rw [houtcome, weight_castVote]
      by_cases hside : x.vote = side
      · subst hside
        simp
      · simp [hside, hd.not_reached hopen side]
    · intro side hdecided
      rw [houtcome, Option.ite_none_right_eq_some] at hdecided
      refine ⟨d.votes, x, votes_castVote, by simpa using hdecided.2, fun side' => ?_⟩
      rw [← hd.weight]
      exact hd.not_reached hopen side'
    · rw [resolvedAt_castVote]
      split
      · next h => simp [h]
      · next h =>
        rw [not_not.mp h]
        exact iff_of_true (hd.resolvedAt.mpr hopen) rfl

end CastVote

/-! ## Ids -/

section Ids

variable {disputes : Store} {settlementId : String}

theorem idAt_inj {t t' : ℤ} (h : idAt settlementId t = idAt settlementId t') : t = t' :=
  Decimal.toString_int_inj ((String.append_right_inj _).mp h)

/-- The loop ends at a free id, or after as many ids that are taken as it may try. -/
theorem freeTime_spec (n : ℕ) (t : ℤ) :
    disputes.find (idAt settlementId (freeTime disputes settlementId n t)) = none ∨
      (freeTime disputes settlementId n t = t + n ∧
        ∀ i < n, disputes.find (idAt settlementId (t + i)) ≠ none) := by
  induction n generalizing t with
  | zero => exact Or.inr ⟨by simp [freeTime], fun i hi => absurd hi (Nat.not_lt_zero i)⟩
  | succ n ih =>
    rw [freeTime]
    split
    · next htaken =>
      refine (ih (t + 1)).imp_right fun ⟨hlast, htries⟩ => ⟨by rw [hlast]; push_cast; ring, ?_⟩
      intro i hi
      cases i with
      | zero => simpa [Option.isSome_iff_ne_none] using htaken
      | succ i =>
        have h := htries i (Nat.lt_of_succ_lt_succ hi)
        rwa [add_assoc, add_comm (1 : ℤ), ← Nat.cast_succ] at h
    · next hfree => exact Or.inl (by simpa using hfree)

/-- **A new dispute has an id of its own**: there are fewer disputes than ids to try. -/
theorem find_freeTime (t : ℤ) : disputes.find
    (idAt settlementId (freeTime disputes settlementId disputes.docs.length t)) = none := by
  rcases freeTime_spec disputes.docs.length t with hfree | ⟨hlast, htries⟩
  · exact hfree
  by_contra htaken
  rw [hlast] at htaken
  -- otherwise one id more is taken than there are disputes
  have htries : ∀ i ∈ List.range (disputes.docs.length + 1),
      disputes.find (idAt settlementId (t + (i : ℤ))) ≠ none := by
    intro i hi
    rcases Nat.lt_succ_iff_lt_or_eq.mp (List.mem_range.mp hi) with hi | rfl
    · exact htries i hi
    · exact htaken
  let ids := (List.range (disputes.docs.length + 1)).map fun i : ℕ => idAt settlementId (t + i)
  have hnodup : ids.Nodup := List.nodup_range.map fun i j he => by simpa using idAt_inj he
  have hsub : ids ⊆ disputes.docs.map (·.disputeId) := by
    intro id hid
    obtain ⟨i, hi, rfl⟩ := List.mem_map.mp hid
    exact not_not.mp fun hnot => htries i hi (Collection.find_eq_none_iff.mpr hnot)
  have hlength := (hnodup.subperm hsub).length_le
  simp [ids] at hlength

end Ids

/-! ## Runs -/

section Runs

/-- The id that a request gives to a new dispute. -/
def createdId (disputes : Store) : Input → Option String
  | .create body now =>
    match createDispute cfg disputes body now with
    | .ok (response, _) => some response.disputeId
    | .error _ => none
  | .vote .. => none

/-- The ids of the disputes that a history creates. -/
def created (h : List (Store × Input)) : List String :=
  h.filterMap fun t => createdId cfg t.1 t.2

/-- The same dispute, later. -/
structure Follows (later earlier : DisputeRecord) : Prop where
  disputeId : later.disputeId = earlier.disputeId
  settlementId : later.settlementId = earlier.settlementId
  claimantAddress : later.claimantAddress = earlier.claimantAddress
  reason : later.reason = earlier.reason
  createdAt : later.createdAt = earlier.createdAt
  votes : earlier.votes <+: later.votes
  /-- A dispute that is resolved stays as it is. -/
  resolved : earlier.outcome ≠ none → later = earlier

theorem Follows.refl (d : DisputeRecord) : Follows d d :=
  ⟨rfl, rfl, rfl, rfl, rfl, List.prefix_rfl, fun _ => rfl⟩

theorem Follows.trans {d₁ d₂ d₃ : DisputeRecord} (h₁ : Follows d₁ d₂) (h₂ : Follows d₂ d₃) :
    Follows d₁ d₃ where
  disputeId := h₁.disputeId.trans h₂.disputeId
  settlementId := h₁.settlementId.trans h₂.settlementId
  claimantAddress := h₁.claimantAddress.trans h₂.claimantAddress
  reason := h₁.reason.trans h₂.reason
  createdAt := h₁.createdAt.trans h₂.createdAt
  votes := h₂.votes.trans h₁.votes
  resolved := by
    intro hresolved
    have he := h₂.resolved hresolved
    rw [← he] at hresolved ⊢
    exact h₁.resolved hresolved

theorem follows_castVote {threshold : Number} {x : DisputeVote} {now : ℤ} {d : DisputeRecord}
    (hopen : d.outcome = none) : Follows (castVote threshold x now d) d := by
  refine ⟨disputeId_castVote .., ?_, ?_, ?_, ?_, ?_, fun h => absurd hopen h⟩
  on_goal 5 => rw [votes_castVote]; exact List.prefix_append ..
  all_goals rw [castVote]; cases x.vote <;> dsimp only <;> (repeat' split) <;> rfl

/-- The disputes after a history: they are the ones that were created, in this order and under ids
of their own, their tallies are right, and each one that there was before is still there. -/
structure Sound (h : List (Store × Input)) (disputes : Store) : Prop where
  stored : disputes.docs.map (·.disputeId) = created cfg h
  distinct : (created cfg h).Nodup
  tallied : ∀ d ∈ disputes.docs, Tallied cfg.threshold d
  kept : ∀ t ∈ h, ∀ d ∈ t.1.docs, ∃ d' ∈ disputes.docs, Follows d' d

/-- A vote that is accepted is added without rounding. -/
def AddsExactly (disputes : Store) : Input → Prop
  | .create .. => True
  | .vote disputeId body _ _ => ∀ d ∈ disputes.find disputeId, d.outcome = none →
      body.signerAddress ∉ d.votes.map (·.signer) → Exact d body.vote body.weight

variable {cfg} {disputes : Store} {h : List (Store × Input)} {i : Input}

/-- The vote of a signer who has not voted on an open dispute is accepted. -/
theorem step_vote {d : DisputeRecord} {disputeId : String} {body : VoteBody}
    {votedAt resolvedAt : ℤ} (hd : disputes.find disputeId = some d) (hopen : d.outcome = none)
    (hnew : body.signerAddress ∉ d.votes.map (·.signer)) :
    step cfg disputes (.vote disputeId body votedAt resolvedAt) =
      disputes.updateOne disputeId (castVote cfg.threshold
        ⟨body.signerAddress, body.vote, body.weight, newDate votedAt⟩ resolvedAt)
        (disputeId_castVote _ _ _) := by
  have hvoted : ¬ (d.votes.any fun x => x.signer = body.signerAddress) = true := by
    simpa using hnew
  rw [step, vote, hd]
  dsimp only
  rw [if_neg (not_not.mpr hopen), if_neg hvoted]

/-- **What a request does**: nothing, or it adds a new dispute under a free id, or it casts the vote
of a signer who has not voted on an open dispute. -/
theorem step_cases (cfg : Config) (disputes : Store) (i : Input) :
    (step cfg disputes i = disputes ∧ createdId cfg disputes i = none ∧
        AddsExactly disputes i) ∨
      (∃ body t, disputes.find (newDispute body t).disputeId = none ∧
        (step cfg disputes i).docs = disputes.docs ++ [newDispute body t] ∧
        createdId cfg disputes i = some (newDispute body t).disputeId ∧ AddsExactly disputes i) ∨
      ∃ d x now, disputes.find d.disputeId = some d ∧ d.outcome = none ∧
        x.signer ∉ d.votes.map (·.signer) ∧
        step cfg disputes i = disputes.updateOne d.disputeId (castVote cfg.threshold x now)
          (disputeId_castVote _ _ _) ∧
        createdId cfg disputes i = none ∧
        (AddsExactly disputes i ↔ Exact d x.vote x.weight) := by
  cases i with
  | create body now =>
    rw [step, createdId, createDispute]
    cases requireEnv cfg ["SETTLEMENT_CONTRACT_ID", "SIGNER_SECRET_KEY"] with
    | error e => exact Or.inl ⟨rfl, rfl, trivial⟩
    | ok u =>
      have hfree : disputes.find (newDispute body
          (freeTime disputes body.settlementId disputes.docs.length now)).disputeId = none :=
        find_freeTime now
      exact Or.inr (Or.inl ⟨body, _, hfree, Collection.docs_replaceOne hfree, rfl, trivial⟩)
  | vote disputeId body votedAt resolvedAt =>
    cases hd : disputes.find disputeId with
    | none =>
      refine Or.inl ⟨?_, rfl, fun d hfind => by rw [hd] at hfind; cases hfind⟩
      rw [step, vote, hd]
    | some d =>
      have hid := Collection.key_of_find hd
      have hexact : AddsExactly disputes (.vote disputeId body votedAt resolvedAt) ↔
          (d.outcome = none → body.signerAddress ∉ d.votes.map (·.signer) →
            Exact d body.vote body.weight) := by
        simp [AddsExactly, hd]
      by_cases hopen : d.outcome = none
      · by_cases hnew : body.signerAddress ∈ d.votes.map (·.signer)
        · refine Or.inl ⟨?_, rfl, hexact.mpr fun _ h => absurd hnew h⟩
          rw [step, vote, hd]
          dsimp only
          rw [if_neg (not_not.mpr hopen), if_pos (by simpa using hnew)]
        · refine Or.inr (Or.inr ⟨d, ⟨body.signerAddress, body.vote, body.weight, newDate votedAt⟩,
            resolvedAt, by rw [hid, hd], hopen, hnew, ?_, rfl, ?_⟩)
          · rw [step_vote hd hopen hnew, hid]
          · rw [hexact]
            exact ⟨fun he => he hopen hnew, fun he _ _ => he⟩
      · refine Or.inl ⟨?_, rfl, hexact.mpr fun h => absurd h hopen⟩
        rw [step, vote, hd]
        dsimp only
        rw [if_pos hopen]

theorem tallied_newDispute {threshold : Number} (hpositive : ∀ t ∈ threshold, 0 < t)
    (body : CreateDisputeBody) (t : ℤ) : Tallied threshold (newDispute body t) := by
  have hweight : ∀ side, (newDispute body t).weight side = some 0 := by
    intro side
    cases side <;> rfl
  have hreached : reaches (some 0) threshold = false := by
    cases threshold with
    | none => rfl
    | some q => simpa [reaches] using hpositive q rfl
  refine ⟨List.nodup_nil, ?_, ?_, ?_, iff_of_true rfl rfl⟩
  · intro side
    rw [hweight]
    simp [newDispute, sumFor]
  · intro side
    rw [hweight, hreached]
    simp [newDispute]
  · intro side hside
    simp [newDispute] at hside

theorem created_snoc : created cfg (h ++ [(disputes, i)]) =
    created cfg h ++ (createdId cfg disputes i).toList := by
  cases hi : createdId cfg disputes i <;> simp [created, hi]

/-- A request that changes nothing keeps the disputes sound. -/
theorem Sound.unchanged (hs : Sound cfg h disputes) (hcreated : createdId cfg disputes i = none) :
    Sound cfg (h ++ [(disputes, i)]) disputes := by
  have he : created cfg (h ++ [(disputes, i)]) = created cfg h := by
    simp [created_snoc, hcreated]
  refine ⟨hs.stored.trans he.symm, he ▸ hs.distinct, hs.tallied, fun t ht d hd => ?_⟩
  rcases List.mem_append.mp ht with ht | ht
  · exact hs.kept t ht d hd
  · obtain rfl := List.mem_singleton.mp ht
    exact ⟨d, hd, Follows.refl d⟩

/-- A new dispute. -/
theorem Sound.add (hpositive : ∀ t ∈ cfg.threshold, 0 < t) (hs : Sound cfg h disputes)
    {disputes' : Store} {body : CreateDisputeBody} {t : ℤ}
    (hdocs : disputes'.docs = disputes.docs ++ [newDispute body t])
    (hcreated : createdId cfg disputes i = some (newDispute body t).disputeId) :
    Sound cfg (h ++ [(disputes, i)]) disputes' := by
  have he : disputes'.docs.map (·.disputeId) = created cfg (h ++ [(disputes, i)]) := by
    rw [hdocs, List.map_append, hs.stored, created_snoc, hcreated]
    rfl
  refine ⟨he, he ▸ disputes'.unique, fun d hd => ?_, fun t ht d hd => ?_⟩
  · rw [hdocs] at hd
    rcases List.mem_append.mp hd with hd | hd
    · exact hs.tallied d hd
    · exact List.mem_singleton.mp hd ▸ tallied_newDispute hpositive body t
  · rw [hdocs]
    rcases List.mem_append.mp ht with ht | ht
    · obtain ⟨d', hd', hfollows⟩ := hs.kept t ht d hd
      exact ⟨d', List.mem_append_left _ hd', hfollows⟩
    · obtain rfl := List.mem_singleton.mp ht
      exact ⟨d, List.mem_append_left _ hd, Follows.refl d⟩

/-- A vote that is added without rounding. -/
theorem Sound.cast (hs : Sound cfg h disputes) {d : DisputeRecord} {x : DisputeVote} {now : ℤ}
    (hfind : disputes.find d.disputeId = some d) (hopen : d.outcome = none)
    (hnew : x.signer ∉ d.votes.map (·.signer)) (hcreated : createdId cfg disputes i = none)
    (hexact : Exact d x.vote x.weight) :
    Sound cfg (h ++ [(disputes, i)]) (disputes.updateOne d.disputeId
      (castVote cfg.threshold x now) (disputeId_castVote _ _ _)) := by
  have hmem : ∀ e ∈ disputes.docs, e.disputeId = d.disputeId → e = d := by
    intro e he hid
    have hfind' := Collection.find_of_mem he
    rw [hid, hfind] at hfind'
    exact (Option.some.inj hfind').symm
  -- each dispute is the one it was, or follows it by the vote
  have hstep : ∀ e ∈ disputes.docs, ∃ e' ∈ (disputes.updateOne d.disputeId
      (castVote cfg.threshold x now) (disputeId_castVote _ _ _)).docs, Follows e' e := by
    intro e he
    refine ⟨_, List.mem_map_of_mem he, ?_⟩
    split
    · next hid => exact follows_castVote (hmem e he hid ▸ hopen)
    · exact Follows.refl e
  refine ⟨?_, ?_, fun e he => ?_, fun t ht e he => ?_⟩
  · rw [created_snoc, hcreated, Option.toList_none, List.append_nil, ← hs.stored]
    exact Collection.map_key_update _ (fun e => e.disputeId = d.disputeId)
      (disputeId_castVote cfg.threshold x now)
  · rw [created_snoc, hcreated, Option.toList_none, List.append_nil]
    exact hs.distinct
  · obtain ⟨e, hmem', rfl⟩ := List.mem_map.mp he
    split
    · next hid =>
      obtain rfl := hmem e hmem' hid
      exact (tallied_castVote_iff (hs.tallied e hmem') hopen hnew).mpr hexact
    · exact hs.tallied e hmem'
  · rcases List.mem_append.mp ht with ht | ht
    · obtain ⟨e₁, he₁, hfollows₁⟩ := hs.kept t ht e he
      obtain ⟨e₂, he₂, hfollows₂⟩ := hstep e₁ he₁
      exact ⟨e₂, he₂, hfollows₂.trans hfollows₁⟩
    · obtain rfl := List.mem_singleton.mp ht
      exact hstep e he

theorem Sound.step (hpositive : ∀ t ∈ cfg.threshold, 0 < t) (hs : Sound cfg h disputes)
    (hi : AddsExactly disputes i) : Sound cfg (h ++ [(disputes, i)]) (step cfg disputes i) := by
  rcases step_cases cfg disputes i with ⟨hstep, hcreated, -⟩ |
    ⟨body, t, -, hdocs, hcreated, -⟩ |
    ⟨d, x, now, hfind, hopen, hnew, hstep, hcreated, hexact⟩
  · rw [hstep]
    exact hs.unchanged hcreated
  · exact hs.add hpositive hdocs hcreated
  · rw [hstep]
    exact hs.cast hfind hopen hnew hcreated (hexact.mp hi)

/-- Where the disputes are still sound after a request, it was added without rounding. -/
theorem Sound.addsExactly (hs : Sound cfg h disputes)
    (hs' : Sound cfg (h ++ [(disputes, i)]) (Disputes.step cfg disputes i)) :
    AddsExactly disputes i := by
  rcases step_cases cfg disputes i with ⟨-, -, hi⟩ | ⟨body, t, -, -, -, hi⟩ |
    ⟨d, x, now, hfind, hopen, hnew, hstep, -, hexact⟩
  · exact hi
  · exact hi
  · rw [hstep] at hs'
    have hd := Collection.mem_of_find hfind
    have htallied := hs'.tallied _ (List.mem_map_of_mem hd)
    rw [if_pos rfl] at htallied
    exact hexact.mpr ((tallied_castVote_iff (hs.tallied d hd) hopen hnew).mp htallied)

end Runs

/-- **The disputes are sound throughout exactly the runs** in which every vote that is accepted is
added without rounding. -/
theorem sound_iff (cfg : Config) (hpositive : ∀ t ∈ cfg.threshold, 0 < t) (is : List Input) :
    Always (step cfg) (Sound cfg) Collection.empty is ↔
      Each (step cfg) (fun _ => AddsExactly) Collection.empty is :=
  always_iff_each (I := Sound cfg) ⟨rfl, List.nodup_nil, fun _ hd => absurd hd List.not_mem_nil,
    fun _ ht => absurd ht List.not_mem_nil⟩ (fun _ _ hs => hs) (fun _ _ _ hs => hs.step hpositive)
    (fun _ _ _ hs => hs.addsExactly) is

/-! ## A run that rounds -/

section Rounds

/-- A configuration in which everything is set. -/
def configured (threshold : ℚ) : Config := ⟨some threshold, fun _ => some "set"⟩

def raised : CreateDisputeBody := ⟨"GCLAIMANT", "5", none⟩

/-- A dispute is raised, and two signers vote for the claimant, the second one with the greatest
weight that is admitted. -/
def raise : Input := .create raised 0

def light : Input := .vote (idAt "5" 0) ⟨"GLIGHT", .resolvedClaimant, 2, by decide, by decide⟩ 1 1

def heavy : Input :=
  .vote (idAt "5" 0) ⟨"GHEAVY", .resolvedClaimant, 2 ^ 53 - 1, by decide, by decide⟩ 2 2

/-- The dispute after the first vote. -/
def voted (threshold : ℚ) : DisputeRecord :=
  castVote (some threshold) ⟨"GLIGHT", .resolvedClaimant, 2, newDate 1⟩ 1 (newDispute raised 0)

variable {threshold : ℚ}

theorem docs_raise : (step (configured threshold) Collection.empty raise).docs =
    [newDispute raised 0] := by
  have henv : requireEnv (configured threshold) ["SETTLEMENT_CONTRACT_ID", "SIGNER_SECRET_KEY"] =
      .ok () := by
    have hpresent : ∀ name, present ((configured threshold).env name) = some "set" := fun _ => rfl
    have hblank : ("set".toList.all isSpace) = false := by decide
    rw [requireEnv, if_neg (by simp [hpresent]), if_neg]
    rw [configured, Option.getD_some, hblank]
    decide
  rw [raise, step, createDispute, henv]
  exact Collection.docs_replaceOne rfl

theorem find_raise : (step (configured threshold) Collection.empty raise).find (idAt "5" 0) =
    some (newDispute raised 0) := by
  rw [Collection.find, docs_raise]
  exact List.find?_cons_of_pos (decide_eq_true rfl)

theorem exact_light : Exact (newDispute raised 0) .resolvedClaimant 2 := by
  have hzero : (newDispute raised 0).weight .resolvedClaimant = some ((0 : ℕ) : ℚ) := by
    simp [DisputeRecord.weight, newDispute]
  exact exact_of_safe hzero (by decide)

theorem weight_voted : (voted threshold).weight .resolvedClaimant = some 2 := by
  rw [voted, weight_castVote, if_pos rfl, exact_light]
  simp [DisputeRecord.weight, newDispute]

/-- The weights add up to the first integer that is no double. -/
theorem not_exact_heavy : ¬ Exact (voted threshold) .resolvedClaimant (2 ^ 53 - 1) := by
  intro hexact
  have hsum : (2 : ℚ) + ((2 ^ 53 - 1 : ℕ) : ℚ) = 2 ^ 53 + 1 := by norm_num
  rw [Exact, weight_voted] at hexact
  have hdouble : double (2 + ((2 ^ 53 - 1 : ℕ) : ℚ)) = some (2 + ((2 ^ 53 - 1 : ℕ) : ℚ)) := hexact
  rw [hsum, double_succ] at hdouble
  norm_num at hdouble

theorem addsExactly_light : AddsExactly
    (step (configured threshold) Collection.empty raise) light := by
  intro d hd
  rw [find_raise] at hd
  obtain rfl := Option.some.inj hd
  exact fun _ _ => exact_light

theorem find_light :
    (step (configured threshold) (step (configured threshold) Collection.empty raise) light).find
      (idAt "5" 0) = some (voted threshold) := by
  rw [light, step_vote find_raise rfl List.not_mem_nil, Collection.find_updateOne, if_pos rfl,
    find_raise]
  rfl

/-- The dispute is still open after the first vote, if the threshold is not reached. -/
theorem outcome_voted (hthreshold : 2 < threshold) : (voted threshold).outcome = none := by
  have hpositive : ∀ t ∈ some threshold, 0 < t := by
    intro t ht
    rw [← Option.some.inj ht]
    linarith
  have hreached : ¬ reaches (some 2) (some threshold) = true := by
    simpa [reaches] using hthreshold
  have hweight : (voted threshold).weight .resolvedClaimant = some 2 := weight_voted
  rw [voted, weight_castVote, if_pos rfl] at hweight
  rw [voted, outcome_castVote (tallied_newDispute hpositive raised 0) rfl, hweight, if_neg hreached]

end Rounds

theorem sound_light : Always (step (configured 2)) (Sound (configured 2)) Collection.empty
    [raise, light] := by
  have hlight : AddsExactly (step (configured 2) Collection.empty raise) light := addsExactly_light
  refine (sound_iff (configured 2) (by simp [configured]) [raise, light]).mpr ?_
  rw [each_iff_transitions]
  simp only [transitions, List.forall_mem_cons]
  exact ⟨trivial, hlight, by simp⟩

/-- The second vote is accepted, and one of its weight is lost. -/
theorem not_sound_heavy : ¬ ∀ cfg : Config, (∀ t ∈ cfg.threshold, 0 < t) → ∀ is : List Input,
    Always (step cfg) (Sound cfg) Collection.empty is := by
  intro h
  have hsound := h (configured 3) (by simp [configured]) [raise, light, heavy]
  have hlight := hsound [raise, light] (List.prefix_append [raise, light] [heavy])
  have hfind : (step (configured 3) (step (configured 3) Collection.empty raise) light).find
      (idAt "5" 0) = some (voted 3) := find_light
  refine not_exact_heavy (hlight.addsExactly hsound.at_end (voted 3) hfind ?_ ?_)
  · exact outcome_voted (by norm_num)
  · rw [voted, votes_castVote]
    decide

end Http.Disputes
