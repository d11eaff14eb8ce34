import Comebackhere.Library.Retry
import Comebackhere.Offchain.InvoiceDecoders

/-!
# Failover between the RPC endpoints of the Rust backend

A request is posted to one endpoint after another until one has answered it. An endpoint is tried up
to four times, and given up for the next one after an error of the HTTP client. Such errors are also
those of an answer that is no JSON, and an endpoint that has answered with 503 is given up if the
last attempt does not reach it. The request then goes to another endpoint though this one has
answered it.

What an endpoint does at an attempt is a parameter, and so is the text of a status.

## Main definitions

* `isTransient`, `isTransportError`: the classification of errors
* `withRetry`, `rpcPostTo`: the attempts at one endpoint
* `rpcPost`: the sends to all endpoints, and the result
* `NeverResubmitted`: what has been answered is not sent to another endpoint
* `GivenUp`: the attempts after which the request goes to the next endpoint

## Main results

* `withRetry_eq`: which attempts are made, as the waits between them never exceed their budget
* `neverResubmitted_iff`: when no answered request is sent to another endpoint
-/

namespace RpcFailover

open Retry Offchain

/-! ## Errors -/

/-- An error of the HTTP client: the endpoint was not reached or did not answer in time, or its
answer is not what was expected. -/
structure ReqwestError where
  text : String
  isTimeout : Bool
  isConnect : Bool
  isRequest : Bool
  status : Option ℕ

inductive RpcError
  | reqwest (err : ReqwestError)
  | message (text : String)

def RpcError.text : RpcError → String
  | .reqwest err => err.text
  | .message text => text

def contains (text word : String) : Bool := decide (word.toList <:+: text.toList)

def isServerError (status : ℕ) : Bool := 500 ≤ status && status < 600

/-- Never retry contract-level or application-logic errors. -/
def applicationWords : List String :=
  ["NOT_FOUND", "UNAUTHORIZED", "NOT_PAID", "Empty RPC result"]

/-- Never retry expired or bad sequence number errors. -/
def sequenceWords : List String :=
  ["tx_bad_seq", "bad_seq", "bad sequence", "BAD_SEQ", "EXPIRED_SEQ", "expired sequence"]

def transientWords : List String :=
  ["5xx", "500", "502", "503", "504", "connection", "timeout", "reset", "timed out", "broken pipe"]

/-- The error is likely transient and worth retrying. -/
def isTransient (err : RpcError) : Bool :=
  if applicationWords.any (contains err.text) then false
  else if sequenceWords.any (contains err.text) then false
  else
    match err with
    | .reqwest e =>
      e.isTimeout || e.isConnect || e.isRequest || (e.status.map isServerError).getD false
    | .message text => transientWords.any (contains text)

/-- The failure is one of the HTTP client. -/
def isTransportError : RpcError → Bool
  | .reqwest _ => true
  | .message _ => false

/-! ## Attempts at one endpoint -/

/-- How many times an attempt is repeated. -/
def maxRetries : ℕ := 3

def initialBackoffMs : ℕ := 200

def maxTotalBackoffMs : ℕ := 30000

/-- The attempts from one on, with those that remain, the next wait and the wait so far: how many
have been made in all, and the result of the last one. -/
def retryFrom {α : Type} (op : ℕ → Except RpcError α) : ℕ → ℕ → ℕ → ℕ → ℕ × Except RpcError α
  | 0, attempt, _, _ => (attempt + 1, op attempt)
  | remaining + 1, attempt, delayMs, totalWaitedMs =>
    match op attempt with
    | .ok val => (attempt + 1, .ok val)
    | .error err =>
      if isTransient err = false ∨ maxTotalBackoffMs < totalWaitedMs + delayMs then
        (attempt + 1, .error err)
      else
        let totalWaitedMs := totalWaitedMs + delayMs
        retryFrom op remaining (attempt + 1)
          (min (delayMs * 2) (maxTotalBackoffMs - totalWaitedMs + 1)) totalWaitedMs

/-- Repeat an operation as long as its error is transient. -/
def withRetry {α : Type} (op : ℕ → Except RpcError α) : ℕ × Except RpcError α :=
  retryFrom op maxRetries 0 initialBackoffMs 0

structure RpcResponse where
  result : Option Json
  error : Option Json

/-- What an endpoint does at an attempt: no answer comes from it, or one with a status and a body,
which is read as JSON. -/
inductive Behaviour
  | unreachable (err : ReqwestError)
  | response (status : ℕ) (body : Except ReqwestError RpcResponse)

/-- An HTTP response comes from the endpoint. -/
def Behaviour.Answered : Behaviour → Prop
  | .response .. => True
  | .unreachable _ => False

/-- The result of an attempt. A body of a server error is not read. -/
def Behaviour.result (statusText : ℕ → String) : Behaviour → Except RpcError RpcResponse
  | .unreachable err => .error (.reqwest err)
  | .response status body =>
    if isServerError status then .error (.message ("RPC node returned HTTP " ++ statusText status))
    else
      match body with
      | .error err => .error (.reqwest err)
      | .ok rpcResp => .ok rpcResp

def rpcPostTo (statusText : ℕ → String) (behave : ℕ → Behaviour) :
    ℕ × Except RpcError RpcResponse :=
  withRetry fun attempt => (behave attempt).result statusText

/-! ## All endpoints -/

structure SorobanClient where
  rpcUrl : String
  fallbackUrls : List String

def SorobanClient.rpcEndpoints (client : SorobanClient) : List String :=
  client.rpcUrl :: client.fallbackUrls

/-- The request is posted to the endpoint of this position, which does something. -/
structure Send where
  endpoint : ℕ
  url : String
  behaviour : Behaviour

/-- The attempts at the endpoint of a position. -/
def sends (behave : ℕ → ℕ → Behaviour) (endpoint : ℕ) (url : String) (attempts : ℕ) : List Send :=
  (List.range attempts).map fun attempt => ⟨endpoint, url, behave endpoint attempt⟩

/-- The endpoints from a position on, with the last error. -/
def rpcPostFrom (statusText : ℕ → String) (behave : ℕ → ℕ → Behaviour) :
    List String → ℕ → Option RpcError → List Send × Except RpcError RpcResponse
  | [], _, lastErr => ([], .error (lastErr.getD (.message "no Soroban RPC endpoint configured")))
  | url :: urls, endpoint, _ =>
    let (attempts, result) := rpcPostTo statusText (behave endpoint)
    match result with
    | .ok response => (sends behave endpoint url attempts, .ok response)
    | .error err =>
      if isTransportError err = false then (sends behave endpoint url attempts, .error err)
      else
        let (later, result) := rpcPostFrom statusText behave urls (endpoint + 1) (some err)
        (sends behave endpoint url attempts ++ later, result)

/-- What is sent when a request is posted, and the result. -/
def rpcPost (statusText : ℕ → String) (client : SorobanClient) (behave : ℕ → ℕ → Behaviour) :
    List Send × Except RpcError RpcResponse :=
  rpcPostFrom statusText behave client.rpcEndpoints 0 none

/-- A request that an endpoint has answered is not sent to another one. -/
def NeverResubmitted (trace : List Send) : Prop :=
  trace.Pairwise fun send later => send.behaviour.Answered → later.endpoint = send.endpoint

/-- The attempt `n` at an endpoint is the last one, and fails with an error of the HTTP client. -/
def GivenUp (statusText : ℕ → String) (behave : ℕ → Behaviour) (n : ℕ) : Prop :=
  Final isTransient maxRetries (fun attempt => (behave attempt).result statusText) n ∧
    ∃ err, (behave n).result statusText = .error err ∧ isTransportError err

/-! ## Attempts -/

section Attempts

variable {α : Type} {op : ℕ → Except RpcError α} {remaining attempt delayMs totalWaitedMs : ℕ}

/-- The waits between the attempts that remain are within the budget. -/
def Affordable : ℕ → ℕ → ℕ → Prop
  | 0, _, _ => True
  | remaining + 1, delayMs, totalWaitedMs =>
    totalWaitedMs + delayMs ≤ maxTotalBackoffMs ∧
      Affordable remaining (min (delayMs * 2) (maxTotalBackoffMs - (totalWaitedMs + delayMs) + 1))
        (totalWaitedMs + delayMs)

theorem affordable_start : Affordable maxRetries initialBackoffMs 0 :=
  ⟨by decide, by decide, by decide, trivial⟩

theorem retryFrom_eq (hbefore : ∀ k < attempt, Failing isTransient (op k))
    (hbudget : Affordable remaining delayMs totalWaitedMs) :
    ∃ n, Final isTransient (attempt + remaining) op n ∧
      retryFrom op remaining attempt delayMs totalWaitedMs = (n + 1, op n) := by
  induction remaining generalizing attempt delayMs totalWaitedMs with
  | zero => exact ⟨attempt, ⟨le_rfl, hbefore, fun _ => rfl⟩, rfl⟩
  | succ remaining ih =>
    obtain ⟨hdelay, hbudget⟩ := hbudget
    rw [retryFrom]
    cases hop : op attempt with
    | ok val =>
      refine ⟨attempt, ⟨Nat.le_add_right .., hbefore, ?_⟩, by rw [hop]⟩
      rintro ⟨err, herr, -⟩
      rw [hop] at herr
      cases herr
    | error err =>
      by_cases htransient : isTransient err = true
      · -- the budget allows for the wait, and the attempt is repeated
        have hnot : ¬(isTransient err = false ∨ maxTotalBackoffMs < totalWaitedMs + delayMs) := by
          rw [htransient]
          rintro (h | h)
          · cases h
          · omega
        have hbefore' : ∀ k < attempt + 1, Failing isTransient (op k) := by
          intro k hk
          rcases Nat.lt_succ_iff_lt_or_eq.mp hk with hk | rfl
          · exact hbefore k hk
          · exact ⟨err, hop, htransient⟩
        obtain ⟨n, hfinal, heq⟩ := ih hbefore' hbudget
        refine ⟨n, ?_, ?_⟩
        · rwa [Nat.add_right_comm, Nat.add_assoc] at hfinal
        · simp only [if_neg hnot]
          exact heq
      · refine ⟨attempt, ⟨Nat.le_add_right .., hbefore, ?_⟩, ?_⟩
        · rintro ⟨err', herr, hagain⟩
          rw [hop] at herr
          cases herr
          exact absurd hagain htransient
        · simp only [Bool.not_eq_true] at htransient
          simp only [htransient, true_or, if_true, hop]

/-- **The attempts that are made**: an attempt is repeated after a transient error, up to three
times. -/
theorem withRetry_eq (op : ℕ → Except RpcError α) :
    ∃ n, Final isTransient maxRetries op n ∧ withRetry op = (n + 1, op n) := by
  have hbefore : ∀ k < 0, Failing isTransient (op k) := fun k hk => absurd hk (Nat.not_lt_zero k)
  obtain ⟨n, hfinal, heq⟩ := retryFrom_eq hbefore affordable_start
  rw [Nat.zero_add] at hfinal
  exact ⟨n, hfinal, heq⟩

end Attempts

/-! ## Failover -/

section Failover

variable {statusText : ℕ → String} {behave : ℕ → ℕ → Behaviour} {urls : List String} {url : String}
  {endpoint n : ℕ} {lastErr : Option RpcError} {later : List Send}

theorem mem_sends {attempts : ℕ} {send : Send} : send ∈ sends behave endpoint url attempts ↔
    ∃ attempt < attempts, send = ⟨endpoint, url, behave endpoint attempt⟩ := by
  simp only [sends, List.mem_map, List.mem_range, eq_comm]

theorem endpoint_of_mem_sends {attempts : ℕ} {send : Send}
    (h : send ∈ sends behave endpoint url attempts) : send.endpoint = endpoint := by
  obtain ⟨attempt, -, rfl⟩ := mem_sends.mp h
  rfl

/-- **What is sent to an endpoint** and those behind it. -/
theorem rpcPostFrom_cons (statusText : ℕ → String) (behave : ℕ → ℕ → Behaviour) (url : String)
    (urls : List String) (endpoint : ℕ) (lastErr : Option RpcError) : ∃ n,
    Final isTransient maxRetries (fun k => (behave endpoint k).result statusText) n ∧
    ((¬GivenUp statusText (behave endpoint) n ∧
        (rpcPostFrom statusText behave (url :: urls) endpoint lastErr).1 =
          sends behave endpoint url (n + 1)) ∨
      (GivenUp statusText (behave endpoint) n ∧ ∃ err,
        (rpcPostFrom statusText behave (url :: urls) endpoint lastErr).1 =
          sends behave endpoint url (n + 1) ++
            (rpcPostFrom statusText behave urls (endpoint + 1) (some err)).1)) := by
  obtain ⟨n, hfinal, heq⟩ := withRetry_eq fun k => (behave endpoint k).result statusText
  refine ⟨n, hfinal, ?_⟩
  have hpost : rpcPostTo statusText (behave endpoint) =
      (n + 1, (behave endpoint n).result statusText) := heq
  rw [rpcPostFrom, hpost]
  -- Only an error of the HTTP client leads to the next endpoint.
  cases hresult : (behave endpoint n).result statusText with
  | ok response =>
    refine Or.inl ⟨?_, rfl⟩
    rintro ⟨-, err, herr, -⟩
    rw [hresult] at herr
    cases herr
  | error err =>
    cases htransport : isTransportError err with
    | true =>
      refine Or.inr ⟨⟨hfinal, err, hresult, htransport⟩, err, ?_⟩
      simp only [htransport, Bool.true_eq_false, if_false]
    | false =>
      refine Or.inl ⟨?_, ?_⟩
      · rintro ⟨-, err', herr, htransport'⟩
        rw [hresult] at herr
        cases herr
        rw [htransport] at htransport'
        cases htransport'
      · simp only [htransport, if_true]

/-- Nothing is sent to the endpoints before. -/
theorem le_endpoint {send : Send}
    (h : send ∈ (rpcPostFrom statusText behave urls endpoint lastErr).1) :
    endpoint ≤ send.endpoint := by
  induction urls generalizing endpoint lastErr with
  | nil => cases h
  | cons url urls ih =>
    obtain ⟨n, -, ⟨-, heq⟩ | ⟨-, err, heq⟩⟩ :=
      rpcPostFrom_cons statusText behave url urls endpoint lastErr
    · rw [heq] at h
      exact (endpoint_of_mem_sends h).ge
    · rw [heq] at h
      rcases List.mem_append.mp h with h | h
      · exact (endpoint_of_mem_sends h).ge
      · exact Nat.le_of_succ_le (ih h)

/-- Something is sent to the first endpoint. -/
theorem exists_mem_rpcPostFrom :
    ∃ send, send ∈ (rpcPostFrom statusText behave (url :: urls) endpoint lastErr).1 := by
  have hmem : ∀ n, (⟨endpoint, url, behave endpoint 0⟩ : Send) ∈
      sends behave endpoint url (n + 1) := fun n => mem_sends.mpr ⟨0, Nat.succ_pos n, rfl⟩
  obtain ⟨n, -, ⟨-, heq⟩ | ⟨-, err, heq⟩⟩ :=
    rpcPostFrom_cons statusText behave url urls endpoint lastErr
  · exact ⟨_, heq ▸ hmem n⟩
  · exact ⟨_, heq ▸ List.mem_append_left _ (hmem n)⟩

theorem neverResubmitted_sends {attempts : ℕ} :
    NeverResubmitted (sends behave endpoint url attempts) :=
  List.pairwise_of_forall_mem_list fun _ hsend _ hlater _ =>
    (endpoint_of_mem_sends hlater).trans (endpoint_of_mem_sends hsend).symm

/-- The request goes on to other endpoints after the attempts at one. -/
theorem neverResubmitted_append (hother : ∀ send ∈ later, endpoint < send.endpoint)
    (hsome : ∃ send, send ∈ later) :
    NeverResubmitted (sends behave endpoint url (n + 1) ++ later) ↔
      (∀ k ≤ n, ¬(behave endpoint k).Answered) ∧ NeverResubmitted later := by
  rw [NeverResubmitted, List.pairwise_append, ← NeverResubmitted, ← NeverResubmitted,
    and_iff_right neverResubmitted_sends, and_comm]
  apply and_congr_left'
  constructor
  · intro h k hk hanswered
    obtain ⟨send, hsend⟩ := hsome
    have heq := h ⟨endpoint, url, behave endpoint k⟩ (mem_sends.mpr ⟨k, Nat.lt_succ_of_le hk, rfl⟩)
      send hsend hanswered
    exact absurd heq (hother send hsend).ne'
  · intro h send hsend other _ hanswered
    obtain ⟨k, hk, rfl⟩ := mem_sends.mp hsend
    exact absurd hanswered (h k (Nat.le_of_lt_succ hk))

/-- When no answered request goes from one endpoint to another, from a position on. -/
theorem neverResubmitted_rpcPostFrom :
    NeverResubmitted (rpcPostFrom statusText behave urls endpoint lastErr).1 ↔
      ∀ i, i + 1 < urls.length → (∀ j < i, ∃ n, GivenUp statusText (behave (endpoint + j)) n) →
        ∀ n, GivenUp statusText (behave (endpoint + i)) n →
          ∀ k ≤ n, ¬(behave (endpoint + i) k).Answered := by
  induction urls generalizing endpoint lastErr with
  | nil => exact iff_of_true List.Pairwise.nil fun i hi => absurd hi (Nat.not_lt_zero _)
  | cons url urls ih =>
    obtain ⟨n, hfinal, ⟨hstays, heq⟩ | ⟨hgiven, err, heq⟩⟩ :=
      rpcPostFrom_cons statusText behave url urls endpoint lastErr
    · -- the endpoint is not given up, and those behind it are not tried
      have hnot : ∀ n, ¬GivenUp statusText (behave endpoint) n :=
        fun n' hgiven => hstays (hfinal.unique hgiven.1 ▸ hgiven)
      rw [heq]
      refine iff_of_true neverResubmitted_sends fun i _ hbefore n' hgiven => ?_
      cases i with
      | zero => exact absurd hgiven (hnot n')
      | succ i =>
        obtain ⟨n', hgiven⟩ := hbefore 0 (Nat.succ_pos i)
        exact absurd hgiven (hnot n')
    · rw [heq]
      -- behind the last endpoint there is none that the request could go to
      cases urls with
      | nil =>
        rw [show (rpcPostFrom statusText behave [] (endpoint + 1) (some err)).1 = [] from rfl,
          List.append_nil]
        refine iff_of_true neverResubmitted_sends fun i hi => ?_
        exact absurd hi (Nat.not_lt.mpr (Nat.le_add_left ..))
      | cons url' urls =>
        rw [neverResubmitted_append (fun _ hsend => le_endpoint hsend) exists_mem_rpcPostFrom, ih]
        constructor
        · rintro ⟨hfirst, hrest⟩ i hi hbefore n' hgiven'
          cases i with
          | zero =>
            obtain rfl := hfinal.unique hgiven'.1
            exact hfirst
          | succ i =>
            rw [← Nat.succ_add_eq_add_succ] at hgiven' ⊢
            refine hrest i (Nat.lt_of_succ_lt_succ hi) (fun j hj => ?_) n' hgiven'
            have hj := hbefore (j + 1) (Nat.succ_lt_succ hj)
            rwa [← Nat.succ_add_eq_add_succ] at hj
        · intro h
          refine ⟨h 0 (Nat.succ_lt_succ (Nat.succ_pos _))
            (fun j hj => absurd hj (Nat.not_lt_zero j)) n hgiven, ?_⟩
          intro i hi hbefore n' hgiven'
          have hi' := h (i + 1) (Nat.succ_lt_succ hi)
          rw [← Nat.succ_add_eq_add_succ endpoint i] at hi'
          refine hi' (fun j hj => ?_) n' hgiven'
          cases j with
          | zero => exact ⟨n, hgiven⟩
          | succ j =>
            rw [← Nat.succ_add_eq_add_succ]
            exact hbefore j (Nat.lt_of_succ_lt_succ hj)

end Failover

/-- **No answered request is sent to another endpoint** exactly if no endpoint but the last that is
given up has answered at an attempt before. -/
theorem neverResubmitted_iff (statusText : ℕ → String) (client : SorobanClient)
    (behave : ℕ → ℕ → Behaviour) :
    NeverResubmitted (rpcPost statusText client behave).1 ↔
      ∀ endpoint < client.fallbackUrls.length,
        (∀ earlier < endpoint, ∃ n, GivenUp statusText (behave earlier) n) →
          ∀ n, GivenUp statusText (behave endpoint) n →
            ∀ attempt ≤ n, ¬(behave endpoint attempt).Answered := by
  rw [rpcPost, neverResubmitted_rpcPostFrom]
  simp only [Nat.zero_add, SorobanClient.rpcEndpoints, List.length_cons, Nat.add_lt_add_iff_right]

/-- An answer that is no JSON. -/
def notJson : ReqwestError := ⟨"error decoding response body", false, false, false, none⟩

def twoEndpoints : SorobanClient := ⟨"https://primary.example", ["https://fallback.example"]⟩

/-- The primary endpoint takes the request, and its answer is lost on the way. -/
def answeredBadly : ℕ → ℕ → Behaviour
  | 0, _ => .response 200 (.error notJson)
  | _, _ => .response 200 (.ok ⟨none, none⟩)

theorem not_neverResubmitted :
    ¬ ∀ (statusText : ℕ → String) (client : SorobanClient) (behave : ℕ → ℕ → Behaviour),
      NeverResubmitted (rpcPost statusText client behave).1 := by
  intro h
  have htrace : (rpcPost toString twoEndpoints answeredBadly).1 =
      [⟨0, "https://primary.example", .response 200 (.error notJson)⟩,
        ⟨1, "https://fallback.example", .response 200 (.ok ⟨none, none⟩)⟩] := rfl
  have hnever := h toString twoEndpoints answeredBadly
  rw [htrace] at hnever
  have hsame : 1 = 0 := List.rel_of_pairwise_cons hnever (List.mem_singleton_self _) trivial
  cases hsame

end RpcFailover
