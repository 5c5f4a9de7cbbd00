import AutoQuantTrader.Contracts

/-!
# The broker request budget

A permit reserves one request in a rolling window of an account.  It is issued against the permits
that may still be used within a window of the new one: those whose expiry is not yet a whole window
past.  Each purpose has its own ceiling on how many there may be, submissions the lowest.
-/

namespace AutoQuantTrader

open Result

/-! ## Checks -/

/-- `_require_text`, which bounds the length and refuses control characters. -/
def requireVisibleText (maximum : Nat) (value fieldName : Str) : Py Unit := do
  requireText value fieldName
  raiseIf (maximum < value.chars.length ∨ ∃ c ∈ value.chars, c.toNat < 32 ∨ c.toNat = 127)
    (fieldName ++ " contains unsupported text")

/-- The pattern of an idempotency key: 8 to 128 safe characters, the first alphanumeric. -/
def isSafeKey (key : Str) : Bool :=
  let inner (c : Char) : Bool := c.isAlphanum || c == '.' || c == '_' || c == ':' || c == '-'
  key.chars.head?.any Char.isAlphanum && key.chars.all inner &&
    8 ≤ key.chars.length && key.chars.length ≤ 128

/-- An aware `datetime` moved by a `timedelta`; what leaves the years 1 to 9999 overflows. -/
def shiftInstant (t : Instant) (duration : Int) (message : Str) : Py Instant := do
  raiseIf (t + duration < -62135596800000000 ∨ 253402300800000000 ≤ t + duration) message
  return t + duration

@[simp] theorem shiftInstant_eq_ok :
    shiftInstant t duration message = .ok t' ↔
      (-62135596800000000 ≤ t + duration ∧ t + duration < 253402300800000000) ∧
        t + duration = t' := by
  simp [shiftInstant]

/-! ## Contracts -/

/-- Broker-call purposes, in conservative capacity tiers. -/
inductive BrokerRequestPurpose where
  | submission | unknownLookup | cancel | reconciliation
deriving DecidableEq

def BrokerRequestPurpose.value : BrokerRequestPurpose → Str
  | .submission => "submission"
  | .unknownLookup => "unknown_lookup"
  | .cancel => "cancel"
  | .reconciliation => "reconciliation"

def maxActivePermits : Int := 100000

def maxDurationSeconds : Int := 2 ^ 63 - 1

/-- Durations are in microseconds, like instants. -/
structure BrokerRequestBudgetPolicyFields where
  (policyId policyVersion providerId environment : Str)
  (windowDuration permitTtl submissionCapacity recoveryCapacity totalCapacity : Int)
deriving DecidableEq

def requireDuration (duration : Int) (fieldName : Str) : Py Unit := do
  raiseIf (duration ≤ 0) (fieldName ++ " must be a positive exact timedelta")
  raiseIf (duration % 1000000 ≠ 0) (fieldName ++ " must use exact whole-second precision")
  raiseIf (maxDurationSeconds < duration / 1000000)
    (fieldName ++ " exceeds signed BIGINT second storage")

def requireCapacity (capacity : Int) (fieldName : Str) : Py Unit := do
  raiseIf (capacity ≤ 0) (fieldName ++ " must be a positive exact integer")
  raiseIf (maxActivePermits < capacity) (fieldName ++ " exceeds the bounded active-permit limit")

def BrokerRequestBudgetPolicyFields.postInit (p : BrokerRequestBudgetPolicyFields) : Py Unit := do
  requireVisibleText 128 p.policyId "budget policy ID"
  requireVisibleText 128 p.policyVersion "budget policy version"
  requireVisibleText 128 p.providerId "budget provider ID"
  requireVisibleText 32 p.environment "budget environment"
  requireDuration p.windowDuration "window_duration"
  requireDuration p.permitTtl "permit_ttl"
  raiseIf (p.windowDuration < p.permitTtl) "permit_ttl cannot exceed window_duration"
  requireCapacity p.submissionCapacity "submission_capacity"
  requireCapacity p.recoveryCapacity "recovery_capacity"
  requireCapacity p.totalCapacity "total_capacity"
  raiseIf (¬ (p.submissionCapacity < p.recoveryCapacity ∧ p.recoveryCapacity < p.totalCapacity))
    "capacity tiers must satisfy submission_capacity < recovery_capacity < total_capacity"

abbrev BrokerRequestBudgetPolicy := Checked BrokerRequestBudgetPolicyFields.postInit

/-- The ceiling on active permits that is reserved for a purpose. -/
def BrokerRequestBudgetPolicyFields.capacityFor (p : BrokerRequestBudgetPolicyFields) :
    BrokerRequestPurpose → Int
  | .submission => p.submissionCapacity
  | .unknownLookup => p.recoveryCapacity
  | .cancel => p.totalCapacity
  | .reconciliation => p.totalCapacity

/-- What the checks of a policy say about its windows and tiers. -/
theorem BrokerRequestBudgetPolicy.spec (policy : BrokerRequestBudgetPolicy) :
    0 < policy.val.windowDuration ∧ 0 < policy.val.permitTtl ∧ 0 < policy.val.submissionCapacity ∧
      policy.val.submissionCapacity < policy.val.recoveryCapacity ∧
      policy.val.recoveryCapacity < policy.val.totalCapacity := by
  have h := policy.passes
  simp only [BrokerRequestBudgetPolicyFields.postInit, requireDuration, requireCapacity, Py.eq_ok,
    not_le] at h
  obtain ⟨_, -, _, -, _, -, _, -, _, ⟨_, hwindow, -⟩, _, ⟨_, httl, -⟩, _, -, _,
    ⟨_, hsubmission, -⟩, _, -, _, -, hrecovery, htotal⟩ := h
  exact ⟨hwindow, httl, hsubmission, hrecovery, htotal⟩

theorem BrokerRequestBudgetPolicy.capacityFor_le_total (policy : BrokerRequestBudgetPolicy)
    (purpose : BrokerRequestPurpose) :
    policy.val.capacityFor purpose ≤ policy.val.totalCapacity := by
  have h := policy.spec
  cases purpose <;> simp only [BrokerRequestBudgetPolicyFields.capacityFor] <;> omega

/-- One desired broker request. -/
structure BrokerRequestDemandFields where
  (accountId idempotencyKey operation : Str)
  purpose : BrokerRequestPurpose
  correlationSha256 : Str
  requestedAt : Instant
deriving DecidableEq

def BrokerRequestDemandFields.postInit (d : BrokerRequestDemandFields) : Py Unit := do
  requireVisibleText 64 d.accountId "demand account ID"
  raiseIf (¬ isSafeKey d.idempotencyKey)
    "demand idempotency key must contain 8-128 safe visible characters"
  requireVisibleText 128 d.operation "demand operation"

abbrev BrokerRequestDemand := Checked BrokerRequestDemandFields.postInit

/-- A short-lived budget allocation. -/
structure BrokerRequestPermitFields where
  accountId : Str
  purpose : BrokerRequestPurpose
  (demandId demandSha256 policySha256 : Str)
  sequenceNumber : Nat
  previousPermitSha256 : Option Str
  (issuedAt expiresAt : Instant)
deriving DecidableEq

def BrokerRequestPermitFields.postInit (p : BrokerRequestPermitFields) : Py Unit := do
  requireVisibleText 64 p.accountId "permit account ID"
  raiseIf (p.sequenceNumber = 0) "permit sequence_number must be a positive exact integer"
  raiseIf (p.sequenceNumber = 1 ∧ p.previousPermitSha256 ≠ none)
    "first account permit cannot have a predecessor"
  raiseIf (p.sequenceNumber ≠ 1 ∧ p.previousPermitSha256 = none)
    "subsequent account permit requires a predecessor"
  raiseIf (p.expiresAt ≤ p.issuedAt) "permit expiry must follow issuance"

abbrev BrokerRequestPermit := Checked BrokerRequestPermitFields.postInit

/-- Whether the permit is usable at a trusted instant. -/
def BrokerRequestPermitFields.isFresh (p : BrokerRequestPermitFields) (checkedAt : Instant) :
    Prop :=
  p.issuedAt ≤ checkedAt ∧ checkedAt < p.expiresAt

/-- The identifiers and digests of the budget records. -/
structure BudgetHashes where
  policy : BrokerRequestBudgetPolicy → Str
  demand : BrokerRequestDemand → Str
  demandId : Str → Str → Str
  permit : BrokerRequestPermit → Str

def BudgetHashes.plain : BudgetHashes where
  policy p := plainId "policy" [.text p.val.policyId, .text p.val.policyVersion]
  demand d := plainId "demand" [.text d.val.accountId, .text d.val.idempotencyKey]
  demandId accountId key := plainId "demand_identity" [.text accountId, .text key]
  permit p := plainId "permit" [.text p.val.demandId, .integer p.val.sequenceNumber]

/-! ## Issuing a permit -/

variable (H : BudgetHashes)

/-- `_require_policy_bound_expiry`. -/
def requirePolicyBoundExpiry (permit : BrokerRequestPermit) (policy : BrokerRequestBudgetPolicy) :
    Py Unit := do
  let expected ← shiftInstant permit.val.issuedAt policy.val.permitTtl
    "permit expiry exceeds supported datetime bounds"
  raiseIf (permit.val.expiresAt ≠ expected)
    "permit expiry does not bind the exact budget policy TTL"

variable (policy : BrokerRequestBudgetPolicy) (demand : BrokerRequestDemand) (issuedAt : Instant)
  (active : List BrokerRequestPermit) (previous : Option BrokerRequestPermit)
  (previousPolicy : Option BrokerRequestBudgetPolicy)

/-- An active permit is of the account and the policy, and within the horizon. -/
def checkActivePermit (issuedAt lowerBound : Instant) (permit : BrokerRequestPermit) : Py Unit := do
  raiseIf (permit.val.accountId ≠ demand.val.accountId)
    "active permit history must be account-local"
  raiseIf (permit.val.policySha256 ≠ H.policy policy)
    "a budget policy cannot change while its rolling history is active"
  requirePolicyBoundExpiry permit policy
  raiseIf (permit.val.expiresAt < lowerBound ∨ issuedAt < permit.val.issuedAt)
    "active permit history falls outside the conservative accounting horizon"

/-- Neighbours of the active history follow each other. -/
def checkSuccessor (earlier later : BrokerRequestPermit) : Py Unit := do
  raiseIf (later.val.sequenceNumber ≠ earlier.val.sequenceNumber + 1)
    "active permit history must be a contiguous account-local suffix"
  raiseIf (later.val.previousPermitSha256 ≠ some (H.permit earlier))
    "active permit history has a conflicting predecessor"

/-- Under the same policy the active history ends at the latest permit. -/
def checkLatest (lowerBound : Instant) (active : List BrokerRequestPermit)
    (previous : BrokerRequestPermit) : Py Unit :=
  match active.getLast? with
  | some last =>
    raiseIf (last ≠ previous) "active permit history must end at the latest account permit"
  | none =>
    raiseIf (lowerBound ≤ previous.val.expiresAt)
      "the conservative accounting horizon cannot omit its latest active permit"

/-- The latest permit of the account and its policy fit the new permit. -/
def checkPrevious (issuedAt lowerBound : Instant) (active : List BrokerRequestPermit)
    (previous : BrokerRequestPermit) (previousPolicy : BrokerRequestBudgetPolicy) : Py Unit := do
  raiseIf (previous.val.accountId ≠ demand.val.accountId) "previous permit must be account-local"
  raiseIf (previous.val.policySha256 ≠ H.policy previousPolicy)
    "previous policy does not bind the latest account permit"
  requirePolicyBoundExpiry previous previousPolicy
  raiseIf (issuedAt < previous.val.issuedAt) "previous permit cannot be issued in the future"
  raiseIf (previous.val.demandId = H.demandId demand.val.accountId demand.val.idempotencyKey)
    "a demand cannot receive more than one permit"
  if H.policy previousPolicy ≠ H.policy policy then do
    raiseIf (active ≠ []) "policy rotation requires an empty rolling history"
    raiseIf (previousPolicy.val.providerId ≠ policy.val.providerId ∨
        previousPolicy.val.environment ≠ policy.val.environment)
      "policy rotation cannot change provider or environment"
    let drainedAt ← shiftInstant previous.val.expiresAt previousPolicy.val.windowDuration
      "previous rolling window exceeds supported datetime bounds"
    raiseIf (issuedAt ≤ drainedAt) "policy rotation requires the previous rolling window to drain"
  else checkLatest lowerBound active previous

/-- `_validate_chain`: validate a repository-supplied complete rolling-window suffix. -/
def validateChain : Py Unit := do
  raiseIf (maxActivePermits < active.length) "active permit history exceeds its bounded limit"
  let lowerBound ← shiftInstant issuedAt (-policy.val.windowDuration)
    "rolling window falls outside supported datetime bounds"
  active.forM (checkActivePermit H policy demand issuedAt lowerBound)
  let numbers := active.map (·.val.sequenceNumber)
  raiseIf (¬ numbers.Pairwise (· ≤ ·)) "active permit history must use canonical sequence order"
  raiseIf (¬ numbers.Nodup) "active permit sequence numbers must be unique"
  (active.zip active.tail).forM fun pair => checkSuccessor H pair.1 pair.2
  match previous, previousPolicy with
  | none, previousPolicy => do
    raiseIf (active ≠ []) "active permit history requires its latest predecessor"
    raiseIf (previousPolicy ≠ none) "an initial permit cannot have a previous policy"
  | some _, none =>
    throw (.valueError "an existing permit requires its exact previous policy")
  | some previous, some previousPolicy =>
    checkPrevious H policy demand issuedAt lowerBound active previous previousPolicy

/-- Why no permit is issued: the capacity is exhausted, or the request or its history is at
fault. -/
inductive BudgetFailure where
  | exhausted (message : Str)
  | raised (error : PyError)
deriving DecidableEq

/-- A check whose errors are not about capacity. -/
def checked {α : Type} : Py α → Except BudgetFailure α
  | .ok a => .ok a
  | .error e => .error (.raised e)

@[simp] theorem checked_eq_ok {α : Type} {x : Py α} {a : α} : checked x = .ok a ↔ x = .ok a := by
  cases x <;> simp [checked]

/-- Allocate one rolling-window slot from an authoritative history snapshot. -/
def issueBrokerRequestPermit : Except BudgetFailure BrokerRequestPermit := do
  checked (raiseIf (issuedAt < demand.val.requestedAt) "permit issuance cannot precede demand")
  checked (validateChain H policy demand issuedAt active previous previousPolicy)
  throwIf (policy.val.capacityFor demand.val.purpose ≤ active.length)
    (.exhausted (demand.val.purpose.value ++ " rolling request capacity is exhausted"))
  let expiresAt ← checked (shiftInstant issuedAt policy.val.permitTtl
    "permit expiry exceeds supported datetime bounds")
  checked (construct {
    accountId := demand.val.accountId
    purpose := demand.val.purpose
    demandId := H.demandId demand.val.accountId demand.val.idempotencyKey
    demandSha256 := H.demand demand
    policySha256 := H.policy policy
    sequenceNumber := previous.elim 1 (·.val.sequenceNumber + 1)
    previousPermitSha256 := previous.map H.permit
    issuedAt
    expiresAt })

end AutoQuantTrader
