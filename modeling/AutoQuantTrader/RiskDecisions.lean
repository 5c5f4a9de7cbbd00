import Mathlib.Data.Finset.Sort
import AutoQuantTrader.Order
import AutoQuantTrader.Lib.Machine
import AutoQuantTrader.Lib.Trace

/-!
# Single-use approvals

One intent at a time is evaluated against the cash that earlier approvals have left.  An approval
reserves what its order may cost, and is consumed once, for the payload it was given for.  The lock
makes the body of each call one step; what a call reads before it, its snapshot and its clock, are
arguments here, so an interleaving of callers is a sequence of calls with any readings.
-/

namespace AutoQuantTrader

open Result

/-! ## Contracts -/

inductive DecisionStatus where
  | approved | rejected
deriving DecidableEq

/-- Account capacity that the accounting projection supplies. -/
structure RiskAccountSnapshotFields where
  (accountId version : Str)
  availableCash : ℚ

def RiskAccountSnapshotFields.postInit (s : RiskAccountSnapshotFields) : Py Unit := do
  raiseIf (s.accountId = "" ∨ s.version = "")
    "risk account snapshot requires account and version IDs"
  raiseIf (s.availableCash < 0) "available cash must be finite and non-negative"
  let _ ← canonicalPersistedDecimal s.availableCash "available cash"

abbrev RiskAccountSnapshot := Checked RiskAccountSnapshotFields.postInit

structure RiskLimitsFields where
  allowedInstruments : Finset Str
  (maxOrderQuantity maxOrderNotional minimumCashBuffer : ℚ)
  estimatedFee : ℚ := 1
  approvalTtl : Int := 30000000

def RiskLimitsFields.postInit (l : RiskLimitsFields) : Py Unit := do
  raiseIf (l.allowedInstruments = ∅) "risk allow-list must be a non-empty immutable frozenset"
  raiseIf (∃ id ∈ l.allowedInstruments, ¬ isText id)
    "risk allow-list IDs must be non-empty trimmed strings"
  raiseIf (l.maxOrderQuantity ≤ 0) "max order quantity must be finite and positive"
  raiseIf (l.maxOrderNotional ≤ 0) "max order notional must be finite and positive"
  raiseIf (l.minimumCashBuffer < 0 ∨ l.estimatedFee < 0)
    "cash buffer and estimated fee must be finite and non-negative"
  raiseIf (l.approvalTtl ≤ 0) "approval TTL must be positive"
  let _ ← canonicalPersistedDecimal l.maxOrderQuantity "max_order_quantity"
  let _ ← canonicalPersistedDecimal l.maxOrderNotional "max_order_notional"
  let _ ← canonicalPersistedDecimal l.minimumCashBuffer "minimum_cash_buffer"
  let _ ← canonicalPersistedDecimal l.estimatedFee "estimated_fee"

abbrev RiskLimits := Checked RiskLimitsFields.postInit

/-- `PHASE0_REQUIRED_RISK_RULES`, by name. -/
inductive Phase0RiskRule where
  | instrumentAllowList | longOnly | quantity | notional | cashBuffer | intentFreshness
deriving DecidableEq

def phase0RequiredRiskRules : List Phase0RiskRule :=
  [.instrumentAllowList, .longOnly, .quantity, .notional, .cashBuffer, .intentFreshness]

structure Phase0RuleResult where
  rule : Phase0RiskRule
  passed : Bool
  (observed limit : Str)
deriving DecidableEq

structure RiskDecisionFields where
  (decisionId intentId intentPayloadHash : Str)
  status : DecisionStatus
  (evaluatedAt expiresAt : Instant)
  rules : List Phase0RuleResult
  reservedCash : ℚ
deriving DecidableEq

/-- The status that the rules give. -/
def phase0Status (rules : List Phase0RuleResult) : DecisionStatus :=
  if rules.all (·.passed) then .approved else .rejected

def RiskDecisionFields.postInit (d : RiskDecisionFields) : Py Unit := do
  raiseIf (d.expiresAt ≤ d.evaluatedAt) "risk decision must have a positive TTL"
  raiseIf (d.reservedCash < 0) "reserved cash must be finite and non-negative"
  let _ ← canonicalPersistedDecimal d.reservedCash "reserved cash"
  raiseIf (d.rules.map (·.rule) ≠ phase0RequiredRiskRules)
    "risk decision must contain the complete versioned rule set"
  raiseIf (d.status ≠ phase0Status d.rules) "risk decision status must agree with its rule results"
  raiseIf (d.status = .approved ∧ d.reservedCash ≤ 0)
    "approved risk decisions require a positive reservation"
  raiseIf (d.status = .rejected ∧ d.reservedCash ≠ 0) "rejected risk decisions cannot reserve cash"

abbrev RiskDecision := Checked RiskDecisionFields.postInit

/-! ## Evaluation -/

/-- The identifier and digest functions of the decisions. -/
structure RiskHashes where
  deterministicId : Str → List Str → Str
  intentPayloadHash : OrderIntent → Str

def RiskHashes.plain : RiskHashes where
  deterministicId kind parts := Str.join ":" (kind :: parts)
  intentPayloadHash := OrderHashes.plain.intentPayloadHash

variable (H : RiskHashes)

/-- The rules of the policy, each with what it saw and what it allows. -/
def phase0Rules (intent : OrderIntent) (limits : RiskLimits) (notional remainingCash : ℚ)
    (evaluatedAt : Instant) : List Phase0RuleResult :=
  [⟨.instrumentAllowList, decide (intent.val.instrumentId ∈ limits.val.allowedInstruments),
      intent.val.instrumentId, Str.join "," limits.val.allowedInstruments.sort⟩,
    ⟨.longOnly, decide (intent.val.side = .buy), intent.val.side.value, Side.buy.value⟩,
    ⟨.quantity, decide (intent.val.quantity ≤ limits.val.maxOrderQuantity),
      canonicalDecimalText intent.val.quantity, canonicalDecimalText limits.val.maxOrderQuantity⟩,
    ⟨.notional, decide (notional ≤ limits.val.maxOrderNotional),
      canonicalDecimalText notional, canonicalDecimalText limits.val.maxOrderNotional⟩,
    ⟨.cashBuffer, decide (limits.val.minimumCashBuffer ≤ remainingCash),
      canonicalDecimalText remainingCash, canonicalDecimalText limits.val.minimumCashBuffer⟩,
    ⟨.intentFreshness, decide (evaluatedAt < intent.val.expiresAt),
      isoformat evaluatedAt, isoformat intent.val.expiresAt⟩]

/-- Apply the one canonical policy to current unreserved capacity. -/
def evaluateRiskDecision (intent : OrderIntent) (limits : RiskLimits) (availableCash : ℚ)
    (evaluatedAt : Instant) : Py RiskDecision := do
  raiseIf (evaluatedAt < intent.val.createdAt) "risk evaluation cannot precede intent creation"
  raiseIf (availableCash < 0) "unreserved cash must be finite and non-negative"
  let availableCash ← canonicalPersistedDecimal availableCash "unreserved cash"
  let notional ← exactDecimalMultiply intent.val.quantity intent.val.referencePrice
  let requiredCash ← exactDecimalAdd notional limits.val.estimatedFee
  let remainingCash ← exactDecimalSubtract availableCash requiredCash
  let rules := phase0Rules intent limits notional remainingCash evaluatedAt
  let status := phase0Status rules
  construct {
    decisionId := H.deterministicId "risk-decision" [intent.val.intentId, isoformat evaluatedAt]
    intentId := intent.val.intentId
    intentPayloadHash := H.intentPayloadHash intent
    status
    evaluatedAt
    expiresAt := if status = .approved
      then min intent.val.expiresAt (evaluatedAt + limits.val.approvalTtl)
      else evaluatedAt + limits.val.approvalTtl
    rules
    reservedCash := if status = .approved then requiredCash else 0 }

/-- The contract of an executable authorization. -/
def validateConsumption (decision : RiskDecision) (intent : OrderIntent) (consumedAt : Instant) :
    Py Unit := do
  raiseIf (decision.val.intentId ≠ intent.val.intentId)
    "risk decision does not authorize this intent"
  raiseIf (decision.val.intentPayloadHash ≠ H.intentPayloadHash intent)
    "risk decision payload does not match this intent"
  raiseIf (decision.val.status ≠ .approved)
    "rejected risk decisions cannot authorize execution"
  raiseIf (consumedAt < intent.val.createdAt ∨ consumedAt < decision.val.evaluatedAt)
    "risk approval cannot be consumed before evaluation"
  raiseIf (decision.val.expiresAt ≤ consumedAt ∨ intent.val.expiresAt ≤ consumedAt)
    "risk approval has expired"

/-! ## The repository -/

/-- `InMemoryRiskDecisionRepository`.  Of an account the version of its snapshot, its capacity and
the cash reserved from it are kept. -/
structure RiskDecisionStore where
  decisions : Dict Str RiskDecision
  intentDecisions : Dict Str Str
  intentSnapshots : Dict Str (Str × Str)
  consumed : Finset Str
  snapshots : Dict Str (Str × ℚ × ℚ)

def RiskDecisionStore.empty : RiskDecisionStore := ⟨.empty, .empty, .empty, ∅, .empty⟩

abbrev RiskDecisionM := Machine RiskDecisionStore PyError

namespace RiskRepository

section decisions

variable (intent : OrderIntent) (snapshot : RiskAccountSnapshot)

/-- The capacity of the account of a snapshot and what is reserved from it. -/
def accountCapacity : RiskDecisionM (ℚ × ℚ) := do
  let s ← Machine.read
  match s.snapshots.get? snapshot.val.accountId with
  | none => return (snapshot.val.availableCash, 0)
  | some (version, capacity, reserved) => do
    refuse (version ≠ snapshot.val.version) "risk account snapshot version is stale"
    refuse (capacity ≠ snapshot.val.availableCash) "risk snapshot version changed its cash capacity"
    return (capacity, reserved)

/-- The decision that was given for the intent before. -/
def priorDecision (decisionId : Str) : RiskDecisionM RiskDecision := do
  let s ← Machine.read
  let prior ← Machine.lift (getOrThrow (s.decisions.get? decisionId) .keyError)
  refuse (prior.val.intentPayloadHash ≠ H.intentPayloadHash intent) "intent IDs are immutable"
  let taken ← Machine.lift (getOrThrow (s.intentSnapshots.get? intent.val.intentId) .keyError)
  refuse (taken ≠ (snapshot.val.accountId, snapshot.val.version))
    "risk decision belongs to a different account snapshot"
  return prior

/-- The store with one more decision, before its cash is reserved. -/
def record (decision : RiskDecision) (s : RiskDecisionStore) : RiskDecisionStore :=
  { s with
    decisions := s.decisions.set decision.val.decisionId decision
    intentDecisions := s.intentDecisions.set intent.val.intentId decision.val.decisionId
    intentSnapshots := s.intentSnapshots.set intent.val.intentId
      (snapshot.val.accountId, snapshot.val.version) }

/-- The cash reserved with a decision. -/
def reservedWith (decision : RiskDecision) (reserved : ℚ) : Py ℚ :=
  if decision.val.status = .approved then exactDecimalAdd reserved decision.val.reservedCash
  else pure reserved

/-- Publish a decision, unless its identity is taken. -/
def publish (capacity reserved : ℚ) (decision : RiskDecision) : RiskDecisionM RiskDecision := do
  let s ← Machine.read
  match s.decisions.get? decision.val.decisionId with
  | some existing => do
    refuse (existing ≠ decision) "risk decision IDs are immutable"
    return existing
  | none => do
    Machine.modify (record intent snapshot decision)
    let reserved ← Machine.lift (reservedWith decision reserved)
    Machine.modify fun s => { s with
      snapshots := s.snapshots.set snapshot.val.accountId
        (snapshot.val.version, capacity, reserved) }
    return decision

end decisions

/-- The decision on an intent: the one it was given before, or a new one. -/
def authorize (limits : RiskLimits) (intent : OrderIntent) (snapshot : RiskAccountSnapshot)
    (evaluatedAt : Instant) : RiskDecisionM RiskDecision := do
  let (capacity, reserved) ← accountCapacity snapshot
  let s ← Machine.read
  match s.intentDecisions.get? intent.val.intentId with
  | some decisionId => priorDecision H intent snapshot decisionId
  | none => do
    let unreserved ← Machine.lift (exactDecimalSubtract capacity reserved)
    let decision ← Machine.lift (evaluateRiskDecision H intent limits unreserved evaluatedAt)
    publish intent snapshot capacity reserved decision

def consume (decisionId : Str) (intent : OrderIntent) (consumedAt : Instant) :
    RiskDecisionM Instant := do
  let s ← Machine.read
  let decision ← Machine.lift (getOrThrow (s.decisions.get? decisionId)
    (.valueError "execution requires a persisted risk decision"))
  Machine.lift (validateConsumption H decision intent consumedAt)
  refuse (decisionId ∈ s.consumed) "risk approval has already been consumed"
  Machine.modify fun s => { s with consumed := insert decisionId s.consumed }
  return consumedAt

end RiskRepository

/-! ## Calls -/

/-- What a caller can ask for, with the readings its call takes. -/
inductive RiskCall where
  | authorize (intent : OrderIntent) (snapshot : RiskAccountSnapshot) (evaluatedAt : Instant)
  | consume (decisionId : Str) (intent : OrderIntent) (consumedAt : Instant)

/-- What a caller is told. -/
inductive RiskAnswer where
  | decided (decision : RiskDecision)
  | consumedAt (instant : Instant)

def RiskCall.run (limits : RiskLimits) : RiskCall → RiskDecisionM RiskAnswer
  | .authorize intent snapshot evaluatedAt => do
    let decision ← RiskRepository.authorize H limits intent snapshot evaluatedAt
    return .decided decision
  | .consume decisionId intent consumedAt => do
    let instant ← RiskRepository.consume H decisionId intent consumedAt
    return .consumedAt instant

/-- A call and how it was answered. -/
structure RiskEvent where
  call : RiskCall
  answer : Except PyError RiskAnswer

/-- One call of some caller. -/
def RiskStep (limits : RiskLimits) (s : RiskDecisionStore) (event : RiskEvent)
    (s' : RiskDecisionStore) : Prop :=
  event.call.run H limits s = (event.answer, s')

end AutoQuantTrader
