import Mathlib.Data.Finset.Sort
import AutoQuantTrader.AccountProjection
import AutoQuantTrader.IntentBatch

/-!
# The records of batch risk

A decision approves a whole batch of intents or none of it.  An approval carries one authorization
for each intent and a reservation of all that they hold back; the reservations that are still open
are charged against every later decision as its active capacity.
-/

namespace AutoQuantTrader

open Result Sorting

/-! ## Sessions and limits -/

inductive BatchRiskOperationalState where
  | running | paused | halted
deriving DecidableEq

def BatchRiskOperationalState.value : BatchRiskOperationalState → Str
  | .running => "running"
  | .paused => "paused"
  | .halted => "halted"

inductive BatchRiskSessionKind where
  | regular | halfDay

inductive BatchRiskDecisionStatus where
  | approved | rejected | noAction
deriving DecidableEq

/-- `_persisted_decimal`. -/
def persistedDecimal (value : ℚ) (fieldName : Str) (positive : Bool) : Py ℚ := do
  raiseIf (value < 0 ∨ (positive ∧ value = 0))
    (fieldName ++ " must be " ++ if positive then "positive" else "non-negative")
  canonicalPersistedDecimal value fieldName

theorem persistedDecimal_eq_ok :
    persistedDecimal value fieldName positive = .ok r ↔
      (0 ≤ value ∧ (positive → value ≠ 0)) ∧ isPersisted value ∧ value = r := by
  simp [persistedDecimal]

structure BatchRiskSessionFields where
  (calendarId calendarVersion calendarSha256 venue : Str)
  sessionLabel : Day
  (opensAt closesAt : Instant)
  kind : BatchRiskSessionKind := .regular

def BatchRiskSessionFields.postInit (s : BatchRiskSessionFields) : Py Unit := do
  requireText s.calendarId "calendar_id"
  requireText s.calendarVersion "calendar_version"
  requireText s.venue "venue"
  raiseIf (¬ isUppercase s.venue) "venue must use its canonical uppercase form"
  raiseIf (s.closesAt ≤ s.opensAt) "closes_at must follow opens_at"

abbrev BatchRiskSession := Checked BatchRiskSessionFields.postInit

def BatchRiskSessionFields.contains (s : BatchRiskSessionFields) (instant : Instant) : Prop :=
  s.opensAt ≤ instant ∧ instant < s.closesAt

instance (s : BatchRiskSessionFields) (instant : Instant) : Decidable (s.contains instant) :=
  inferInstanceAs (Decidable (_ ∧ _))

structure BatchRiskLimitsFields where
  (policyId policyVersion : Str)
  allowedInstruments : Finset Str
  (maxOrderQuantity maxOrderNotional maxBatchNotional maxInstrumentGrossExposure
    maxAccountGrossExposure minimumCashBuffer : ℚ)
  estimatedFixedFee : ℚ := 1
  estimatedFeePerShare : ℚ := 0
  marketOrderPriceBufferPerShare : ℚ := 0
  maxSnapshotAge : Int := 300000000
  maxPriceAge : Int := 300000000
  approvalTtl : Int := 30000000
  maxDailyOrderCount : Int := 100
  maxOpenOrderCount : Int := 20

/-- Durations are in microseconds. -/
def BatchRiskLimitsFields.postInit (l : BatchRiskLimitsFields) : Py Unit := do
  requireText l.policyId "policy_id"
  requireText l.policyVersion "policy_version"
  raiseIf (l.allowedInstruments = ∅) "allowed_instruments must be a non-empty frozenset"
  raiseIf (∃ id ∈ l.allowedInstruments, ¬ isText id)
    "allowed instrument ID must be a non-empty, trimmed string"
  let _ ← persistedDecimal l.maxOrderQuantity "max_order_quantity" true
  let _ ← persistedDecimal l.maxOrderNotional "max_order_notional" true
  let _ ← persistedDecimal l.maxBatchNotional "max_batch_notional" true
  let _ ← persistedDecimal l.maxInstrumentGrossExposure "max_instrument_gross_exposure" true
  let _ ← persistedDecimal l.maxAccountGrossExposure "max_account_gross_exposure" true
  let _ ← persistedDecimal l.minimumCashBuffer "minimum_cash_buffer" false
  let _ ← persistedDecimal l.estimatedFixedFee "estimated_fixed_fee" false
  let _ ← persistedDecimal l.estimatedFeePerShare "estimated_fee_per_share" false
  let _ ← persistedDecimal l.marketOrderPriceBufferPerShare "market_order_price_buffer_per_share"
    false
  raiseIf (l.maxSnapshotAge ≤ 0) "max_snapshot_age must be a positive exact timedelta"
  raiseIf (l.maxPriceAge ≤ 0) "max_price_age must be a positive exact timedelta"
  raiseIf (l.approvalTtl ≤ 0) "approval_ttl must be a positive exact timedelta"
  raiseIf (l.maxDailyOrderCount < 0) "max_daily_order_count must be a non-negative integer"
  raiseIf (l.maxOpenOrderCount < 0) "max_open_order_count must be a non-negative integer"

abbrev BatchRiskLimits := Checked BatchRiskLimitsFields.postInit

/-! ## Authorizations and reservations -/

/-- The check the batch records make of a currency. -/
def requireBatchCurrency (value subject : Str) : Py Unit :=
  raiseIf (¬ isCurrencyCode value) (subject ++ " currency must be three-letter uppercase")

/-- The right to execute one intent.  Its status, which can only be approved, is left out. -/
structure BatchRiskAuthorizationFields where
  (decisionId parentDecisionId reservationId intentBatchId intentBatchSha256 snapshotSha256
    policySha256 sessionSha256 currency intentId intentPayloadHash : Str)
  (evaluatedAt expiresAt : Instant)
  (instrumentId symbol : Str)
  side : Side
  (quantity referencePrice : ℚ)
  (snapshotAsOf referenceEventTime : Instant)
  (maximumExecutionPrice maximumFee maximumCashRequirement reservedCash reservedSellQuantity
    reservedBuyExposure : ℚ)
deriving DecidableEq

/-- The identity of the reservation of a decision. -/
def reservationIdOf (H : CanonicalId) (decisionId : Str) : Str :=
  H "batch-risk-reservation" [.text decisionId]

/-- The identity of the authorization of an intent. -/
def authorizationIdOf (H : CanonicalId) (decisionId intentId : Str) : Str :=
  H "batch-risk-authorization" [.text decisionId, .text intentId]

/-- What a side holds back of an exposure. -/
def heldBuyExposure (side : Side) (quantity price : ℚ) : Py ℚ :=
  if side = .buy then exactDecimalMultiply quantity price else return 0

/-- The shares a side holds back. -/
def heldSellQuantity (side : Side) (quantity : ℚ) : ℚ := if side = .sell then quantity else 0

def BatchRiskAuthorizationFields.postInit (H : CanonicalId) (a : BatchRiskAuthorizationFields) :
    Py Unit := do
  requireText a.decisionId "authorization ID"
  requireText a.parentDecisionId "parent decision ID"
  requireText a.reservationId "reservation ID"
  requireText a.intentBatchId "intent batch ID"
  requireText a.intentId "intent ID"
  requireText a.instrumentId "instrument ID"
  requireText a.symbol "symbol"
  requireText a.currency "currency"
  raiseIf (a.reservationId ≠ reservationIdOf H a.parentDecisionId)
    "authorization reservation ID is not canonically derived"
  raiseIf (a.decisionId ≠ authorizationIdOf H a.parentDecisionId a.intentId)
    "authorization ID is not canonically derived"
  raiseIf (¬ isUppercase a.symbol) "authorization symbol must be canonical uppercase"
  requireBatchCurrency a.currency "authorization"
  raiseIf (a.expiresAt ≤ a.evaluatedAt) "authorization expiry must follow evaluation"
  let _ ← persistedDecimal a.quantity "authorization quantity" true
  raiseIf (¬ isWhole a.quantity) "authorization quantity must be a whole number of shares"
  let _ ← persistedDecimal a.referencePrice "authorization reference_price" true
  let _ ← persistedDecimal a.maximumExecutionPrice "authorization maximum_execution_price" true
  let _ ← persistedDecimal a.maximumFee "authorization maximum_fee" false
  let _ ← persistedDecimal a.maximumCashRequirement "authorization maximum_cash_requirement" false
  let _ ← persistedDecimal a.reservedCash "authorization reserved_cash" false
  let _ ← persistedDecimal a.reservedSellQuantity "authorization reserved_sell_quantity" false
  let _ ← persistedDecimal a.reservedBuyExposure "authorization reserved_buy_exposure" false
  let expectedBuyExposure ← heldBuyExposure a.side a.quantity a.maximumExecutionPrice
  let expectedCash ← exactDecimalAdd expectedBuyExposure a.maximumFee
  raiseIf (a.maximumExecutionPrice < a.referencePrice)
    "maximum execution price cannot be below reference price"
  raiseIf (a.reservedBuyExposure ≠ expectedBuyExposure)
    "buy exposure reservation does not match its authorization"
  raiseIf (a.reservedSellQuantity ≠ heldSellQuantity a.side a.quantity)
    "sell reservation does not match its authorization"
  raiseIf (a.maximumCashRequirement ≠ expectedCash ∨ a.reservedCash ≠ expectedCash)
    "cash reservation does not match its authorization"

abbrev BatchRiskAuthorization (H : CanonicalId) := Checked (BatchRiskAuthorizationFields.postInit H)

/-- The indivisible cash, shares and buy exposure that a batch holds back. -/
structure BatchRiskReservationFields (H : CanonicalId) where
  (reservationId parentDecisionId intentBatchId intentBatchSha256 snapshotSha256 policySha256
    currency : Str)
  authorizations : List (BatchRiskAuthorization H)
  (reservedCash reservedBuyExposure : ℚ)
deriving DecidableEq

def BatchRiskReservationFields.postInit {H : CanonicalId} (r : BatchRiskReservationFields H) :
    Py Unit := do
  requireText r.reservationId "reservation ID"
  requireText r.parentDecisionId "parent decision ID"
  requireText r.intentBatchId "intent batch ID"
  requireText r.currency "currency"
  raiseIf (r.reservationId ≠ reservationIdOf H r.parentDecisionId)
    "reservation ID is not canonically derived"
  requireBatchCurrency r.currency "reservation"
  raiseIf (r.authorizations = []) "an approved reservation requires child authorizations"
  raiseIf (r.authorizations.map (·.val.instrumentId) ≠
      sortedUnique (r.authorizations.map (·.val.instrumentId)))
    "reservation authorizations must be unique and sorted"
  raiseIf (∃ a ∈ r.authorizations, a.val.reservationId ≠ r.reservationId ∨
      a.val.parentDecisionId ≠ r.parentDecisionId ∨ a.val.intentBatchId ≠ r.intentBatchId ∨
      a.val.intentBatchSha256 ≠ r.intentBatchSha256 ∨ a.val.snapshotSha256 ≠ r.snapshotSha256 ∨
      a.val.policySha256 ≠ r.policySha256 ∨ a.val.currency ≠ r.currency)
    "reservation child bindings disagree with their parent"
  let expectedCash ← exactDecimalSum (r.authorizations.map (·.val.reservedCash))
  let expectedExposure ← exactDecimalSum (r.authorizations.map (·.val.reservedBuyExposure))
  let _ ← persistedDecimal r.reservedCash "reservation reserved_cash" false
  let _ ← persistedDecimal r.reservedBuyExposure "reservation reserved_buy_exposure" false
  raiseIf (r.reservedCash ≠ expectedCash ∨ r.reservedBuyExposure ≠ expectedExposure)
    "reservation totals do not match their child holds"

abbrev BatchRiskReservation (H : CanonicalId) :=
    Checked (BatchRiskReservationFields.postInit (H := H))

/-! ## Active capacity -/

inductive ActiveCapacityReservationState where
  | active | partiallyReleased | frozen
deriving DecidableEq

/-- What one authorization still holds back. -/
structure ActiveCapacityAuthorizationFields where
  (authorizationId authorizationSha256 intentId instrumentId : Str)
  side : Side
  (reservedCash reservedSellQuantity reservedBuyExposure remainingCash remainingSellQuantity
    remainingBuyExposure : ℚ)
deriving DecidableEq

/-- The checks that depend on the side. -/
def ActiveCapacityAuthorizationFields.checkSide (a : ActiveCapacityAuthorizationFields) : Py Unit :=
  match a.side with
  | .buy => do
    raiseIf (a.reservedSellQuantity ≠ 0 ∨ a.remainingSellQuantity ≠ 0)
      "active buy authorization cannot reserve sell shares"
    raiseIf (a.reservedBuyExposure ≤ 0) "active buy authorization requires buy exposure"
    raiseIf (a.reservedCash < a.reservedBuyExposure)
      "active buy reserved cash cannot be below buy exposure"
    raiseIf (a.remainingCash < a.remainingBuyExposure)
      "active buy cash cannot be below its buy exposure"
  | .sell => do
    raiseIf (a.reservedBuyExposure ≠ 0 ∨ a.remainingBuyExposure ≠ 0)
      "active sell authorization cannot reserve buy exposure"
    raiseIf (a.reservedSellQuantity ≤ 0)
      "active sell authorization requires reserved sell shares"

def ActiveCapacityAuthorizationFields.postInit (a : ActiveCapacityAuthorizationFields) :
    Py Unit := do
  requireText a.authorizationId "active authorization ID"
  requireText a.intentId "active authorization intent ID"
  requireText a.instrumentId "active authorization instrument ID"
  let _ ← persistedDecimal a.reservedCash "active authorization reserved_cash" false
  let _ ← persistedDecimal a.reservedSellQuantity "active authorization reserved_sell_quantity"
    false
  let _ ← persistedDecimal a.reservedBuyExposure "active authorization reserved_buy_exposure" false
  let _ ← persistedDecimal a.remainingCash "active authorization remaining_cash" false
  let _ ← persistedDecimal a.remainingSellQuantity "active authorization remaining_sell_quantity"
    false
  let _ ← persistedDecimal a.remainingBuyExposure "active authorization remaining_buy_exposure"
    false
  raiseIf (a.reservedCash < a.remainingCash ∨ a.reservedSellQuantity < a.remainingSellQuantity ∨
      a.reservedBuyExposure < a.remainingBuyExposure)
    "active authorization remaining hold exceeds its reservation"
  raiseIf (¬ isWhole a.reservedSellQuantity ∨ ¬ isWhole a.remainingSellQuantity)
    "active authorization sell capacity must use whole shares"
  a.checkSide
  raiseIf (¬ (0 < a.remainingCash ∨ 0 < a.remainingSellQuantity ∨ 0 < a.remainingBuyExposure))
    "active authorization must retain positive capacity"

abbrev ActiveCapacityAuthorization := Checked ActiveCapacityAuthorizationFields.postInit

/-- What one open reservation still holds back. -/
structure ActiveCapacityReservationFields where
  (reservationId reservationSha256 projectionSha256 provenanceSha256 currency : Str)
  state : ActiveCapacityReservationState
  authorizations : List ActiveCapacityAuthorization
deriving DecidableEq

def ActiveCapacityReservationFields.postInit (r : ActiveCapacityReservationFields) : Py Unit := do
  requireText r.reservationId "active reservation ID"
  requireText r.currency "active reservation currency"
  requireBatchCurrency r.currency "active reservation"
  raiseIf (r.authorizations = []) "active reservation requires remaining child capacity"
  raiseIf (r.authorizations ≠
      sortOn (fun a => toLex (a.val.instrumentId, a.val.authorizationId)) r.authorizations)
    "active reservation authorizations must be canonically ordered"
  raiseIf (¬ (r.authorizations.map (·.val.authorizationId)).Nodup)
    "active authorization IDs are not unique"
  raiseIf (¬ (r.authorizations.map (·.val.intentId)).Nodup) "active intent IDs are not unique"

abbrev ActiveCapacityReservation := Checked ActiveCapacityReservationFields.postInit

def ActiveCapacityReservationFields.remainingCash (r : ActiveCapacityReservationFields) : Py ℚ :=
  exactDecimalSum (r.authorizations.map (·.val.remainingCash))

/-- Every hold that is charged against a decision. -/
structure ActiveCapacityUniverseFields where
  accountId : Str
  reservations : List ActiveCapacityReservation

def ActiveCapacityUniverseFields.authorizations (u : ActiveCapacityUniverseFields) :
    List ActiveCapacityAuthorization :=
  u.reservations.flatMap (·.val.authorizations)

def ActiveCapacityUniverseFields.postInit (u : ActiveCapacityUniverseFields) : Py Unit := do
  requireText u.accountId "active capacity account ID"
  raiseIf (u.reservations ≠ sortOn (·.val.reservationId) u.reservations)
    "active capacity reservations must be canonically ordered"
  raiseIf (¬ (u.reservations.map (·.val.reservationId)).Nodup)
    "active reservation IDs are not unique"
  raiseIf (¬ (u.authorizations.map (·.val.authorizationId)).Nodup)
    "active authorization IDs are not unique"
  raiseIf (¬ (u.authorizations.map (·.val.intentId)).Nodup) "active intent IDs are not unique"

abbrev ActiveCapacityUniverse := Checked ActiveCapacityUniverseFields.postInit

/-! ## Decisions -/

/-- `BATCH_RISK_RULES`. -/
inductive BatchRiskRule where
  | operationalState | activeInstrument | instrumentAllowList | instrumentHalt | session
  | snapshotFreshness | referencePriceFreshness | intentFreshness | quantity | orderNotional
  | batchNotional | cashBuffer | sellCapacity | instrumentGrossExposure | accountGrossExposure
  | dailyOrderCount | openOrderCount
deriving DecidableEq

def BatchRiskRule.all : List BatchRiskRule :=
  [.operationalState, .activeInstrument, .instrumentAllowList, .instrumentHalt, .session,
    .snapshotFreshness, .referencePriceFreshness, .intentFreshness, .quantity, .orderNotional,
    .batchNotional, .cashBuffer, .sellCapacity, .instrumentGrossExposure, .accountGrossExposure,
    .dailyOrderCount, .openOrderCount]

structure RiskRuleResult where
  rule : BatchRiskRule
  passed : Bool
  (observed limit : Str)
deriving DecidableEq

/-- The result for one exact batch. -/
structure BatchRiskDecisionFields (H : CanonicalId) where
  (decisionId intentBatchId intentBatchSha256 accountId snapshotVersion snapshotSha256
    activeCapacitySha256 policyId policyVersion policySha256 currency : Str)
  status : BatchRiskDecisionStatus
  (evaluatedAt expiresAt : Instant)
  intentCount : Nat
  rules : List RiskRuleResult
  reservation : Option (BatchRiskReservation H)
  authorizations : List (BatchRiskAuthorization H)
deriving DecidableEq

/-- The identity of a decision. -/
def decisionIdOf (H : CanonicalId) (intentBatchId intentBatchSha256 snapshotSha256
    activeCapacitySha256 policySha256 : Str) (evaluatedAt : Instant) : Str :=
  H "batch-risk-decision" [.text intentBatchId, .text intentBatchSha256, .text snapshotSha256,
    .text activeCapacitySha256, .text policySha256, .instant evaluatedAt]

/-- The reservation of an approved decision is bound to it. -/
def BatchRiskDecisionFields.checkReservation {H : CanonicalId} (d : BatchRiskDecisionFields H)
    (r : BatchRiskReservation H) : Py Unit := do
  raiseIf (r.val.authorizations ≠ d.authorizations)
    "batch decision and reservation children disagree"
  raiseIf (r.val.parentDecisionId ≠ d.decisionId ∨ r.val.intentBatchId ≠ d.intentBatchId ∨
      r.val.intentBatchSha256 ≠ d.intentBatchSha256 ∨ r.val.snapshotSha256 ≠ d.snapshotSha256 ∨
      r.val.policySha256 ≠ d.policySha256 ∨ r.val.currency ≠ d.currency)
    "batch reservation is not bound to its decision"
  raiseIf (∃ a ∈ d.authorizations, a.val.evaluatedAt ≠ d.evaluatedAt ∨
      a.val.expiresAt ≠ d.expiresAt ∨
      a.val.decisionId ≠ authorizationIdOf H d.decisionId a.val.intentId)
    "batch child authorization binding is not canonical"

/-- The checks that depend on the status. -/
def BatchRiskDecisionFields.checkStatus {H : CanonicalId} (d : BatchRiskDecisionFields H) :
    Py Unit :=
  match d.status with
  | .noAction =>
    raiseIf (d.intentCount ≠ 0 ∨ d.rules ≠ [] ∨ d.reservation ≠ none ∨ d.authorizations ≠ [])
      "no-action decisions cannot contain rules or holds"
  | .approved => do
    raiseIf (d.intentCount = 0) "nonempty batch decisions require a positive intent count"
    raiseIf (d.rules.map (·.rule) ≠ BatchRiskRule.all)
      "batch decision must contain the complete versioned rule set"
    raiseIf (∃ rule ∈ d.rules, rule.passed = false)
      "approved batch decisions require every rule and hold"
    match d.reservation with
    | none => throw (.valueError "approved batch decisions require every rule and hold")
    | some r => do
      raiseIf (d.authorizations.length ≠ d.intentCount)
        "approved batch decisions require every rule and hold"
      d.checkReservation r
  | .rejected => do
    raiseIf (d.intentCount = 0) "nonempty batch decisions require a positive intent count"
    raiseIf (d.rules.map (·.rule) ≠ BatchRiskRule.all)
      "batch decision must contain the complete versioned rule set"
    raiseIf ((∀ rule ∈ d.rules, rule.passed = true) ∨ d.reservation ≠ none ∨ d.authorizations ≠ [])
      "rejected batch decisions cannot contain executable holds"

def BatchRiskDecisionFields.postInit {H : CanonicalId} (d : BatchRiskDecisionFields H) :
    Py Unit := do
  requireText d.decisionId "batch risk decision ID"
  requireText d.intentBatchId "intent batch ID"
  requireText d.accountId "account ID"
  requireText d.snapshotVersion "snapshot version"
  requireText d.policyId "policy ID"
  requireText d.policyVersion "policy version"
  requireText d.currency "currency"
  requireBatchCurrency d.currency "batch risk"
  raiseIf (d.expiresAt ≤ d.evaluatedAt) "batch risk decision must have a positive TTL"
  raiseIf (d.decisionId ≠ decisionIdOf H d.intentBatchId d.intentBatchSha256 d.snapshotSha256
      d.activeCapacitySha256 d.policySha256 d.evaluatedAt)
    "batch risk decision ID is not canonically derived"
  d.checkStatus

abbrev BatchRiskDecision (H : CanonicalId) := Checked (BatchRiskDecisionFields.postInit (H := H))

end AutoQuantTrader
