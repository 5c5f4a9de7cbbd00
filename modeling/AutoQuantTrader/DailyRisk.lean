import AutoQuantTrader.DailyPortfolio

/-!
# Daily risk

`evaluateDailyRisk` approves a whole batch or reserves nothing.  At activation every evaluated
commitment's own hold is replaced exactly once; the other pending commitments keep their cash,
quantity and count obligations.
-/

namespace AutoQuantTrader

open Result Sorting

variable (H : EngineHashes)

/-- The reason, if the condition holds. -/
def reasonIf (bad : Prop) [Decidable bad] (reason : Str) : List Str := if bad then [reason] else []

/-! ## Evidence -/

/-- The flags an evidence must have set, with the reason each one gives. -/
def evidenceFlags (e : DailyRiskEvidence) : List Str :=
  reasonIf (¬ e.completeDailyInputs) "COMPLETE_DAILY_INPUTS_REQUIRED" ++
  reasonIf (¬ e.controlsHealthy) "CONTROLS_HEALTHY_REQUIRED" ++
  reasonIf (¬ e.sessionHealthy) "SESSION_HEALTHY_REQUIRED" ++
  reasonIf (¬ e.timeHealthy) "TIME_HEALTHY_REQUIRED" ++
  reasonIf (¬ e.cashSemanticsKnown) "CASH_SEMANTICS_KNOWN_REQUIRED" ++
  reasonIf (¬ e.requestCapacityAvailable) "REQUEST_CAPACITY_AVAILABLE_REQUIRED" ++
  reasonIf (¬ e.simulationReconciled) "SIMULATION_RECONCILED_REQUIRED"

variable (policy : DailyRiskPolicy) (snapshot : AccountSnapshot) (batch : DailyIntentBatch)
  (e : DailyRiskEvidence) (evaluatedAt : Instant)

/-- What the loss evidence says about new exposure. -/
def lossReasons (reduceOnly : Bool) (e : DailyRiskEvidence) : List Str :=
  match e.dailyReturn, e.drawdown with
  | some dailyReturn, some drawdown =>
    if dailyReturn ≤ -1 ∨ ¬ (0 ≤ drawdown ∧ drawdown ≤ 1) then
      [Str.of "INVALID_FLOW_NEUTRAL_LOSS_EVIDENCE"]
    else reasonIf ((dailyReturn ≤ policy.val.dailyLossBoundary ∨
        policy.val.drawdownBoundary ≤ drawdown) ∧ ¬ reduceOnly)
      "LOSS_CONTROL_BLOCKS_NEW_EXPOSURE"
  | _, _ => [Str.of "FLOW_NEUTRAL_LOSS_EVIDENCE_REQUIRED"]

/-- The pending commitments a batch is about to replace: its own, at activation. -/
def replacedCommitments (ids : List Str) (phase : RiskPhase) : List Commitment :=
  snapshot.pending.filter fun c => phase = .activation ∧ c.val.intentId ∈ ids

def otherCommitments (ids : List Str) (phase : RiskPhase) : List Commitment :=
  snapshot.pending.filter (· ∉ replacedCommitments snapshot ids phase)

/-- The reasons that do not look at prices. -/
def scopeReasons : List Str :=
  let ids := batch.intents.map (·.val.intentId)
  let replaced := replacedCommitments snapshot ids e.phase
  let others := otherCommitments snapshot ids e.phase
  batch.reasons ++ e.reasons ++
  reasonIf (¬ ids.Nodup) "DUPLICATE_INTENT" ++
  reasonIf (H.snapshot snapshot ≠ batch.snapshotSha256 ∨ e.snapshotSha256 ≠ H.snapshot snapshot ∨
      e.producedAt ≠ evaluatedAt ∨ snapshot.point.knowledgeAt ≠ evaluatedAt)
    "STALE_OR_UNBOUND_ACCOUNT_EVIDENCE" ++
  reasonIf (e.producer.name ≠ "engine") "UNRECOGNIZED_EVIDENCE_PRODUCER" ++
  evidenceFlags e ++
  reasonIf snapshot.halted "ACCOUNT_HALTED" ++
  reasonIf ((∀ nav ∈ snapshot.nav, nav ≤ 0) ∨ snapshot.valuationReasons ≠ [])
    "CURRENT_POSITIVE_NAV_REQUIRED" ++
  lossReasons policy batch.target.reduceOnlyScope e ++
  reasonIf (e.sourceSession ≠ batch.target.trigger.sourceSession ∨
      e.executionSession ≠ batch.target.trigger.executionSession)
    "SESSION_EVIDENCE_MISMATCH" ++
  reasonIf (batch.target.expiresAt ≤ evaluatedAt) "TARGET_EXPIRED" ++
  reasonIf (e.phase = .decision ∧ batch.target.trigger.asOf ≠ evaluatedAt) "STALE_DECISION" ++
  reasonIf (e.phase = .activation ∧ ¬ (replaced.map (·.val.intentId) ⊆ ids ∧
      ids ⊆ replaced.map (·.val.intentId)))
    "ACTIVATION_COMMITMENT_BINDING_REQUIRED" ++
  reasonIf (e.phase = .decision ∧ ∃ c ∈ snapshot.pending, c.val.intentId ∈ ids)
    "INTENT_ALREADY_COMMITTED" ++
  reasonIf (policy.val.maxOpenIntents < others.length + batch.intents.length) "OPEN_INTENT_LIMIT" ++
  reasonIf (policy.val.maxNewIntentsPerSession < (e.acceptedIntentIds ++ ids).dedup.length)
    "SESSION_INTENT_LIMIT"

/-! ## Prices -/

/-- What the evaluation has added up so far. -/
structure RiskTotals where
  reasons : List Str
  exposure : Dict Str ℚ
  (cash shares : List (Str × ℚ))
  notionals : List ℚ

def RiskTotals.addReasons (t : RiskTotals) (reasons : List Str) : RiskTotals :=
  { t with reasons := t.reasons ++ reasons }

/-- The mark of an instrument, if it is current. -/
def currentMark (instrumentId : Str) : Option CausalMark :=
  (snapshot.mark? instrumentId).filter (·.val.quality = .current)

def positionExposure (t : RiskTotals) (position : PositionState) : Py RiskTotals :=
  let t := t.addReasons (reasonIf (position.quantity < 0) "SHORT_POSITION_UNSUPPORTED")
  if position.quantity = 0 then return t
  else
    match currentMark snapshot position.instrumentId with
    | none => return t.addReasons ["CURRENT_POSITION_MARK_REQUIRED"]
    | some mark => do
      let value ← exactDecimalMultiply position.quantity mark.val.price
      return { t with exposure := t.exposure.set position.instrumentId value }

def commitmentExposure (t : RiskTotals) (c : Commitment) : Py RiskTotals :=
  match c.val.side with
  | .sell => return t
  | .buy =>
    match currentMark snapshot c.val.instrumentId with
    | none => return t.addReasons ["CURRENT_COMMITMENT_MARK_REQUIRED"]
    | some mark => do
      let value ← exactDecimalMultiply c.val.remainingQuantity mark.val.price
      let total ← exactDecimalAdd (t.exposure.getD c.val.instrumentId 0) value
      return { t with exposure := t.exposure.set c.val.instrumentId total }

/-- The reasons the mark of an intent gives. -/
def markReasons (intent : OrderIntent) (mark : CausalMark) : List Str :=
  let expected := match e.phase with
    | .activation => e.executionSession
    | .decision => e.sourceSession
  reasonIf (mark.val.session ≠ expected) "STALE_INTENT_MARK_SESSION" ++
  reasonIf (e.phase = .activation ∧ mark.val.basis ≠ .rawExecution)
    "ACTIVATION_REQUIRES_EXECUTION_PRICE" ++
  reasonIf (e.phase = .decision ∧ (intent.val.portfolioSnapshotSha256 ≠ H.snapshot snapshot ∨
      intent.val.createdAt ≠ evaluatedAt ∨ intent.val.referencePrice ≠ mark.val.price))
    "INTENT_SNAPSHOT_BINDING_MISMATCH"

/-- The commitment an intent has already, among those its batch replaces. -/
def ownCommitment (replaced : List Commitment) (intent : OrderIntent) : Option Commitment :=
  replaced.find? fun c => c.val.intentId = intent.val.intentId

/-- The reasons the own commitment of an intent and the count limits give. -/
def limitReasons (batch : DailyIntentBatch) (replaced others : List Commitment)
    (intent : OrderIntent) : List Str :=
  let count := (others.filter (·.val.instrumentId = intent.val.instrumentId)).length +
    (batch.intents.filter (·.val.instrumentId = intent.val.instrumentId)).length
  reasonIf (∃ own ∈ ownCommitment replaced intent,
      own.val.remainingQuantity ≠ intent.val.quantity ∨ own.val.side ≠ intent.val.side ∨
        own.val.instrumentId ≠ intent.val.instrumentId ∨
        own.val.policySha256 ≠ H.riskPolicy policy ∨
        own.val.executionSession ≠ e.executionSession)
    "ACTIVATION_COMMITMENT_MISMATCH" ++
  reasonIf (policy.val.maxOrderQuantity < intent.val.quantity) "ORDER_QUANTITY_LIMIT" ++
  reasonIf (policy.val.maxPerSymbolIntents < count) "SYMBOL_INTENT_LIMIT"

/-- The reason, if an amount exceeds a fraction of the net asset value. -/
def navLimit (nav : Option ℚ) (fraction amount : ℚ) (reason : Str) : Py (List Str) :=
  match nav with
  | none => return []
  | some nav => do
    let limit ← exactDecimalMultiply nav fraction
    return reasonIf (limit < amount) reason

/-- What a purchase holds, and the exposure it adds. -/
def buyHold (reduceOnly : Bool) (intent : OrderIntent) (notional fee : ℚ) (t : RiskTotals) :
    Py (RiskTotals × ℚ) := do
  let factor ← exactDecimalAdd 1 policy.val.adverseReserveFraction
  let adverse ← exactDecimalMultiply notional factor
  let hold ← exactDecimalAdd adverse fee
  let total ← exactDecimalAdd (t.exposure.getD intent.val.instrumentId 0) notional
  let t := t.addReasons (reasonIf reduceOnly "REDUCE_ONLY_SCOPE_VIOLATION")
  return ({ t with exposure := t.exposure.set intent.val.instrumentId total }, hold)

/-- A sale needs shares that no other commitment reserves. -/
def exceedsUncommitted (position : Option PositionState) (quantity heldShares : ℚ) : Py Bool :=
  match position with
  | none => return true
  | some available => do
    let free ← exactDecimalSubtract available.quantity heldShares
    return free < quantity

def sellHold (others : List Commitment) (intent : OrderIntent) (fee : ℚ) (t : RiskTotals) :
    Py (RiskTotals × ℚ) := do
  let heldShares ← exactDecimalSum ((others.filter
    (·.val.instrumentId = intent.val.instrumentId)).map (·.val.reservedSellQuantity))
  let exceeds ← exceedsUncommitted (snapshot.position? intent.val.instrumentId) intent.val.quantity
    heldShares
  let t := t.addReasons (reasonIf exceeds "SELL_EXCEEDS_UNCOMMITTED_LONG_QUANTITY")
  return ({ t with shares := t.shares ++ [(intent.val.intentId, intent.val.quantity)] }, fee)

def intentHold (others : List Commitment) (intent : OrderIntent) (notional fee : ℚ) (t : RiskTotals)
    : Py (RiskTotals × ℚ) :=
  match intent.val.side with
  | .buy => buyHold policy batch.target.reduceOnlyScope intent notional fee t
  | .sell => sellHold snapshot others intent fee t

/-- One intent at its mark. -/
def intentAtMark (replaced others : List Commitment) (intent : OrderIntent) (mark : CausalMark)
    (t : RiskTotals) : Py RiskTotals := do
  let t := t.addReasons (markReasons H snapshot e evaluatedAt intent mark ++
    limitReasons H policy e batch replaced others intent)
  let notional ← exactDecimalMultiply intent.val.quantity mark.val.price
  let overNav ← navLimit snapshot.nav policy.val.maxOrderNavFraction notional "ORDER_NAV_LIMIT"
  let t := { t.addReasons overNav with notionals := t.notionals ++ [notional] }
  let fee ← exactDecimalMultiply intent.val.quantity policy.val.feePerShare
  let (t, hold) ← intentHold policy snapshot batch others intent notional fee t
  let t := t.addReasons (reasonIf (¬ isPersisted hold) "RESERVATION_NOT_EXACTLY_REPRESENTABLE")
  return { t with cash := t.cash ++ [(intent.val.intentId, hold)] }

/-- Add one intent to the totals, or a reason against it. -/
def evaluateIntent (replaced others : List Commitment) (t : RiskTotals) (intent : OrderIntent) :
    Py RiskTotals :=
  match currentMark snapshot intent.val.instrumentId with
  | none => return t.addReasons ["CURRENT_INTENT_MARK_REQUIRED"]
  | some mark =>
    if mark.val.symbol ≠ intent.val.symbol ∨ evaluatedAt < mark.val.knowledgeAt then
      return t.addReasons ["CURRENT_INTENT_MARK_REQUIRED"]
    else intentAtMark H policy snapshot batch e evaluatedAt replaced others intent mark t

/-! ## The whole batch -/

/-- The cash and exposure limits of the whole batch. -/
def batchLimits (replaced : List Commitment) (t : RiskTotals) : Py (List Str) := do
  let released ← exactDecimalSum (replaced.map (·.val.reservedCash))
  let spendable ← exactDecimalAdd snapshot.availableCash released
  let holds ← exactDecimalSum (t.cash.map (·.2))
  let overCash := reasonIf (spendable < holds) "INSUFFICIENT_SETTLED_UNCOMMITTED_CASH"
  match snapshot.nav with
  | none => return overCash
  | some nav => do
    let total ← exactDecimalSum t.notionals
    let overBatch ← navLimit (some nav) policy.val.maxBatchNavFraction total "BATCH_NAV_LIMIT"
    let repairing : Prop := batch.target.reduceOnlyScope ∧
      ∀ intent ∈ batch.intents, intent.val.side = .sell
    let gross ← exactDecimalSum t.exposure.values
    let overGross ← navLimit (some nav) policy.val.maxGrossNavFraction gross "GROSS_NAV_LIMIT"
    let overSymbols ← t.exposure.values.mapM fun amount =>
      navLimit (some nav) policy.val.maxSymbolNavFraction amount "SYMBOL_NAV_LIMIT"
    return overCash ++ overBatch ++
      if repairing then [] else overGross ++ overSymbols.flatten

/-- `tuple(sorted(pairs))`. -/
def sortedPairs (pairs : List (Str × ℚ)) : List (Str × ℚ) := sortOn (fun p => toLex p) pairs

/-- Approve a batch where no rule gives a reason. -/
def evaluateDailyRisk : Py DailyRiskDecision := do
  let ids := batch.intents.map (·.val.intentId)
  let replaced := replacedCommitments snapshot ids e.phase
  let others := otherCommitments snapshot ids e.phase
  let t ← snapshot.positions.foldlM (positionExposure snapshot)
    ⟨scopeReasons H policy snapshot batch e evaluatedAt, .empty, [], [], []⟩
  let t ← others.foldlM (commitmentExposure snapshot) t
  let t ← batch.intents.foldlM
    (evaluateIntent H policy snapshot batch e evaluatedAt replaced others) t
  let limits ← batchLimits policy snapshot batch replaced t
  let reasons := t.reasons ++ limits
  return {
    approved := reasons = []
    batch
    policySha256 := H.riskPolicy policy
    evidenceSha256 := H.evidence e
    reservedCashByIntent := if reasons = [] then sortedPairs t.cash else []
    reservedSharesByIntent := if reasons = [] then sortedPairs t.shares else []
    reasons := sortedUnique reasons }

end AutoQuantTrader
