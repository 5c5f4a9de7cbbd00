import AutoQuantTrader.AccountingContracts

/-!
# Offline accounting: the projection of an account

`project` reads an account state as it stands: it checks that everything in the state is known and
in scope, rebuilds the orders, both ledgers and the lot book from the retained facts, and reports
positions, cash and capacity.  It changes nothing, and it raises on a state that does not hold
together.
-/

namespace AutoQuantTrader

open Result Sorting

variable (H : AccountingHashes)

/-! ## Scope and causality -/

variable (s : AccountingState) (context : AccountingContext) (policy : ExecutionPolicy)

/-- Every account fact that names an instrument, with the symbol it uses for it. -/
def AccountingState.scoped : List (Str × Str) :=
  s.commitments.map (fun c => (c.val.instrumentId, c.val.symbol)) ++
    s.marks.map (fun m => (m.val.instrumentId, m.val.symbol)) ++
    s.stockSplits.map (fun x => (x.val.instrumentId, x.val.symbol)) ++
    s.cashDividends.map fun d => (d.val.instrumentId, d.val.symbol)

/-- When the broker events and marks of a state became known. -/
def AccountingState.receipts : List Instant :=
  s.brokerEvents.map (·.val.receivedAt) ++ s.marks.map (·.val.knowledgeAt)

/-- A broker fact was reduced after it was received and not after the context's point. -/
def isCausalPoint (event : BrokerOrderEvent) (point now : ReductionPoint) : Prop :=
  event.val.receivedAt ≤ point.knowledgeAt ∧ point.knowledgeAt ≤ now.knowledgeAt ∧
    point.reductionSequence ≤ now.reductionSequence ∧ point.frontierSequence ≤ now.frontierSequence

instance (event : BrokerOrderEvent) (point now : ReductionPoint) :
    Decidable (isCausalPoint event point now) :=
  inferInstanceAs (Decidable (_ ∧ _))

def checkEventPoint (now : ReductionPoint) (event : BrokerOrderEvent) : Py Unit := do
  let point ← getOrThrow (lookup s.eventPoints event.val.eventId) .keyError
  raiseIf (¬ isCausalPoint event point now) "broker fact reduction point is not causal"

def validateContext : Py Unit := do
  let now := context.point.knowledgeAt
  requireBoundedText s.accountId "account ID"
  requireBoundedText context.runId "run ID"
  requireBoundedText context.eventId "event ID"
  raiseIf (now < context.economicAt) "context contains future economic time"
  raiseIf (¬ (context.instruments.map (·.1)).Nodup ∨ ¬ (context.instruments.map (·.2)).Nodup)
    "instrument scope is not unique"
  raiseIf (∃ fact ∈ s.scoped, lookup context.instruments fact.1 ≠ some fact.2)
    "account fact falls outside instrument scope"
  raiseIf (¬ (s.commitments.map (·.val.commitmentId)).Nodup ∨
      ¬ (s.commitments.map (·.val.orderId)).Nodup)
    "commitments repeat one reservation identity"
  raiseIf (∃ recorded ∈ s.receipts, now < recorded) "account contains future receipt evidence"
  raiseIf (¬ (s.eventPoints.map (·.1)).Nodup ∨
      ¬ (s.eventPoints.map (·.1) ⊆ s.brokerEvents.map (·.val.eventId) ∧
        s.brokerEvents.map (·.val.eventId) ⊆ s.eventPoints.map (·.1)))
    "broker fact reduction-point coverage differs"
  s.brokerEvents.forM (checkEventPoint s context.point)
  raiseIf (¬ (s.observations.map (·.val.observationId)).Nodup)
    "execution observations repeat a source identity"
  raiseIf (∃ o ∈ s.observations, now < o.val.knowledgeAt ∨
      lookup context.instruments o.val.instrumentId ≠ some o.val.symbol)
    "execution observation is outside causal scope"
  raiseIf (∃ i ∈ s.settlementInstructions, now < i.val.recordedAt)
    "future settlement instruction receipt"

/-! ## Orders and commitments -/

/-- The orders of an account, rebuilt from its submissions and broker events. -/
def orders : Py (List CanonicalOrderState) := do
  let orderIds := s.submissions.map (·.val.orderId)
  raiseIf (¬ orderIds.Nodup) "duplicate submission identity"
  raiseIf (∃ e ∈ s.brokerEvents, e.val.orderId ∉ orderIds)
    "broker fact has no installed submission"
  raiseIf (¬ (s.cancelRequests.map (·.val.orderId)).Nodup ∨
      ∃ r ∈ s.cancelRequests, r.val.orderId ∉ orderIds)
    "unsupported cancel request coverage"
  (sortOn (·.val.orderId) s.submissions).mapM fun submission =>
    reduceOrderLifecycle H.toOrderHashes submission
      (s.brokerEvents.filter (·.val.orderId = submission.val.orderId))
      (s.cancelRequests.find? (·.val.orderId = submission.val.orderId))

/-- The cash a remainder reserves: its price and its fees for a purchase, its fees for a sale. -/
def reserve (side : Side) (quantity price feeBudget : ℚ) : Py ℚ :=
  match side with
  | .buy => do
    let notional ← exactDecimalMultiply quantity price
    exactDecimalAdd notional feeBudget
  | .sell => return feeBudget

/-- What is left of an order; nothing is left of a terminal one. -/
def remainder (terminal : Bool) (originalQuantity filledQuantity : ℚ) : Py ℚ :=
  if terminal then return 0 else exactDecimalSubtract originalQuantity filledQuantity

/-- The shares a remainder reserves. -/
def sellQuantity (side : Side) (quantity : ℚ) : ℚ :=
  match side with
  | .buy => 0
  | .sell => quantity

/-- A commitment agrees with its order and reserves exactly what its remainder needs. -/
def checkCommitment (orderStates : List CanonicalOrderState) (c : Commitment) : Py Unit := do
  let order ← getOrThrow (orderStates.find? (·.submission.val.orderId = c.val.orderId)) .keyError
  let intent := order.submission.val.intent.val
  raiseIf ((c.val.intentId, c.val.instrumentId, c.val.symbol, c.val.side, c.val.originalQuantity,
      c.val.filledQuantity) ≠ (intent.intentId, intent.instrumentId, intent.symbol, intent.side,
      intent.quantity, order.filledQuantity))
    "commitment differs from canonical order facts"
  let remaining ← remainder (c.val.state = .terminal) c.val.originalQuantity c.val.filledQuantity
  let reserved ← reserve c.val.side remaining c.val.approvedPrice c.val.remainingFeeBudget
  raiseIf (c.val.remainingQuantity ≠ remaining ∨ c.val.reservedCash ≠ reserved ∨
      c.val.reservedSellQuantity ≠ sellQuantity c.val.side remaining)
    "commitment capacity differs from its remaining quantity"
  raiseIf (c.val.state = .terminal ∧ c.val.remainingFeeBudget ≠ 0)
    "terminal commitment retains a fee budget"

/-! ## Valuation -/

/-- The latest mark of every instrument, and the latest one that may be used as an estimate. -/
structure SelectedMarks where
  (selected estimates : Dict Str CausalMark)

def selectCausalMark (acc : SelectedMarks) (mark : CausalMark) : SelectedMarks :=
  { selected := acc.selected.set mark.val.instrumentId mark
    estimates := if mark.val.quality = .unavailable then acc.estimates
      else acc.estimates.set mark.val.instrumentId mark }

def selectMarks (marks : List CausalMark) : SelectedMarks :=
  (sortOn (fun m => toLex (m.val.economicAt, toLex (m.val.knowledgeAt, m.val.markId))) marks).foldl
    selectCausalMark ⟨.empty, .empty⟩

structure Valuation where
  reasons : List Str
  (market estimatedMarket : ℚ)
  estimateComplete : Bool

/-- The mark does not show the price after a position's latest split. -/
def precedesSplit (position : UnvaluedFifoPosition) (mark : CausalMark) : Prop :=
  ∃ splitAt ∈ position.latestSplitAt, mark.val.economicAt ≤ splitAt

instance (position : UnvaluedFifoPosition) (mark : CausalMark) :
    Decidable (precedesSplit position mark) :=
  inferInstanceAs (Decidable (∃ _ ∈ _, _))

/-- The market value after one position, or the reason why it cannot be valued. -/
def valueAtMark (position : UnvaluedFifoPosition) (quantity : ℚ) (mark : Option CausalMark)
    (v : Valuation) : Py Valuation :=
  match mark with
  | none => return { v with reasons := v.reasons ++ ["MISSING_MARK:" ++ position.instrumentId] }
  | some mark =>
    if mark.val.quality ≠ .current ∨ mark.val.session ≠ context.expectedMarkSession then
      return { v with reasons := v.reasons ++ ["NONCURRENT_MARK:" ++ position.instrumentId] }
    else if precedesSplit position mark then
      return { v with
        reasons := v.reasons ++ ["POST_SPLIT_MARK_REQUIRED:" ++ position.instrumentId] }
    else do
      let value ← exactDecimalMultiply quantity mark.val.price
      let market ← exactDecimalAdd v.market value
      return { v with market }

/-- The estimated value after one position; it is complete while every position has an estimate. -/
def estimateAtMark (position : UnvaluedFifoPosition) (quantity : ℚ) (mark : Option CausalMark)
    (v : Valuation) : Py Valuation :=
  match mark with
  | none => return { v with estimateComplete := false }
  | some mark =>
    if precedesSplit position mark then return { v with estimateComplete := false }
    else do
      let value ← exactDecimalMultiply quantity mark.val.price
      let estimatedMarket ← exactDecimalAdd v.estimatedMarket value
      return { v with estimatedMarket }

def valuePositionMarks (marks : SelectedMarks) (v : Valuation) (position : UnvaluedFifoPosition) :
    Py Valuation := do
  let quantity ← position.quantity
  if quantity = 0 then return v
  else do
    let v ← valueAtMark context position quantity (marks.selected.get? position.instrumentId) v
    estimateAtMark position quantity (marks.estimates.get? position.instrumentId) v

/-- Cash, receivables and a market value together, unless they are not wanted. -/
def netAssetValue (wanted : Bool) (cash receivable market : ℚ) : Py (Option ℚ) :=
  if wanted then do
    let liquid ← exactDecimalAdd cash receivable
    let value ← exactDecimalAdd liquid market
    return some value
  else return none

def unrealized (wanted : Bool) (market : ℚ) (positions : List PositionState) : Py (Option ℚ) :=
  if wanted then do
    let basis ← exactDecimalSum (positions.map (·.costBasis))
    let gain ← exactDecimalSubtract market basis
    return some gain
  else return none

/-! ## The projection -/

def positionState (p : UnvaluedFifoPosition) : Py PositionState := do
  let quantity ← p.quantity
  let costBasis ← p.costBasis
  let dividendReceivable ← exactDecimalSumOf (·.val.amount) (s.cashDividends.filter fun d =>
    d.val.instrumentId = p.instrumentId ∧
      d.val.dividendId ∉ s.dividendPayments.map (·.val.dividendId))
  return {
    instrumentId := p.instrumentId
    symbol := p.symbol
    quantity
    costBasis
    lots := p.openLots
    grossRealizedPnl := p.realizedPnlBeforeFees
    fees := p.executionFees
    dividendIncome := p.dividendIncome
    dividendReceivable }

/-- The cash reserved by the commitments of one side. -/
def reservedCash (side : Side) : Py ℚ :=
  exactDecimalSum ((s.commitments.filter (·.val.side = side)).map (·.val.reservedCash))

def executionRow (orderStates : List CanonicalOrderState) (e : FifoExecution) :
    Py ExecutionRow := do
  let order ← getOrThrow (orderStates.find? (·.submission.val.orderId = e.orderId)) .keyError
  let point ← getOrThrow (lookup s.eventPoints e.eventId) .keyError
  let event ← getOrThrow (lookup (s.brokerEvents.map fun x => (x.val.eventId, x)) e.eventId)
    .keyError
  return {
    executionId := e.executionId
    revision := e.revision
    factId := e.eventId
    factSha256 := e.eventSha256
    orderId := e.orderId
    intentId := order.submission.val.intent.val.intentId
    instrumentId := e.instrumentId
    symbol := e.symbol
    side := e.side
    quantity := e.quantity
    price := e.price
    fee := e.fee
    economicAt := e.occurredAt
    knowledgeAt := e.currentReceivedAt
    sequence := point.reductionSequence
    modelId := if event.val.reason = some (Str.of "modeled-execution") then policy.val.modelId.value
      else "synthetic-authoritative-fact-v1"
    supersedesFactId := match event.val.kind with
      | .executionCorrection _ supersedes => some supersedes
      | _ => none }

/-- The part of a fee that a weight attributes. -/
def weightedFee (fee weight : ℚ) : Py ℚ := do
  let scaled ← exactDecimalMultiply fee weight.num
  deterministicDecimalDivide scaled weight.den

def fifoMatchRow (m : FifoRealizedMatch) : Py FifoMatchRow := do
  let openingFee ← weightedFee m.buy.fee m.buyFeeWeight
  let closingFee ← weightedFee m.sell.fee m.sellFeeWeight
  let commitment ← getOrThrow (s.commitments.find? (·.val.orderId = m.sell.orderId)) .keyError
  return {
    matchId := m.matchId
    instrumentId := m.buy.instrumentId
    openingExecutionId := m.buy.executionId
    openingRevision := m.buy.revision
    closingExecutionId := m.sell.executionId
    closingRevision := m.sell.revision
    openingOrderId := m.buy.orderId
    closingOrderId := m.sell.orderId
    quantity := m.quantity
    basis := m.costBasis
    proceeds := m.proceeds
    openingFee
    closingFee
    acquiredAt := m.buy.occurredAt
    disposedAt := m.sell.occurredAt
    sourceSha256 := H.realizedMatch m
    splitIds := m.splitIds
    groupComplete := commitment.val.state = .terminal }

/-- The facts the lot book of a state is projected from. -/
def AccountingState.facts (orderStates : List CanonicalOrderState) : AccountFacts :=
  { accountId := s.accountId
    orderStates
    cashFlows := s.cashFlows
    stockSplits := s.stockSplits
    cashDividends := s.cashDividends
    dividendPayments := s.dividendPayments
    currency := "USD" }

/-- The instructions whose execution has been observed. -/
def AccountingState.liveInstructions : List ExecutionSettlementInstruction :=
  s.settlementInstructions.filter fun i =>
    i.val.executionEventId ∈ s.brokerEvents.map (·.val.eventId)

/-- The cash a flow brings in, as the snapshot reports it. -/
def signedFlow (flow : LedgerCashFlow) : ℚ :=
  if flow.val.kind = .contribution then flow.val.amount else -flow.val.amount

/-- The orders of a state, once its commitments agree with them. -/
def checkedOrders : Py (List CanonicalOrderState) := do
  let orderStates ← orders H s
  raiseIf (¬ (orderStates.map (·.submission.val.orderId) ⊆ s.commitments.map (·.val.orderId) ∧
      s.commitments.map (·.val.orderId) ⊆ orderStates.map (·.submission.val.orderId)))
    "submission/commitment coverage differs"
  s.commitments.forM (checkCommitment orderStates)
  return orderStates

/-- The lot book and the settlement ledger of a state. -/
def ledgers (now : Instant) (orderStates : List CanonicalOrderState) :
    Py (UnvaluedFifoAccountProjection × CanonicalSettlementLedgerState) := do
  let facts ← projectUnvaluedFifoAccount H.toCorporateHashes (s.facts orderStates) now
  let settlement ← reduceSettlementLedger H.toSettlementHashes s.accountId orderStates s.cashFlows
    s.liveInstructions s.settlementConfirmations "USD"
  raiseIf (∃ asOf ∈ settlement.asOf, now < asOf) "future settlement evidence"
  return (facts, settlement)

/-- The journal: every entry of the three ledgers, once. -/
def journal (facts : UnvaluedFifoAccountProjection)
    (settlement : CanonicalSettlementLedgerState) : Py (List CanonicalLedgerEntry) := do
  let entries := sortOn (·.val.order) (facts.ledger.entries ++
    facts.corporateActionLedger.corporateActionEntries ++ settlement.settlementEntries)
  raiseIf (¬ (entries.map (·.val.entryId)).Nodup) "economic journal repeats an entry"
  return entries

/-- The snapshot of a state. -/
def accountSnapshot (orderStates : List CanonicalOrderState) (facts : UnvaluedFifoAccountProjection)
    (settlement : CanonicalSettlementLedgerState) (entries : List CanonicalLedgerEntry) :
    Py AccountSnapshot := do
  let positions ← facts.positions.mapM (positionState s)
  let unsettled ← exactDecimalSubtract facts.cash settlement.tradeDateCash
  let settled ← exactDecimalAdd settlement.settledCash unsettled
  let buyReserve ← reservedCash s .buy
  let sellReserve ← reservedCash s .sell
  let unowed ← exactDecimalSubtract settled settlement.payables
  let unbought ← exactDecimalSubtract unowed buyReserve
  let available ← exactDecimalSubtract unbought sellReserve
  let marks := selectMarks s.marks
  let v ← facts.positions.foldlM (valuePositionMarks context marks) ⟨[], 0, 0, true⟩
  let receivable := facts.corporateActionLedger.dividendReceivable
  let nav ← netAssetValue (v.reasons = []) facts.cash receivable v.market
  let lastKnownNav ← netAssetValue (v.reasons ≠ [] ∧ v.estimateComplete) facts.cash receivable
    v.estimatedMarket
  let grossRealizedPnl ← facts.realizedPnlBeforeFees
  let fees ← facts.executionFees
  let unrealizedPnl ← unrealized (v.reasons = []) v.market positions
  let netExternalFlow ← exactDecimalSum (s.cashFlows.map signedFlow)
  return {
    accountId := s.accountId
    point := context.point
    stateSha256 := H.state s
    positions
    commitments := s.commitments
    marks := (sortOn Prod.fst marks.selected.entries).map Prod.snd
    tradeDateCash := facts.cash
    settledCash := settled
    tradeReceivable := settlement.receivables
    tradePayable := settlement.payables
    dividendReceivable := receivable
    buyReserve
    sellFeeReserve := sellReserve
    availableCash := available
    marketValue := if v.reasons = [] then some v.market else none
    nav
    grossRealizedPnl
    fees
    dividendIncome := facts.corporateActionLedger.dividendIncome
    unrealizedPnl
    netExternalFlow
    journalSha256 := H.journal entries
    orderSha256 := H.orders orderStates
    valuationReasons := v.reasons
    lastKnownNav
    halted := s.halted ∨ available < 0 ∨ settled < 0 ∨
      ∃ c ∈ s.commitments, c.val.state = .unknown }

/-- Everything the facts say at a point: ledgers, snapshot and rows. -/
def project : Py AccountingTransition := do
  validateContext s context
  raiseIf (∃ bound ∈ s.executionPolicySha256, bound ≠ H.policy policy)
    "account execution policy binding differs"
  let orderStates ← checkedOrders H s
  let (facts, settlement) ← ledgers H s context.point.knowledgeAt orderStates
  let entries ← journal facts settlement
  let snapshot ← accountSnapshot H s context orderStates facts settlement entries
  let executions ← facts.executions.mapM (executionRow s policy orderStates)
  let fifoMatches ← facts.realizedMatches.mapM (fifoMatchRow H s)
  return {
    disposition := .applied
    state := s
    snapshot
    journalEntries := entries
    executions
    fifoMatches
    dueEvents := []
    reasons := [] }

end AutoQuantTrader
