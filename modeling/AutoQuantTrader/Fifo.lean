import AutoQuantTrader.CorporateAction

/-!
# The FIFO lot book

The current executions of all orders, the splits and the dividends on one timeline.  Purchases
append lots, sales consume them from the front, splits rescale them.  The result is reconciled with
the ledgers before it is returned; no mark is needed.
-/

namespace AutoQuantTrader

open Result Sorting

/-! ## Records -/

/-- Current execution head with its original FIFO ordering coordinates. -/
structure FifoExecution where
  (instrumentId symbol : Str)
  side : Side
  (executionId orderId : Str)
  (quantity price fee : ℚ)
  (occurredAt receivedAt : Instant)
  (brokerSequence revision : Nat)
  (eventId eventSha256 : Str)
  (currentOccurredAt currentReceivedAt : Instant)
deriving DecidableEq

/-- An open lot of the book.  Its identity and its time of acquisition are its execution's. -/
structure FifoLot where
  execution : FifoExecution
  (quantity costBasis feeWeight : ℚ)
  (splitIds splitSha256s : List Str)

structure OpenTaxLotFields where
  (executionId orderId : Str)
  (quantity costBasis : ℚ)
  acquiredAt : Instant
deriving DecidableEq

def OpenTaxLotFields.postInit (l : OpenTaxLotFields) : Py Unit := do
  requireText l.executionId "lot execution_id"
  requireText l.orderId "lot order_id"
  let quantity ← canonicalPersistedDecimal l.quantity "lot quantity"
  let costBasis ← canonicalPersistedDecimal l.costBasis "lot cost_basis"
  raiseIf (quantity ≤ 0 ∨ ¬ isWhole quantity) "lot quantity must be positive whole shares"
  raiseIf (costBasis ≤ 0) "lot cost_basis must be positive"

abbrev OpenTaxLot := Checked OpenTaxLotFields.postInit

structure FifoOpenLotLineage where
  lot : OpenTaxLot
  execution : FifoExecution
  feeWeight : ℚ
  (splitIds splitSha256s : List Str)

/-- Current FIFO match; fee weights are attribution, never new expenses. -/
structure FifoRealizedMatch where
  matchId : Str
  (buy sell : FifoExecution)
  (quantity costBasis proceeds buyFeeWeight sellFeeWeight : ℚ)
  (splitIds splitSha256s : List Str)

structure UnvaluedFifoPosition where
  (instrumentId symbol : Str)
  openLotLineage : List FifoOpenLotLineage
  (realizedPnlBeforeFees executionFees dividendIncome : ℚ)
  latestSplitAt : Option Instant

namespace UnvaluedFifoPosition

def openLots (p : UnvaluedFifoPosition) : List OpenTaxLot := p.openLotLineage.map (·.lot)

def quantity (p : UnvaluedFifoPosition) : Py ℚ := exactDecimalSum (p.openLots.map (·.val.quantity))

def costBasis (p : UnvaluedFifoPosition) : Py ℚ :=
  exactDecimalSum (p.openLots.map (·.val.costBasis))

def realizedPnl (p : UnvaluedFifoPosition) : Py ℚ := do
  let afterFees ← exactDecimalSubtract p.realizedPnlBeforeFees p.executionFees
  exactDecimalAdd afterFees p.dividendIncome

end UnvaluedFifoPosition

/-- Reducer-produced trade-date accounting facts, with no valuation claim. -/
structure UnvaluedFifoAccountProjection where
  (accountId currency : Str)
  ledger : CanonicalLedgerState
  corporateActionLedger : CorporateActionLedgerState
  executions : List FifoExecution
  positions : List UnvaluedFifoPosition
  realizedMatches : List FifoRealizedMatch
  asOf : Instant

namespace UnvaluedFifoAccountProjection

def cash (p : UnvaluedFifoAccountProjection) : ℚ := p.corporateActionLedger.cashBalance

def realizedPnlBeforeFees (p : UnvaluedFifoAccountProjection) : Py ℚ :=
  exactDecimalSum (p.positions.map (·.realizedPnlBeforeFees))

def executionFees (p : UnvaluedFifoAccountProjection) : Py ℚ :=
  exactDecimalSum (p.positions.map (·.executionFees))

def realizedPnl (p : UnvaluedFifoAccountProjection) : Py ℚ := do
  let beforeFees ← p.realizedPnlBeforeFees
  let fees ← p.executionFees
  let afterFees ← exactDecimalSubtract beforeFees fees
  exactDecimalAdd afterFees p.corporateActionLedger.dividendIncome

end UnvaluedFifoAccountProjection

variable (H : CorporateHashes)

/-! ## The current executions -/

/-- The first revision of an execution. -/
def initialEvent? (state : CanonicalOrderState) (executionId : Str) :
    Option BrokerOrderEvent :=
  state.brokerEvents.find? fun event => match event.val.kind with
    | .execution report => report.executionId = executionId
    | _ => false

def fifoExecution (state : CanonicalOrderState) (current : ExecutionProjection) :
    Py FifoExecution := do
  let initial ← getOrThrow (initialEvent? state current.executionId) .keyError
  let event ← getOrThrow (state.brokerEvents.find? (·.val.eventId = current.eventId)) .keyError
  return {
    instrumentId := state.submission.val.intent.val.instrumentId
    symbol := state.submission.val.intent.val.symbol
    side := state.submission.val.intent.val.side
    executionId := current.executionId
    orderId := state.submission.val.orderId
    quantity := current.quantity
    price := current.price
    fee := current.fee
    occurredAt := initial.val.occurredAt
    receivedAt := initial.val.receivedAt
    brokerSequence := initial.val.brokerSequence
    revision := current.revision
    eventId := current.eventId
    eventSha256 := H.brokerEvent event
    currentOccurredAt := current.occurredAt
    currentReceivedAt := current.receivedAt }

/-- Add one current execution, unless another order owns its identity. -/
def collectExecution (acc : Dict Str Str × List FifoExecution)
    (item : CanonicalOrderState × ExecutionProjection) :
    Py (Dict Str Str × List FifoExecution) := do
  let orderId := item.1.submission.val.orderId
  raiseIf (∃ owner ∈ acc.1.get? item.2.executionId, owner ≠ orderId)
    "broker execution identity is reused across orders"
  let execution ← fifoExecution H item.1 item.2
  return (acc.1.set item.2.executionId orderId, acc.2 ++ [execution])

def FifoExecution.order (x : FifoExecution) :
    Instant ×ₗ Instant ×ₗ Str ×ₗ Nat ×ₗ Str :=
  toLex (x.occurredAt, toLex (x.receivedAt, toLex (x.orderId,
    toLex (x.brokerSequence, x.executionId))))

/-- The current executions of some orders, each with its order. -/
def ownedExecutions (states : List CanonicalOrderState) :
    List (CanonicalOrderState × ExecutionProjection) :=
  states.flatMap fun state => state.executions.map fun x => (state, x)

def currentExecutions (states : List CanonicalOrderState) : Py (List FifoExecution) := do
  let acc ← (ownedExecutions states).foldlM (collectExecution H) (.empty, [])
  return sortOn FifoExecution.order acc.2

/-! ## The timeline -/

inductive AccountEvent where
  | split (split : StockSplitAction)
  | dividend (dividend : CashDividendAccrual)
  | execution (execution : FifoExecution)

/-- At one instant splits come first, then dividends, then executions. -/
def AccountEvent.order : AccountEvent → Instant ×ₗ Nat ×ₗ Str
  | .split s => toLex (s.val.effectiveAt, toLex (0, s.val.splitId))
  | .dividend d => toLex (d.val.effectiveAt, toLex (1, d.val.dividendId))
  | .execution x => toLex (x.occurredAt, toLex (2, x.executionId))

/-- The lots, results and fees of each instrument so far. -/
structure FifoState where
  lots : Dict Str (List FifoLot)
  symbols : Dict Str Str
  (realizedByInstrument feesByInstrument dividendByInstrument : Dict Str ℚ)
  latestSplitByInstrument : Dict Str Instant
  realizedMatches : List FifoRealizedMatch

def FifoState.initial : FifoState := ⟨.empty, .empty, .empty, .empty, .empty, .empty, []⟩

def splitLot (split : StockSplitAction) (lot : FifoLot) : Py FifoLot := do
  let scaled ← exactDecimalMultiply lot.quantity split.val.numerator
  let quantity ← deterministicDecimalDivide scaled split.val.denominator
  raiseIf (¬ isWhole quantity)
    "stock split creates a fractional FIFO lot without cash-in-lieu policy"
  let quantity ← canonicalPersistedDecimal quantity "split lot quantity"
  return { lot with
    quantity
    splitIds := lot.splitIds ++ [split.val.splitId]
    splitSha256s := lot.splitSha256s ++ [H.stockSplit split] }

def applySplit (s : FifoState) (split : StockSplitAction) : Py FifoState := do
  let instrumentId := split.val.instrumentId
  let instrumentLots := s.lots.getD instrumentId []
  let held ← exactDecimalSum (instrumentLots.map (·.quantity))
  raiseIf (held ≠ split.val.entitledQuantity)
    "stock split entitlement does not match the causal lot book"
  raiseIf (s.symbols.get? instrumentId ≠ some split.val.symbol)
    "stock split symbol conflicts with lot evidence"
  let basisBefore ← exactDecimalSum (instrumentLots.map (·.costBasis))
  let rescaled ← instrumentLots.mapM (splitLot H split)
  let basisAfter ← exactDecimalSum (rescaled.map (·.costBasis))
  raiseIf (basisAfter ≠ basisBefore) "stock split does not preserve FIFO cost basis"
  return { s with
    lots := s.lots.set instrumentId rescaled
    latestSplitByInstrument :=
      s.latestSplitByInstrument.set instrumentId split.val.effectiveAt }

def applyDividend (s : FifoState) (dividend : CashDividendAccrual) : Py FifoState := do
  let instrumentId := dividend.val.instrumentId
  let held ← exactDecimalSum ((s.lots.getD instrumentId []).map (·.quantity))
  raiseIf (held ≠ dividend.val.entitledQuantity)
    "cash dividend entitlement does not match the causal lot book"
  raiseIf (s.symbols.get? instrumentId ≠ some dividend.val.symbol)
    "dividend symbol conflicts with lot evidence"
  let amount ← dividend.val.amount
  let income ← exactDecimalAdd (s.dividendByInstrument.getD instrumentId 0) amount
  return { s with dividendByInstrument := s.dividendByInstrument.set instrumentId income }

/-- The basis that leaves a lot with `consumed` of its shares. -/
def consumedBasis (lot : FifoLot) (consumed : ℚ) : Py ℚ :=
  if consumed = lot.quantity then return lot.costBasis
  else do
    let scaled ← exactDecimalMultiply lot.costBasis consumed
    let basis ← deterministicDecimalDivide scaled lot.quantity
    canonicalPersistedDecimal basis "partial FIFO basis allocation"

/-- What a sale has taken so far. -/
structure Consumption where
  (remaining costBasis : ℚ)
  realizedMatches : List FifoRealizedMatch
  lots : List FifoLot

/-- Match a sale against the front lots until it is satisfied or the book is empty. -/
def consumeLots (accountId : Str) (sell : FifoExecution) :
    List FifoLot → Consumption → Py Consumption
  | [], c => return c
  | lot :: rest, c =>
    if 0 < c.remaining then do
      let consumed := min c.remaining lot.quantity
      let basis ← consumedBasis lot consumed
      let costBasis ← exactDecimalAdd c.costBasis basis
      throwIf (lot.quantity = 0 ∨ sell.quantity = 0) .arithmeticError
      let buyFeeWeight := lot.feeWeight * consumed / lot.quantity
      let proceeds ← exactDecimalMultiply consumed sell.price
      let matched : FifoRealizedMatch := {
        matchId := H.canonicalId "fifo-match" [.text accountId,
          .text lot.execution.executionId, .text sell.executionId]
        buy := lot.execution
        sell
        quantity := consumed
        costBasis := basis
        proceeds
        buyFeeWeight
        sellFeeWeight := consumed / sell.quantity
        splitIds := lot.splitIds
        splitSha256s := lot.splitSha256s }
      let quantity ← exactDecimalSubtract lot.quantity consumed
      let lotBasis ← exactDecimalSubtract lot.costBasis basis
      let remaining ← exactDecimalSubtract c.remaining consumed
      let left := { lot with
        quantity, costBasis := lotBasis, feeWeight := lot.feeWeight - buyFeeWeight }
      let c := { c with
        remaining, costBasis, realizedMatches := c.realizedMatches ++ [matched] }
      -- a lot that is used up leaves the book, any other ends the sale
      if quantity = 0 then consumeLots accountId sell rest c
      else return { c with lots := left :: rest }
    else return { c with lots := lot :: rest }

def applyBuy (s : FifoState) (x : FifoExecution) : Py FifoState := do
  let instrumentLots := s.lots.getD x.instrumentId []
  if 0 < x.quantity then
    let costBasis ← exactDecimalMultiply x.quantity x.price
    let lot : FifoLot := ⟨x, x.quantity, costBasis, 1, [], []⟩
    return { s with lots := s.lots.set x.instrumentId (instrumentLots ++ [lot]) }
  else return { s with lots := s.lots.set x.instrumentId instrumentLots }

def applySell (accountId : Str) (s : FifoState) (x : FifoExecution) : Py FifoState := do
  let c ← consumeLots H accountId x (s.lots.getD x.instrumentId []) ⟨x.quantity, 0, [], []⟩
  raiseIf (0 < c.remaining) ("sell execution creates a short position for " ++ x.instrumentId)
  let proceeds ← exactDecimalMultiply x.quantity x.price
  let gain ← exactDecimalSubtract proceeds c.costBasis
  let realized ← exactDecimalAdd (s.realizedByInstrument.getD x.instrumentId 0) gain
  return { s with
    lots := s.lots.set x.instrumentId c.lots
    realizedByInstrument := s.realizedByInstrument.set x.instrumentId realized
    realizedMatches := s.realizedMatches ++ c.realizedMatches }

/-- A purchase opens a lot, a sale consumes the oldest. -/
def applyExecution (accountId : Str) (s : FifoState) (x : FifoExecution) : Py FifoState := do
  raiseIf (∃ symbol ∈ s.symbols.get? x.instrumentId, symbol ≠ x.symbol)
    "instrument identity has conflicting symbols"
  let fees ← exactDecimalAdd (s.feesByInstrument.getD x.instrumentId 0) x.fee
  let s := { s with
    symbols := s.symbols.set x.instrumentId x.symbol
    feesByInstrument := s.feesByInstrument.set x.instrumentId fees }
  match x.side with
  | .buy => applyBuy s x
  | .sell => applySell H accountId s x

def applyAccountEvent (accountId : Str) (s : FifoState) : AccountEvent → Py FifoState
  | .split split => applySplit H s split
  | .dividend dividend => applyDividend s dividend
  | .execution x => applyExecution H accountId s x

/-! ## The positions -/

def openLotLineage (lot : FifoLot) : Py FifoOpenLotLineage := do
  let openLot ← construct {
    executionId := lot.execution.executionId
    orderId := lot.execution.orderId
    quantity := lot.quantity
    costBasis := lot.costBasis
    acquiredAt := lot.execution.occurredAt }
  return ⟨openLot, lot.execution, lot.feeWeight, lot.splitIds, lot.splitSha256s⟩

def unvaluedPosition (s : FifoState) (item : Str × Str) : Py UnvaluedFifoPosition := do
  let lineage ← (s.lots.getD item.1 []).mapM openLotLineage
  return {
    instrumentId := item.1
    symbol := item.2
    openLotLineage := lineage
    realizedPnlBeforeFees := s.realizedByInstrument.getD item.1 0
    executionFees := s.feesByInstrument.getD item.1 0
    dividendIncome := s.dividendByInstrument.getD item.1 0
    latestSplitAt := s.latestSplitByInstrument.get? item.1 }

def OpenTaxLotFields.order (l : OpenTaxLotFields) : Instant ×ₗ Str ×ₗ Str :=
  toLex (l.acquiredAt, toLex (l.orderId, l.executionId))

/-- A position is representable, in FIFO order and agrees with the units of the ledger. -/
def reconcilePosition (ledger : CorporateActionLedgerState) (p : UnvaluedFifoPosition) :
    Py Unit := do
  let quantity ← p.quantity
  let _ ← canonicalPersistedDecimal quantity "position quantity"
  let costBasis ← p.costBasis
  let _ ← canonicalPersistedDecimal costBasis "position cost_basis"
  let _ ← canonicalPersistedDecimal p.realizedPnlBeforeFees "position realized_pnl_before_fees"
  let _ ← canonicalPersistedDecimal p.executionFees "position execution_fees"
  let _ ← canonicalPersistedDecimal p.dividendIncome "position dividend_income"
  let realizedPnl ← p.realizedPnl
  let _ ← canonicalPersistedDecimal realizedPnl "position realized_pnl"
  raiseIf (p.openLots ≠ sortOn (·.val.order) p.openLots)
    "open lots must remain in canonical FIFO order"
  let units ← ledger.positionQuantity p.instrumentId
  raiseIf (quantity ≠ units) "account units do not reconcile to the corporate-action ledger"

/-- The amounts of a projection are representable. -/
def UnvaluedFifoAccountProjection.checkPersisted (p : UnvaluedFifoAccountProjection) :
    Py Unit := do
  let _ ← canonicalPersistedDecimal p.cash "account cash"
  let beforeFees ← p.realizedPnlBeforeFees
  let _ ← canonicalPersistedDecimal beforeFees "account realized_pnl_before_fees"
  let fees ← p.executionFees
  let _ ← canonicalPersistedDecimal fees "account execution_fees"
  let _ ← canonicalPersistedDecimal p.corporateActionLedger.dividendIncome
    "account dividend_income"
  let _ ← canonicalPersistedDecimal p.corporateActionLedger.dividendReceivable
    "account dividend_receivable"
  let realizedPnl ← p.realizedPnl
  let _ ← canonicalPersistedDecimal realizedPnl "account realized_pnl"

/-- The single FIFO timeline. -/
def reduceUnvaluedFifo (accountId currency : Str) (ledger : CanonicalLedgerState)
    (corporateActionLedger : CorporateActionLedgerState)
    (canonicalStates : List CanonicalOrderState) (asOf : Instant) :
    Py UnvaluedFifoAccountProjection := do
  let executions ← currentExecutions H canonicalStates
  let timeline := corporateActionLedger.stockSplits.map AccountEvent.split ++
    corporateActionLedger.cashDividends.map .dividend ++ executions.map .execution
  let s ← (sortOn AccountEvent.order timeline).foldlM (applyAccountEvent H accountId) .initial
  let positions ← (sortOn Prod.fst s.symbols.entries).mapM (unvaluedPosition s)
  let executionFees ← exactDecimalSum (positions.map (·.executionFees))
  raiseIf (executionFees ≠ (balanceAt ledger.balances ⟨.executionFees, currency, none⟩).1)
    "account fees do not reconcile to the execution ledger"
  positions.forM (reconcilePosition corporateActionLedger)
  let dividendIncome ← exactDecimalSum (positions.map (·.dividendIncome))
  raiseIf (dividendIncome ≠ corporateActionLedger.dividendIncome)
    "account dividend income does not reconcile to the corporate-action ledger"
  let projection : UnvaluedFifoAccountProjection := {
    accountId, currency, ledger, corporateActionLedger, executions, positions
    realizedMatches := s.realizedMatches
    asOf }
  projection.checkPersisted
  return projection

/-- The accounting evidence shared by the projections. -/
structure FifoEvidence where
  ledger : CanonicalLedgerState
  corporateActionLedger : CorporateActionLedgerState
  canonicalStates : List CanonicalOrderState

/-- The facts an account is projected from. -/
structure AccountFacts where
  accountId : Str
  orderStates : List CanonicalOrderState
  cashFlows : List LedgerCashFlow
  stockSplits : List StockSplitAction
  cashDividends : List CashDividendAccrual
  dividendPayments : List CashDividendPayment
  currency : Str

def prepareFifoEvidence (facts : AccountFacts) (valuationAt : Instant) : Py FifoEvidence := do
  requireText facts.accountId "account_id"
  requireCurrency facts.currency
  let ledger ← reduceExecutionLedger H.toLedgerHashes facts.orderStates facts.cashFlows
    facts.currency
  let corporateActionLedger ← reduceCorporateActionLedger H ledger facts.stockSplits
    facts.cashDividends facts.dividendPayments facts.currency
  raiseIf (∃ asOf ∈ corporateActionLedger.asOf, valuationAt < asOf)
    "valuation_at cannot precede the accounting state"
  let uniqueStates := facts.orderStates.foldl
    (fun d state => d.set state.submission.val.orderId state)
    (Dict.empty : Dict Str CanonicalOrderState)
  return {
    ledger, corporateActionLedger
    canonicalStates := (sortOn Prod.fst uniqueStates.entries).map Prod.snd }

/-- Project current accounting and exact FIFO lineage without requesting marks. -/
def projectUnvaluedFifoAccount (facts : AccountFacts) (asOf : Instant) :
    Py UnvaluedFifoAccountProjection := do
  let evidence ← prepareFifoEvidence H facts asOf
  reduceUnvaluedFifo H facts.accountId facts.currency evidence.ledger
    evidence.corporateActionLedger evidence.canonicalStates asOf

end AutoQuantTrader
