import AutoQuantTrader.AccountBalances

/-!
# The valued account

`projectFifoAccount` values the lot book at the latest known marks and seals the result: the
projection is returned only after every aggregate has been derived a second time from the ledgers
it embeds.

What the projection is for: equity is the money put into the account plus what it has earned, to the
last digit.
-/

namespace AutoQuantTrader

open Result Sorting

/-! ## Marks -/

structure PositionMarkFields where
  (markId sourceEventId instrumentId symbol : Str)
  price : ℚ
  (effectiveAt recordedAt : Instant)
deriving DecidableEq

def PositionMarkFields.postInit (m : PositionMarkFields) : Py Unit := do
  requireText m.markId "mark_id"
  requireText m.sourceEventId "mark source_event_id"
  requireText m.instrumentId "mark instrument_id"
  requireText m.symbol "mark symbol"
  raiseIf (¬ isUppercase m.symbol) "mark symbol must use canonical uppercase form"
  let price ← canonicalPersistedDecimal m.price "mark price"
  raiseIf (price ≤ 0) "mark price must be positive"
  raiseIf (m.recordedAt < m.effectiveAt) "mark cannot be recorded before it is effective"

abbrev PositionMark := Checked PositionMarkFields.postInit

/-- The order in which observed marks are kept. -/
def PositionMarkFields.order (m : PositionMarkFields) :
    Instant ×ₗ Instant ×ₗ Str ×ₗ Str :=
  toLex (m.recordedAt, toLex (m.effectiveAt, toLex (m.instrumentId, m.markId)))

/-- The order in which a later mark of an instrument replaces an earlier one. -/
def PositionMarkFields.recency (m : PositionMarkFields) : Instant ×ₗ Instant ×ₗ Str :=
  toLex (m.effectiveAt, toLex (m.recordedAt, m.markId))

def selectMark (selected : Dict Str PositionMark) (mark : PositionMark) :
    Dict Str PositionMark :=
  match selected.get? mark.val.instrumentId with
  | none => selected.set mark.val.instrumentId mark
  | some previous =>
    if previous.val.recency < mark.val.recency then
      selected.set mark.val.instrumentId mark
    else selected

def canonicalMarks (marks : List PositionMark) (valuationAt : Instant) :
    Py (List PositionMark × Dict Str PositionMark) := do
  let byId ← Dict.unique₂ (·.val.markId) (·.val.sourceEventId)
    (.valueError "mark identity has conflicting semantics")
    (.valueError "mark source identity has conflicting semantics") marks
  let ordered := sortOn (·.val.order) byId.values
  raiseIf (∃ mark ∈ ordered, valuationAt < mark.val.recordedAt)
    "account marks cannot arrive after valuation_at"
  return (ordered, ordered.foldl selectMark .empty)

/-! ## Positions -/

structure InstrumentAccountFields where
  (instrumentId symbol : Str)
  quantity : ℚ
  openLots : List OpenTaxLot
  costBasis : ℚ
  mark : Option PositionMark
  (marketValue realizedPnlBeforeFees executionFees dividendIncome realizedPnl unrealizedPnl : ℚ)
deriving DecidableEq

def marketValueOf (quantity : ℚ) : Option PositionMark → Py ℚ
  | none => return 0
  | some mark => exactDecimalMultiply quantity mark.val.price

def InstrumentAccountFields.postInit (p : InstrumentAccountFields) : Py Unit := do
  requireText p.instrumentId "position instrument_id"
  requireText p.symbol "position symbol"
  raiseIf (¬ isUppercase p.symbol) "position symbol must use canonical uppercase form"
  let quantity ← canonicalPersistedDecimal p.quantity "position quantity"
  raiseIf (quantity < 0 ∨ ¬ isWhole quantity) "position quantity must be non-negative whole shares"
  let lotQuantity ← exactDecimalSum (p.openLots.map (·.val.quantity))
  raiseIf (lotQuantity ≠ quantity) "open lot quantity does not match position quantity"
  raiseIf (p.openLots ≠ sortOn (·.val.order) p.openLots)
    "open lots must remain in canonical FIFO order"
  let expectedCost ← exactDecimalSum (p.openLots.map (·.val.costBasis))
  let costBasis ← canonicalPersistedDecimal p.costBasis "position cost_basis"
  raiseIf (costBasis ≠ expectedCost) "position cost basis does not match its open lots"
  raiseIf (0 < quantity ∧ p.mark = none) "open position requires a causal mark"
  raiseIf (∃ mark ∈ p.mark, mark.val.instrumentId ≠ p.instrumentId ∨ mark.val.symbol ≠ p.symbol)
    "position mark belongs to a different instrument"
  let expectedMarketValue ← marketValueOf quantity p.mark
  let marketValue ← canonicalPersistedDecimal p.marketValue "position market_value"
  raiseIf (marketValue ≠ expectedMarketValue)
    "position market value does not match quantity and mark"
  let beforeFees ← canonicalPersistedDecimal p.realizedPnlBeforeFees
    "position realized_pnl_before_fees"
  let fees ← canonicalPersistedDecimal p.executionFees "position execution_fees"
  let dividendIncome ← canonicalPersistedDecimal p.dividendIncome "position dividend_income"
  let realized ← canonicalPersistedDecimal p.realizedPnl "position realized_pnl"
  let unrealized ← canonicalPersistedDecimal p.unrealizedPnl "position unrealized_pnl"
  raiseIf (fees < 0) "position execution fees cannot be negative"
  raiseIf (dividendIncome < 0) "position dividend income cannot be negative"
  let afterFees ← exactDecimalSubtract beforeFees fees
  let expectedRealized ← exactDecimalAdd afterFees dividendIncome
  raiseIf (realized ≠ expectedRealized) "position realized P&L does not include fees and dividends"
  let expectedUnrealized ← exactDecimalSubtract expectedMarketValue expectedCost
  raiseIf (unrealized ≠ expectedUnrealized) "position unrealized P&L is inconsistent"

abbrev InstrumentAccountProjection := Checked InstrumentAccountFields.postInit

/-! ## The account -/

/-- One account's canonical valuation state. -/
structure CanonicalAccountProjection where
  (accountId currency : Str)
  ledger : CanonicalLedgerState
  corporateActionLedger : CorporateActionLedgerState
  observedMarks : List PositionMark
  positions : List InstrumentAccountProjection
  (cash marketValue equity grossExposure netExposure realizedPnlBeforeFees executionFees
    dividendIncome dividendReceivable realizedPnl unrealizedPnl : ℚ)
  asOf : Instant

variable (H : CorporateHashes)

section validation

variable (p : CanonicalAccountProjection)

/-- The embedded corporate-action ledger is the one its own facts produce. -/
def validateLedgers : Py Unit := do
  raiseIf (p.corporateActionLedger.baseLedger ≠ p.ledger)
    "account projection corporate-action ledger does not bind its execution ledger"
  raiseIf (p.corporateActionLedger.currency ≠ p.currency)
    "account projection currency differs from its corporate-action ledger"
  let expected ← reduceCorporateActionLedger H p.ledger p.corporateActionLedger.stockSplits
    p.corporateActionLedger.cashDividends p.corporateActionLedger.dividendPayments p.currency
  raiseIf (expected ≠ p.corporateActionLedger)
    "account projection requires a canonical corporate-action ledger"
  raiseIf (∃ asOf ∈ p.ledger.asOf, p.asOf < asOf)
    "account projection as_of precedes its execution ledger evidence"
  raiseIf (∃ asOf ∈ p.corporateActionLedger.asOf, p.asOf < asOf)
    "account projection as_of precedes its corporate-action ledger evidence"

/-- A position carries the selected mark and agrees with the ledger. -/
def validatePosition (selected : Dict Str PositionMark) (position : InstrumentAccountProjection) :
    Py Unit := do
  raiseIf (position.val.mark ≠ selected.get? position.val.instrumentId)
    "account position does not bind its selected canonical mark"
  raiseIf (∃ lot ∈ position.val.openLots, p.asOf < lot.val.acquiredAt)
    "account projection as_of precedes open-lot evidence"
  let units ← p.corporateActionLedger.positionQuantity position.val.instrumentId
  raiseIf (position.val.quantity ≠ units)
    "account units do not reconcile to the corporate-action ledger"

/-- Every instrument the execution ledger names has a position, and no other has. -/
def exhaustsInstruments : Prop :=
  (∀ position ∈ p.positions, ∃ entry ∈ p.ledger.entries, ∃ posting ∈ entry.val.postings,
    posting.val.key.instrumentId = some position.val.instrumentId) ∧
  ∀ entry ∈ p.ledger.entries, ∀ posting ∈ entry.val.postings,
    ∀ instrumentId ∈ posting.val.key.instrumentId,
      ∃ position ∈ p.positions, position.val.instrumentId = instrumentId

instance : Decidable (exhaustsInstruments p) :=
  inferInstanceAs (Decidable (_ ∧ _))

def validatePositions : Py Unit := do
  raiseIf (∃ mark ∈ p.observedMarks,
      mark.val.markId ≠ H.canonicalId "position-mark" [.text mark.val.sourceEventId])
    "account projection mark does not have its canonical identity"
  let (canonical, selected) ← canonicalMarks p.observedMarks p.asOf
  raiseIf (canonical ≠ p.observedMarks) "account projection marks are not canonical"
  raiseIf (p.positions ≠ sortOn (·.val.instrumentId) p.positions)
    "account positions are not canonically ordered"
  raiseIf (¬ (p.positions.map (·.val.instrumentId)).Nodup)
    "account projection repeats an instrument"
  p.positions.forM (validatePosition p selected)
  raiseIf (¬ exhaustsInstruments p)
    "account positions do not exhaust the execution-ledger instruments"

def checkAggregate (fieldName : Str) (retained expected : ℚ) : Py Unit := do
  let retained ← canonicalPersistedDecimal retained ("account " ++ fieldName)
  raiseIf (retained ≠ expected) ("account " ++ fieldName ++ " does not match canonical evidence")

def validateAggregates : Py Unit := do
  let cash := p.corporateActionLedger.cashBalance
  let marketValue ← exactDecimalSum (p.positions.map (·.val.marketValue))
  let invested ← exactDecimalAdd cash marketValue
  let equity ← exactDecimalAdd invested p.corporateActionLedger.dividendReceivable
  let grossExposure ← exactDecimalSum (p.positions.map (|·.val.marketValue|))
  let netExposure ← exactDecimalSum (p.positions.map (·.val.marketValue))
  let beforeFees ← exactDecimalSum (p.positions.map (·.val.realizedPnlBeforeFees))
  let executionFees ← exactDecimalSum (p.positions.map (·.val.executionFees))
  raiseIf (executionFees ≠ (balanceAt p.ledger.balances ⟨.executionFees, p.currency, none⟩).1)
    "account fees do not reconcile to the execution ledger"
  let dividendIncome ← exactDecimalSum (p.positions.map (·.val.dividendIncome))
  raiseIf (dividendIncome ≠ p.corporateActionLedger.dividendIncome)
    "account dividend income does not reconcile to the corporate-action ledger"
  let afterFees ← exactDecimalSubtract beforeFees executionFees
  let realized ← exactDecimalAdd afterFees dividendIncome
  let positionRealized ← exactDecimalSum (p.positions.map (·.val.realizedPnl))
  raiseIf (realized ≠ positionRealized) "account realized P&L does not reconcile to its positions"
  let unrealized ← exactDecimalSum (p.positions.map (·.val.unrealizedPnl))
  checkAggregate "cash" p.cash cash
  checkAggregate "market_value" p.marketValue marketValue
  checkAggregate "equity" p.equity equity
  checkAggregate "gross_exposure" p.grossExposure grossExposure
  checkAggregate "net_exposure" p.netExposure netExposure
  checkAggregate "realized_pnl_before_fees" p.realizedPnlBeforeFees beforeFees
  checkAggregate "execution_fees" p.executionFees executionFees
  checkAggregate "dividend_income" p.dividendIncome dividendIncome
  checkAggregate "dividend_receivable" p.dividendReceivable
    p.corporateActionLedger.dividendReceivable
  checkAggregate "realized_pnl" p.realizedPnl realized
  checkAggregate "unrealized_pnl" p.unrealizedPnl unrealized

/-- Re-derive all retained proof fields from the embedded canonical evidence. -/
def CanonicalAccountProjection.validate : Py Unit := do
  requireText p.accountId "account_id"
  requireCurrency p.currency
  validateLedgers H p
  validatePositions H p
  validateAggregates p

end validation

/-- Value one position at its selected mark. -/
def valuePosition (selected : Dict Str PositionMark) (position : UnvaluedFifoPosition) :
    Py InstrumentAccountProjection := do
  let quantity ← position.quantity
  let mark := selected.get? position.instrumentId
  raiseIf (0 < quantity ∧ mark = none)
    ("open position lacks a causal mark for " ++ position.instrumentId)
  raiseIf (0 < quantity ∧ ∃ m ∈ mark, ∃ splitAt ∈ position.latestSplitAt,
      m.val.effectiveAt ≤ splitAt)
    ("open position lacks an unambiguous post-split mark for " ++ position.instrumentId)
  raiseIf (∃ m ∈ mark, m.val.symbol ≠ position.symbol)
    "mark symbol conflicts with execution evidence"
  let marketValue ← marketValueOf quantity mark
  let costBasis ← position.costBasis
  let realizedPnl ← position.realizedPnl
  let unrealizedPnl ← exactDecimalSubtract marketValue costBasis
  construct {
    instrumentId := position.instrumentId
    symbol := position.symbol
    quantity
    openLots := position.openLots
    costBasis
    mark
    marketValue
    realizedPnlBeforeFees := position.realizedPnlBeforeFees
    executionFees := position.executionFees
    dividendIncome := position.dividendIncome
    realizedPnl
    unrealizedPnl }

/-- Project a long-only cash account from corrected executions and causal marks. -/
def projectFifoAccount (facts : AccountFacts) (marks : List PositionMark)
    (valuationAt : Instant) : Py CanonicalAccountProjection := do
  let evidence ← prepareFifoEvidence H facts valuationAt
  let (observedMarks, selected) ← canonicalMarks marks valuationAt
  let unvalued ← reduceUnvaluedFifo H facts.accountId facts.currency evidence.ledger
    evidence.corporateActionLedger evidence.canonicalStates valuationAt
  let positions ← unvalued.positions.mapM (valuePosition selected)
  let marketValue ← exactDecimalSum (positions.map (·.val.marketValue))
  let unrealizedPnl ← exactDecimalSum (positions.map (·.val.unrealizedPnl))
  let invested ← exactDecimalAdd unvalued.cash marketValue
  let equity ← exactDecimalAdd invested evidence.corporateActionLedger.dividendReceivable
  let realizedPnlBeforeFees ← unvalued.realizedPnlBeforeFees
  let executionFees ← unvalued.executionFees
  let realizedPnl ← unvalued.realizedPnl
  let projection : CanonicalAccountProjection := {
    accountId := facts.accountId
    currency := facts.currency
    ledger := evidence.ledger
    corporateActionLedger := evidence.corporateActionLedger
    observedMarks
    positions
    cash := unvalued.cash
    marketValue
    equity
    grossExposure := |marketValue|
    netExposure := marketValue
    realizedPnlBeforeFees
    executionFees
    dividendIncome := unvalued.corporateActionLedger.dividendIncome
    dividendReceivable := evidence.corporateActionLedger.dividendReceivable
    realizedPnl
    unrealizedPnl
    asOf := valuationAt }
  projection.validate H
  return projection

/-! ## The equity identity -/

variable {H}

/-- A valued position gains what its shares are worth above their basis. -/
theorem valuePosition_spec (h : valuePosition selected position = .ok valued) :
    valued.val.marketValue = valued.val.unrealizedPnl + position.basis := by
  simp only [valuePosition, Py.eq_ok] at h
  obtain ⟨quantity, -, _, -, _, -, _, -, marketValue, -, costBasis, hcost, _, -, unrealized,
    hunrealized, hvalued⟩ := h
  rw [hvalued]
  change marketValue = unrealized + position.basis
  rw [exactDecimalSubtract_eq hunrealized, exactDecimalSum_eq hcost, UnvaluedFifoPosition.basis]
  ring

/-- Market values are the bases and the unrealized results over them. -/
theorem marketValue_eq {unvalued : List UnvaluedFifoPosition}
    (h : unvalued.mapM (valuePosition selected) = .ok positions) :
    (positions.map (·.val.marketValue)).sum =
      (positions.map (·.val.unrealizedPnl)).sum + (unvalued.map (·.basis)).sum := by
  induction unvalued generalizing positions with
  | nil =>
    rw [mapM_nil_eq_ok] at h
    simp [← h]
  | cons position unvalued ih =>
    obtain ⟨valued, hvalued, rest, hrest, rfl⟩ := mapM_cons_eq_ok.1 h
    simp only [List.map_cons, List.sum_cons, valuePosition_spec hvalued, ih hrest]
    ring

variable {p : UnvaluedFifoAccountProjection}

theorem realizedPnl_spec (h : p.realizedPnl = .ok realized) :
    realized = (p.positions.map (·.realizedPnlBeforeFees)).sum -
      (p.positions.map (·.executionFees)).sum + p.corporateActionLedger.dividendIncome := by
  simp only [UnvaluedFifoAccountProjection.realizedPnl, eq_ok] at h
  obtain ⟨beforeFees, hbefore, fees, hfees, afterFees, hafter, hrealized⟩ := h
  rw [exactDecimalAdd_eq hrealized, exactDecimalSubtract_eq hafter, exactDecimalSum_eq hbefore,
    exactDecimalSum_eq hfees]

/-- An account at cost: cash, receivables and the basis of its lots are the money put in and what
has been realized. -/
theorem costValue_eq (hevidence : prepareFifoEvidence H facts valuationAt = .ok evidence)
    (h : reduceUnvaluedFifo H facts.accountId facts.currency evidence.ledger
      evidence.corporateActionLedger evidence.canonicalStates asOf = .ok p) :
    p.corporateActionLedger = evidence.corporateActionLedger ∧
      p.cash + p.corporateActionLedger.dividendReceivable + (p.positions.map (·.basis)).sum =
        facts.contributions - facts.withdrawals + (p.positions.map (·.realizedPnlBeforeFees)).sum -
          (p.positions.map (·.executionFees)).sum + p.corporateActionLedger.dividendIncome := by
  obtain ⟨hperm, hcanonical, -⟩ := prepareFifoEvidence_spec hevidence
  obtain ⟨hcorporate, hbasis, hfees, -⟩ := reduceUnvaluedFifo_spec hcanonical h
  have hnotional : ((ownedExecutions evidence.canonicalStates).map signedNotional).sum =
      facts.notional := by
    rw [AccountFacts.notional, AccountFacts.executions, sum_ownedExecutions, sum_ownedExecutions]
    exact (hperm.map _).sum_eq
  rw [hnotional] at hbasis
  refine ⟨hcorporate, ?_⟩
  rw [hfees, executionFees_eq hevidence, UnvaluedFifoAccountProjection.cash, hcorporate,
    cashBalance_eq hevidence, dividendIncome_eq hevidence, dividendReceivable_eq hevidence]
  linarith

/-- **Equity is the money put in plus the money made**, for every history of orders, corrections,
flows, splits, dividends and marks that can be projected. -/
theorem equity_eq_flows_add_pnl {facts : AccountFacts} {marks : List PositionMark}
    {valuationAt : Instant} {p : CanonicalAccountProjection}
    (h : projectFifoAccount H facts marks valuationAt = .ok p) :
    p.equity = facts.contributions - facts.withdrawals + p.realizedPnl + p.unrealizedPnl := by
  simp only [projectFifoAccount, eq_ok] at h
  obtain ⟨evidence, hevidence, ⟨observed, selected⟩, -, unvalued, hunvalued, positions, hpositions,
    marketValue, hmarketValue, unrealized, hunrealized, invested, hinvested, equity, hequity,
    beforeFees, -, fees, -, realized, hrealized, _, -, rfl⟩ := h
  obtain ⟨hcorporate, hcost⟩ := costValue_eq hevidence hunvalued
  rw [← hcorporate] at hequity
  have hvalue : marketValue = unrealized + (unvalued.positions.map (·.basis)).sum := by
    rw [exactDecimalSum_eq hmarketValue, exactDecimalSum_eq hunrealized]
    exact marketValue_eq hpositions
  change equity = _ + realized + unrealized
  rw [exactDecimalAdd_eq hequity, exactDecimalAdd_eq hinvested, realizedPnl_spec hrealized, hvalue]
  linarith

/-! A small account: shares are bought, the purchase is corrected, some are sold at a gain, and a
dividend on the rest is still to be paid. -/

def sampleIntent (side : Side) (quantity : ℚ) : Py OrderIntent :=
  plainIntent (plainId "intent" [.enum "Side" side.value]) side quantity

def sampleEvent (orderId : Str) (sequence : Nat) (at_ : Instant) (kind : BrokerOrderEventKind) :
    Py BrokerOrderEvent :=
  plainEvent (plainId "event" [.text orderId, .integer sequence]) orderId
    (plainId "broker" [.text orderId]) sequence at_ kind

def samplePurchase : Py CanonicalOrderState := do
  let intent ← sampleIntent .buy 10
  let submission ← createOrderSubmission .plain intent "risk" "attempt" 0
  let orderId := submission.val.orderId
  let fill ← sampleEvent orderId 1 1 (.execution ⟨"x1", 1, 10, 20, 1⟩)
  let correction ← sampleEvent orderId 2 2
    (.executionCorrection ⟨"x1", 2, 9, 21, 1⟩ fill.val.eventId)
  reduceOrderLifecycle .plain submission [fill, correction] none

def sampleSale : Py CanonicalOrderState := do
  let intent ← sampleIntent .sell 4
  let submission ← createOrderSubmission .plain intent "risk" "attempt" 0
  let fill ← sampleEvent submission.val.orderId 1 3 (.execution ⟨"x2", 1, 4, 25, 1⟩)
  reduceOrderLifecycle .plain submission [fill] none

def sampleFacts : Py AccountFacts := do
  let contribution ← createCashFlow .plain .contribution "USD" 1000 0 0 "wire"
  let purchase ← samplePurchase
  let sale ← sampleSale
  let dividend ← construct {
    dividendId := "d1"
    sourceActionId := "action"
    sourceRevisionId := "revision"
    sourceSha256 := "s"
    instrumentId := "i1"
    symbol := "ABC"
    currency := "USD"
    amountPerShare := 1 / 2
    entitledQuantity := 5
    effectiveAt := 4
    payableAt := 9
    recordedAt := 4 }
  return {
    accountId := "account"
    orderStates := [purchase, sale]
    cashFlows := [contribution, contribution]
    stockSplits := []
    cashDividends := [dividend]
    dividendPayments := []
    currency := "USD" }

def sampleMark : Py PositionMark :=
  construct ⟨plainId "position-mark" [.text "close"], "close", "i1", "ABC", 30, 5, 5⟩

/-- The equity of the sample account, of its facts and of its gains. -/
def sampleEquity : Py (ℚ × ℚ × ℚ) := do
  let facts ← sampleFacts
  let mark ← sampleMark
  let p ← projectFifoAccount .plain facts [mark] 6
  return (p.equity, p.realizedPnl, p.unrealizedPnl)

theorem sample_equity_eq :
    ∃ facts marks p, projectFifoAccount .plain facts marks 6 = .ok p ∧
      (p.equity, p.realizedPnl, p.unrealizedPnl) = (2123 / 2, 33 / 2, 45) ∧
      p.equity = facts.contributions - facts.withdrawals + p.realizedPnl + p.unrealizedPnl := by
  have h : sampleEquity = .ok (2123 / 2, 33 / 2, 45) := by decide +kernel
  simp only [sampleEquity, eq_ok] at h
  obtain ⟨facts, -, mark, -, p, hp, hvalues⟩ := h
  exact ⟨facts, [mark], p, hp, hvalues, equity_eq_flows_add_pnl hp⟩

end AutoQuantTrader
