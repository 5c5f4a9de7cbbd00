import AutoQuantTrader.Fifo
import AutoQuantTrader.Settlement

/-!
# The records of the accounting port

Commitments, commands, the account state and what a command is answered with.
-/

namespace AutoQuantTrader

open Result Sorting

/-! ## The execution policy -/

structure SettlementCalendarFields where
  (calendarId version : Str)
  businessDates : List Day

def SettlementCalendarFields.postInit (c : SettlementCalendarFields) : Py Unit := do
  requireBoundedText c.calendarId "settlement calendar"
  requireBoundedText c.version "calendar version"
  raiseIf (c.businessDates = [] ∨ ¬ c.businessDates.Pairwise (· < ·))
    "settlement dates must be nonempty sorted unique dates"

abbrev SettlementCalendar := Checked SettlementCalendarFields.postInit

inductive ExecutionModel where
  | nextRegularOpenProxy | syntheticEvents

def ExecutionModel.value : ExecutionModel → Str
  | .nextRegularOpenProxy => "next-regular-open-proxy-v1"
  | .syntheticEvents => "synthetic-events-v1"

structure ExecutionPolicyFields where
  settlementCalendar : SettlementCalendar
  modelId : ExecutionModel
  (slippageBps feePerShare : ℚ)

def ExecutionPolicyFields.postInit (p : ExecutionPolicyFields) : Py Unit := do
  requireAmount p.slippageBps "slippage" true false false
  requireAmount p.feePerShare "per-share fee" true false false
  raiseIf (10000 ≤ p.slippageBps) "unsupported cost model"

abbrev ExecutionPolicy := Checked ExecutionPolicyFields.postInit

/-! ## Commitments -/

inductive CommitmentState where
  | approvedUnsent | active | working | partial_ | unknown | pendingCancel | terminal
deriving DecidableEq

/-- An order the account stands by, with what it holds for it. -/
structure CommitmentFields where
  (commitmentId intentId orderId instrumentId symbol : Str)
  side : Side
  (originalQuantity filledQuantity remainingQuantity reservedCash reservedSellQuantity
    approvedPrice remainingFeeBudget : ℚ)
  (sourceSession executionSession : Day)
  createdSequence : Nat
  (notBefore expiresAt : Instant)
  (policySha256 snapshotSha256 : Str)
  state : CommitmentState
  activatedAt : Option Instant
  (activationSequence activationFrontier : Option Nat)
  terminalReason : Option Str
deriving DecidableEq

def CommitmentFields.postInit (c : CommitmentFields) : Py Unit := do
  requireBoundedText c.commitmentId "commitment_id"
  requireBoundedText c.intentId "intent_id"
  requireBoundedText c.orderId "order_id"
  requireBoundedText c.instrumentId "instrument_id"
  requireBoundedText c.symbol "symbol"
  requireAmount c.originalQuantity "original_quantity" true false true
  requireAmount c.filledQuantity "filled_quantity" true false true
  requireAmount c.remainingQuantity "remaining_quantity" true false true
  requireAmount c.reservedSellQuantity "reserved_sell_quantity" true false true
  requireAmount c.reservedCash "reserved_cash" true false false
  requireAmount c.approvedPrice "approved_price" true false false
  requireAmount c.remainingFeeBudget "remaining_fee_budget" true false false
  raiseIf (c.originalQuantity ≤ 0 ∨ c.originalQuantity < c.filledQuantity)
    "commitment quantity exceeds original"
  let unfilled ← exactDecimalSubtract c.originalQuantity c.filledQuantity
  raiseIf (unfilled < c.remainingQuantity) "commitment remainder exceeds unfilled quantity"
  raiseIf (c.expiresAt ≤ c.notBefore) "invalid commitment window/sequence"
  raiseIf (c.state = .terminal ∧
      (c.remainingQuantity ≠ 0 ∨ c.reservedCash ≠ 0 ∨ c.reservedSellQuantity ≠ 0))
    "terminal commitment cannot retain capacity"

/-- An installed order with the capacity it reserves. -/
abbrev Commitment := Checked CommitmentFields.postInit

/-- What the checks of a commitment say about its amounts. -/
theorem Commitment.bounds (c : Commitment) :
    0 ≤ c.val.remainingQuantity ∧ 0 ≤ c.val.reservedSellQuantity ∧ 0 ≤ c.val.reservedCash ∧
      0 ≤ c.val.approvedPrice ∧ 0 ≤ c.val.remainingFeeBudget ∧
      (c.val.state = .terminal → c.val.reservedCash = 0 ∧ c.val.reservedSellQuantity = 0) := by
  have hpasses := c.passes
  simp only [CommitmentFields.postInit, Py.eq_ok, not_and, not_or]
    at hpasses
  obtain ⟨_, -, _, -, _, -, _, -, _, -, _, -, _, -, _, hremaining, _, hshares, _, hcash, _, hprice,
    _, hbudget, _, -, _, -, _, -, _, -, hterminal⟩ := hpasses
  exact ⟨nonneg_of_requireAmount hremaining, nonneg_of_requireAmount hshares,
    nonneg_of_requireAmount hcash, nonneg_of_requireAmount hprice, nonneg_of_requireAmount hbudget,
    fun hstate => (hterminal hstate).2⟩

/-! ## Rows and snapshots -/

structure PositionState where
  (instrumentId symbol : Str)
  (quantity costBasis : ℚ)
  lots : List OpenTaxLot
  (grossRealizedPnl fees dividendIncome dividendReceivable : ℚ)

structure FifoMatchRow where
  (matchId instrumentId openingExecutionId : Str)
  openingRevision : Nat
  closingExecutionId : Str
  closingRevision : Nat
  (openingOrderId closingOrderId : Str)
  (quantity basis proceeds openingFee closingFee : ℚ)
  (acquiredAt disposedAt : Instant)
  sourceSha256 : Str
  splitIds : List Str
  groupComplete : Bool

structure ExecutionRow where
  executionId : Str
  revision : Nat
  (factId factSha256 orderId intentId instrumentId symbol : Str)
  side : Side
  (quantity price fee : ℚ)
  (economicAt knowledgeAt : Instant)
  sequence : Nat
  modelId : Str
  supersedesFactId : Option Str

/-- What the account is worth and may spend at one point. -/
structure AccountSnapshot where
  accountId : Str
  point : ReductionPoint
  stateSha256 : Str
  positions : List PositionState
  commitments : List Commitment
  marks : List CausalMark
  (tradeDateCash settledCash tradeReceivable tradePayable dividendReceivable buyReserve
    sellFeeReserve availableCash : ℚ)
  (marketValue nav : Option ℚ)
  (grossRealizedPnl fees dividendIncome : ℚ)
  unrealizedPnl : Option ℚ
  netExternalFlow : ℚ
  (journalSha256 orderSha256 : Str)
  valuationReasons : List Str
  lastKnownNav : Option ℚ
  halted : Bool

/-! ## Commands -/

inductive ObservationBasis where
  | rawOpen | syntheticPrice
deriving DecidableEq

structure ExecutionObservationFields where
  (observationId instrumentId symbol : Str)
  session : Day
  price : ℚ
  (economicAt knowledgeAt : Instant)
  (modelId sourceSha256 : Str)
  quantityBudget : Option ℚ
  basis : ObservationBasis
deriving DecidableEq

def requireOptionalAmount (value : Option ℚ) (name : Str) (nonnegative positive whole : Bool) :
    Py Unit :=
  match value with
  | some amount => requireAmount amount name nonnegative positive whole
  | none => pure ⟨⟩

def ExecutionObservationFields.postInit (o : ExecutionObservationFields) : Py Unit := do
  requireAmount o.price "execution reference price" false true false
  requireOptionalAmount o.quantityBudget "quantity budget" true false true
  raiseIf (o.knowledgeAt < o.economicAt) "execution observation cannot arrive before its event"

abbrev ExecutionObservation := Checked ExecutionObservationFields.postInit

inductive DispositionKind where
  | dayExpired | unknown | resolvedNoRemaining
deriving DecidableEq

def DispositionKind.value : DispositionKind → Str
  | .dayExpired => "day_expired"
  | .unknown => "unknown"
  | .resolvedNoRemaining => "resolved_no_remaining"

inductive AccountingPayload where
  | installCommitment (submission : OrderSubmission) (commitment : Commitment)
  | activateCommitment (commitmentId : Str)
  | executionObservation (observation : ExecutionObservation)
  | brokerOrderEvent (event : BrokerOrderEvent)
  | orderCancelRequest (request : OrderCancelRequest)
  | ledgerCashFlow (flow : LedgerCashFlow)
  | stockSplitAction (split : StockSplitAction)
  | cashDividendAccrual (dividend : CashDividendAccrual)
  | cashDividendPayment (payment : CashDividendPayment)
  | settlementInstruction (instruction : ExecutionSettlementInstruction)
  | settlementConfirmation (confirmation : ExecutionSettlementConfirmation)
  | causalMark (mark : CausalMark)
  | modelDisposition (commitmentId : Str) (kind : DispositionKind) (evidenceId : Str)
  | controlCommand (halted : Bool) (reason : Str)
deriving DecidableEq

structure AccountingCommand where
  commandId : Str
  payload : AccountingPayload
deriving DecidableEq

/-! ## State and answers -/

/-- The facts of an account; everything else is projected from them. -/
structure AccountingState where
  accountId : Str
  executionPolicySha256 : Option Str
  commands : List (Str × Str)
  submissions : List OrderSubmission
  brokerEvents : List BrokerOrderEvent
  eventPoints : List (Str × ReductionPoint)
  observations : List ExecutionObservation
  cancelRequests : List OrderCancelRequest
  cashFlows : List LedgerCashFlow
  stockSplits : List StockSplitAction
  cashDividends : List CashDividendAccrual
  dividendPayments : List CashDividendPayment
  settlementInstructions : List ExecutionSettlementInstruction
  settlementConfirmations : List ExecutionSettlementConfirmation
  commitments : List Commitment
  marks : List CausalMark
  halted : Bool
  revision : Nat
deriving DecidableEq

/-- The account before any command. -/
def AccountingState.initial (accountId : Str) : AccountingState :=
  { accountId
    executionPolicySha256 := none
    commands := []
    submissions := []
    brokerEvents := []
    eventPoints := []
    observations := []
    cancelRequests := []
    cashFlows := []
    stockSplits := []
    cashDividends := []
    dividendPayments := []
    settlementInstructions := []
    settlementConfirmations := []
    commitments := []
    marks := []
    halted := false
    revision := 0 }

structure AccountingContext where
  runId : Str
  point : ReductionPoint
  economicAt : Instant
  eventId : Str
  expectedMarkSession : Day
  instruments : List (Str × Str)
  approvedSnapshot : Option AccountSnapshot
  riskPolicySha256 : Option Str

structure DueAccountingEvent where
  (eventId parentEventId : Str)
  dueAt : Instant
  command : AccountingCommand
  policySha256 : Str

inductive Disposition where
  | applied | duplicate | rejected
deriving DecidableEq

structure AccountingTransition where
  disposition : Disposition
  state : AccountingState
  snapshot : AccountSnapshot
  journalEntries : List CanonicalLedgerEntry
  executions : List ExecutionRow
  fifoMatches : List FifoMatchRow
  dueEvents : List DueAccountingEvent
  reasons : List Str

/-- The identifier and digest functions of the accounting records. -/
structure AccountingHashes extends SettlementHashes where
  realizedMatch : FifoRealizedMatch → Str
  policy : ExecutionPolicy → Str
  command : AccountingCommand → Str
  state : AccountingState → Str
  snapshot : AccountSnapshot → Str
  journal : List CanonicalLedgerEntry → Str
  orders : List CanonicalOrderState → Str

def AccountingHashes.plain : AccountingHashes where
  toSettlementHashes := .plain
  realizedMatch m := plainId "match" [.text m.matchId]
  policy p := plainId "policy" [.text p.val.settlementCalendar.val.calendarId]
  command c := plainId "command" [.text c.commandId]
  state s := plainId "state" [.text s.accountId, .integer s.revision]
  snapshot s := plainId "snapshot" [.text s.stateSha256, .integer s.point.reductionSequence]
  journal entries := plainId "journal" [.integer entries.length]
  orders orders := plainId "orders" [.integer orders.length]

end AutoQuantTrader
