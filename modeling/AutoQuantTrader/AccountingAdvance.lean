import AutoQuantTrader.Accounting

/-!
# Offline accounting: one command

`advance` answers a command.  A command that has been applied before is a duplicate, or a conflict
if its content differs; any other command is tried on the state, and the account as it would then be
is projected before the answer is given.  A `ValueError` on the way rejects the command.
-/

namespace AutoQuantTrader

open Result Sorting

variable (H : AccountingHashes) (Z : EasternTime)

/-! ## Facts -/

/-- Add a fact under its identity, unless the same fact is there already. -/
def appendFact {α : Type} [DecidableEq α] (identity : α → Str) (identityName : Str)
    (values : List α) (value : α) : Py (List α) :=
  match values.find? (identity · = identity value) with
  | some previous => do
    raiseIf (previous ≠ value) ("conflicting " ++ identityName)
    return values
  | none => return sortOn identity (values ++ [value])

def findCommitment (s : AccountingState) (commitmentId : Str) : Py Commitment :=
  getOrThrow (s.commitments.find? (·.val.commitmentId = commitmentId))
    (.valueError "unknown commitment")

def replaceCommitment (s : AccountingState) (value : Commitment) : AccountingState :=
  { s with commitments := s.commitments.map fun item =>
      if item.val.commitmentId = value.val.commitmentId then value else item }

/-- `replace(commitment, ...)`: the record checks itself again. -/
def updateCommitment (fields : CommitmentFields) : Py Commitment := construct fields

/-! ## Broker events -/

/-- How many business days a trade of a day takes to settle. -/
def settlementLag (tradeDate : Day) : Nat :=
  if tradeDate < 736577 then 3 else if tradeDate < 739034 then 2 else 1

/-- When the trade date of an event begins to count: a correction counts from its receipt. -/
def settlementInstant (event : BrokerOrderEvent) : Instant :=
  match event.val.kind with
  | .executionCorrection _ _ => event.val.receivedAt
  | _ => event.val.occurredAt

def settlementAt (event : BrokerOrderEvent) (policy : ExecutionPolicy) : Py Instant := do
  let tradeDate := Z.date (settlementInstant event)
  let dates := policy.val.settlementCalendar.val.businessDates
  let first ← getOrThrow dates.head? .indexError
  let last ← getOrThrow dates.getLast? .indexError
  raiseIf (tradeDate < first ∨ last < tradeDate) "settlement calendar lacks trade-date coverage"
  let following := dates.filter (tradeDate < ·)
  let settlementDay ← getOrThrow following[settlementLag tradeDate - 1]?
    (.valueError "settlement calendar coverage exhausted")
  return Z.instant settlementDay (9 * 60 + 30)

/-- What is left of a fee budget after an order's fees have changed. -/
def feeBudgetAfter (terminal : Bool) (budget feesBefore feesAfter : ℚ) : Py ℚ :=
  if terminal then return 0
  else do
    let spent ← exactDecimalSubtract feesAfter feesBefore
    let left ← exactDecimalSubtract budget spent
    return max 0 left

/-- A correction that takes shares back leaves the order unknown, with fees for the remainder. -/
def reopenedBudget (reopened : Bool) (feeBudget remaining feePerShare : ℚ) : Py ℚ :=
  if reopened then do
    let modeled ← exactDecimalMultiply remaining feePerShare
    return max feeBudget modeled
  else return feeBudget

def reserveAfter (terminal : Bool) (side : Side) (remaining price feeBudget : ℚ) : Py ℚ :=
  if terminal then return 0 else reserve side remaining price feeBudget

/-- The state of a commitment after an event. -/
def stateAfter (c : Commitment) (terminal reopened : Bool) (filledQuantity : ℚ) : CommitmentState :=
  if terminal then .terminal
  else if reopened then .unknown
  else if c.val.state = .unknown ∨ c.val.state = .pendingCancel then c.val.state
  else if filledQuantity ≠ 0 then .partial_
  else .working

def CanonicalOrderStatus.value : CanonicalOrderStatus → Str
  | .submitted => "submitted"
  | .working => "working"
  | .partiallyFilled => "partially_filled"
  | .filled => "filled"
  | .canceled => "canceled"
  | .rejected => "rejected"

/-- A commitment after an event has moved its order from `before` to `after`. -/
def commitmentAfter (policy : ExecutionPolicy) (event : BrokerOrderEvent) (c : Commitment)
    (before after : CanonicalOrderState) : Py Commitment := do
  let terminal : Bool := c.val.state = .terminal ∨ after.status.isTerminal
  let reopened : Bool := event.val.kind.isCorrection ∧
    after.filledQuantity < before.filledQuantity ∧ ¬ terminal
  let remaining ← remainder terminal c.val.originalQuantity after.filledQuantity
  let feeBudget ← feeBudgetAfter terminal c.val.remainingFeeBudget before.totalFees after.totalFees
  let feeBudget ← reopenedBudget reopened feeBudget remaining policy.val.feePerShare
  let reserved ← reserveAfter terminal c.val.side remaining c.val.approvedPrice feeBudget
  updateCommitment { c.val with
    filledQuantity := after.filledQuantity
    remainingQuantity := remaining
    remainingFeeBudget := feeBudget
    reservedCash := reserved
    reservedSellQuantity := sellQuantity c.val.side remaining
    state := stateAfter c terminal reopened after.filledQuantity
    terminalReason := if terminal then
        some ((c.val.terminalReason.filter (· ≠ Str.of "")).getD after.status.value)
      else none }

/-- The change in cash an event makes against the revision it supersedes. -/
def settlementDelta (events : List BrokerOrderEvent) (side : Side) (event : BrokerOrderEvent) :
    Py ℚ :=
  match event.val.kind with
  | .execution report => eventCash report side
  | .executionCorrection report supersedes => do
    let current ← eventCash report side
    let previous ← getOrThrow (events.find? (·.val.eventId = supersedes)) .stopIteration
    let superseded ← getOrThrow previous.val.kind.report? .assertionError
    let replaced ← eventCash superseded side
    exactDecimalSubtract current replaced
  | _ => return 0

/-- The instruction of an execution event, made from the calendar when there is none. -/
def instructionFor (policy : ExecutionPolicy) (event : BrokerOrderEvent) (s : AccountingState) :
    Py (AccountingState × ExecutionSettlementInstruction) :=
  match s.settlementInstructions.find? (·.val.executionEventId = event.val.eventId) with
  | some instruction => return (s, instruction)
  | none => do
    let reference := H.canonicalId "modeled-settlement"
      [.text s.accountId, .text event.val.eventId, .text (H.policy policy)]
    let contractualSettlementAt ← settlementAt Z event policy
    let instruction ← createSettlementInstruction H.toSettlementHashes event
      contractualSettlementAt event.val.receivedAt reference
    let instructions ← appendFact (·.val.instructionId) "instruction_id"
      s.settlementInstructions instruction
    return ({ s with settlementInstructions := instructions }, instruction)

section event

variable (context : AccountingContext) (policy : ExecutionPolicy) (event : BrokerOrderEvent)

/-- Schedule the settlement of an execution that moves cash. -/
def scheduleSettlement (delta : ℚ) (s : AccountingState) :
    Py (AccountingState × List DueAccountingEvent) :=
  if delta = 0 then return (s, [])
  else do
    let (s, instruction) ← instructionFor H Z policy event s
    raiseIf (instruction.val.executionEventSha256 ≠ H.brokerEvent event)
      "explicit instruction does not bind exact execution"
    let dueAt := max (max instruction.val.contractualSettlementAt instruction.val.recordedAt)
      context.point.knowledgeAt
    let confirmation ← createSettlementConfirmation H.toSettlementHashes instruction dueAt dueAt
      (H.canonicalId "modeled-confirmation" [.text instruction.val.instructionId])
    let eventId := H.canonicalId "due-settlement" [.text confirmation.val.confirmationId]
    return (s, [{
      eventId
      parentEventId := context.eventId
      dueAt
      command := ⟨eventId, .settlementConfirmation confirmation⟩
      policySha256 := H.policy policy }])

/-- Admit a broker event that is new: the order and its commitment move with it. -/
def admitEvent (events : List BrokerOrderEvent) (s : AccountingState) :
    Py (AccountingState × List DueAccountingEvent) := do
  let ordersBefore ← orders H s
  let before ← getOrThrow
    (ordersBefore.find? (·.submission.val.orderId = event.val.orderId))
    (.valueError "execution has no installed order")
  let c ← getOrThrow (s.commitments.find? (·.val.orderId = event.val.orderId)) .stopIteration
  let s := { s with
    brokerEvents := events
    eventPoints := sortOn (·.1) (s.eventPoints ++ [(event.val.eventId, context.point)]) }
  let ordersAfter ← orders H s
  let after ← getOrThrow
    (ordersAfter.find? (·.submission.val.orderId = event.val.orderId)) .stopIteration
  let updated ← commitmentAfter policy event c before after
  let delta ← settlementDelta events c.val.side event
  scheduleSettlement H Z context policy event delta (replaceCommitment s updated)

/-- Admit a broker event once, under its identity. -/
def applyEvent (s : AccountingState) : Py (AccountingState × List DueAccountingEvent) := do
  raiseIf (context.point.knowledgeAt < event.val.receivedAt ∨
      context.economicAt < event.val.occurredAt)
    "future broker fact"
  let events ← appendFact (·.val.eventId) "event_id" s.brokerEvents event
  if events = s.brokerEvents then return (s, [])
  else admitEvent H Z context policy event events s

end event

/-! ## Modeled executions -/

/-- Round to the price quantum, against the trader: up for a purchase, down for a sale. -/
def quantizePrice (side : Side) (value : ℚ) : Py ℚ := do
  let scaled := value * pow10 10
  let coefficient : Int := match side with
    | .buy => scaled.ceil
    | .sell => scaled.floor
  throwIf (10 ^ 64 ≤ coefficient.natAbs) .arithmeticError
  return coefficient / pow10 10

/-- The price moved against the trader by the slippage. -/
def slippedPrice (side : Side) (reference adverse : ℚ) : Py ℚ :=
  match side with
  | .buy => exactDecimalAdd reference adverse
  | .sell => exactDecimalSubtract reference adverse

def modeledPrice (reference : ℚ) (side : Side) (policy : ExecutionPolicy) : Py ℚ := do
  let scaled ← exactDecimalMultiply reference policy.val.slippageBps
  let adverse ← deterministicDecimalDivide scaled 10000
  let slipped ← slippedPrice side reference adverse
  let value ← quantizePrice side slipped
  raiseIf (value ≤ 0) "modeled execution price is not positive"
  return value

/-- The basis an execution model observes. -/
def ExecutionModel.basis : ExecutionModel → ObservationBasis
  | .nextRegularOpenProxy => .rawOpen
  | .syntheticEvents => .syntheticPrice

/-- What an observation has led to so far. -/
structure ObservationState where
  state : AccountingState
  due : List DueAccountingEvent
  reasons : List Str
  budget : Option ℚ
  stopped : Bool

section observation

variable (context : AccountingContext) (policy : ExecutionPolicy) (o : ExecutionObservation)

/-- The commitment can be filled by the observation. -/
def isFillable (budget : Option ℚ) (c : Commitment) : Prop :=
  c.val.instrumentId = o.val.instrumentId ∧ c.val.symbol = o.val.symbol ∧
    c.val.state ∈ [CommitmentState.active, .working, .partial_] ∧
    c.val.executionSession = o.val.session ∧
    (∃ activatedAt ∈ c.val.activatedAt, activatedAt < o.val.economicAt) ∧
    (∃ sequence ∈ c.val.activationSequence, sequence < context.point.reductionSequence) ∧
    (∃ frontier ∈ c.val.activationFrontier, frontier < context.point.frontierSequence) ∧
    (c.val.notBefore ≤ o.val.economicAt ∧ o.val.economicAt < c.val.expiresAt) ∧
    c.val.remainingQuantity ≠ 0 ∧ budget ≠ some 0

instance (budget : Option ℚ) (c : Commitment) : Decidable (isFillable context o budget c) :=
  inferInstanceAs (Decidable (_ ∧ _))

/-- The order in which commitments compete for an observation. -/
def fillOrder (c : Commitment) : Int ×ₗ Str :=
  toLex (match c.val.activationSequence with
    | some (n + 1) => (n + 1 : Int)
    | _ => -1, c.val.orderId)

/-- The shares held of an instrument, in a snapshot. -/
def heldQuantity (snapshot : AccountSnapshot) (instrumentId : Str) : Py ℚ :=
  exactDecimalSum ((snapshot.positions.filter (·.instrumentId = instrumentId)).map (·.quantity))

/-- The fill would cost more than was reserved for it or than is there. -/
def exceedsCash (c : Commitment) (snapshot : AccountSnapshot) (price fee released required : ℚ) :
    Py Bool :=
  if c.val.remainingFeeBudget < fee ∨ (c.val.side = .buy ∧ c.val.approvedPrice < price) then
    return true
  else do
    let capacity ← exactDecimalAdd snapshot.availableCash released
    return capacity < required

/-- The fill would sell shares that are not held or that other commitments reserve. -/
def exceedsShares (s : AccountingState) (c : Commitment) (snapshot : AccountSnapshot)
    (quantity : ℚ) : Py Bool :=
  match c.val.side with
  | .buy => return false
  | .sell => do
    let held ← heldQuantity snapshot c.val.instrumentId
    let other ← exactDecimalSum ((s.commitments.filter fun p =>
      p.val.instrumentId = c.val.instrumentId ∧
        p.val.commitmentId ≠ c.val.commitmentId).map (·.val.reservedSellQuantity))
    let free ← exactDecimalSubtract held other
    return free < quantity

/-- The event of a modeled fill. -/
def modeledFill (c : Commitment) (order : CanonicalOrderState) (quantity price fee : ℚ) :
    Py BrokerOrderEvent := do
  let brokerOrderId ← getOrThrow order.brokerOrderId .assertionError
  construct {
    eventId := H.canonicalId "modeled-fill" [.text o.val.observationId, .text c.val.orderId]
    orderId := c.val.orderId
    brokerOrderId
    brokerSequence := order.lastBrokerSequence + 1
    occurredAt := o.val.economicAt
    receivedAt := o.val.knowledgeAt
    kind := .execution {
      executionId := H.canonicalId "modeled-execution"
        [.text o.val.observationId, .text c.val.orderId]
      executionRevision := 1
      quantity
      price
      fee }
    reason := some "modeled-execution" }

/-- What a fill leaves of the budget of an observation. -/
def budgetAfter (budget : Option ℚ) (quantity : ℚ) : Py (Option ℚ) :=
  match budget with
  | none => return none
  | some left => do
    let left ← exactDecimalSubtract left quantity
    return some left

/-- Fill a commitment at a price, once nothing blocks it. -/
def fill (st : ObservationState) (c : Commitment) (quantity price fee : ℚ) :
    Py ObservationState := do
  let orderStates ← orders H st.state
  let order ← getOrThrow (orderStates.find? (·.submission.val.orderId = c.val.orderId))
    .stopIteration
  let event ← modeledFill H o c order quantity price fee
  let (s, due) ← applyEvent H Z context policy event st.state
  let budget ← budgetAfter st.budget quantity
  return { st with state := s, due := st.due ++ due, budget }

/-- Halt the account and stop filling. -/
def ObservationState.block (st : ObservationState) (reason : Str) : ObservationState :=
  { st with state := { st.state with halted := true }, reasons := st.reasons ++ [reason],
            stopped := true }

/-- Fill a commitment unless cash or shares block it. -/
def tryFill (st : ObservationState) (c : Commitment) (snapshot : AccountSnapshot) :
    Py ObservationState := do
  let quantity := (st.budget.map (min c.val.remainingQuantity)).getD c.val.remainingQuantity
  let price ← modeledPrice o.val.price c.val.side policy
  let fee ← exactDecimalMultiply quantity policy.val.feePerShare
  let released ← reserve c.val.side quantity c.val.approvedPrice (min c.val.remainingFeeBudget fee)
  let required ← reserve c.val.side quantity price fee
  let overCash ← exceedsCash c snapshot price fee released required
  if overCash then return st.block "EXECUTION_PRICE_OR_CASH_CAPACITY_BLOCKED"
  else do
    let overShares ← exceedsShares st.state c snapshot quantity
    if overShares then return st.block "EXECUTION_LONG_SHARE_CAPACITY_BLOCKED"
    else fill H Z context policy o st c quantity price fee

def observeCommitment (st : ObservationState) (c : Commitment) : Py ObservationState :=
  if st.stopped ∨ ¬ isFillable context o st.budget c then return st
  else do
    let current ← project H st.state context policy
    if current.snapshot.halted then
      return { st with reasons := st.reasons ++ [Str.of "EXECUTION_HALTED"], stopped := true }
    else tryFill H Z context policy o st c current.snapshot

/-- What applying a payload gives: the state, the events that fall due, and reasons. -/
abbrev Applied := AccountingState × List DueAccountingEvent × List Str

/-- Offer an observation to every commitment, in fill order. -/
def observe (s : AccountingState) (o : ExecutionObservation) : Py Applied := do
  raiseIf (context.point.knowledgeAt < o.val.knowledgeAt ∨ context.economicAt < o.val.economicAt ∨
      lookup context.instruments o.val.instrumentId ≠ some o.val.symbol ∨
      o.val.modelId ≠ policy.val.modelId.value ∨ o.val.basis ≠ policy.val.modelId.basis)
    "execution observation scope, model or causal boundary differs"
  let observations ← appendFact (·.val.observationId) "observation_id" s.observations o
  if observations = s.observations then return (s, [], [])
  else do
    let st ← (sortOn fillOrder s.commitments).foldlM (observeCommitment H Z context policy o)
      ⟨{ s with observations }, [], [], o.val.quantityBudget, false⟩
    return (st.state, st.due, st.reasons)

end observation

/-! ## Commitments -/

/-- The snapshot that approved a commitment is an earlier one of this account, under this policy. -/
def bindsApproval (s : AccountingState) (context : AccountingContext) (c : Commitment)
    (source : AccountSnapshot) (riskPolicySha256 : Str) : Prop :=
  source.accountId = s.accountId ∧ H.snapshot source = c.val.snapshotSha256 ∧
    riskPolicySha256 = c.val.policySha256 ∧
    source.point.knowledgeAt ≤ context.point.knowledgeAt ∧
    source.point.reductionSequence ≤ context.point.reductionSequence ∧
    source.point.frontierSequence ≤ context.point.frontierSequence

instance (s : AccountingState) (context : AccountingContext) (c : Commitment)
    (source : AccountSnapshot) (riskPolicySha256 : Str) :
    Decidable (bindsApproval H s context c source riskPolicySha256) :=
  inferInstanceAs (Decidable (_ ∧ _))

section payloads

variable (context : AccountingContext) (policy : ExecutionPolicy) (before : AccountSnapshot)
  (s : AccountingState)

/-- A commitment as it is first installed for a submission. -/
def bindsSubmission (source : AccountSnapshot) (submission : OrderSubmission) (c : Commitment) :
    Prop :=
  (c.val.orderId, c.val.intentId, c.val.instrumentId, c.val.symbol, c.val.side,
      c.val.originalQuantity) =
    (submission.val.orderId, submission.val.intent.val.intentId,
      submission.val.intent.val.instrumentId, submission.val.intent.val.symbol,
      submission.val.intent.val.side, submission.val.intent.val.quantity) ∧
    c.val.state = .approvedUnsent ∧ c.val.filledQuantity = 0 ∧
    c.val.remainingQuantity = c.val.originalQuantity ∧ 0 < c.val.approvedPrice ∧
    c.val.activatedAt = none ∧ c.val.activationSequence = none ∧ c.val.activationFrontier = none ∧
    c.val.terminalReason = none ∧ c.val.createdSequence ≤ context.point.reductionSequence ∧
    source.point.reductionSequence ≤ c.val.createdSequence ∧
    submission.val.submittedAt ≤ context.point.knowledgeAt ∧
    context.point.knowledgeAt < c.val.expiresAt

instance (source : AccountSnapshot) (submission : OrderSubmission) (c : Commitment) :
    Decidable (bindsSubmission context source submission c) :=
  inferInstanceAs (Decidable (_ ∧ _))

/-- A sale must be covered by shares that nothing else reserves. -/
def checkLongShares (snapshot : AccountSnapshot) (c : Commitment) : Py Unit :=
  match c.val.side with
  | .buy => pure ⟨⟩
  | .sell => do
    let held ← heldQuantity snapshot c.val.instrumentId
    let reserved ← exactDecimalSum ((s.commitments.filter
      (·.val.instrumentId = c.val.instrumentId)).map (·.val.reservedSellQuantity))
    let free ← exactDecimalSubtract held reserved
    raiseIf (free < c.val.remainingQuantity) "commitment exceeds unreserved long shares"

/-- Install a submission that is new. -/
def installNew (submission : OrderSubmission) (c : Commitment) : Py Applied := do
  let source ← getOrThrow context.approvedSnapshot
    (.valueError "install requires exact risk source snapshot and policy")
  let riskPolicySha256 ← getOrThrow context.riskPolicySha256
    (.valueError "install requires exact risk source snapshot and policy")
  raiseIf (¬ bindsApproval H s context c source riskPolicySha256)
    "install source snapshot/policy binding differs"
  raiseIf (¬ bindsSubmission context source submission c)
    "submission and initial commitment do not bind"
  raiseIf before.halted "account is halted"
  let expectedReserve ← reserve c.val.side c.val.remainingQuantity c.val.approvedPrice
    c.val.remainingFeeBudget
  raiseIf (c.val.reservedCash ≠ expectedReserve ∨
      c.val.reservedSellQuantity ≠ sellQuantity c.val.side c.val.remainingQuantity)
    "commitment reserve formula differs"
  let modeledFees ← exactDecimalMultiply c.val.remainingQuantity policy.val.feePerShare
  raiseIf (c.val.remainingFeeBudget < modeledFees) "commitment fee budget is below modeled fees"
  raiseIf (before.availableCash < c.val.reservedCash) "commitment exceeds current available cash"
  checkLongShares s before c
  raiseIf (∃ p ∈ s.commitments, p.val.intentId = c.val.intentId ∨
      p.val.commitmentId = c.val.commitmentId)
    "commitment repeats an intent or reservation"
  let submissions ← appendFact (·.val.orderId) "order_id" s.submissions submission
  let commitments ← appendFact (·.val.commitmentId) "commitment_id" s.commitments c
  return ({ s with submissions, commitments }, [], [])

def applyInstall (submission : OrderSubmission) (c : Commitment) : Py Applied :=
  match s.submissions.find? (·.val.orderId = submission.val.orderId) with
  | some existing =>
    if existing = submission then do
      let installed ← findCommitment s c.val.commitmentId
      raiseIf (installed ≠ c) "installed submission/commitment conflict"
      return (s, [], [])
    else throw (.valueError "installed submission/commitment conflict")
  | none => installNew H context policy before s submission c

def applyActivate (commitmentId : Str) : Py Applied := do
  let now := context.point.knowledgeAt
  let c ← findCommitment s commitmentId
  raiseIf (c.val.state ≠ .approvedUnsent ∨ before.halted ∨ c.val.expiresAt ≤ now)
    "commitment cannot activate in current state"
  raiseIf (context.point.reductionSequence ≤ c.val.createdSequence)
    "activation must follow creation sequence"
  let activated ← updateCommitment { c.val with
    state := .active
    activatedAt := some now
    activationSequence := some context.point.reductionSequence
    activationFrontier := some context.point.frontierSequence }
  let accepted ← construct {
    eventId := H.canonicalId "model-accepted" [.text c.val.orderId]
    orderId := c.val.orderId
    brokerOrderId := H.canonicalId "model-order" [.text c.val.orderId]
    brokerSequence := 1
    occurredAt := now
    receivedAt := now
    kind := .accepted
    reason := none }
  let (s, due) ← applyEvent H Z context policy accepted (replaceCommitment s activated)
  return (s, due, [])

def applyCancel (request : OrderCancelRequest) : Py Applied := do
  raiseIf (context.point.knowledgeAt < request.val.requestedAt) "future cancel request"
  let requests ← appendFact (·.val.cancelRequestId) "cancel_request_id" s.cancelRequests request
  if requests = s.cancelRequests then return (s, [], [])
  else do
    let c ← getOrThrow (s.commitments.find? (·.val.orderId = request.val.orderId))
      (.valueError "cancel requires an unresolved installed commitment")
    raiseIf (c.val.state = .terminal) "cancel requires an unresolved installed commitment"
    let pending ← updateCommitment { c.val with state := .pendingCancel }
    return (replaceCommitment { s with cancelRequests := requests } pending, [], [])

/-- A commitment that nothing is left of. -/
def CommitmentFields.release (c : CommitmentFields) (reason : Str) : CommitmentFields :=
  { c with
    state := .terminal
    remainingQuantity := 0
    reservedCash := 0
    reservedSellQuantity := 0
    remainingFeeBudget := 0
    terminalReason := some reason }

def applyDisposition (commitmentId : Str) (kind : DispositionKind) (evidenceId : Str) :
    Py Applied := do
  requireBoundedText evidenceId "modeled disposition evidence"
  let c ← findCommitment s commitmentId
  if kind = .unknown then do
    raiseIf (c.val.state = .terminal) "terminal commitment cannot become unknown by model"
    let unknown ← updateCommitment { c.val with state := .unknown }
    return (replaceCommitment s unknown, [], [])
  else do
    raiseIf (kind = .dayExpired ∧ (context.point.knowledgeAt < c.val.expiresAt ∨
        c.val.state = .unknown ∨ c.val.state = .pendingCancel))
      "DAY expiry cannot release this remainder"
    if c.val.state = .terminal then return (s, [], [])
    else do
      let released ← updateCommitment (c.val.release (kind.value ++ ":" ++ evidenceId))
      return (replaceCommitment s released, [], [])

/-! ## Cash, corporate actions, settlement and marks -/

def applyCashFlow (flow : LedgerCashFlow) : Py Applied := do
  raiseIf (context.point.knowledgeAt < flow.val.recordedAt ∨
      context.economicAt < flow.val.effectiveAt)
    "future cash flow"
  let flows ← appendFact (·.val.cashFlowId) "cash_flow_id" s.cashFlows flow
  if flows = s.cashFlows then return (s, [], [])
  else do
    raiseIf (flow.val.currency ≠ "USD") "unsupported cash-flow currency"
    raiseIf (flow.val.kind = .withdrawal ∧ before.availableCash < flow.val.amount)
      "withdrawal exceeds available cash after commitments"
    return ({ s with cashFlows := flows }, [], [])

def applySplitAction (split : StockSplitAction) : Py Applied := do
  raiseIf (context.point.knowledgeAt < split.val.recordedAt) "future corporate-action receipt"
  raiseIf (∃ c ∈ s.commitments, c.val.instrumentId = split.val.instrumentId ∧
      c.val.state ≠ .terminal)
    "unsupported stock split with unresolved order commitment"
  let stockSplits ← appendFact (·.val.splitId) "split_id" s.stockSplits split
  return ({ s with stockSplits }, [], [])

def applyDividendAccrual (dividend : CashDividendAccrual) : Py Applied := do
  raiseIf (context.point.knowledgeAt < dividend.val.recordedAt) "future corporate-action receipt"
  let cashDividends ← appendFact (·.val.dividendId) "dividend_id" s.cashDividends dividend
  return ({ s with cashDividends }, [], [])

def applyDividendPayment (payment : CashDividendPayment) : Py Applied := do
  raiseIf (context.point.knowledgeAt < payment.val.recordedAt) "future corporate-action receipt"
  let dividendPayments ← appendFact (·.val.paymentId) "payment_id" s.dividendPayments payment
  return ({ s with dividendPayments }, [], [])

def applyInstruction (instruction : ExecutionSettlementInstruction) : Py Applied := do
  raiseIf (context.point.knowledgeAt < instruction.val.recordedAt)
    "future settlement instruction receipt"
  match s.settlementInstructions.find?
      (·.val.executionEventId = instruction.val.executionEventId) with
  | some prior => do
    raiseIf (prior ≠ instruction) "settlement instruction conflicts with prior binding"
    return (s, [], [])
  | none => do
    let settlementInstructions ← appendFact (·.val.instructionId) "instruction_id"
      s.settlementInstructions instruction
    return ({ s with settlementInstructions }, [], [])

def applyConfirmation (confirmation : ExecutionSettlementConfirmation) : Py Applied := do
  raiseIf (context.point.knowledgeAt < confirmation.val.recordedAt ∨
      context.economicAt < confirmation.val.settledAt)
    "future settlement confirmation"
  let settlementConfirmations ← appendFact (·.val.confirmationId) "confirmation_id"
    s.settlementConfirmations confirmation
  return ({ s with settlementConfirmations }, [], [])

def applyMark (mark : CausalMark) : Py Applied := do
  raiseIf (context.point.knowledgeAt < mark.val.knowledgeAt ∨
      context.economicAt < mark.val.economicAt)
    "future mark"
  let marks ← appendFact (·.val.markId) "mark_id" s.marks mark
  return ({ s with marks }, [], [])

def applyControl (halted : Bool) (reason : Str) : Py Applied := do
  requireBoundedText reason "control reason"
  return ({ s with halted }, [], [])

/-! ## One command -/

/-- Try a payload on a state whose projection is `before`. -/
def apply : AccountingPayload → Py Applied
  | .installCommitment submission commitment =>
    applyInstall H context policy before s submission commitment
  | .activateCommitment commitmentId => applyActivate H Z context policy before s commitmentId
  | .executionObservation observation => observe H Z context policy s observation
  | .brokerOrderEvent event => do
    let (s, due) ← applyEvent H Z context policy event s
    return (s, due, [])
  | .orderCancelRequest request => applyCancel context s request
  | .ledgerCashFlow flow => applyCashFlow context before s flow
  | .stockSplitAction split => applySplitAction context s split
  | .cashDividendAccrual dividend => applyDividendAccrual context s dividend
  | .cashDividendPayment payment => applyDividendPayment context s payment
  | .settlementInstruction instruction => applyInstruction context s instruction
  | .settlementConfirmation confirmation => applyConfirmation context s confirmation
  | .causalMark mark => applyMark context s mark
  | .modelDisposition commitmentId kind evidenceId =>
    applyDisposition context s commitmentId kind evidenceId
  | .controlCommand halted reason => applyControl s halted reason

end payloads

/-- The state with a command recorded as applied. -/
def recordCommand (policy : ExecutionPolicy) (command : AccountingCommand)
    (s updated : AccountingState) : AccountingState :=
  { updated with
    executionPolicySha256 := some (H.policy policy)
    commands := sortOn (fun item => toLex item)
      (s.commands ++ [(command.commandId, H.command command)])
    revision := s.revision + 1 }

section answer

variable (context : AccountingContext) (policy : ExecutionPolicy) (before : AccountingTransition)
  (s : AccountingState) (command : AccountingCommand)

/-- Project the updated state; an account without capacity is halted. -/
def projectUpdated (updated : AccountingState) (reasons : List Str) :
    Py (AccountingTransition × List Str) := do
  let after ← project H updated context policy
  if after.snapshot.availableCash < 0 ∨ after.snapshot.settledCash < 0 then do
    let halted ← project H { updated with halted := true } context policy
    return (halted, reasons ++ [Str.of "NEGATIVE_CASH_CAPACITY"])
  else return (after, reasons)

/-- Apply a command that is not known. -/
def applyCommand : Py AccountingTransition := do
  let (updated, due, reasons) ← apply H Z context policy before.snapshot s command.payload
  if updated = s then
    return { before with disposition := .duplicate, journalEntries := [], reasons }
  else do
    let (after, reasons) ← projectUpdated H context policy
      (recordCommand H policy command s updated) reasons
    return { after with
      journalEntries := after.journalEntries.filter fun e =>
        e.val.entryId ∉ before.journalEntries.map (·.val.entryId)
      dueEvents := due
      reasons }

/-- Answer a command whose identity may be known. -/
def answerCommand : Py AccountingTransition :=
  match lookup s.commands command.commandId with
  | some known =>
    if known ≠ H.command command then
      return { before with
        disposition := .rejected, journalEntries := []
        reasons := [Str.of "COMMAND_ID_CONFLICT"] }
    else return { before with disposition := .duplicate, journalEntries := [] }
  | none =>
    catchValueError (applyCommand H Z context policy before s command) fun message =>
      { before with disposition := .rejected, journalEntries := [], reasons := [message] }

end answer

/-- The reducer: answer a command from the state and its context. -/
def advance (s : AccountingState) (command : AccountingCommand) (context : AccountingContext)
    (policy : ExecutionPolicy) : Py AccountingTransition := do
  let before ← project H s context policy
  requireBoundedText command.commandId "command ID"
  answerCommand H Z context policy before s command

end AutoQuantTrader
