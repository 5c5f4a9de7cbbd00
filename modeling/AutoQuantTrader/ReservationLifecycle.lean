import AutoQuantTrader.SubmissionAttempt

/-!
# The release of reserved capacity

A reservation holds cash, buy exposure and shares back for each of its authorizations.  Release
facts give them back: an execution that is accounted for gives back what it used, and a terminal
fact gives back all that remains.  The facts form one chain of digests; `projectReservationCapacity`
rebuilds what remains from it.
-/

namespace AutoQuantTrader

open Result Sorting

/-! ## Records -/

inductive ReservationReleaseReason where
  | approvalExpiredUnsent | brokerRejected | executionAccounted | reconciledTerminal
  | simulationHorizonFinal
deriving DecidableEq

def ReservationReleaseReason.value : ReservationReleaseReason → Str
  | .approvalExpiredUnsent => "approval_expired_unsent"
  | .brokerRejected => "broker_rejected"
  | .executionAccounted => "execution_accounted"
  | .reconciledTerminal => "reconciled_terminal"
  | .simulationHorizonFinal => "simulation_horizon_final"

inductive ReservationCapacityState where
  | active | partiallyReleased | frozen | released

/-- One immutable capacity delta authorized by exact external finality evidence. -/
structure ReservationReleaseFact where
  releaseEventId : Str
  sequenceNumber : Nat
  previousReleaseSha256 : Option Str
  (reservationId reservationSha256 parentDecisionId authorizationId authorizationSha256 : Str)
  (orderId attemptId orderEventId : Option Str)
  reason : ReservationReleaseReason
  (finalityReference sourceSha256 : Str)
  (attemptSha256 orderStateSha256 orderEventSha256 executionId : Option Str)
  executionRevision : Option Nat
  (executionHeadQuantity accountedQuantity : Option ℚ)
  (releasedCash releasedBuyExposure releasedSellQuantity : ℚ)
  (occurredAt recordedAt : Instant)

/-- The identifier and digest functions of the release facts. -/
structure ReservationHashes extends SubmissionHashes where
  releaseFact : ReservationReleaseFact → Str

def ReservationHashes.plain : ReservationHashes where
  toSubmissionHashes := .plain
  releaseFact f := digitsId "release" [.text f.releaseEventId]

variable (H : ReservationHashes)

/-! ## One fact -/

/-- `_amount`. -/
def releaseAmount (value : ℚ) (fieldName : Str) (whole : Bool) : Py ℚ := do
  raiseIf (value < 0) (fieldName ++ " must be a finite non-negative Decimal")
  raiseIf (whole ∧ ¬ isWhole value) (fieldName ++ " must be a whole number of shares")
  canonicalPersistedDecimal value fieldName

theorem releaseAmount_eq_ok :
    releaseAmount value fieldName whole = .ok r ↔
      0 ≤ value ∧ (whole → isWhole value) ∧ isPersisted value ∧ value = r := by
  simp [releaseAmount]

namespace ReservationReleaseFact

/-- The identity of a fact. -/
def expectedEventId (f : ReservationReleaseFact) : Str :=
  H.canonicalId "reservation-release" [.text f.reservationId, .integer f.sequenceNumber,
    .ofOption .text f.previousReleaseSha256, .text f.authorizationId, .text f.reason.value,
    .text f.finalityReference, .text f.sourceSha256, .ofOption .text f.orderId,
    .ofOption .text f.attemptId, .ofOption .text f.orderEventId, .instant f.occurredAt]

/-- What a fact about an execution has to tell of it. -/
def validateExecution (f : ReservationReleaseFact) : Py Unit := do
  raiseIf (f.orderId = none ∨ f.attemptId = none ∨ f.orderEventId = none)
    "execution release requires order, attempt, and order-event evidence"
  match f.executionId, f.executionRevision, f.executionHeadQuantity, f.accountedQuantity with
  | some _, some revision, some headQuantity, some accountedQuantity => do
    raiseIf (revision = 0) "execution revision must be positive"
    let head ← releaseAmount headQuantity "execution head quantity" true
    raiseIf (head ≤ 0) "execution head quantity must be positive"
    let accounted ← releaseAmount accountedQuantity "accounted quantity" true
    raiseIf (accounted ≤ 0) "accounted quantity must be positive"
  | _, _, _, _ => throw (.valueError "execution release requires exact revision evidence")

/-- The evidence each terminal reason needs. -/
def validateTerminal (f : ReservationReleaseFact) : Py Unit := do
  raiseIf (f.executionId ≠ none ∨ f.executionRevision ≠ none ∨ f.executionHeadQuantity ≠ none ∨
      f.accountedQuantity ≠ none)
    "non-execution release cannot carry execution deltas"
  match f.reason with
  | .approvalExpiredUnsent =>
    raiseIf (f.orderId ≠ none ∨ f.attemptId ≠ none ∨ f.orderEventId ≠ none)
      "unsent approval expiry cannot carry sent-order evidence"
  | .brokerRejected =>
    raiseIf (f.orderId = none ∨ f.attemptId = none ∨ f.orderEventId = none)
      "broker rejection requires order, attempt, and rejection-event evidence"
  | .reconciledTerminal =>
    raiseIf (f.attemptId = none) "reconciled terminal release requires an attempt"
  | .simulationHorizonFinal =>
    raiseIf (f.orderId = none ∨ f.attemptId = none)
      "simulation finality requires exact order and attempt evidence"
  | .executionAccounted => pure ⟨⟩

/-- `_validate_evidence_shape`. -/
def validateEvidenceShape (f : ReservationReleaseFact) : Py Unit := do
  raiseIf (f.attemptId.isSome ≠ f.attemptSha256.isSome)
    "release attempt identity and digest must travel together"
  raiseIf (f.orderId.isSome ≠ f.orderStateSha256.isSome)
    "release order identity and state digest must travel together"
  raiseIf (f.orderEventId.isSome ≠ f.orderEventSha256.isSome)
    "release event identity and digest must travel together"
  raiseIf (f.orderEventId ≠ none ∧ f.orderId = none)
    "order-event finality requires its logical order"
  if f.reason = .executionAccounted then f.validateExecution else f.validateTerminal

def validate (f : ReservationReleaseFact) : Py Unit := do
  requirePlainText 64 f.releaseEventId "release event ID"
  requirePlainText 64 f.reservationId "release reservation ID"
  requirePlainText 64 f.parentDecisionId "release parent decision ID"
  requirePlainText 64 f.authorizationId "release authorization ID"
  requirePlainText 256 f.finalityReference "release finality reference"
  raiseIf (f.sequenceNumber = 0) "release sequence number must be positive"
  raiseIf (f.sequenceNumber = 1 ∧ f.previousReleaseSha256 ≠ none)
    "first release cannot name a predecessor"
  raiseIf (f.sequenceNumber ≠ 1 ∧ f.previousReleaseSha256 = none)
    "successor release requires its predecessor digest"
  requireOptionalPlainText 64 f.orderId "release order ID"
  requireOptionalPlainText 64 f.attemptId "release attempt ID"
  requireOptionalPlainText 128 f.orderEventId "release order event ID"
  requireOptionalPlainText 128 f.executionId "release execution ID"
  f.validateEvidenceShape
  let releasedCash ← releaseAmount f.releasedCash "released cash" false
  let releasedBuyExposure ← releaseAmount f.releasedBuyExposure "released buy exposure" false
  let releasedSellQuantity ← releaseAmount f.releasedSellQuantity "released sell quantity" true
  raiseIf (¬ (0 < releasedCash ∨ 0 < releasedBuyExposure ∨ 0 < releasedSellQuantity))
    "a release fact must free positive capacity"
  raiseIf (f.recordedAt < f.occurredAt) "release cannot be recorded before finality occurred"
  raiseIf (f.releaseEventId ≠ f.expectedEventId H) "release event ID is not canonically derived"

end ReservationReleaseFact

/-! ## Projections -/

structure AuthorizationCapacityProjection where
  (authorizationId instrumentId : Str)
  side : Side
  (initialCash initialBuyExposure initialSellQuantity releasedCash releasedBuyExposure
    releasedSellQuantity remainingCash remainingBuyExposure remainingSellQuantity : ℚ)
  releaseEventIds : List Str

def AuthorizationCapacityProjection.fullyReleased (c : AuthorizationCapacityProjection) : Prop :=
  c.remainingCash = 0 ∧ c.remainingBuyExposure = 0 ∧ c.remainingSellQuantity = 0

instance (c : AuthorizationCapacityProjection) : Decidable c.fullyReleased :=
  inferInstanceAs (Decidable (_ ∧ _))

structure InstrumentSellCapacityProjection where
  instrumentId : Str
  (initialQuantity releasedQuantity remainingQuantity : ℚ)

structure ReservationCapacityProjection where
  (reservationId reservationSha256 parentDecisionId : Str)
  state : ReservationCapacityState
  (authorizationCount remainingAuthorizationCount : Nat)
  (initialCash releasedCash remainingCash initialBuyExposure releasedBuyExposure
    remainingBuyExposure : ℚ)
  authorizations : List AuthorizationCapacityProjection
  sellCapacity : List InstrumentSellCapacityProjection
  (releaseEventIds unknownAuthorizationIds : List Str)
  releasedAt : Option Instant

/-- What was released for one authorization so far. -/
structure RunningAuthorizationCapacity where
  releasedCash : ℚ := 0
  releasedBuyExposure : ℚ := 0
  releasedSellQuantity : ℚ := 0
  releaseEventIds : List Str := []

/-- What the projection knows after some facts. -/
structure ReleaseProgress where
  running : Dict Str RunningAuthorizationCapacity
  count : Nat
  (eventIds semantics : List Str)
  executionHeads : Dict (Str × Str) (Nat × ℚ)
  executionTotals : Dict Str ℚ
  previous : Option ReservationReleaseFact

/-- `_remaining`. -/
def remainingOf (initial released : ℚ) (fieldName : Str) : Py ℚ := do
  let value ← exactDecimalSubtract initial released
  raiseIf (value < 0) ("released " ++ fieldName ++ " exceeds reserved capacity")
  return value

section projection

variable (reservation : BatchRiskReservation H.canonicalId)

/-- `authorization_by_id`. -/
def authorizationById : Dict Str (BatchRiskAuthorization H.canonicalId) :=
  reservation.val.authorizations.foldl (fun d a => d.set a.val.decisionId a) .empty

def ReleaseProgress.initial : ReleaseProgress where
  running := reservation.val.authorizations.foldl (fun d a => d.set a.val.decisionId {}) .empty
  count := 0
  eventIds := []
  semantics := []
  executionHeads := .empty
  executionTotals := .empty
  previous := none

/-- A fact continues the chain and is about this reservation. -/
def checkReleaseChain (s : ReleaseProgress) (fact : ReservationReleaseFact) : Py Unit := do
  fact.validate H
  raiseIf (fact.sequenceNumber ≠ s.count + 1) "release sequence must be contiguous from one"
  raiseIf (fact.previousReleaseSha256 ≠ s.previous.map H.releaseFact)
    "release fact does not chain to its exact predecessor"
  raiseIf (fact.releaseEventId ∈ s.eventIds) "release event identity is reused"
  raiseIf (H.releaseFact fact ∈ s.semantics) "release fact semantics are duplicated"
  raiseIf (fact.reservationId ≠ reservation.val.reservationId ∨
      fact.reservationSha256 ≠ H.reservation reservation ∨
      fact.parentDecisionId ≠ reservation.val.parentDecisionId)
    "release fact belongs to another reservation"

section facts

variable (authorization : BatchRiskAuthorization H.canonicalId) (s : ReleaseProgress)
  (fact : ReservationReleaseFact) (capacity : RunningAuthorizationCapacity)

/-- An execution releases what its newly accounted quantity used; the new head and total. -/
def accountExecution : Py ReleaseProgress :=
  match fact.executionId, fact.executionRevision, fact.executionHeadQuantity,
    fact.accountedQuantity with
  | some executionId, some revision, some headQuantity, some accountedQuantity => do
    let key := (authorization.val.decisionId, executionId)
    let prior := (s.executionHeads.get? key).getD (0, 0)
    raiseIf (revision ≤ prior.1) "execution release revision does not advance its accounted head"
    let expectedHead ← exactDecimalAdd prior.2 accountedQuantity
    raiseIf (headQuantity ≠ expectedHead)
      "execution correction does not establish a monotone release delta"
    let accountedTotal ← exactDecimalAdd
      ((s.executionTotals.get? authorization.val.decisionId).getD 0) accountedQuantity
    raiseIf (authorization.val.quantity < accountedTotal)
      "accounted execution quantities exceed the authorized order"
    let expectedExposure ← heldBuyExposure authorization.val.side accountedQuantity
      authorization.val.maximumExecutionPrice
    raiseIf (fact.releasedCash ≠ expectedExposure ∨ fact.releasedBuyExposure ≠ expectedExposure ∨
        fact.releasedSellQuantity ≠ heldSellQuantity authorization.val.side accountedQuantity)
      "execution release does not match its conservative quantity delta"
    return { s with
      executionHeads := s.executionHeads.set key (revision, headQuantity)
      executionTotals := s.executionTotals.set authorization.val.decisionId accountedTotal }
  | _, _, _, _ => throw .assertionError

/-- A terminal fact releases exactly what remains. -/
def checkTerminalRelease (currentCash currentExposure currentSell : ℚ) : Py Unit := do
  raiseIf ((fact.reason = .approvalExpiredUnsent ∨ fact.reason = .brokerRejected) ∧
      capacity.releaseEventIds ≠ [])
    "unsent expiry or broker rejection cannot follow an economic release"
  raiseIf (fact.releasedCash ≠ currentCash ∨ fact.releasedBuyExposure ≠ currentExposure ∨
      fact.releasedSellQuantity ≠ currentSell)
    "terminal finality must release the exact remaining child capacity"

/-- The heads and totals of the executions after a fact. -/
def accountRelease : Py ReleaseProgress := do
  let currentCash ← remainingOf authorization.val.reservedCash capacity.releasedCash "cash"
  let currentExposure ← remainingOf authorization.val.reservedBuyExposure
    capacity.releasedBuyExposure "buy exposure"
  let currentSell ← remainingOf authorization.val.reservedSellQuantity
    capacity.releasedSellQuantity "sell shares"
  if fact.reason = .executionAccounted then accountExecution H authorization s fact
  else do
    checkTerminalRelease fact capacity currentCash currentExposure currentSell
    return s

/-- What was released for an authorization after one more fact. -/
def releaseCapacity : Py RunningAuthorizationCapacity := do
  let nextCash ← exactDecimalAdd capacity.releasedCash fact.releasedCash
  let nextExposure ← exactDecimalAdd capacity.releasedBuyExposure fact.releasedBuyExposure
  let nextSell ← exactDecimalAdd capacity.releasedSellQuantity fact.releasedSellQuantity
  raiseIf (authorization.val.reservedCash < nextCash ∨
      authorization.val.reservedBuyExposure < nextExposure ∨
      authorization.val.reservedSellQuantity < nextSell)
    "release history exceeds its child reservation"
  return {
    releasedCash := nextCash
    releasedBuyExposure := nextExposure
    releasedSellQuantity := nextSell
    releaseEventIds := capacity.releaseEventIds ++ [fact.releaseEventId] }

def applyReleaseFact : Py ReleaseProgress := do
  checkReleaseChain H reservation s fact
  let authorization ← getOrThrow ((authorizationById H reservation).get? fact.authorizationId)
    (.valueError "release fact names an unknown authorization")
  raiseIf (fact.authorizationSha256 ≠ H.authorization authorization)
    "release fact changed its authorization evidence"
  raiseIf (fact.occurredAt < authorization.val.evaluatedAt)
    "release finality cannot predate risk evaluation"
  let capacity ← getOrThrow (s.running.get? authorization.val.decisionId) .keyError
  let accounted ← accountRelease H authorization s fact capacity
  let released ← releaseCapacity H authorization fact capacity
  return { accounted with
    running := s.running.set authorization.val.decisionId released
    count := s.count + 1
    eventIds := s.eventIds ++ [fact.releaseEventId]
    semantics := s.semantics ++ [H.releaseFact fact]
    previous := some fact }

end facts

/-- What remains for one authorization. -/
def projectAuthorization (s : ReleaseProgress) (unknownAuthorizationIds : Finset Str)
    (authorization : BatchRiskAuthorization H.canonicalId) :
    Py AuthorizationCapacityProjection := do
  let capacity ← getOrThrow (s.running.get? authorization.val.decisionId) .keyError
  raiseIf (authorization.val.decisionId ∈ unknownAuthorizationIds ∧ capacity.releaseEventIds ≠ [])
    "an UNKNOWN authorization cannot authorize capacity release"
  let remainingCash ← remainingOf authorization.val.reservedCash capacity.releasedCash "cash"
  let remainingExposure ← remainingOf authorization.val.reservedBuyExposure
    capacity.releasedBuyExposure "buy exposure"
  let remainingSell ← remainingOf authorization.val.reservedSellQuantity
    capacity.releasedSellQuantity "sell shares"
  return {
    authorizationId := authorization.val.decisionId
    instrumentId := authorization.val.instrumentId
    side := authorization.val.side
    initialCash := authorization.val.reservedCash
    initialBuyExposure := authorization.val.reservedBuyExposure
    initialSellQuantity := authorization.val.reservedSellQuantity
    releasedCash := capacity.releasedCash
    releasedBuyExposure := capacity.releasedBuyExposure
    releasedSellQuantity := capacity.releasedSellQuantity
    remainingCash
    remainingBuyExposure := remainingExposure
    remainingSellQuantity := remainingSell
    releaseEventIds := capacity.releaseEventIds }

/-- The shares an authorization holds back, if it holds any. -/
def AuthorizationCapacityProjection.sellCapacity? (c : AuthorizationCapacityProjection) :
    Option InstrumentSellCapacityProjection :=
  if 0 < c.initialSellQuantity then
    some {
      instrumentId := c.instrumentId
      initialQuantity := c.initialSellQuantity
      releasedQuantity := c.releasedSellQuantity
      remainingQuantity := c.remainingSellQuantity }
  else none

def reservationState (unknownAuthorizationIds : Finset Str) (remainingCount : Nat)
    (facts : List ReservationReleaseFact) : ReservationCapacityState :=
  if unknownAuthorizationIds ≠ ∅ then .frozen
  else if remainingCount = 0 then .released
  else if facts ≠ [] then .partiallyReleased
  else .active

/-- When the last fact was recorded, once everything is released. -/
def releasedAt (facts : List ReservationReleaseFact) : ReservationCapacityState →
    Py (Option Instant)
  | .released =>
    match facts with
    | [] => throw (.valueError "max() iterable argument is empty")
    | fact :: rest => return some ((rest.map (·.recordedAt)).foldl max fact.recordedAt)
  | _ => return none

/-- The totals over all authorizations, with the check that nothing is lost. -/
def projectTotals (children : List AuthorizationCapacityProjection)
    (facts : List ReservationReleaseFact) (unknownAuthorizationIds : Finset Str) :
    Py ReservationCapacityProjection := do
  let releasedCash ← exactDecimalSum (children.map (·.releasedCash))
  let remainingCash ← exactDecimalSum (children.map (·.remainingCash))
  let releasedExposure ← exactDecimalSum (children.map (·.releasedBuyExposure))
  let remainingExposure ← exactDecimalSum (children.map (·.remainingBuyExposure))
  let cash ← exactDecimalAdd releasedCash remainingCash
  raiseIf (cash ≠ reservation.val.reservedCash) "reservation cash is not conserved"
  let exposure ← exactDecimalAdd releasedExposure remainingExposure
  raiseIf (exposure ≠ reservation.val.reservedBuyExposure)
    "reservation buy exposure is not conserved"
  let remainingCount := (children.filter fun c => ¬ c.fullyReleased).length
  let state := reservationState unknownAuthorizationIds remainingCount facts
  let releasedAt ← releasedAt facts state
  return {
    reservationId := reservation.val.reservationId
    reservationSha256 := H.reservation reservation
    parentDecisionId := reservation.val.parentDecisionId
    state
    authorizationCount := children.length
    remainingAuthorizationCount := remainingCount
    initialCash := reservation.val.reservedCash
    releasedCash
    remainingCash
    initialBuyExposure := reservation.val.reservedBuyExposure
    releasedBuyExposure := releasedExposure
    remainingBuyExposure := remainingExposure
    authorizations := children
    sellCapacity := children.filterMap (·.sellCapacity?)
    releaseEventIds := facts.map (·.releaseEventId)
    unknownAuthorizationIds := unknownAuthorizationIds.sort
    releasedAt }

/-- Rebuild remaining capacity from one exact reservation and its release log. -/
def projectReservationCapacity (facts : List ReservationReleaseFact)
    (unknownAuthorizationIds : Finset Str) : Py ReservationCapacityProjection := do
  unknownAuthorizationIds.sort.forM fun authorizationId => do
    requirePlainText 64 authorizationId "UNKNOWN authorization ID"
    raiseIf ((authorizationById H reservation).get? authorizationId = none)
      "UNKNOWN authorization belongs to a different reservation"
  let s ← facts.foldlM (applyReleaseFact H reservation) (.initial H reservation)
  let children ← reservation.val.authorizations.mapM
    (projectAuthorization H s unknownAuthorizationIds)
  projectTotals H reservation children facts unknownAuthorizationIds

end projection

end AutoQuantTrader
