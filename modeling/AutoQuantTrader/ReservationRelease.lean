import AutoQuantTrader.ReservationLifecycle

/-!
# Recording a release

Each reason has a function that checks the evidence for it, computes what is released and returns
the fact.  Every one of them ends in `newReleaseFact`, which projects the log with the fact before
it gives the fact out.
-/

namespace AutoQuantTrader

open Result Sorting

variable (H : ReservationHashes)

/-! ## Binding the evidence -/

/-- `_authorization_for_release`. -/
def authorizationForRelease (reservation : BatchRiskReservation H.canonicalId)
    (authorization : BatchRiskAuthorization H.canonicalId) :
    Py (BatchRiskAuthorization H.canonicalId) := do
  raiseIf (reservation.val.authorizations.filter (·.val.decisionId = authorization.val.decisionId) ≠
      [authorization])
    "release authorization does not exactly belong to its reservation"
  return authorization

/-- `_canonical_attempt`. -/
def canonicalAttempt (attempt : CanonicalSubmissionAttempt H.canonicalId) : Py Unit := do
  let reduced ← reduceSubmissionAttempt H.toSubmissionHashes attempt.preparation attempt.events
  raiseIf (reduced ≠ attempt) "release attempt is not reducer-produced"

/-- `_canonical_order_state`. -/
def canonicalOrderState (orderState : CanonicalOrderState) : Py Unit := do
  let rebuilt ← reduceOrderLifecycle H.toOrderHashes orderState.submission orderState.brokerEvents
    orderState.cancelRequest
  raiseIf (rebuilt ≠ orderState) "release order state is not reducer-produced"

/-- `_bind_attempt`. -/
def bindAttempt (reservation : BatchRiskReservation H.canonicalId)
    (authorization : BatchRiskAuthorization H.canonicalId)
    (attempt : CanonicalSubmissionAttempt H.canonicalId) : Py Unit := do
  canonicalAttempt H attempt
  let preparation := attempt.preparation
  raiseIf (preparation.parentDecisionId ≠ reservation.val.parentDecisionId ∨
      preparation.reservationId ≠ reservation.val.reservationId ∨
      preparation.authorizationId ≠ authorization.val.decisionId ∨
      preparation.authorizationSha256 ≠ H.authorization authorization)
    "submission attempt is not bound to the exact reservation child"

/-- `_bind_order`. -/
def bindOrder (authorization : BatchRiskAuthorization H.canonicalId)
    (attempt : CanonicalSubmissionAttempt H.canonicalId) (orderState : CanonicalOrderState) :
    Py Unit := do
  canonicalOrderState H orderState
  let submission := orderState.submission.val
  raiseIf (submission.orderId ≠ attempt.orderId ∨ submission.submissionAttemptId ≠
      attempt.attemptId ∨ submission.riskDecisionId ≠ authorization.val.decisionId ∨
      submission.intent ≠ attempt.preparation.intent ∨
      submission.intent.val.intentId ≠ authorization.val.intentId ∨
      H.intentPayloadHash submission.intent ≠ authorization.val.intentPayloadHash)
    "logical order is not bound to the exact attempt and authorization"
  raiseIf (∃ known ∈ attempt.brokerOrderId, ∃ reported ∈ orderState.brokerOrderId, known ≠ reported)
    "attempt and order disagree on broker identity"

/-- `_bind_order_event`. -/
def bindOrderEvent (orderState : CanonicalOrderState) (orderEvent : BrokerOrderEvent)
    (requireLast : Bool) : Py Unit := do
  raiseIf (orderState.brokerEvents.filter (·.val.eventId = orderEvent.val.eventId) ≠ [orderEvent])
    "release event is absent from the exact order state"
  raiseIf (requireLast ∧ orderState.brokerEvents.getLast? ≠ some orderEvent)
    "terminal release requires the latest broker event"

/-- `_require_known_broker_effect`. -/
def requireKnownBrokerEffect (attempt : CanonicalSubmissionAttempt H.canonicalId) : Py Unit := do
  raiseIf (attempt.state = .pending ∨ attempt.state = .inFlight ∨ attempt.state = .unknown ∨
      attempt.state = .abandoned)
    ("pending, in-flight, UNKNOWN, or never-dispatched ABANDONED submission " ++
      "cannot authorize a broker-effect release")
  raiseIf (attempt.state = .resolved ∧ attempt.resolution = some .notSubmitted)
    "confirmed broker absence has no sent order"

/-- `_require_independent_source`. -/
def requireIndependentSource (source : Str) (localSources : List Str) (message : Str) : Py Unit :=
  raiseIf (source ∈ localSources) message

/-- `_execution_predecessor`: the revision before one execution event. -/
def executionPredecessor (orderState : CanonicalOrderState) (executionEvent : BrokerOrderEvent) :
    Py (Option (BrokerOrderEvent × ExecutionReport)) :=
  match executionEvent.val.kind with
  | .execution _ => return none
  | .executionCorrection report supersedes =>
    match orderState.brokerEvents.filter (·.val.eventId = supersedes) with
    | [predecessor] =>
      match predecessor.val.kind.report? with
      | some before => do
        raiseIf (before.executionId ≠ report.executionId ∨
            report.executionRevision ≠ before.executionRevision + 1)
          "execution correction predecessor has conflicting revision semantics"
        return some (predecessor, before)
      | none => throw (.valueError
          "execution correction predecessor has conflicting revision semantics")
    | _ => throw (.valueError "execution correction lacks its exact predecessor event")
  | _ => throw (.valueError "execution accounting requires an execution event")

/-- `_child_projection`. -/
def childProjection (projection : ReservationCapacityProjection) (authorizationId : Str) :
    Py AuthorizationCapacityProjection :=
  match projection.authorizations.filter (·.authorizationId = authorizationId) with
  | [child] => return child
  | _ => throw (.valueError "reservation projection lost its exact child")

/-! ## The fact -/

/-- What a record function has decided about a fact; `released` is cash, buy exposure and shares. -/
structure ReleaseTerms (I : CanonicalId) where
  reason : ReservationReleaseReason
  (finalityReference sourceSha256 : Str)
  (occurredAt recordedAt : Instant)
  released : ℚ × ℚ × ℚ
  attempt : Option (CanonicalSubmissionAttempt I) := none
  orderState : Option CanonicalOrderState := none
  orderEvent : Option BrokerOrderEvent := none
  executionId : Option Str := none
  executionRevision : Option Nat := none
  executionHeadQuantity : Option ℚ := none
  accountedQuantity : Option ℚ := none

section record

variable (reservation : BatchRiskReservation H.canonicalId)
  (authorization : BatchRiskAuthorization H.canonicalId)

/-- `_new_release_fact`. -/
def newReleaseFact (priorReleases : List ReservationReleaseFact)
    (terms : ReleaseTerms H.canonicalId) : Py ReservationReleaseFact := do
  let _ ← authorizationForRelease H reservation authorization
  let _ ← projectReservationCapacity H reservation priorReleases ∅
  requirePlainText 256 terms.finalityReference "release finality reference"
  let releasedCash ← releaseAmount terms.released.1 "released cash" false
  let releasedBuyExposure ← releaseAmount terms.released.2.1 "released buy exposure" false
  let releasedSellQuantity ← releaseAmount terms.released.2.2 "released sell quantity" true
  let material : ReservationReleaseFact :=
    { releaseEventId := ""
      sequenceNumber := priorReleases.length + 1
      previousReleaseSha256 := priorReleases.getLast?.map H.releaseFact
      reservationId := reservation.val.reservationId
      reservationSha256 := H.reservation reservation
      parentDecisionId := reservation.val.parentDecisionId
      authorizationId := authorization.val.decisionId
      authorizationSha256 := H.authorization authorization
      orderId := terms.orderState.map (·.submission.val.orderId)
      attemptId := terms.attempt.map (·.attemptId)
      orderEventId := terms.orderEvent.map (·.val.eventId)
      reason := terms.reason
      finalityReference := terms.finalityReference
      sourceSha256 := terms.sourceSha256
      attemptSha256 := terms.attempt.map H.attempt
      orderStateSha256 := terms.orderState.map H.orderState
      orderEventSha256 := terms.orderEvent.map H.brokerEvent
      executionId := terms.executionId
      executionRevision := terms.executionRevision
      executionHeadQuantity := terms.executionHeadQuantity
      accountedQuantity := terms.accountedQuantity
      releasedCash
      releasedBuyExposure
      releasedSellQuantity
      occurredAt := terms.occurredAt
      recordedAt := terms.recordedAt }
  let fact := { material with releaseEventId := material.expectedEventId H }
  fact.validate H
  let _ ← projectReservationCapacity H reservation (priorReleases ++ [fact]) ∅
  return fact

/-- `_terminal_amounts`: all that remains for the authorization. -/
def terminalAmounts (priorReleases : List ReservationReleaseFact) : Py (ℚ × ℚ × ℚ) := do
  let projection ← projectReservationCapacity H reservation priorReleases ∅
  let child ← childProjection projection authorization.val.decisionId
  raiseIf child.fullyReleased "authorization capacity is already fully released"
  return (child.remainingCash, child.remainingBuyExposure, child.remainingSellQuantity)

/-- The checks on all attempts of the parent decision when an approval expires. -/
def checkParentAttempts (parentAttempts : List (CanonicalSubmissionAttempt H.canonicalId)) :
    Py Unit := do
  parentAttempts.forM fun attempt => do
    canonicalAttempt H attempt
    raiseIf (attempt.parentDecisionId ≠ reservation.val.parentDecisionId)
      "parent attempt snapshot crosses risk decisions"
    raiseIf (attempt.preparation.authorizationId = authorization.val.decisionId ∧
        attempt.state ≠ .abandoned)
      "approval expiry cannot release a child with an unretired prepared or sent order"
    raiseIf (attempt.state = .unknown)
      "an UNKNOWN sibling freezes expiry release for the whole reservation"
  let ordering :=
    parentAttempts.map fun a => toLex (a.orderId, toLex (a.attemptNumber, a.attemptId))
  raiseIf (ordering ≠ sortOn id ordering) "parent attempt snapshot is not canonically ordered"
  raiseIf (¬ ordering.Nodup) "parent attempt snapshot duplicates an attempt"

/-- An approval that was never sent has released nothing before. -/
def checkUnsent (priorReleases : List ReservationReleaseFact) : Py Unit :=
  if priorReleases = [] then pure ⟨⟩
  else do
    let projection ← projectReservationCapacity H reservation priorReleases ∅
    let child ← childProjection projection authorization.val.decisionId
    raiseIf (child.releaseEventIds ≠ []) "unsent approval cannot have prior economic releases"

/-- Release an expired child only from complete proven-unsent attempt evidence. -/
def recordApprovalExpiredUnsentRelease
    (parentAttempts : List (CanonicalSubmissionAttempt H.canonicalId)) (finalityReference : Str)
    (observedAt recordedAt : Instant) (priorReleases : List ReservationReleaseFact) :
    Py ReservationReleaseFact := do
  let _ ← authorizationForRelease H reservation authorization
  raiseIf (observedAt < authorization.val.expiresAt)
    "approval cannot expire before its exact expiry"
  checkParentAttempts H reservation authorization parentAttempts
  let sourceSha256 := H.sha256 "complete_parent_attempt_snapshot"
    (.text reservation.val.parentDecisionId :: parentAttempts.map fun a => .text (H.attempt a))
  let released ← terminalAmounts H reservation authorization priorReleases
  checkUnsent H reservation authorization priorReleases
  newReleaseFact H reservation authorization priorReleases {
    reason := .approvalExpiredUnsent
    finalityReference
    sourceSha256
    occurredAt := observedAt
    recordedAt
    released }

variable (attempt : CanonicalSubmissionAttempt H.canonicalId) (orderState : CanonicalOrderState)

/-- Release a whole child from its exact canonical broker rejection. -/
def recordBrokerRejectedRelease (rejectionEvent : BrokerOrderEvent) (recordedAt : Instant)
    (priorReleases : List ReservationReleaseFact) : Py ReservationReleaseFact := do
  let _ ← authorizationForRelease H reservation authorization
  bindAttempt H reservation authorization attempt
  requireKnownBrokerEffect H attempt
  raiseIf (attempt.state = .resolved ∧ attempt.resolution ≠ some .brokerRejected)
    "resolved attempt is not a broker rejection"
  bindOrder H authorization attempt orderState
  bindOrderEvent orderState rejectionEvent true
  raiseIf (rejectionEvent.val.kind ≠ .rejected ∨ orderState.status ≠ .rejected)
    "broker rejection release requires rejected order state"
  let released ← terminalAmounts H reservation authorization priorReleases
  newReleaseFact H reservation authorization priorReleases {
    reason := .brokerRejected
    finalityReference := rejectionEvent.val.eventId
    sourceSha256 := H.brokerEvent rejectionEvent
    occurredAt := rejectionEvent.val.receivedAt
    recordedAt
    released
    attempt := some attempt
    orderState := some orderState
    orderEvent := some rejectionEvent }

/-- The releases that were recorded for one execution of an order. -/
def executionReleases (executionId : Str) (priorReleases : List ReservationReleaseFact) :
    List ReservationReleaseFact :=
  priorReleases.filter fun fact =>
    fact.authorizationId = authorization.val.decisionId ∧ fact.attemptId = some attempt.attemptId ∧
      fact.orderId = some orderState.submission.val.orderId ∧ fact.reason = .executionAccounted ∧
      fact.executionId = some executionId ∧ fact.accountedQuantity ≠ none

/-- The quantity the revision before was accounted with; all of it must be. -/
def predecessorQuantity (releases : List ReservationReleaseFact) :
    Option (BrokerOrderEvent × ExecutionReport) → Py ℚ
  | none => do
    raiseIf (releases ≠ []) "initial execution revision already has accounting history"
    return 0
  | some (predecessor, before) => do
    let predecessorAccounting := releases.filter fun fact =>
      fact.orderEventId = some predecessor.val.eventId ∧
        fact.executionRevision = some before.executionRevision ∧
        fact.executionHeadQuantity = some before.quantity
    let cumulativeAccounted ← exactDecimalSum (releases.filterMap (·.accountedQuantity))
    let latestRevision := (releases.map (·.executionRevision.getD 0)).foldl max 0
    raiseIf (predecessorAccounting.length ≠ 1 ∨ latestRevision ≠ before.executionRevision ∨
        cumulativeAccounted ≠ before.quantity)
      "execution predecessor revision must have exact accounting coverage first"
    return before.quantity

/-- Release only a monotone execution quantity already represented by accounting. -/
def recordExecutionAccountedRelease (executionEvent : BrokerOrderEvent)
    (accountingReference accountingSourceSha256 : Str) (accountedAt recordedAt : Instant)
    (priorReleases : List ReservationReleaseFact) : Py ReservationReleaseFact := do
  let _ ← authorizationForRelease H reservation authorization
  bindAttempt H reservation authorization attempt
  requireKnownBrokerEffect H attempt
  raiseIf (attempt.state = .resolved ∧ attempt.resolution ≠ some .brokerAccepted)
    "resolved attempt has no accepted broker effect"
  bindOrder H authorization attempt orderState
  bindOrderEvent orderState executionEvent false
  let report ← getOrThrow executionEvent.val.kind.report?
    (.valueError "execution accounting requires an execution event")
  raiseIf (¬ ∃ execution ∈ orderState.executions, execution.eventId = executionEvent.val.eventId)
    "superseded execution events cannot authorize new release"
  raiseIf (accountedAt < executionEvent.val.receivedAt)
    "execution cannot be accounted before broker receipt"
  requireIndependentSource accountingSourceSha256
    [H.attempt attempt, H.orderState orderState, H.brokerEvent executionEvent]
    "broker or local order evidence alone cannot prove execution accounting"
  let predecessor ← executionPredecessor orderState executionEvent
  let accountedBefore ← predecessorQuantity
    (executionReleases H authorization attempt orderState report.executionId priorReleases)
      predecessor
  let newlyAccounted ← exactDecimalSubtract report.quantity accountedBefore
  raiseIf (newlyAccounted ≤ 0)
    "execution correction does not establish additional monotone capacity"
  let releasedExposure ← heldBuyExposure authorization.val.side newlyAccounted
    authorization.val.maximumExecutionPrice
  newReleaseFact H reservation authorization priorReleases {
    reason := .executionAccounted
    finalityReference := accountingReference
    sourceSha256 := accountingSourceSha256
    occurredAt := accountedAt
    recordedAt
    released := (releasedExposure, releasedExposure,
      heldSellQuantity authorization.val.side newlyAccounted)
    attempt := some attempt
    orderState := some orderState
    orderEvent := some executionEvent
    executionId := some report.executionId
    executionRevision := some report.executionRevision
    executionHeadQuantity := some report.quantity
    accountedQuantity := some newlyAccounted }

/-- The evidence that a submission never reached the broker. -/
def checkNotSubmitted (orderState : Option CanonicalOrderState)
    (terminalEvent : Option BrokerOrderEvent) (reconciliationSourceSha256 : Str)
    (reconciledAt : Instant) : Py Unit := do
  raiseIf (orderState ≠ none ∨ terminalEvent ≠ none)
    "confirmed broker absence cannot carry local order terminal evidence"
  let last ← getOrThrow attempt.events.getLast? .indexError
  let reconciliationSha256 ← getOrThrow last.reconciliationSha256 .assertionError
  raiseIf (reconciliationSourceSha256 ≠ reconciliationSha256)
    "not-submitted finality must use the attempt reconciliation source"
  raiseIf (reconciledAt < attempt.asOf) "reconciliation cannot predate its attempt evidence"

/-- The evidence that a sent order came to its end. -/
def checkTerminalOrder (reconciliationSourceSha256 : Str) (reconciledAt : Instant) :
    Option CanonicalOrderState → Option BrokerOrderEvent → Py Unit
  | some orderState, some terminalEvent => do
    bindOrder H authorization attempt orderState
    bindOrderEvent orderState terminalEvent true
    raiseIf (orderState.status.isTerminal = false) "reconciliation source is not terminal"
    raiseIf (reconciledAt ≤ orderState.asOf)
      "local terminal state alone cannot authorize release; reconciliation must be later"
    requireIndependentSource reconciliationSourceSha256
      [H.attempt attempt, H.orderState orderState, H.brokerEvent terminalEvent]
      "local terminal state alone cannot serve as reconciliation source"
  | _, _ => throw (.valueError
      "sent-order reconciliation requires exact terminal order-event evidence")

/-- The evidence a reconciliation needs, by how the attempt ended. -/
def checkReconciliation (orderState : Option CanonicalOrderState)
    (terminalEvent : Option BrokerOrderEvent) (reconciliationSourceSha256 : Str)
    (reconciledAt : Instant) : Py Unit :=
  if attempt.state = .resolved ∧ attempt.resolution = some .notSubmitted then
    checkNotSubmitted H attempt orderState terminalEvent reconciliationSourceSha256 reconciledAt
  else
    checkTerminalOrder H authorization attempt reconciliationSourceSha256 reconciledAt orderState
      terminalEvent

/-- Release residual capacity only after explicit reconciliation finality. -/
def recordReconciledTerminalRelease (orderState : Option CanonicalOrderState)
    (terminalEvent : Option BrokerOrderEvent)
    (reconciliationReference reconciliationSourceSha256 : Str) (reconciledAt recordedAt : Instant)
    (priorReleases : List ReservationReleaseFact) : Py ReservationReleaseFact := do
  let _ ← authorizationForRelease H reservation authorization
  bindAttempt H reservation authorization attempt
  raiseIf (attempt.state = .pending ∨ attempt.state = .inFlight ∨ attempt.state = .unknown ∨
      attempt.state = .abandoned)
    "unresolved or never-dispatched submission cannot be reconciled terminal"
  checkReconciliation H authorization attempt orderState terminalEvent reconciliationSourceSha256
    reconciledAt
  let released ← terminalAmounts H reservation authorization priorReleases
  newReleaseFact H reservation authorization priorReleases {
    reason := .reconciledTerminal
    finalityReference := reconciliationReference
    sourceSha256 := reconciliationSourceSha256
    occurredAt := reconciledAt
    recordedAt
    released
    attempt := some attempt
    orderState
    orderEvent := terminalEvent }

/-- The last event of an order at the horizon. -/
def checkLastOrderEvent : Option BrokerOrderEvent → Py Unit
  | some event => do
    raiseIf (orderState.brokerEvents = []) "sealed horizon invented an order event"
    bindOrderEvent orderState event true
  | none => raiseIf (orderState.brokerEvents ≠ []) "sealed horizon omitted the latest broker event"

/-- Release residual simulated capacity from one explicitly sealed final horizon. -/
def recordSimulationHorizonFinalRelease (lastOrderEvent : Option BrokerOrderEvent)
    (horizonReference horizonSourceSha256 : Str) (horizonAt recordedAt : Instant)
    (priorReleases : List ReservationReleaseFact) : Py ReservationReleaseFact := do
  let _ ← authorizationForRelease H reservation authorization
  bindAttempt H reservation authorization attempt
  requireKnownBrokerEffect H attempt
  raiseIf (attempt.state = .resolved ∧ attempt.resolution ≠ some .brokerAccepted)
    "simulation order has no accepted broker effect"
  bindOrder H authorization attempt orderState
  checkLastOrderEvent orderState lastOrderEvent
  raiseIf (horizonAt < max attempt.asOf orderState.asOf)
    "simulation horizon predates its complete order evidence"
  requireIndependentSource horizonSourceSha256
    ([H.attempt attempt, H.orderState orderState] ++ (lastOrderEvent.map H.brokerEvent).toList)
    "local order state alone cannot prove a sealed simulation horizon"
  let released ← terminalAmounts H reservation authorization priorReleases
  newReleaseFact H reservation authorization priorReleases {
    reason := .simulationHorizonFinal
    finalityReference := horizonReference
    sourceSha256 := horizonSourceSha256
    occurredAt := horizonAt
    recordedAt
    released
    attempt := some attempt
    orderState := some orderState
    orderEvent := lastOrderEvent }

end record

end AutoQuantTrader
