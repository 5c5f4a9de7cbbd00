import AutoQuantTrader.AccountCoordinator
import AutoQuantTrader.BatchRisk

/-!
# Submission attempts

An attempt to send an order is prepared from an approved decision and a current fence, and made
durable before anything is sent.  Its events are appended one by one, each bound to the one before;
`reduceSubmissionAttempt` rebuilds the attempt from them.  A new attempt is prepared only if no
attempt of the same decision is unknown and the last one for the order is known not to have been
sent.
-/

namespace AutoQuantTrader

open Result Sorting

/-! ## Checks -/

/-- `_require_text`, which bounds the length and refuses control characters. -/
def requirePlainText (maximum : Nat) (value fieldName : Str) : Py Unit := do
  requireText value fieldName
  raiseIf (maximum < value.chars.length ∨ ∃ c ∈ value.chars, c.toNat < 32)
    (fieldName ++ " contains unsupported text")

/-- The same check of a value that may be absent. -/
def requireOptionalPlainText (maximum : Nat) (value : Option Str) (fieldName : Str) : Py Unit :=
  match value with
  | some text => requirePlainText maximum text fieldName
  | none => pure ⟨⟩

/-- A part of an identifier that may be absent. -/
def IdPart.ofOption {α : Type} (part : α → IdPart) : Option α → IdPart
  | some value => part value
  | none => .enum "NoneType" "None"

/-! ## Records -/

inductive SubmissionAttemptState where
  | pending | inFlight | abandoned | confirmed | unknown | resolved
deriving DecidableEq

def SubmissionAttemptState.value : SubmissionAttemptState → Str
  | .pending => "pending"
  | .inFlight => "in_flight"
  | .abandoned => "abandoned"
  | .confirmed => "confirmed"
  | .unknown => "unknown"
  | .resolved => "resolved"

/-- `expected_states`. -/
def SubmissionAttemptState.next : SubmissionAttemptState → List SubmissionAttemptState
  | .pending => [.inFlight, .abandoned]
  | .inFlight => [.confirmed, .unknown]
  | .abandoned => []
  | .unknown => [.resolved]
  | .confirmed => []
  | .resolved => []

inductive UnknownSubmissionResolution where
  | notSubmitted | brokerAccepted | brokerRejected
deriving DecidableEq

def UnknownSubmissionResolution.value : UnknownSubmissionResolution → Str
  | .notSubmitted => "not_submitted"
  | .brokerAccepted => "broker_accepted"
  | .brokerRejected => "broker_rejected"

/-- What a preparation reads of the adapter request it is made for. -/
structure BrokerSubmissionRequest where
  (orderId clientOrderId intentPayloadSha256 requestSha256 : Str)
deriving DecidableEq

/-- The row that must be durable before dispatch begins. -/
structure SubmissionAttemptPreparation (I : CanonicalId) where
  attemptId : Str
  attemptNumber : Nat
  (orderId clientOrderId parentDecisionId authorizationId reservationId accountId : Str)
  intent : OrderIntent
  intentPayloadSha256 : Str
  riskDecision : BatchRiskDecision I
  (riskDecisionSha256 authorizationSha256 : Str)
  fenceReceipt : AccountFenceReceipt
  fenceReceiptSha256 : Str
  request : BrokerSubmissionRequest
  preparedAt : Instant
deriving DecidableEq

/-- One append-only state fact for a prepared attempt. -/
structure SubmissionAttemptEvent where
  (eventId attemptId : Str)
  sequenceNumber : Nat
  state : SubmissionAttemptState
  (occurredAt recordedAt : Instant)
  previousEventSha256 : Option Str
  dispatchFenceReceipt : Option AccountFenceReceipt := none
  responseSha256 : Option Str := none
  brokerOrderId : Option Str := none
  errorClass : Option Str := none
  resolution : Option UnknownSubmissionResolution := none
  reconciliationSha256 : Option Str := none
deriving DecidableEq

/-- The projection over one preparation and its events. -/
structure CanonicalSubmissionAttempt (I : CanonicalId) where
  preparation : SubmissionAttemptPreparation I
  events : List SubmissionAttemptEvent
  state : SubmissionAttemptState
  resolution : Option UnknownSubmissionResolution
  (responseSha256 brokerOrderId unknownErrorClass : Option Str)
  asOf : Instant
deriving DecidableEq

namespace CanonicalSubmissionAttempt

variable (attempt : CanonicalSubmissionAttempt I)

def attemptId : Str := attempt.preparation.attemptId

def attemptNumber : Nat := attempt.preparation.attemptNumber

def orderId : Str := attempt.preparation.orderId

def parentDecisionId : Str := attempt.preparation.parentDecisionId

/-- The request was never dispatched, or is known not to have been submitted. -/
def mayResubmit : Prop :=
  attempt.state = .abandoned ∨
    (attempt.state = .resolved ∧ attempt.resolution = some .notSubmitted)

instance : Decidable attempt.mayResubmit := inferInstanceAs (Decidable (_ ∨ _))

end CanonicalSubmissionAttempt

/-- The identifier and digest functions of the submission records. -/
structure SubmissionHashes extends BatchHashes where
  fenceReceipt : AccountFenceReceipt → Str
  attemptEvent : SubmissionAttemptEvent → Str
  attempt : CanonicalSubmissionAttempt canonicalId → Str

def SubmissionHashes.plain : SubmissionHashes where
  toBatchHashes := .plain
  fenceReceipt r := digitsId "receipt" [.text r.val.leaseSha256, .instant r.val.validatedAt]
  attemptEvent e := digitsId "attempt-event" [.text e.eventId]
  attempt a := digitsId "attempt"
    [.text a.preparation.attemptId, .integer a.events.length, .text a.state.value]

variable (H : SubmissionHashes)

/-! ## Identities -/

/-- `_order_id`. -/
def orderIdOf (H : OrderHashes) (intent : OrderIntent) : Str :=
  H.canonicalId "order" [.text intent.val.intentId, .text (H.intentPayloadHash intent)]

/-- `_client_order_id`. -/
def clientOrderIdOf (orderId : Str) : Str :=
  "aqt-" ++ Str.mk ((orderId.chars.filter (· ≠ '-')).take 24)

/-! ## The preparation -/

/-- One binding of an authorization to its intent. -/
def requireAuthorized {α : Type} [DecidableEq α] (actual intended : α) (fieldName : Str) :
    Py Unit :=
  raiseIf (actual ≠ intended)
    ("risk authorization " ++ fieldName ++ " does not match the exact intent")

/-- `_authorization_for_intent`. -/
def authorizationForIntent (decision : BatchRiskDecision H.canonicalId) (intent : OrderIntent) :
    Py (BatchRiskAuthorization H.canonicalId) := do
  raiseIf (decision.val.status ≠ .approved) "submission requires an approved batch risk decision"
  match decision.val.authorizations.filter (·.val.intentId = intent.val.intentId) with
  | [authorization] => do
    requireAuthorized authorization.val.intentBatchId intent.val.intentBatchId "intent batch"
    requireAuthorized authorization.val.intentPayloadHash (H.intentPayloadHash intent)
      "intent payload"
    requireAuthorized authorization.val.instrumentId intent.val.instrumentId "instrument"
    requireAuthorized authorization.val.symbol intent.val.symbol "symbol"
    requireAuthorized authorization.val.side intent.val.side "side"
    requireAuthorized authorization.val.quantity intent.val.quantity "quantity"
    requireAuthorized authorization.val.referencePrice intent.val.referencePrice "reference price"
    return authorization
  | _ => throw (.valueError "risk decision must contain exactly one authorization for the intent")

/-- The identity of an attempt. -/
def attemptIdOf (orderId : Str) (attemptNumber : Nat) (decision : BatchRiskDecision H.canonicalId)
    (receipt : AccountFenceReceipt) (request : BrokerSubmissionRequest) : Str :=
  H.canonicalId "submission-attempt" [.text orderId, .integer attemptNumber,
    .text (H.riskDecision decision), .text (H.fenceReceipt receipt), .text request.requestSha256]

/-- One binding of a preparation to what it was made from. -/
def requireEvidence {α : Type} [DecidableEq α] (actual expected : α) (fieldName : Str) : Py Unit :=
  raiseIf (actual ≠ expected)
    ("submission " ++ fieldName ++ " does not match its exact source evidence")

def SubmissionAttemptPreparation.validate (p : SubmissionAttemptPreparation H.canonicalId) :
    Py Unit := do
  requirePlainText 128 p.attemptId "submission attempt ID"
  requirePlainText 128 p.orderId "submission order ID"
  requirePlainText 128 p.clientOrderId "submission client order ID"
  requirePlainText 128 p.parentDecisionId "submission parent decision ID"
  requirePlainText 128 p.authorizationId "submission authorization ID"
  requirePlainText 128 p.reservationId "submission reservation ID"
  requirePlainText 128 p.accountId "submission account ID"
  raiseIf (p.attemptNumber = 0) "submission attempt number must be positive"
  let authorization ← authorizationForIntent H p.riskDecision p.intent
  let expectedOrderId := orderIdOf H.toOrderHashes p.intent
  requireEvidence p.attemptId
    (attemptIdOf H expectedOrderId p.attemptNumber p.riskDecision p.fenceReceipt p.request)
    "attempt identity"
  requireEvidence p.orderId expectedOrderId "order identity"
  requireEvidence p.clientOrderId (clientOrderIdOf expectedOrderId) "client order identity"
  requireEvidence p.parentDecisionId p.riskDecision.val.decisionId "parent risk decision"
  requireEvidence p.authorizationId authorization.val.decisionId "authorization identity"
  requireEvidence p.reservationId authorization.val.reservationId "reservation identity"
  requireEvidence p.accountId p.riskDecision.val.accountId "account identity"
  requireEvidence p.intentPayloadSha256 (H.intentPayloadHash p.intent) "intent payload digest"
  requireEvidence p.riskDecisionSha256 (H.riskDecision p.riskDecision) "risk decision digest"
  requireEvidence p.authorizationSha256 (H.authorization authorization) "authorization digest"
  requireEvidence p.fenceReceiptSha256 (H.fenceReceipt p.fenceReceipt) "fence receipt digest"
  raiseIf (p.fenceReceipt.val.fence.val.accountId ≠ p.accountId)
    "fence receipt belongs to a different account"
  raiseIf (p.request.orderId ≠ p.orderId) "broker request belongs to a different order"
  raiseIf (p.request.clientOrderId ≠ p.clientOrderId)
    "broker request changed the stable client order ID"
  raiseIf (p.request.intentPayloadSha256 ≠ p.intentPayloadSha256)
    "broker request changed the intent payload digest"
  raiseIf (p.fenceReceipt.val.validatedAt < p.riskDecision.val.evaluatedAt)
    "fence receipt must be current after risk evaluation"
  raiseIf (p.preparedAt < p.fenceReceipt.val.validatedAt)
    "submission cannot be prepared before fence validation"
  raiseIf (p.fenceReceipt.val.validUntil ≤ p.preparedAt)
    "submission preparation requires a current fence receipt"
  raiseIf (p.riskDecision.val.expiresAt ≤ p.preparedAt)
    "submission preparation requires current risk approval"
  raiseIf (p.intent.val.expiresAt ≤ p.preparedAt) "submission preparation requires a current intent"

/-- `_create_preparation`. -/
def createPreparation (intent : OrderIntent) (riskDecision : BatchRiskDecision H.canonicalId)
    (fenceReceipt : AccountFenceReceipt) (request : BrokerSubmissionRequest) (attemptNumber : Nat)
    (preparedAt : Instant) : Py (SubmissionAttemptPreparation H.canonicalId) := do
  let authorization ← authorizationForIntent H riskDecision intent
  let orderId := orderIdOf H.toOrderHashes intent
  let preparation : SubmissionAttemptPreparation H.canonicalId :=
    { attemptId := attemptIdOf H orderId attemptNumber riskDecision fenceReceipt request
      attemptNumber
      orderId
      clientOrderId := clientOrderIdOf orderId
      parentDecisionId := riskDecision.val.decisionId
      authorizationId := authorization.val.decisionId
      reservationId := authorization.val.reservationId
      accountId := riskDecision.val.accountId
      intent
      intentPayloadSha256 := H.intentPayloadHash intent
      riskDecision
      riskDecisionSha256 := H.riskDecision riskDecision
      authorizationSha256 := H.authorization authorization
      fenceReceipt
      fenceReceiptSha256 := H.fenceReceipt fenceReceipt
      request
      preparedAt }
  preparation.validate H
  return preparation

/-! ## Events -/

/-- The identity of an event. -/
def SubmissionAttemptEvent.expectedId (e : SubmissionAttemptEvent) : Str :=
  H.canonicalId "submission-attempt-event" [.text e.attemptId, .integer e.sequenceNumber,
    .text e.state.value, .instant e.occurredAt, .instant e.recordedAt,
    .ofOption .text e.previousEventSha256,
    .ofOption (fun receipt => .text (H.fenceReceipt receipt)) e.dispatchFenceReceipt,
    .ofOption .text e.responseSha256, .ofOption .text e.brokerOrderId,
    .ofOption .text e.errorClass, .ofOption (fun r => .text r.value) e.resolution,
    .ofOption .text e.reconciliationSha256]

/-- The evidence a resolution needs. -/
def SubmissionAttemptEvent.validateResolution (e : SubmissionAttemptEvent) :
    UnknownSubmissionResolution → Py Unit
  | .notSubmitted => raiseIf (e.responseSha256 ≠ none ∨ e.brokerOrderId ≠ none)
      "confirmed absence cannot retain broker outcome evidence"
  | .brokerAccepted => raiseIf (e.responseSha256 = none ∨ e.brokerOrderId = none)
      "accepted unknown submission requires response and broker order evidence"
  | .brokerRejected => raiseIf (e.responseSha256 = none)
      "rejected unknown submission requires response evidence"

/-- `_validate_shape`: the evidence each state has to have, and what it cannot have. -/
def SubmissionAttemptEvent.validateShape (e : SubmissionAttemptEvent) : Py Unit :=
  match e.state with
  | .pending =>
    raiseIf (e.dispatchFenceReceipt ≠ none ∨ e.responseSha256 ≠ none ∨ e.brokerOrderId ≠ none ∨
        e.errorClass ≠ none ∨ e.resolution ≠ none ∨ e.reconciliationSha256 ≠ none)
      "pending event has dispatch or outcome evidence"
  | .inFlight => do
    raiseIf (e.dispatchFenceReceipt = none) "in-flight event requires dispatch fence evidence"
    raiseIf (e.responseSha256 ≠ none ∨ e.brokerOrderId ≠ none ∨ e.errorClass ≠ none ∨
        e.resolution ≠ none ∨ e.reconciliationSha256 ≠ none)
      "in-flight event has outcome evidence"
  | .abandoned => do
    raiseIf (e.errorClass = none) "abandoned submission requires a recovery reason"
    raiseIf (e.dispatchFenceReceipt ≠ none ∨ e.responseSha256 ≠ none ∨ e.brokerOrderId ≠ none ∨
        e.resolution ≠ none ∨ e.reconciliationSha256 ≠ none)
      "abandoned submission has invented dispatch or broker evidence"
  | .confirmed => do
    raiseIf (e.responseSha256 = none ∨ e.brokerOrderId = none)
      "confirmed submission requires response and broker order evidence"
    raiseIf (e.dispatchFenceReceipt ≠ none ∨ e.errorClass ≠ none ∨ e.resolution ≠ none ∨
        e.reconciliationSha256 ≠ none)
      "confirmed submission has incompatible evidence"
  | .unknown => do
    raiseIf (e.errorClass = none) "unknown submission requires an error class"
    raiseIf (e.dispatchFenceReceipt ≠ none ∨ e.responseSha256 ≠ none ∨ e.brokerOrderId ≠ none ∨
        e.resolution ≠ none ∨ e.reconciliationSha256 ≠ none)
      "unknown submission has invented outcome evidence"
  | .resolved =>
    match e.resolution, e.reconciliationSha256 with
    | some resolution, some _ => do
      raiseIf (e.errorClass ≠ none) "resolved submission cannot replace its prior error class"
      raiseIf (e.dispatchFenceReceipt ≠ none)
        "resolved submission cannot carry dispatch fence evidence"
      e.validateResolution resolution
    | _, _ => throw (.valueError
        "resolved unknown submission requires resolution and reconciliation evidence")

def SubmissionAttemptEvent.validate (e : SubmissionAttemptEvent) : Py Unit := do
  requirePlainText 128 e.eventId "submission event ID"
  requirePlainText 128 e.attemptId "submission event attempt ID"
  raiseIf (e.sequenceNumber = 0) "submission event sequence must be positive"
  raiseIf (e.recordedAt < e.occurredAt) "submission event cannot be recorded before it occurred"
  requireOptionalPlainText 128 e.brokerOrderId "broker order ID"
  requireOptionalPlainText 128 e.errorClass "submission error class"
  raiseIf (e.sequenceNumber = 1 ∧ e.state ≠ .pending) "first submission event must be pending"
  raiseIf (e.sequenceNumber = 1 ∧ e.previousEventSha256 ≠ none)
    "first submission event cannot have a predecessor"
  raiseIf (e.sequenceNumber ≠ 1 ∧ e.previousEventSha256 = none)
    "successor submission event requires its predecessor"
  e.validateShape
  raiseIf (e.eventId ≠ e.expectedId H) "submission event ID is not canonically derived"

/-- `_create_event`, for the material of an event without its identity. -/
def createEvent (material : SubmissionAttemptEvent) : Py SubmissionAttemptEvent := do
  let event := { material with eventId := material.expectedId H }
  event.validate H
  return event

/-! ## The reducer -/

/-- What the reducer knows after some events. -/
structure AttemptProgress where
  count : Nat
  eventIds : List Str
  prior : Option SubmissionAttemptEvent
  unknownErrorClass : Option Str

def AttemptProgress.initial : AttemptProgress := ⟨0, [], none, none⟩

section reduction

variable (preparation : SubmissionAttemptPreparation H.canonicalId) (event : SubmissionAttemptEvent)

/-- An event follows the one before it. -/
def checkSuccession : Option SubmissionAttemptEvent → Py Unit
  | none => do
    raiseIf (event.state ≠ .pending) "submission lifecycle must begin pending"
    raiseIf (event.occurredAt ≠ preparation.preparedAt)
      "pending event must share preparation time"
  | some prior => do
    raiseIf (event.state ∉ prior.state.next)
      ("invalid submission transition " ++ prior.state.value ++ " -> " ++ event.state.value)
    raiseIf (event.previousEventSha256 ≠ some (H.attemptEvent prior))
      "submission event does not chain to its exact predecessor"
    raiseIf (event.occurredAt < prior.occurredAt ∨ event.recordedAt < prior.recordedAt)
      "submission event history cannot move backwards"

/-- The receipt of a dispatch is for the fence and the approval the attempt was prepared with. -/
def checkDispatchReceipt : Option AccountFenceReceipt → Py Unit
  | none => throw .assertionError
  | some receipt => do
    raiseIf (receipt.val.fence ≠ preparation.fenceReceipt.val.fence)
      "dispatch receipt changed the prepared stable fence"
    raiseIf (receipt.val.policySha256 ≠ preparation.fenceReceipt.val.policySha256)
      "dispatch receipt changed the fence policy"
    raiseIf (receipt.val.validatedAt ≠ event.occurredAt)
      "dispatch receipt must be validated at dispatch occurrence"
    raiseIf (receipt.val.validUntil ≤ event.occurredAt) "dispatch requires a current fence receipt"
    raiseIf (preparation.riskDecision.val.expiresAt ≤ event.occurredAt)
      "dispatch cannot begin after risk approval expiry"
    raiseIf (preparation.intent.val.expiresAt ≤ event.occurredAt)
      "dispatch cannot begin after intent expiry"

def checkDispatch : Py Unit :=
  if event.state = .inFlight then
    checkDispatchReceipt H preparation event event.dispatchFenceReceipt
  else pure ⟨⟩

def reduceAttemptStep (s : AttemptProgress) (event : SubmissionAttemptEvent) :
    Py AttemptProgress := do
  event.validate H
  raiseIf (event.eventId ∈ s.eventIds) "submission event identity is reused"
  raiseIf (event.attemptId ≠ preparation.attemptId) "submission event belongs to another attempt"
  raiseIf (event.sequenceNumber ≠ s.count + 1) "submission event sequence must be contiguous"
  checkSuccession H preparation event s.prior
  checkDispatch H preparation event
  return {
    count := s.count + 1
    eventIds := s.eventIds ++ [event.eventId]
    prior := some event
    unknownErrorClass := if event.state = .unknown then event.errorClass else s.unknownErrorClass }

/-- Rebuild one attempt from its events. -/
def reduceSubmissionAttempt (events : List SubmissionAttemptEvent) :
    Py (CanonicalSubmissionAttempt H.canonicalId) := do
  preparation.validate H
  raiseIf (events = []) "submission reducer requires immutable exact events"
  let s ← events.foldlM (reduceAttemptStep H preparation) .initial
  let prior ← getOrThrow s.prior .assertionError
  return {
    preparation
    events
    state := prior.state
    resolution := prior.resolution
    responseSha256 := prior.responseSha256
    brokerOrderId := prior.brokerOrderId
    unknownErrorClass := s.unknownErrorClass
    asOf := prior.recordedAt }

end reduction

/-- `_require_canonical_attempt`. -/
def requireCanonicalAttempt (attempt : CanonicalSubmissionAttempt H.canonicalId) : Py Unit := do
  let reduced ← reduceSubmissionAttempt H attempt.preparation attempt.events
  raiseIf (reduced ≠ attempt) "submission attempt is not reducer-produced"

/-! ## The barrier of a parent decision -/

structure ParentBatchSubmissionBarrier where
  parentDecisionId : Str
  (attemptSha256s unknownAttemptIds : List Str)
  barrierSha256 : Str

def ParentBatchSubmissionBarrier.blocked (b : ParentBatchSubmissionBarrier) : Prop :=
  b.unknownAttemptIds ≠ []

instance (b : ParentBatchSubmissionBarrier) : Decidable b.blocked :=
  inferInstanceAs (Decidable (_ ≠ _))

/-- Project unknown outcomes from all attempts of a parent decision. -/
def submissionBarrierForParent (parentDecisionId : Str)
    (attempts : List (CanonicalSubmissionAttempt H.canonicalId)) :
    Py ParentBatchSubmissionBarrier := do
  requirePlainText 128 parentDecisionId "barrier parent decision ID"
  attempts.forM fun attempt => do
    requireCanonicalAttempt H attempt
    raiseIf (attempt.parentDecisionId ≠ parentDecisionId)
      "barrier attempt belongs to another parent decision"
  let ordering := attempts.map fun a => toLex (a.orderId, toLex (a.attemptNumber, a.attemptId))
  raiseIf (ordering ≠ sortOn id ordering)
    "barrier attempts must use canonical order and attempt order"
  raiseIf (¬ (attempts.map (·.attemptId)).Nodup) "barrier attempt identities must be unique"
  let attemptSha256s := attempts.map H.attempt
  let unknownAttemptIds := (attempts.filter (·.state = .unknown)).map (·.attemptId)
  return {
    parentDecisionId
    attemptSha256s
    unknownAttemptIds
    barrierSha256 := H.sha256 "parent_batch_barrier"
      (.text parentDecisionId :: .integer attemptSha256s.length ::
        (attemptSha256s ++ unknownAttemptIds).map .text) }

def requireParentBatchSubmissionClear (parentDecisionId : Str)
    (attempts : List (CanonicalSubmissionAttempt H.canonicalId)) :
    Py ParentBatchSubmissionBarrier := do
  let barrier ← submissionBarrierForParent H parentDecisionId attempts
  raiseIf barrier.blocked "parent batch has an unresolved UNKNOWN submission; dispatch is fenced"
  return barrier

/-! ## Preparing and advancing an attempt -/

/-- The attempts before the next one of an order are contiguous and the last was not sent. -/
def checkPriorAttempts (prior : List (CanonicalSubmissionAttempt H.canonicalId)) : Py Unit :=
  match prior.getLast? with
  | none => pure ⟨⟩
  | some last => do
    raiseIf (prior.map (·.attemptNumber) ≠ List.range' 1 prior.length)
      "prior order attempts are not contiguous"
    raiseIf (¬ last.mayResubmit)
      ("a new attempt requires durable proof that the prior request was never dispatched " ++
        "or was not submitted")

/-- Prepare a pending attempt after proving approval, fence, and retry safety. -/
def prepareSubmissionAttempt (intent : OrderIntent) (riskDecision : BatchRiskDecision H.canonicalId)
    (fenceReceipt : AccountFenceReceipt) (request : BrokerSubmissionRequest)
    (preparedAt recordedAt : Instant)
    (parentAttempts : List (CanonicalSubmissionAttempt H.canonicalId)) :
    Py (CanonicalSubmissionAttempt H.canonicalId) := do
  raiseIf (recordedAt < preparedAt) "pending event cannot be recorded before preparation"
  let _ ← requireParentBatchSubmissionClear H riskDecision.val.decisionId parentAttempts
  let priorOrderAttempts :=
    parentAttempts.filter (·.orderId = orderIdOf H.toOrderHashes intent)
  checkPriorAttempts H priorOrderAttempts
  let preparation ← createPreparation H intent riskDecision fenceReceipt request
    (priorOrderAttempts.length + 1) preparedAt
  let pending ← createEvent H {
    eventId := ""
    attemptId := preparation.attemptId
    sequenceNumber := 1
    state := .pending
    occurredAt := preparedAt
    recordedAt
    previousEventSha256 := none }
  reduceSubmissionAttempt H preparation [pending]

/-- `_append_event`, for the material of the event without its place in the history. -/
def appendEvent (attempt : CanonicalSubmissionAttempt H.canonicalId)
    (material : SubmissionAttemptEvent) : Py (CanonicalSubmissionAttempt H.canonicalId) := do
  requireCanonicalAttempt H attempt
  let previous ← getOrThrow attempt.events.getLast? .indexError
  let event ← createEvent H { material with
    attemptId := attempt.attemptId
    sequenceNumber := attempt.events.length + 1
    previousEventSha256 := some (H.attemptEvent previous) }
  reduceSubmissionAttempt H attempt.preparation (attempt.events ++ [event])

/-- An event of the given state that is still without its place in a history. -/
def eventMaterial (state : SubmissionAttemptState) (occurredAt recordedAt : Instant) :
    SubmissionAttemptEvent :=
  { eventId := ""
    attemptId := ""
    sequenceNumber := 0
    state
    occurredAt
    recordedAt
    previousEventSha256 := none }

variable (attempt : CanonicalSubmissionAttempt H.canonicalId) (occurredAt recordedAt : Instant)

/-- Durably mark dispatch immediately before invoking the broker adapter. -/
def markSubmissionInFlight (dispatchFenceReceipt : AccountFenceReceipt) :
    Py (CanonicalSubmissionAttempt H.canonicalId) :=
  appendEvent H attempt { eventMaterial .inFlight occurredAt recordedAt with
    dispatchFenceReceipt := some dispatchFenceReceipt }

/-- Record the proof that dispatch never began. -/
def abandonPendingSubmission (errorClass : Str) : Py (CanonicalSubmissionAttempt H.canonicalId) :=
  appendEvent H attempt { eventMaterial .abandoned occurredAt recordedAt with
    errorClass := some errorClass }

def confirmSubmission (responseSha256 brokerOrderId : Str) :
    Py (CanonicalSubmissionAttempt H.canonicalId) :=
  appendEvent H attempt { eventMaterial .confirmed occurredAt recordedAt with
    responseSha256 := some responseSha256
    brokerOrderId := some brokerOrderId }

def markSubmissionUnknown (errorClass : Str) : Py (CanonicalSubmissionAttempt H.canonicalId) :=
  appendEvent H attempt { eventMaterial .unknown occurredAt recordedAt with
    errorClass := some errorClass }

def resolveUnknownSubmission (resolution : UnknownSubmissionResolution)
    (reconciliationSha256 : Str) (responseSha256 brokerOrderId : Option Str) :
    Py (CanonicalSubmissionAttempt H.canonicalId) :=
  appendEvent H attempt { eventMaterial .resolved occurredAt recordedAt with
    responseSha256
    brokerOrderId
    resolution := some resolution
    reconciliationSha256 := some reconciliationSha256 }

end AutoQuantTrader
