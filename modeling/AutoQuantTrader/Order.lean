import AutoQuantTrader.Contracts

/-!
# The order lifecycle

One order is rebuilt from its submission, at most one cancel request and the broker's events.
`reduceOrderLifecycle` deduplicates the events, puts them in broker sequence and runs the lifecycle
over them; `LifecycleState.executionHeads` holds the current revision of every execution.
-/

namespace AutoQuantTrader

open Result Sorting

/-! ## Records -/

inductive DecisionTriggerKind where
  | marketBatch | clock
deriving DecidableEq

structure DecisionTrigger where
  kind : DecisionTriggerKind
  (triggerId triggerSha256 : Str)
  asOf : Instant
deriving DecidableEq

structure OrderIntentFields where
  (intentId intentBatchId targetId targetSha256 portfolioSnapshotSha256 strategyId
    strategyVersion strategyConfigurationSha256 : Str)
  decisionTrigger : DecisionTrigger
  (instrumentId symbol : Str)
  side : Side
  (quantity referencePrice : ℚ)
  (decisionEventId referenceEventSha256 : Str)
  (decisionEventTime createdAt expiresAt : Instant)
deriving DecidableEq

def OrderIntentFields.postInit (i : OrderIntentFields) : Py Unit := do
  requireText i.intentId "intent_id"
  requireText i.intentBatchId "intent_batch_id"
  requireText i.targetId "target_id"
  requireText i.strategyId "strategy_id"
  requireText i.strategyVersion "strategy_version"
  requireText i.instrumentId "instrument_id"
  requireText i.symbol "symbol"
  requireText i.decisionEventId "decision_event_id"
  requireText i.decisionTrigger.triggerId "decision trigger ID"
  raiseIf (¬ isUppercase i.symbol) "intent symbol must use its canonical uppercase form"
  raiseIf (i.quantity ≤ 0) "quantity must be a finite positive decimal"
  raiseIf (¬ isWhole i.quantity) "intent quantity must be a whole number of shares"
  raiseIf (i.referencePrice ≤ 0) "reference_price must be a finite positive decimal"
  let _ ← canonicalPersistedDecimal i.quantity "intent quantity"
  let _ ← canonicalPersistedDecimal i.referencePrice "intent reference_price"
  raiseIf (i.createdAt < i.decisionEventTime) "intent cannot be created before its decision event"
  raiseIf (i.createdAt ≠ i.decisionTrigger.asOf)
    "intent and decision trigger must share the same creation time"
  raiseIf (i.expiresAt ≤ i.createdAt) "intent must expire after it is created"

abbrev OrderIntent := Checked OrderIntentFields.postInit

theorem OrderIntent.quantity_bounds (intent : OrderIntent) :
    0 < intent.val.quantity ∧ isWhole intent.val.quantity ∧ isPersisted intent.val.quantity ∧
      0 < intent.val.referencePrice ∧ isPersisted intent.val.referencePrice := by
  have hpasses := intent.passes
  simp only [OrderIntentFields.postInit, Py.eq_ok, canonicalPersistedDecimal_eq_ok,
    not_le] at hpasses
  obtain ⟨_, -, _, -, _, -, _, -, _, -, _, -, _, -, _, -, _, -, _, -, _, hpositive, _, hwhole, _,
    hprice, _, ⟨hquantity, -⟩, _, ⟨hreference, -⟩, -⟩ := hpasses
  exact ⟨hpositive, hwhole, hquantity, hprice, hreference⟩

/-- The submission of an intent.  The digest of the intent that the record also carries is checked
to be the intent's, so it is left out. -/
structure OrderSubmissionFields where
  (orderId submissionAttemptId clientOrderId riskDecisionId : Str)
  intent : OrderIntent
  submittedAt : Instant
deriving DecidableEq

def OrderSubmissionFields.postInit (s : OrderSubmissionFields) : Py Unit := do
  requireText s.orderId "order_id"
  requireText s.submissionAttemptId "submission_attempt_id"
  requireText s.clientOrderId "client_order_id"
  requireText s.riskDecisionId "risk_decision_id"
  raiseIf (s.submittedAt < s.intent.val.createdAt) "submission cannot precede intent creation"

abbrev OrderSubmission := Checked OrderSubmissionFields.postInit

structure OrderCancelRequestFields where
  (cancelRequestId orderId priorOrderStateSha256 : Str)
  requestedAt : Instant
  reason : Str
deriving DecidableEq

def OrderCancelRequestFields.postInit (c : OrderCancelRequestFields) : Py Unit := do
  requireText c.cancelRequestId "cancel_request_id"
  requireText c.orderId "cancel order_id"
  requireText c.reason "cancel reason"

abbrev OrderCancelRequest := Checked OrderCancelRequestFields.postInit

/-- What an execution event reports. -/
structure ExecutionReport where
  executionId : Str
  executionRevision : Nat
  (quantity price fee : ℚ)
deriving DecidableEq

/-- The kind of a broker event with the fields only that kind has, so that a non-execution event
has no execution fields and a correction always names the event it supersedes. -/
inductive BrokerOrderEventKind where
  | accepted
  | rejected
  | canceled
  | execution (report : ExecutionReport)
  | executionCorrection (report : ExecutionReport) (supersedesEventId : Str)
deriving DecidableEq

structure BrokerOrderEventFields where
  (eventId orderId brokerOrderId : Str)
  brokerSequence : Nat
  (occurredAt receivedAt : Instant)
  kind : BrokerOrderEventKind
  reason : Option Str
deriving DecidableEq

/-- The report of an execution or a correction. -/
def BrokerOrderEventKind.report? : BrokerOrderEventKind → Option ExecutionReport
  | .execution r => some r
  | .executionCorrection r _ => some r
  | _ => none

def BrokerOrderEventKind.isCorrection : BrokerOrderEventKind → Bool
  | .executionCorrection _ _ => true
  | _ => false

def wholeQuantity (value : ℚ) (fieldName : Str) (allowZero : Bool) : Py Unit := do
  raiseIf (value < 0 ∨ (¬ allowZero ∧ value = 0))
    (fieldName ++ " must be " ++ if allowZero then "non-negative" else "positive")
  raiseIf (¬ isWhole value) (fieldName ++ " must be a whole number of shares")
  let _ ← canonicalPersistedDecimal value fieldName

def money (value : ℚ) (fieldName : Str) (allowZero : Bool) : Py Unit := do
  raiseIf (value < 0 ∨ (¬ allowZero ∧ value = 0))
    (fieldName ++ " must be " ++ if allowZero then "non-negative" else "positive")
  let _ ← canonicalPersistedDecimal value fieldName

def ExecutionReport.check (r : ExecutionReport) (isCorrection : Bool) : Py Unit := do
  requireText r.executionId "execution_id"
  raiseIf (r.executionRevision < 1) "execution_revision must be a positive integer"
  wholeQuantity r.quantity "execution quantity" isCorrection
  money r.price "execution price" false
  money r.fee "execution fee" true

/-- The checks that depend on the kind of an event. -/
def BrokerOrderEventFields.checkKind (e : BrokerOrderEventFields) : Py Unit :=
  match e.kind with
  | .accepted | .canceled => pure ⟨⟩
  | .rejected => raiseIf (e.reason = none) "broker rejection requires a reason"
  | .execution r => do
    r.check false
    raiseIf (r.executionRevision ≠ 1)
      "initial execution must be revision one without predecessor"
  | .executionCorrection r supersedes => do
    r.check true
    raiseIf (r.executionRevision = 1) "execution correction requires a revision and predecessor"
    requireText supersedes "superseded execution event_id"
    raiseIf (supersedes = e.eventId) "execution event cannot supersede itself"

def BrokerOrderEventFields.postInit (e : BrokerOrderEventFields) : Py Unit := do
  requireText e.eventId "broker event_id"
  requireText e.orderId "broker event order_id"
  requireText e.brokerOrderId "broker_order_id"
  raiseIf (e.brokerSequence < 1) "broker_sequence must be a positive integer"
  raiseIf (e.receivedAt < e.occurredAt) "broker event cannot be received before it occurred"
  requireOptionalText e.reason "broker event reason"
  e.checkKind

abbrev BrokerOrderEvent := Checked BrokerOrderEventFields.postInit

structure ExecutionProjection where
  executionId : Str
  revision : Nat
  eventId : Str
  (quantity price fee : ℚ)
  (occurredAt receivedAt : Instant)
deriving DecidableEq

inductive CanonicalOrderStatus where
  | submitted | working | partiallyFilled | filled | canceled | rejected
deriving DecidableEq

structure CanonicalOrderState where
  submission : OrderSubmission
  cancelRequest : Option OrderCancelRequest
  brokerOrderId : Option Str
  status : CanonicalOrderStatus
  brokerEvents : List BrokerOrderEvent
  executions : List ExecutionProjection
  (filledQuantity totalFees : ℚ)
  lastBrokerSequence : Nat
  asOf : Instant
deriving DecidableEq

/-- The identifier and digest functions of the order records. -/
structure OrderHashes where
  canonicalId : CanonicalId
  intentPayloadHash : OrderIntent → Str
  orderState : CanonicalOrderState → Str

def OrderHashes.plain : OrderHashes where
  canonicalId := plainId
  intentPayloadHash intent := plainId "intent" [.text intent.val.intentId]
  orderState state := plainId "order-state"
    [.text state.submission.val.orderId, .integer state.lastBrokerSequence, .instant state.asOf]

/-- A small intent for one instrument. -/
def plainIntent (intentId : Str) (side : Side) (quantity : ℚ) : Py OrderIntent :=
  construct {
    intentId
    intentBatchId := "batch"
    targetId := "target"
    targetSha256 := "t"
    portfolioSnapshotSha256 := "p"
    strategyId := "strategy"
    strategyVersion := "v1"
    strategyConfigurationSha256 := "c"
    decisionTrigger := ⟨.marketBatch, "trigger", "g", 0⟩
    instrumentId := "i1"
    symbol := "ABC"
    side
    quantity
    referencePrice := 20
    decisionEventId := "decision"
    referenceEventSha256 := "r"
    decisionEventTime := 0
    createdAt := 0
    expiresAt := 100 }

/-- A broker event that is known when it happens. -/
def plainEvent (eventId orderId brokerOrderId : Str) (brokerSequence : Nat) (t : Instant)
    (kind : BrokerOrderEventKind) : Py BrokerOrderEvent :=
  construct {
    eventId
    orderId
    brokerOrderId
    brokerSequence
    occurredAt := t
    receivedAt := t
    kind
    reason := none }

variable (H : OrderHashes)

def createOrderSubmission (intent : OrderIntent) (riskDecisionId submissionAttemptId : Str)
    (submittedAt : Instant) : Py OrderSubmission :=
  let orderId := H.canonicalId "order"
    [.text intent.val.intentId, .text (H.intentPayloadHash intent)]
  construct {
    orderId
    submissionAttemptId
    clientOrderId := "aqt-" ++ Str.mk ((orderId.chars.filter (· ≠ '-')).take 24)
    riskDecisionId
    intent
    submittedAt }

/-! ## The broker's events in sequence -/

/-- The events seen so far, by identity and by sequence slot. -/
structure EventIndex where
  byId : Dict Str BrokerOrderEvent
  bySequence : Dict Nat BrokerOrderEvent

def indexBrokerEvent (index : EventIndex) (event : BrokerOrderEvent) : Py EventIndex :=
  match index.byId.get? event.val.eventId with
  | some existing => do
    raiseIf (existing ≠ event) "broker event identity has conflicting semantics"
    return index
  | none => do
    raiseIf (index.bySequence.get? event.val.brokerSequence).isSome
      "broker sequence slot has conflicting events"
    return { byId := index.byId.set event.val.eventId event
             bySequence := index.bySequence.set event.val.brokerSequence event }

/-- Consecutive events never move backwards in occurrence or in receipt. -/
def checkEventTimes : List BrokerOrderEvent → Py Unit
  | previous :: current :: rest => do
    raiseIf (current.val.occurredAt < previous.val.occurredAt)
      "broker event time cannot move backwards with sequence"
    raiseIf (current.val.receivedAt < previous.val.receivedAt)
      "broker receipt time cannot move backwards with sequence"
    checkEventTimes (current :: rest)
  | _ => pure ⟨⟩

def uniqueBrokerEvents (events : List BrokerOrderEvent) : Py (List BrokerOrderEvent) := do
  let index ← events.foldlM indexBrokerEvent ⟨.empty, .empty⟩
  let ordered := sortOn (fun e => e.val.brokerSequence) index.byId.values
  raiseIf (ordered.map (·.val.brokerSequence) ≠ List.range' 1 ordered.length)
    "broker event sequence must be contiguous from one"
  checkEventTimes ordered
  return ordered

/-! ## The lifecycle -/

/-- An order between two broker events. -/
structure LifecycleState where
  brokerOrderId : Option Str
  (accepted rejected canceled : Bool)
  executionHeads : Dict Str BrokerOrderEvent

def LifecycleState.initial : LifecycleState := ⟨none, false, false, false, .empty⟩

section reduction

variable (submission : OrderSubmission) (cancelRequest : Option OrderCancelRequest)
  (s : LifecycleState) (event : BrokerOrderEvent)

/-- A broker cancellation answers an earlier local request. -/
def requireCancelRequest : Py Unit :=
  match cancelRequest with
  | none => throw (.valueError "broker cancellation requires an exact local request")
  | some request =>
    raiseIf (event.val.occurredAt < request.val.requestedAt)
      "broker cancellation cannot precede its local request"

/-- The effect of an event's kind on the lifecycle. -/
def applyEventKind : Py LifecycleState :=
  match event.val.kind with
  | .accepted => do
    raiseIf (s.accepted ∨ s.rejected ∨ s.canceled)
      "broker acceptance is invalid in the current lifecycle"
    return { s with accepted := true }
  | .rejected => do
    raiseIf (s.accepted ∨ s.rejected ∨ s.canceled ∨ s.executionHeads.entries ≠ [])
      "broker rejection cannot follow acceptance or execution"
    return { s with rejected := true }
  | .canceled => do
    raiseIf (s.rejected ∨ s.canceled) "broker cancellation is invalid in the current lifecycle"
    requireCancelRequest cancelRequest event
    return { s with canceled := true }
  | .execution report => do
    raiseIf s.rejected "rejected order cannot receive an execution"
    raiseIf (s.executionHeads.get? report.executionId).isSome "execution identity already exists"
    return { s with executionHeads := s.executionHeads.set report.executionId event }
  | .executionCorrection report supersedes =>
    match s.executionHeads.get? report.executionId with
    | none => throw (.valueError "execution correction has no known predecessor")
    | some previous => do
      raiseIf (some report.executionRevision ≠
          previous.val.kind.report?.map (·.executionRevision + 1))
        "execution correction revision is not contiguous"
      raiseIf (supersedes ≠ previous.val.eventId)
        "execution correction does not supersede the current head"
      return { s with executionHeads := s.executionHeads.set report.executionId event }

/-- The quantities of the current executions. -/
def LifecycleState.headQuantities : List ℚ :=
  s.executionHeads.values.filterMap fun e => e.val.kind.report?.map (·.quantity)

/-- One broker event against the order as it stands. -/
def lifecycleStep : Py LifecycleState := do
  raiseIf (event.val.orderId ≠ submission.val.orderId) "broker event belongs to a different order"
  raiseIf (event.val.occurredAt < submission.val.submittedAt)
    "broker event cannot precede submission"
  raiseIf (∃ known ∈ s.brokerOrderId, known ≠ event.val.brokerOrderId)
    "broker order identity changed within one order"
  let s' ← applyEventKind cancelRequest { s with brokerOrderId := some event.val.brokerOrderId }
    event
  let filled ← exactDecimalSum s'.headQuantities
  raiseIf (submission.val.intent.val.quantity < filled)
    "cumulative execution quantity exceeds the order quantity"
  return s'

/-- The projection of the current revision of an execution. -/
def executionProjection (executionId : Str) (event : BrokerOrderEvent) :
    Option ExecutionProjection :=
  event.val.kind.report?.map fun report =>
    { executionId
      revision := report.executionRevision
      eventId := event.val.eventId
      quantity := report.quantity
      price := report.price
      fee := report.fee
      occurredAt := event.val.occurredAt
      receivedAt := event.val.receivedAt }

/-- The current executions in the order of their identity. -/
def executionProjections (heads : Dict Str BrokerOrderEvent) : List ExecutionProjection :=
  (sortOn Prod.fst heads.entries).filterMap fun item => executionProjection item.1 item.2

def lifecycleStatus (quantity filledQuantity : ℚ) : CanonicalOrderStatus :=
  if s.rejected then .rejected
  else if filledQuantity = quantity then .filled
  else if s.canceled then .canceled
  else if 0 < filledQuantity then .partiallyFilled
  else if s.accepted then .working
  else .submitted

/-- The lifecycle over events that are in sequence already. -/
def reduceOrdered (ordered : List BrokerOrderEvent) : Py CanonicalOrderState := do
  let s ← ordered.foldlM (lifecycleStep submission cancelRequest) .initial
  let executions := executionProjections s.executionHeads
  let filledQuantity ← exactDecimalSum (executions.map (·.quantity))
  let totalFees ← exactDecimalSum (executions.map (·.fee))
  return {
    submission
    cancelRequest
    brokerOrderId := s.brokerOrderId
    status := lifecycleStatus s submission.val.intent.val.quantity filledQuantity
    brokerEvents := ordered
    executions
    filledQuantity
    totalFees
    lastBrokerSequence := (ordered.getLast?.map (·.val.brokerSequence)).getD 0
    asOf := (ordered.map (·.val.receivedAt) ++
      (cancelRequest.map (·.val.requestedAt)).toList).foldl max submission.val.submittedAt }

def CanonicalOrderStatus.isTerminal : CanonicalOrderStatus → Bool
  | .filled | .canceled | .rejected => true
  | _ => false

/-- A cancel request names its order and follows the submission. -/
def checkCancelRequest : Option OrderCancelRequest → Py Unit
  | none => pure ⟨⟩
  | some request => do
    raiseIf (request.val.orderId ≠ submission.val.orderId)
      "cancel request belongs to a different order"
    raiseIf (request.val.requestedAt < submission.val.submittedAt)
      "cancel request cannot precede submission"

/-- A cancel request is bound to the order as it was known just before the request. -/
def checkCancelBinding (ordered : List BrokerOrderEvent) : Option OrderCancelRequest → Py Unit
  | none => pure ⟨⟩
  | some request => do
    let priorEvents ← uniqueBrokerEvents
      (ordered.filter (·.val.receivedAt < request.val.requestedAt))
    let priorState ← reduceOrdered submission none priorEvents
    raiseIf (H.orderState priorState ≠ request.val.priorOrderStateSha256)
      "cancel request is not bound to the exact prior order state"
    raiseIf (request.val.requestedAt ≤ priorState.asOf)
      "cancel request must follow the observed order state"
    raiseIf priorState.status.isTerminal "cancel request cannot bind a terminal order state"

/-- Rebuild one order from immutable submission, cancel and broker facts. -/
def reduceOrderLifecycle (brokerEvents : List BrokerOrderEvent)
    (cancelRequest : Option OrderCancelRequest) : Py CanonicalOrderState := do
  checkCancelRequest submission cancelRequest
  let ordered ← uniqueBrokerEvents brokerEvents
  checkCancelBinding H submission ordered cancelRequest
  reduceOrdered submission cancelRequest ordered

end reduction

/-! ## What a reduced order satisfies -/

variable {H : OrderHashes} {cancelRequest : Option OrderCancelRequest} {s : LifecycleState}
  {event : BrokerOrderEvent}

/-- Indexing by identity and by slot collects the events by identity. -/
theorem byId_of_indexBrokerEvent (h : indexBrokerEvent index event = .ok index') :
    Dict.uniqueStep (·.val.eventId) () index.byId event = .ok index'.byId := by
  unfold indexBrokerEvent at h
  rw [Dict.uniqueStep_eq_ok]
  split at h
  · next existing hget =>
    simp only [Py.eq_ok] at h
    obtain ⟨-, rfl, rfl⟩ := h
    exact ⟨fun y hy => Option.some.inj (hy.symm.trans hget), Dict.set_eq_self hget⟩
  · next hget =>
    simp only [Py.eq_ok] at h
    obtain ⟨-, -, rfl⟩ := h
    exact ⟨fun y hy => by simp [hget] at hy, rfl⟩

variable {events : List BrokerOrderEvent}

/-- The ordered events are the given ones, each identity once. -/
theorem uniqueBrokerEvents_spec (h : uniqueBrokerEvents events = .ok ordered) :
    (∀ e, e ∈ ordered ↔ e ∈ events) ∧ (ordered.map (·.val.eventId)).Nodup := by
  simp only [uniqueBrokerEvents, Py.eq_ok] at h
  obtain ⟨index, hindex, -, -, -, -, rfl⟩ := h
  have hunique : Dict.unique (·.val.eventId) () events = .ok index.byId :=
    foldlM_simulation EventIndex.byId (fun _ _ _ _ => byId_of_indexBrokerEvent) hindex
  refine ⟨fun e => by rw [mem_sortOn, Dict.mem_values_of_unique hunique], ?_⟩
  refine (Dict.nodup_values_of_unique hunique |> nodup_sortOn.2).map_on fun a ha b hb hab => ?_
  rw [mem_sortOn, Dict.mem_values_of_unique hunique] at ha hb
  exact Dict.eq_of_unique hunique ha hb hab

/-- **What an event does to the lifecycle of an order**, with what was checked of it. -/
inductive LifecycleEvent (cancelRequest : Option OrderCancelRequest) (s : LifecycleState)
    (event : BrokerOrderEvent) : LifecycleState → Prop where
  | acceptance (hkind : event.val.kind = .accepted) (haccepted : s.accepted = false)
      (hrejected : s.rejected = false) (hcanceled : s.canceled = false) :
      LifecycleEvent cancelRequest s event
        { s with brokerOrderId := some event.val.brokerOrderId, accepted := true }
  | rejection (hkind : event.val.kind = .rejected) (haccepted : s.accepted = false)
      (hrejected : s.rejected = false) (hcanceled : s.canceled = false)
      (hheads : s.executionHeads.entries = []) : LifecycleEvent cancelRequest s event
        { s with brokerOrderId := some event.val.brokerOrderId, rejected := true }
  | cancellation (hkind : event.val.kind = .canceled)
      (hrejected : s.rejected = false) (hcanceled : s.canceled = false)
      (hrequest : cancelRequest = some request)
      (hafter : request.val.requestedAt ≤ event.val.occurredAt) :
      LifecycleEvent cancelRequest s event
        { s with brokerOrderId := some event.val.brokerOrderId, canceled := true }
  | execution (hkind : event.val.kind = .execution report)
      (hrejected : s.rejected = false) (hnew : s.executionHeads.get? report.executionId = none) :
      LifecycleEvent cancelRequest s event
        { s with
          brokerOrderId := some event.val.brokerOrderId
          executionHeads := s.executionHeads.set report.executionId event }
  | correction (hkind : event.val.kind = .executionCorrection report previous.val.eventId)
      (hprevious : s.executionHeads.get? report.executionId = some previous)
      (hbefore : previous.val.kind.report? = some before)
      (hrevision : report.executionRevision = before.executionRevision + 1) :
      LifecycleEvent cancelRequest s event
        { s with
          brokerOrderId := some event.val.brokerOrderId
          executionHeads := s.executionHeads.set report.executionId event }

theorem applyEventKind_event
    (h : applyEventKind cancelRequest { s with brokerOrderId := some event.val.brokerOrderId }
      event = .ok s') : LifecycleEvent cancelRequest s event s' := by
  unfold applyEventKind at h
  split at h
  · next hkind =>
    simp only [Py.eq_ok, not_or, Bool.not_eq_true] at h
    obtain ⟨-, ⟨haccepted, hrejected, hcanceled⟩, rfl⟩ := h
    exact .acceptance hkind haccepted hrejected hcanceled
  · next hkind =>
    simp only [Py.eq_ok, not_or, Bool.not_eq_true] at h
    obtain ⟨-, ⟨haccepted, hrejected, hcanceled, hheads⟩, rfl⟩ := h
    exact .rejection hkind haccepted hrejected hcanceled hheads
  · next hkind =>
    simp only [Py.eq_ok, not_or, Bool.not_eq_true] at h
    obtain ⟨-, ⟨hrejected, hcanceled⟩, _, hrequest, rfl⟩ := h
    unfold requireCancelRequest at hrequest
    cases hr : cancelRequest with
    | none => simp [hr] at hrequest
    | some request =>
      simp only [hr, raiseIf_eq_ok, not_lt] at hrequest
      exact .cancellation hkind hrejected hcanceled rfl hrequest
  · next report hkind =>
    simp only [Py.eq_ok, Bool.not_eq_true, Option.isSome_eq_false_iff,
      Option.isNone_iff_eq_none] at h
    obtain ⟨-, hrejected, -, hnew, rfl⟩ := h
    exact .execution hkind hrejected hnew
  · next report supersedes hkind =>
    split at h
    · simp at h
    · next previous hprevious =>
      simp only [Py.eq_ok] at h
      obtain ⟨-, hrevision, -, rfl, rfl⟩ := h
      obtain ⟨before, hbefore, heq⟩ := Option.map_eq_some_iff.1 hrevision.symm
      exact .correction hkind hprevious hbefore heq.symm

/-- **What a step of the lifecycle checks and does.** -/
theorem lifecycleStep_event (h : lifecycleStep submission cancelRequest s event = .ok s') :
    event.val.orderId = submission.val.orderId ∧
      LifecycleEvent cancelRequest s event s' ∧
      s'.headQuantities.sum ≤ submission.val.intent.val.quantity := by
  simp only [lifecycleStep, Py.eq_ok, not_lt] at h
  obtain ⟨-, horder, -, -, -, -, _, hkind, filled, hfilled, -, hbound, rfl⟩ := h
  exact ⟨horder, applyEventKind_event hkind, exactDecimalSum_eq hfilled ▸ hbound⟩

/-- **What one event does to the executions of an order.** -/
theorem lifecycleStep_cases (h : lifecycleStep submission cancelRequest s event = .ok s') :
    event.val.orderId = submission.val.orderId ∧
    ((event.val.kind.report? = none ∧ s'.executionHeads = s.executionHeads) ∨
      (∃ report, event.val.kind = .execution report ∧
        s.executionHeads.get? report.executionId = none ∧
        s'.executionHeads = s.executionHeads.set report.executionId event) ∨
      (∃ report supersedes previous, event.val.kind = .executionCorrection report supersedes ∧
        s.executionHeads.get? report.executionId = some previous ∧
        supersedes = previous.val.eventId ∧
        s'.executionHeads = s.executionHeads.set report.executionId event)) := by
  obtain ⟨horder, hevent, -⟩ := lifecycleStep_event h
  refine ⟨horder, ?_⟩
  cases hevent with
  | acceptance hkind => exact .inl ⟨by rw [hkind]; rfl, rfl⟩
  | rejection hkind => exact .inl ⟨by rw [hkind]; rfl, rfl⟩
  | cancellation hkind => exact .inl ⟨by rw [hkind]; rfl, rfl⟩
  | execution hkind _ hnew => exact .inr (.inl ⟨_, hkind, hnew, rfl⟩)
  | correction hkind hprevious => exact .inr (.inr ⟨_, _, _, hkind, hprevious, rfl, rfl⟩)

/-- A state that the reducer reproduces from its own facts. -/
def CanonicalOrderState.IsCanonical (H : OrderHashes) (state : CanonicalOrderState) : Prop :=
  reduceOrderLifecycle H state.submission state.brokerEvents state.cancelRequest = .ok state

/-- What a reduction returns: the events are the given ones once each, and the executions are the
revisions the lifecycle ends with. -/
theorem reduceOrderLifecycle_spec
    (h : reduceOrderLifecycle H submission events cancelRequest = .ok state) :
    state.submission = submission ∧ state.cancelRequest = cancelRequest ∧
      (∀ e, e ∈ state.brokerEvents ↔ e ∈ events) ∧
      (state.brokerEvents.map (·.val.eventId)).Nodup ∧
      ∃ final, state.brokerEvents.foldlM (lifecycleStep submission cancelRequest) .initial
          = .ok final ∧ state.executions = executionProjections final.executionHeads ∧
          state.filledQuantity = (state.executions.map (·.quantity)).sum ∧
          state.totalFees = (state.executions.map (·.fee)).sum := by
  simp only [reduceOrderLifecycle, eq_ok] at h
  obtain ⟨-, -, ordered, hordered, -, -, hreduce⟩ := h
  simp only [reduceOrdered, eq_ok] at hreduce
  obtain ⟨final, hfinal, filled, hfilled, fees, hfees, rfl⟩ := hreduce
  obtain ⟨hmem, hids⟩ := uniqueBrokerEvents_spec hordered
  exact ⟨rfl, rfl, hmem, hids, final, hfinal, rfl, exactDecimalSum_eq hfilled,
    exactDecimalSum_eq hfees⟩

/-- Every event of a reduced order belongs to it. -/
theorem orderId_of_foldlM (h : events.foldlM (lifecycleStep submission cancelRequest) s = .ok s')
    (hevent : event ∈ events) : event.val.orderId = submission.val.orderId := by
  induction events generalizing s with
  | nil => simp at hevent
  | cons e events ih =>
    obtain ⟨mid, hmid, hrest⟩ := foldlM_cons_eq_ok.1 h
    rcases List.mem_cons.1 hevent with rfl | hmem
    · exact (lifecycleStep_cases hmid).1
    · exact ih hrest hmem

/-- What the checks of a broker event say about the execution it reports. -/
theorem report_bounds (h : event.val.kind.report? = some report) :
    0 ≤ report.quantity ∧ 0 < report.price ∧ 0 ≤ report.fee ∧ isWhole report.quantity ∧
      isPersisted report.quantity ∧ isPersisted report.price := by
  have hcheck : ∃ isCorrection, report.check isCorrection = .ok () := by
    have hpasses := event.passes
    simp only [BrokerOrderEventFields.postInit, eq_ok] at hpasses
    obtain ⟨_, -, _, -, _, -, _, -, _, -, _, -, hkind⟩ := hpasses
    unfold BrokerOrderEventFields.checkKind at hkind
    cases hk : event.val.kind with
    | accepted => simp [hk, BrokerOrderEventKind.report?] at h
    | rejected => simp [hk, BrokerOrderEventKind.report?] at h
    | canceled => simp [hk, BrokerOrderEventKind.report?] at h
    | execution r =>
      simp only [hk, eq_ok] at hkind
      simp only [hk, BrokerOrderEventKind.report?, Option.some.injEq] at h
      exact ⟨false, h ▸ hkind.choose_spec.1⟩
    | executionCorrection r supersedes =>
      simp only [hk, eq_ok] at hkind
      simp only [hk, BrokerOrderEventKind.report?, Option.some.injEq] at h
      exact ⟨true, h ▸ hkind.choose_spec.1⟩
  obtain ⟨isCorrection, hcheck⟩ := hcheck
  simp only [ExecutionReport.check, wholeQuantity, money, Py.eq_ok, not_or, not_lt,
    canonicalPersistedDecimal_eq_ok] at hcheck
  obtain ⟨_, -, _, -, _, ⟨_, ⟨hquantity, -⟩, _, hwhole, _, ⟨hpersisted, -⟩, -⟩, _,
    ⟨_, ⟨hprice, hne⟩, _, ⟨hpersisted', -⟩, -⟩, _, ⟨hfee, -⟩, -⟩ := hcheck
  refine ⟨hquantity, lt_of_le_of_ne hprice fun hzero => ?_, hfee, hwhole, hpersisted, hpersisted'⟩
  simp [hzero.symm] at hne

/-- The executions of a reduced order are within their bounds. -/
theorem executions_bounds (h : reduceOrderLifecycle H submission events cancelRequest = .ok state)
    (hx : x ∈ state.executions) :
    0 ≤ x.quantity ∧ 0 < x.price ∧ 0 ≤ x.fee ∧ isWhole x.quantity ∧ isPersisted x.quantity ∧
      isPersisted x.price := by
  obtain ⟨-, -, -, -, final, -, hexecutions, -⟩ := reduceOrderLifecycle_spec h
  rw [hexecutions, executionProjections, List.mem_filterMap] at hx
  obtain ⟨item, -, hitem⟩ := hx
  simp only [executionProjection, Option.map_eq_some_iff] at hitem
  obtain ⟨report, hreport, rfl⟩ := hitem
  exact report_bounds hreport

/-- Adding up over the projected executions is adding up over the current revisions. -/
theorem sum_executionProjections {M : Type} [AddCommGroup M] (heads : Dict Str BrokerOrderEvent)
    {f : ExecutionProjection → M} {g : BrokerOrderEvent → M}
    (hfg : ∀ id event, ((executionProjection id event).toList.map f).sum = g event) :
    ((executionProjections heads).map f).sum = heads.sumBy fun _ event => g event := by
  rw [Dict.sumBy, ← sum_map_sortOn Prod.fst, executionProjections]
  induction sortOn Prod.fst heads.entries with
  | nil => rfl
  | cons item items ih =>
    rw [List.map_cons, List.sum_cons, ← ih, ← hfg item.1 item.2, List.filterMap_cons]
    cases hitem : executionProjection item.1 item.2 <;> simp

/-! ## Orders without corrections -/

/-- The event revises no earlier one. -/
def BrokerOrderEventKind.IsInitial (kind : BrokerOrderEventKind) : Prop := kind.isCorrection = false

/-- A quantity of an event's report, and zero when it reports nothing. -/
def onReport (g : ExecutionReport → ℚ) (event : BrokerOrderEvent) : ℚ :=
  (event.val.kind.report?.map g).getD 0

/-- While nothing is corrected every execution event is current. -/
theorem sum_heads_of_initial (hinitial : ∀ e ∈ events, e.val.kind.IsInitial)
    (h : events.foldlM (lifecycleStep submission cancelRequest) .initial = .ok final)
    (g : ExecutionReport → ℚ) : final.executionHeads.sumBy (fun _ event => onReport g event) =
      (events.map (onReport g)).sum := by
  refine foldlM_invariant_done (fun done s =>
    s.executionHeads.sumBy (fun _ event => onReport g event) = (done.map (onReport g)).sum) ?_ rfl h
  intro done event s s' hmem hdone hstep
  rw [sum_map_snoc, ← hdone]
  obtain ⟨-, ⟨hnone, hheads⟩ | ⟨report, hkind, hfresh, hheads⟩ | ⟨_, _, _, hkind, -⟩⟩ :=
    lifecycleStep_cases hstep
  · rw [hheads, onReport, hnone, Option.map_none, Option.getD_none, add_zero]
  · rw [hheads, Dict.sumBy_set, hfresh, Option.elim_none, sub_zero]
  · have := hinitial event hmem
    rw [hkind] at this
    contradiction

/-- The executions of an order without corrections are those its events report. -/
theorem sum_executions_of_initial
    (h : reduceOrderLifecycle H submission events cancelRequest = .ok state)
    (hinitial : ∀ e ∈ state.brokerEvents, e.val.kind.IsInitial) {f : ExecutionProjection → ℚ}
    {g : ExecutionReport → ℚ} (hfg : ∀ id event report, event.val.kind.report? = some report →
      ∀ x ∈ executionProjection id event, f x = g report) :
    (state.executions.map f).sum = (state.brokerEvents.map (onReport g)).sum := by
  obtain ⟨-, -, -, -, final, hfinal, hexecutions, -⟩ := reduceOrderLifecycle_spec h
  rw [hexecutions, ← sum_heads_of_initial hinitial hfinal]
  refine sum_executionProjections _ fun id event => ?_
  cases hreport : event.val.kind.report? with
  | none => simp [executionProjection, onReport, hreport]
  | some report =>
    obtain ⟨x, hx⟩ : ∃ x, executionProjection id event = some x := by
      simp [executionProjection, hreport]
    simp [hx, onReport, hreport, hfg id event report hreport x hx]

end AutoQuantTrader
