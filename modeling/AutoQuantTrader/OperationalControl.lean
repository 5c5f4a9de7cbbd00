import AutoQuantTrader.BatchRisk
import AutoQuantTrader.RequestBudget

/-!
# Operational control

The fail-closed state machine of operators and circuit breakers.  Commands raise the severity of the
state; only a human re-arm, with evidence about the exact head of the history, lowers it.  Every
command that leaves the control stopped is kept as a blocking event until a re-arm disposes of it.
-/

namespace AutoQuantTrader

open Result Sorting

/-- `_require_idempotency_key`. -/
def requireIdempotencyKey (key fieldName : Str) : Py Unit :=
  raiseIf (¬ isSafeKey key) (fieldName ++ " must contain 8-128 safe visible characters")

/-- `_require_sha256(value or "", …)`: an absent digest is malformed. -/
def requirePresentSha256 (value : Option Str) (fieldName : Str) : Py Unit :=
  raiseIf (value = none) (fieldName ++ " must be a lowercase SHA-256 digest")

namespace OperationalControl

/-! ## States, actors and commands -/

/-- States in order of increasing severity. -/
inductive State where
  | running | paused | draining | flattening | halted
deriving DecidableEq

def State.value : State → Str
  | .running => "running"
  | .paused => "paused"
  | .draining => "draining"
  | .flattening => "flattening"
  | .halted => "halted"

def State.severity : State → Nat
  | .running => 0
  | .paused => 1
  | .draining => 2
  | .flattening => 3
  | .halted => 4

/-- `_state_join`: the more severe of two states. -/
def stateJoin (left right : State) : State :=
  if right.severity ≤ left.severity then left else right

inductive ActorKind where
  | human | system | circuitBreaker
deriving DecidableEq

def ActorKind.value : ActorKind → Str
  | .human => "human"
  | .system => "system"
  | .circuitBreaker => "circuit_breaker"

inductive CommandKind where
  | initializeHalted | pause | drain | flatten | halt | trip | rearm
deriving DecidableEq

def CommandKind.value : CommandKind → Str
  | .initializeHalted => "initialize_halted"
  | .pause => "pause"
  | .drain => "drain"
  | .flatten => "flatten"
  | .halt => "halt"
  | .trip => "trip"
  | .rearm => "rearm"

inductive OperationKind where
  | drain | flatten
deriving DecidableEq

inductive CompletionOutcome where
  | completed | incomplete | deadlineExceeded
deriving DecidableEq

def maxBlockers : Nat := 2048

def maxResidualPositions : Nat := 1024

/-- `_require_sorted_unique`. -/
def requireSortedUnique (values : List Str) (fieldName : Str) : Py Unit := do
  raiseIf (maxBlockers < values.length) (fieldName ++ " exceeds its bounded member count")
  values.forM fun value => requireVisibleText 128 value fieldName
  raiseIf (¬ values.Pairwise (· ≤ ·) ∨ ¬ values.Nodup) (fieldName ++ " must be sorted and unique")

/-- A principal and the proof of its authority. -/
structure ActorFields where
  actorId : Str
  kind : ActorKind
  authoritySha256 : Str
  authenticatedAt : Option Instant
deriving DecidableEq

def ActorFields.postInit (a : ActorFields) : Py Unit := do
  requireVisibleText 128 a.actorId "control actor ID"
  raiseIf (a.kind = .human ∧ a.authenticatedAt = none)
    "human control actor requires an authentication instant"
  raiseIf (a.kind ≠ .human ∧ a.authenticatedAt ≠ none)
    "non-human control actor cannot claim a human authentication instant"

abbrev Actor := Checked ActorFields.postInit

/-- One actor-bound, idempotent request to update a control scope. -/
structure CommandFields where
  (scopeId idempotencyKey : Str)
  kind : CommandKind
  targetState : State
  actor : Actor
  (reasonCode reasonEvidenceSha256 : Str)
  requestedAt : Instant
  (rearmEvidenceSha256 tripRuleId tripPolicySha256 tripObservationSha256 : Option Str)
deriving DecidableEq

/-- `_FIXED_COMMAND_TARGETS`. -/
def CommandKind.fixedTarget : CommandKind → Option State
  | .initializeHalted => some .halted
  | .pause => some .paused
  | .drain => some .draining
  | .flatten => some .flattening
  | .halt => some .halted
  | .trip => none
  | .rearm => none

namespace CommandFields

def checkTarget (c : CommandFields) : Py Unit :=
  match c.kind.fixedTarget with
  | some target =>
    raiseIf (c.targetState ≠ target)
      (c.kind.value ++ " command requires target " ++ target.value)
  | none => pure ⟨⟩

/-- A trip comes from a system or a breaker and names its rule; nothing else does. -/
def checkTrip (c : CommandFields) : Py Unit :=
  if c.kind = .trip then do
    raiseIf (c.actor.val.kind = .human) "trip command requires a system or breaker actor"
    raiseIf (c.targetState ≠ .paused ∧ c.targetState ≠ .halted)
      "trip command may target only PAUSED or HALTED"
    requireVisibleText 128 (c.tripRuleId.getD "") "trip command rule ID"
    requirePresentSha256 c.tripPolicySha256 "trip command policy_sha256"
    requirePresentSha256 c.tripObservationSha256 "trip command observation_sha256"
  else
    raiseIf (c.tripRuleId ≠ none ∨ c.tripPolicySha256 ≠ none ∨ c.tripObservationSha256 ≠ none)
      "only a trip command may carry breaker rule evidence"

/-- A re-arm comes from a human and names its evidence; nothing else does. -/
def checkRearm (c : CommandFields) : Py Unit :=
  if c.kind = .rearm then do
    raiseIf (c.actor.val.kind ≠ .human) "rearm command requires an authenticated human"
    requirePresentSha256 c.rearmEvidenceSha256 "rearm command rearm_evidence_sha256"
    raiseIf (c.targetState ≠ .running) "rearm command must target RUNNING"
  else
    raiseIf (c.rearmEvidenceSha256 ≠ none) "only a rearm command may bind rearm evidence"

def postInit (c : CommandFields) : Py Unit := do
  requireVisibleText 128 c.scopeId "control scope ID"
  requireIdempotencyKey c.idempotencyKey "control command idempotency key"
  requireVisibleText 128 c.reasonCode "control command reason code"
  raiseIf (c.actor.val.authenticatedAt.any (decide <| c.requestedAt < ·))
    "control command cannot predate actor authentication"
  checkTarget c
  raiseIf (c.kind = .initializeHalted ∧ c.actor.val.kind ≠ .system)
    "INITIALIZE_HALTED requires an authenticated system actor"
  checkTrip c
  checkRearm c

end CommandFields

abbrev Command := Checked CommandFields.postInit

/-- What identifiers are derived with: the derivation and the digest of the control policy. -/
structure ControlIds where
  canonicalId : CanonicalId
  policySha256 : Str

/-- `command_id`. -/
def Command.commandId (I : ControlIds) (c : Command) : Str :=
  I.canonicalId "operational-control-command" [.text I.policySha256, .text c.val.scopeId,
    .enum "OperationalControlActorKind" c.val.actor.val.kind.value, .text c.val.actor.val.actorId,
    .text c.val.idempotencyKey]

/-! ## Transitions -/

/-- One command that left the control stopped, to be disposed of before it runs again. -/
structure BlockingEventFields where
  scopeId : Str
  sequenceNumber : Nat
  (commandId commandSha256 : Str)
  state : State
  occurredAt : Instant
deriving DecidableEq

def BlockingEventFields.postInit (e : BlockingEventFields) : Py Unit := do
  requireVisibleText 128 e.scopeId "blocking event scope ID"
  raiseIf (e.sequenceNumber = 0) "blocking event sequence_number must be a positive integer"
  requireVisibleText 128 e.commandId "blocking event command ID"
  raiseIf (e.state = .running) "blocking event requires a non-running state"

abbrev BlockingEvent := Checked BlockingEventFields.postInit

/-- `event_id`. -/
def BlockingEventFields.eventId (I : ControlIds) (e : BlockingEventFields) : Str :=
  I.canonicalId "operational-control-blocking-event" [.text I.policySha256, .text e.scopeId,
    .integer e.sequenceNumber, .text e.commandId]

/-- A drain or flatten operation within a state epoch. -/
structure OperationAttemptFields where
  (attemptId scopeId : Str)
  operation : OperationKind
  (stateEpochId openedByCommandId : Str)
  openedAt : Instant
deriving DecidableEq

def attemptIdOf (I : ControlIds) (scopeId commandId : Str) : Str :=
  I.canonicalId "operational-control-operation-attempt"
    [.text I.policySha256, .text scopeId, .text commandId]

def OperationAttemptFields.postInit (I : ControlIds) (a : OperationAttemptFields) : Py Unit := do
  requireVisibleText 128 a.scopeId "operation attempt scope ID"
  requireVisibleText 128 a.stateEpochId "operation attempt state epoch ID"
  requireVisibleText 128 a.openedByCommandId "operation attempt command ID"
  raiseIf (a.attemptId ≠ attemptIdOf I a.scopeId a.openedByCommandId)
    "operation attempt ID is not canonically derived"

abbrev OperationAttempt (I : ControlIds) := Checked (OperationAttemptFields.postInit I)

/-- The operation that a state stands for. -/
def State.operation : State → Option OperationKind
  | .draining => some .drain
  | .flattening => some .flatten
  | _ => none

/-- One revision of the head of the audit history. -/
structure TransitionFields (I : ControlIds) where
  (transitionId scopeId : Str)
  sequenceNumber : Nat
  previousTransitionSha256 : Option Str
  (commandId commandSha256 : Str)
  priorState : Option State
  effectiveState : State
  stateChanged : Bool
  stateEpochId : Str
  blockingEvents : List BlockingEvent
  blockerOverflowed : Bool
  activeOperation : Option (OperationAttempt I)
  decidedAt : Instant
deriving DecidableEq

def transitionIdOf (I : ControlIds) (scopeId : Str) (sequenceNumber : Nat) (commandId : Str) :
    Str :=
  I.canonicalId "operational-control-transition"
    [.text I.policySha256, .text scopeId, .integer sequenceNumber, .text commandId]

namespace TransitionFields

variable {I : ControlIds} (t : TransitionFields I)

/-- The first transition has no predecessor, every later one has. -/
def checkPredecessor : Py Unit := do
  if t.sequenceNumber = 1 then
    raiseIf (t.previousTransitionSha256 ≠ none)
      "initial control transition cannot have a predecessor"
  else
    requirePresentSha256 t.previousTransitionSha256 "control transition previous_transition_sha256"

def checkStates : Py Unit := do
  raiseIf (t.sequenceNumber = 1 ∧ t.priorState ≠ none)
    "initial control transition must retain absent prior state"
  raiseIf (t.sequenceNumber ≠ 1 ∧ t.priorState = none)
    "control transition prior state is unsupported"
  raiseIf (t.stateChanged ≠ decide (t.priorState ≠ some t.effectiveState))
    "control transition state_changed conflicts with its states"
  requireVisibleText 128 t.stateEpochId "control transition state epoch ID"
  raiseIf ((t.sequenceNumber = 1 ∨ t.stateChanged) ∧ t.stateEpochId ≠ t.transitionId)
    "new control state epoch must equal its opening transition ID"

/-- One blocking event against the sequence number and the identities of those before it. -/
def checkBlockingEvent (previous : Nat × List Str) (event : BlockingEvent) :
    Py (Nat × List Str) := do
  raiseIf (event.val.scopeId ≠ t.scopeId) "blocking event scope conflicts"
  raiseIf (event.val.sequenceNumber ≤ previous.1)
    "blocking events must have strictly increasing sequence numbers"
  raiseIf (t.sequenceNumber < event.val.sequenceNumber) "blocking event follows transition head"
  raiseIf (event.val.eventId I ∈ previous.2) "blocking event identity is duplicated"
  return (event.val.sequenceNumber, event.val.eventId I :: previous.2)

/-- The running state has no blocking events; any other was just added to them. -/
def checkHeadEvent : Py Unit := do
  if t.effectiveState = .running then
    raiseIf (t.blockingEvents ≠ [] ∨ t.blockerOverflowed)
      "RUNNING transition cannot retain blocking events"
  else
    raiseIf (¬ t.blockingEvents.getLast?.any fun event =>
        event.val.sequenceNumber = t.sequenceNumber ∧ event.val.commandId = t.commandId)
      "non-running transition must append its command as a blocking event"

/-- The states that operate have an operation of their own kind, scope and epoch. -/
def checkOperation : Py Unit := do
  match t.effectiveState.operation with
  | none =>
    raiseIf (t.activeOperation ≠ none) "state cannot retain a drain/flatten operation"
  | some operation =>
    raiseIf (¬ t.activeOperation.any fun active =>
        active.val.operation = operation ∧ active.val.scopeId = t.scopeId ∧
          active.val.stateEpochId = t.stateEpochId)
      "control state requires an exact state-epoch-bound operation"

def postInit : Py Unit := do
  requireVisibleText 128 t.scopeId "control transition scope ID"
  raiseIf (t.sequenceNumber = 0) "control transition sequence_number must be a positive integer"
  raiseIf (t.transitionId ≠ transitionIdOf I t.scopeId t.sequenceNumber t.commandId)
    "control transition ID is not canonically derived"
  checkPredecessor t
  requireVisibleText 128 t.commandId "control transition command ID"
  checkStates t
  raiseIf (maxBlockers < t.blockingEvents.length) "control blocking events must be an exact tuple"
  let _ ← t.blockingEvents.foldlM t.checkBlockingEvent (0, [])
  checkHeadEvent t
  checkOperation t

end TransitionFields

abbrev Transition (I : ControlIds) := Checked (TransitionFields.postInit (I := I))

/-! ## Completions of an operation -/

structure ResidualPositionFields where
  instrumentId : Str
  (quantity grossExposure : ℚ)

def ResidualPositionFields.postInit (p : ResidualPositionFields) : Py Unit := do
  requireVisibleText 128 p.instrumentId "residual position instrument ID"
  let quantity ← canonicalPersistedDecimal p.quantity "residual position quantity"
  raiseIf (quantity = 0) "residual position quantity cannot be zero"
  let exposure ← canonicalPersistedDecimal p.grossExposure "residual position gross_exposure"
  raiseIf (exposure ≤ 0) "residual position gross_exposure must be positive"

abbrev ResidualPosition := Checked ResidualPositionFields.postInit

structure ResidualFactsFields where
  terminalOrderCount : Nat
  (workingOrderIds unknownOrderIds pendingCancelOrderIds : List Str)
  positions : List ResidualPosition
  reconciliationClean : Bool
  sourceEvidenceSha256 : Str

def ResidualFactsFields.postInit (f : ResidualFactsFields) : Py Unit := do
  requireSortedUnique f.workingOrderIds "residual working order IDs"
  requireSortedUnique f.unknownOrderIds "residual unknown order IDs"
  requireSortedUnique f.pendingCancelOrderIds "residual pending-cancel order IDs"
  raiseIf (maxResidualPositions < f.positions.length) "residual positions must be an exact tuple"
  let instrumentIds := f.positions.map (·.val.instrumentId)
  raiseIf (¬ instrumentIds.Pairwise (· ≤ ·) ∨ ¬ instrumentIds.Nodup)
    "residual positions must be sorted and unique by instrument ID"

abbrev ResidualFacts := Checked ResidualFactsFields.postInit

def ResidualFactsFields.isEmpty (f : ResidualFactsFields) : Prop :=
  f.workingOrderIds = [] ∧ f.unknownOrderIds = [] ∧ f.pendingCancelOrderIds = [] ∧ f.positions = []

instance (f : ResidualFactsFields) : Decidable f.isEmpty := inferInstanceAs (Decidable (_ ∧ _))

/-- How one drain or flatten attempt ended. -/
structure CompletionFields where
  (completionId scopeId idempotencyKey operationAttemptId : Str)
  operation : OperationKind
  (stateEpochId headTransitionId headTransitionSha256 : Str)
  headSequenceNumber : Nat
  outcome : CompletionOutcome
  observedAt : Instant
  evidenceSha256 : Str
  residualFacts : ResidualFacts
  incompleteReason : Option Str
  deadlineAt : Option Instant

def completionIdOf (I : ControlIds) (scopeId idempotencyKey : Str) : Str :=
  I.canonicalId "operational-control-operation-completion"
    [.text I.policySha256, .text scopeId, .text idempotencyKey]

namespace CompletionFields

def checkCompleted (c : CompletionFields) : Py Unit := do
  raiseIf (c.incompleteReason ≠ none) "completed operation cannot carry an incomplete reason"
  let facts := c.residualFacts.val
  raiseIf (facts.workingOrderIds ≠ [] ∨ facts.unknownOrderIds ≠ [] ∨
      facts.pendingCancelOrderIds ≠ [] ∨ ¬ facts.reconciliationClean)
    "completed operation requires terminal known orders and clean reconciliation"
  raiseIf (c.operation = .flatten ∧ facts.positions ≠ [])
    "completed flatten operation requires zero residual positions"

def checkIncomplete (c : CompletionFields) : Py Unit := do
  requireVisibleText 256 (c.incompleteReason.getD "") "incomplete operation reason"
  raiseIf (c.residualFacts.val.isEmpty ∧ c.residualFacts.val.reconciliationClean)
    "incomplete operation must retain unresolved or residual facts"
  raiseIf (c.outcome = .deadlineExceeded ∧ ¬ c.deadlineAt.any (decide <| · ≤ c.observedAt))
    "deadline-exceeded completion requires an elapsed deadline"

def postInit (I : ControlIds) (c : CompletionFields) : Py Unit := do
  requireVisibleText 128 c.scopeId "operation completion scope ID"
  requireIdempotencyKey c.idempotencyKey "operation completion idempotency key"
  raiseIf (c.completionId ≠ completionIdOf I c.scopeId c.idempotencyKey)
    "operation completion ID is not canonically derived"
  requireVisibleText 128 c.operationAttemptId "completion operation attempt ID"
  requireVisibleText 128 c.stateEpochId "completion state epoch ID"
  requireVisibleText 128 c.headTransitionId "completion head transition ID"
  raiseIf (c.headSequenceNumber = 0) "completion head_sequence_number must be a positive integer"
  if c.outcome = .completed then checkCompleted c else checkIncomplete c

end CompletionFields

abbrev Completion (I : ControlIds) := Checked (CompletionFields.postInit I)

/-! ## Evidence for a re-arm -/

/-- The resolution of one blocking event. -/
structure IncidentDispositionFields where
  (eventId eventSha256 resolutionCode resolutionEvidenceSha256 : Str)
  resolvedAt : Instant

def IncidentDispositionFields.postInit (d : IncidentDispositionFields) : Py Unit := do
  requireVisibleText 128 d.eventId "incident disposition event ID"
  requireVisibleText 128 d.resolutionCode "incident disposition resolution code"

abbrev IncidentDisposition := Checked IncidentDispositionFields.postInit

/-- Human-bound evidence for lowering one exact head. -/
structure RearmEvidenceFields (I : ControlIds) where
  (scopeId currentTransitionId currentTransitionSha256 : Str)
  currentState : State
  currentStateEpochId : Str
  targetState : State
  actor : Actor
  (checkedAt expiresAt : Instant)
  (readinessSha256 reconciliationSha256 incidentRegisterSha256 : Str)
  (reconciliationClean dataHealthy clockHealthy : Bool)
  (workingOrderIds unknownOrderIds pendingCancelOrderIds : List Str)
  incidentDispositions : List IncidentDisposition
  operationCompletion : Option (Completion I)

def RearmEvidenceFields.postInit {I : ControlIds} (e : RearmEvidenceFields I) : Py Unit := do
  requireVisibleText 128 e.scopeId "rearm evidence scope ID"
  requireVisibleText 128 e.currentTransitionId "rearm current transition ID"
  raiseIf (e.currentState = .running) "rearm evidence requires a non-running current state"
  requireVisibleText 128 e.currentStateEpochId "rearm current state epoch ID"
  raiseIf (e.targetState ≠ .running) "rearm evidence target must be RUNNING"
  raiseIf (e.actor.val.kind ≠ .human) "rearm evidence requires an authenticated human actor"
  raiseIf (e.expiresAt ≤ e.checkedAt) "rearm evidence expiry must follow its check"
  raiseIf (¬ e.actor.val.authenticatedAt.any (decide <| · ≤ e.checkedAt))
    "rearm evidence cannot predate human authentication"
  requireSortedUnique e.workingOrderIds "rearm working order IDs"
  requireSortedUnique e.unknownOrderIds "rearm unknown order IDs"
  requireSortedUnique e.pendingCancelOrderIds "rearm pending-cancel order IDs"
  e.incidentDispositions.forM fun disposition =>
    raiseIf (e.checkedAt < disposition.val.resolvedAt)
      "incident disposition cannot follow the evidence check"
  let dispositionIds := e.incidentDispositions.map (·.val.eventId)
  raiseIf (¬ dispositionIds.Pairwise (· ≤ ·) ∨ ¬ dispositionIds.Nodup)
    "rearm incident dispositions must be sorted and unique by event ID"

abbrev RearmEvidence (I : ControlIds) := Checked (RearmEvidenceFields.postInit (I := I))

/-- The digests of the control records. -/
structure ControlHashes extends ControlIds where
  command : Command → Str
  event : BlockingEvent → Str
  transition : Transition toControlIds → Str
  evidence : RearmEvidence toControlIds → Str

def ControlHashes.plain : ControlHashes where
  canonicalId := digitsId
  policySha256 := "policy"
  command c := c.val.kind.value ++ ":" ++ c.val.idempotencyKey
  event e := plainId "event" [.text e.val.commandId]
  transition t := plainId "transition" [.text t.val.transitionId]
  evidence e := plainId "evidence" [.text e.val.currentTransitionId, .instant e.val.checkedAt]

/-! ## Applying a command -/

section Apply

variable (H : ControlHashes)

/-- The identity and digest of a blocking event, as a disposition names it. -/
def namedEvent (event : BlockingEvent) : Str × Str :=
    (event.val.eventId H.toControlIds, H.event event)

section rearm

variable (current : Transition H.toControlIds) (command : Command)

/-- From a draining or flattening state the evidence holds the completion of the active attempt. -/
def validateRearmOperation (evidence : RearmEvidence H.toControlIds) : Py Unit :=
  if current.val.effectiveState.operation.isSome then
    match current.val.activeOperation, evidence.val.operationCompletion with
    | some active, some completion =>
      raiseIf (completion.val.scopeId ≠ current.val.scopeId ∨
          completion.val.operationAttemptId ≠ active.val.attemptId ∨
          completion.val.operation ≠ active.val.operation ∨
          completion.val.stateEpochId ≠ current.val.stateEpochId ∨
          completion.val.outcome ≠ .completed ∨
          evidence.val.checkedAt < completion.val.observedAt)
        "operation state rearm requires its exact completed attempt"
    | _, _ => throw (.valueError "operation state rearm requires its exact completed attempt")
  else
    raiseIf (evidence.val.operationCompletion ≠ none)
      "non-operation state rearm cannot substitute operation completion"

/-- No event was resolved before it occurred. -/
def checkResolved (disposition : IncidentDisposition) : Py Unit := do
  let event ← getOrThrow
    (lookup (current.val.blockingEvents.map fun event => (event.val.eventId H.toControlIds, event))
      disposition.val.eventId) .keyError
  raiseIf (disposition.val.resolvedAt < event.val.occurredAt)
    "incident disposition predates its exact blocking event"

/-- `_validate_rearm`, of evidence that is there. -/
def validateRearm (evidence : RearmEvidence H.toControlIds) (decidedAt : Instant) : Py Unit := do
  raiseIf (command.val.rearmEvidenceSha256 ≠ some (H.evidence evidence))
    "rearm command does not bind the exact prerequisite evidence"
  raiseIf (command.val.actor ≠ evidence.val.actor)
    "rearm evidence does not bind the exact authenticated human actor"
  raiseIf (evidence.val.scopeId ≠ current.val.scopeId ∨
      evidence.val.currentTransitionId ≠ current.val.transitionId ∨
      evidence.val.currentTransitionSha256 ≠ H.transition current ∨
      evidence.val.currentState ≠ current.val.effectiveState ∨
      evidence.val.currentStateEpochId ≠ current.val.stateEpochId ∨
      evidence.val.targetState ≠ command.val.targetState)
    "rearm evidence does not bind the exact current non-running head"
  raiseIf (¬ (evidence.val.checkedAt ≤ command.val.requestedAt ∧
      command.val.requestedAt ≤ decidedAt ∧ decidedAt < evidence.val.expiresAt))
    "rearm prerequisite evidence is not fresh"
  raiseIf (¬ evidence.val.reconciliationClean ∨ ¬ evidence.val.dataHealthy ∨
      ¬ evidence.val.clockHealthy ∨ evidence.val.workingOrderIds ≠ [] ∨
      evidence.val.unknownOrderIds ≠ [] ∨ evidence.val.pendingCancelOrderIds ≠ [])
    "rearm prerequisite evidence is not healthy and clean"
  let expected := sortOn toLex (current.val.blockingEvents.map (namedEvent H))
  let supplied := evidence.val.incidentDispositions.map fun d => (d.val.eventId, d.val.eventSha256)
  raiseIf (supplied ≠ expected) "rearm evidence does not dispose every exact blocking event"
  evidence.val.incidentDispositions.forM (checkResolved H current)
  raiseIf (current.val.blockerOverflowed)
    "rearm requires authoritative disposition of overflowed blocker history"
  validateRearmOperation H current evidence

/-- `_validate_operation_completion_for_retry`. -/
def validateOperationCompletionForRetry (completion : Completion H.toControlIds) : Py Unit := do
  let active ← getOrThrow current.val.activeOperation
    (.valueError "operation retry has no active operation attempt")
  raiseIf (completion.val.scopeId ≠ current.val.scopeId ∨
      completion.val.operationAttemptId ≠ active.val.attemptId ∨
      completion.val.operation ≠ active.val.operation ∨
      completion.val.stateEpochId ≠ current.val.stateEpochId ∨
      current.val.sequenceNumber < completion.val.headSequenceNumber ∨
      command.val.requestedAt < completion.val.observedAt)
    "operation retry completion does not bind the active attempt"
  raiseIf (completion.val.outcome = .completed)
    "only an incomplete or deadline operation may be retried"
  raiseIf (completion.val.headSequenceNumber = current.val.sequenceNumber ∧
      (completion.val.headTransitionId ≠ current.val.transitionId ∨
        completion.val.headTransitionSha256 ≠ H.transition current))
    "operation retry completion conflicts with the current head"

end rearm

/-- `_operation_kind`. -/
def CommandKind.operation : CommandKind → Option OperationKind
  | .drain => some .drain
  | .flatten => some .flatten
  | _ => none

/-- The state that a command leads to from a head. -/
def nextState (head : Transition H.toControlIds) (command : Command) (decidedAt : Instant)
    (rearmEvidence : Option (RearmEvidence H.toControlIds)) : Py State :=
  if command.val.kind = .rearm then do
    raiseIf (head.val.effectiveState.severity ≤ command.val.targetState.severity)
      "rearm must strictly lower a non-running state"
    let evidence ← getOrThrow rearmEvidence
      (.valueError "rearm requires explicit prerequisite evidence")
    validateRearm H head command evidence decidedAt
    return command.val.targetState
  else
    return stateJoin head.val.effectiveState command.val.targetState

/-- The blocking events after a command, the latest of them if there are too many. -/
def appendBlocker (prior : List BlockingEvent) (overflowed : Bool) (event : BlockingEventFields) :
    Py (List BlockingEvent × Bool) :=
  if event.state = .running then
    return ([], false)
  else do
    let event ← construct event
    let pending := prior ++ [event]
    return (pending.drop (pending.length - maxBlockers), overflowed || maxBlockers < pending.length)

variable (current : Option (Transition H.toControlIds)) (command : Command) (decidedAt : Instant)

/-- Whether a command to an unchanged operating state opens another attempt. -/
def retries (operation : OperationKind) (completion : Option (Completion H.toControlIds)) :
    Py Bool :=
  match completion with
  | some completion =>
    if command.val.kind.operation = some operation then do
      let head ← getOrThrow current (.valueError "initial state cannot retry an operation")
      validateOperationCompletionForRetry H head command completion
      return true
    else return false
  | none => return false

/-- The operation of an operating state: another attempt, or the one that is active. -/
def nextOperation (completion : Option (Completion H.toControlIds)) (operation : OperationKind)
    (stateChanged : Bool) (stateEpochId : Str) : Py (OperationAttempt H.toControlIds) := do
  let openNewAttempt ←
    if stateChanged then pure true else retries H current command operation completion
  let commandId := command.commandId H.toControlIds
  if openNewAttempt then
    construct {
      attemptId := attemptIdOf H.toControlIds command.val.scopeId commandId
      scopeId := command.val.scopeId
      operation
      stateEpochId
      openedByCommandId := commandId
      openedAt := decidedAt }
  else
    getOrThrow
      ((current.bind (·.val.activeOperation)).filter fun active => active.val.operation = operation)
      (.valueError "control head lacks the required active operation")

/-- The transition that a command makes, once its state is known. -/
def advance (completion : Option (Completion H.toControlIds)) (effectiveState : State) :
    Py (Transition H.toControlIds) := do
  let commandId := command.commandId H.toControlIds
  let sequenceNumber := current.elim 1 (·.val.sequenceNumber + 1)
  let priorState := current.map (·.val.effectiveState)
  let stateChanged := decide (priorState ≠ some effectiveState)
  let transitionId := transitionIdOf H.toControlIds command.val.scopeId sequenceNumber commandId
  let stateEpochId :=
    if stateChanged then transitionId else current.elim transitionId (·.val.stateEpochId)
  let (blockingEvents, blockerOverflowed) ← appendBlocker
    (current.elim [] (·.val.blockingEvents)) (current.elim false (·.val.blockerOverflowed)) {
      scopeId := command.val.scopeId
      sequenceNumber
      commandId
      commandSha256 := H.command command
      state := effectiveState
      occurredAt := decidedAt }
  let activeOperation ← effectiveState.operation.mapM fun operation =>
    nextOperation H current command decidedAt completion operation stateChanged stateEpochId
  construct {
    transitionId
    scopeId := command.val.scopeId
    sequenceNumber
    previousTransitionSha256 := current.map H.transition
    commandId
    commandSha256 := H.command command
    priorState
    effectiveState
    stateChanged
    stateEpochId
    blockingEvents
    blockerOverflowed
    activeOperation
    decidedAt }

/-- Apply one command to the head of a history. -/
def applyOperationalControlCommand (rearmEvidence : Option (RearmEvidence H.toControlIds))
    (activeOperationCompletion : Option (Completion H.toControlIds)) :
    Py (Transition H.toControlIds) := do
  raiseIf (decidedAt < command.val.requestedAt) "control decision cannot predate its command"
  match current with
  | none => do
    raiseIf (command.val.kind ≠ .initializeHalted)
      "absent operational control only accepts INITIALIZE_HALTED"
    advance H none command decidedAt activeOperationCompletion .halted
  | some head => do
    raiseIf (head.val.scopeId ≠ command.val.scopeId) "control command scope conflicts with head"
    if head.val.commandId = command.commandId H.toControlIds then do
      raiseIf (head.val.commandSha256 ≠ H.command command)
        "control command idempotency identity conflicts"
      return head
    else do
      raiseIf (command.val.kind = .initializeHalted)
        "INITIALIZE_HALTED is valid only for absent control state"
      raiseIf (command.val.requestedAt < head.val.decidedAt)
        "control command predates the current head"
      let effectiveState ← nextState H head command decidedAt rearmEvidence
      advance H (some head) command decidedAt activeOperationCompletion effectiveState

end Apply

end OperationalControl

end AutoQuantTrader
