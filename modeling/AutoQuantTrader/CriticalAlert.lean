import AutoQuantTrader.OperationalControl
import AutoQuantTrader.Lib.Dict

/-!
# Critical alerts

An incident is delivered through a primary and an escalation route, each with a deadline.  A
delivery attempt is claimed before its provider is called and gets at most one result.  The
repository keeps the attempts and the results of every incident and checks a history each time it is
loaded.
-/

namespace AutoQuantTrader.CriticalAlert

open Result Sorting

/-! ## Records -/

inductive Route where
  | primary | escalation
deriving DecidableEq

def Route.value : Route → Str
  | .primary => "primary"
  | .escalation => "escalation"

inductive DeliveryOutcome where
  | confirmed | timeout | error
deriving DecidableEq

def maxAttempts : Nat := 1024

/-- One critical fact of a source. -/
structure IncidentFields where
  (scopeId sourceId idempotencyKey alertCode evidenceSha256 : Str)
  (detectedAt recordedAt : Instant)
  correlationSha256 : Str

def IncidentFields.primaryDeadline (i : IncidentFields) : Instant := i.recordedAt + 15000000

def IncidentFields.escalationDeadline (i : IncidentFields) : Instant := i.recordedAt + 30000000

def IncidentFields.postInit (i : IncidentFields) : Py Unit := do
  requireVisibleText 128 i.scopeId "critical-alert scope ID"
  requireVisibleText 128 i.sourceId "critical-alert source ID"
  requireVisibleText 128 i.alertCode "critical-alert code"
  requireIdempotencyKey i.idempotencyKey "critical-alert idempotency key"
  raiseIf (i.recordedAt < i.detectedAt) "critical-alert recording cannot precede detection"
  let _ ← shiftInstant i.recordedAt 30000000 "critical-alert deadline exceeds datetime range"

abbrev Incident := Checked IncidentFields.postInit

/-- `incident_id`. -/
def Incident.incidentId (I : CanonicalId) (i : Incident) : Str :=
  I "critical-alert-incident" [.text i.val.scopeId, .text i.val.sourceId,
    .text i.val.idempotencyKey]

/-- The intent to claim one delivery attempt. -/
structure DeliveryCommandFields where
  (incidentId incidentSha256 : Str)
  route : Route
  (providerId idempotencyKey requestSha256 : Str)
  requestedAt : Instant

def DeliveryCommandFields.postInit (c : DeliveryCommandFields) : Py Unit := do
  requireVisibleText 128 c.incidentId "critical-alert command incident ID"
  requireVisibleText 128 c.providerId "critical-alert delivery provider ID"
  requireIdempotencyKey c.idempotencyKey "critical-alert delivery idempotency key"

abbrev DeliveryCommand := Checked DeliveryCommandFields.postInit

def attemptIdOf (I : CanonicalId) (incidentId providerId idempotencyKey : Str) : Str :=
  I "critical-alert-delivery-attempt" [.text incidentId, .text providerId, .text idempotencyKey]

/-- One claim in the chain of attempts of an incident. -/
structure DeliveryAttemptFields where
  (incidentId incidentSha256 : Str)
  sequenceNumber : Nat
  (previousAttemptId previousAttemptSha256 : Option Str)
  route : Route
  (providerId idempotencyKey requestSha256 : Str)
  (requestedAt claimedAt : Instant)
  commandSha256 : Str

/-- The first attempt has no predecessor, every later one has. -/
def DeliveryAttemptFields.checkPredecessor (a : DeliveryAttemptFields) : Py Unit :=
  if a.sequenceNumber = 1 then
    raiseIf (a.previousAttemptId ≠ none ∨ a.previousAttemptSha256 ≠ none)
      "first critical-alert attempt cannot have a predecessor"
  else do
    let previousId ← getOrThrow a.previousAttemptId
      (.valueError "later critical-alert attempt requires a predecessor ID")
    requireVisibleText 128 previousId "critical-alert previous attempt ID"
    raiseIf (a.previousAttemptSha256 = none)
      "later critical-alert attempt requires a predecessor digest"

def DeliveryAttemptFields.postInit (a : DeliveryAttemptFields) : Py Unit := do
  requireVisibleText 128 a.incidentId "critical-alert attempt incident ID"
  raiseIf (a.sequenceNumber = 0 ∨ maxAttempts < a.sequenceNumber)
    "critical-alert delivery sequence exceeds its bounded range"
  a.checkPredecessor
  requireVisibleText 128 a.providerId "critical-alert attempt provider ID"
  requireIdempotencyKey a.idempotencyKey "critical-alert attempt idempotency key"
  raiseIf (a.claimedAt < a.requestedAt) "critical-alert attempt claim cannot predate its request"

abbrev DeliveryAttempt := Checked DeliveryAttemptFields.postInit

/-- `attempt_id`. -/
def DeliveryAttempt.attemptId (I : CanonicalId) (a : DeliveryAttempt) : Str :=
  attemptIdOf I a.val.incidentId a.val.providerId a.val.idempotencyKey

/-- The command that the attempt was claimed by. -/
def DeliveryAttemptFields.commandFields (a : DeliveryAttemptFields) : DeliveryCommandFields where
  incidentId := a.incidentId
  incidentSha256 := a.incidentSha256
  route := a.route
  providerId := a.providerId
  idempotencyKey := a.idempotencyKey
  requestSha256 := a.requestSha256
  requestedAt := a.requestedAt

/-- What became of a claimed attempt. -/
structure DeliveryResultFields where
  (incidentId incidentSha256 attemptId attemptSha256 : Str)
  outcome : DeliveryOutcome
  completedAt : Instant
  elapsedMicroseconds : Int
  (providerReceiptSha256 failureCode : Option Str)
deriving DecidableEq

/-- A confirmed delivery has a receipt and a failed one has a failure code. -/
def DeliveryResultFields.checkOutcome (r : DeliveryResultFields) : Py Unit :=
  if r.outcome = .confirmed then
    raiseIf (r.providerReceiptSha256 = none ∨ r.failureCode ≠ none)
      "confirmed critical-alert delivery requires only a receipt digest"
  else do
    raiseIf (r.providerReceiptSha256 ≠ none)
      "failed critical-alert delivery requires only a failure code"
    let failureCode ← getOrThrow r.failureCode
      (.valueError "failed critical-alert delivery requires only a failure code")
    requireVisibleText 128 failureCode "critical-alert delivery failure code"

def DeliveryResultFields.postInit (r : DeliveryResultFields) : Py Unit := do
  requireVisibleText 128 r.incidentId "critical-alert result incident ID"
  requireVisibleText 128 r.attemptId "critical-alert result attempt ID"
  raiseIf (r.elapsedMicroseconds < 0)
    "critical-alert delivery elapsed_microseconds must be non-negative"
  r.checkOutcome

abbrev DeliveryResult := Checked DeliveryResultFields.postInit

def DeliveryResult.resultId (I : CanonicalId) (r : DeliveryResult) : Str :=
  I "critical-alert-delivery-result" [.text r.val.attemptId]

/-- What a provider is told. -/
structure ProviderRequest where
  (incidentId incidentSha256 scopeId sourceId alertCode evidenceSha256 correlationSha256 : Str)
  route : Route
  (providerId idempotencyKey : Str)

/-- One route: a provider, and what it delivers to. -/
structure RouteBindingFields where
  route : Route
  (providerId destinationSha256 recipientSetSha256 : Str)

/-- `_require_text` of the supervisor, with one message for all its conditions. -/
def requireSupervisorText (value fieldName : Str) : Py Unit :=
  raiseIf (value = "" ∨ ¬ isTrimmed value ∨ 128 < value.chars.length ∨
      ∃ c ∈ value.chars, c.toNat < 32 ∨ c.toNat = 127)
    (fieldName ++ " must be bounded, non-empty, trimmed text")

def RouteBindingFields.postInit (b : RouteBindingFields) : Py Unit :=
  requireSupervisorText b.providerId "critical-alert route provider ID"

abbrev RouteBinding := Checked RouteBindingFields.postInit

/-- The primary and the escalation route of an account. -/
structure RoutePlanFields where
  (planId planVersion : Str)
  (primary escalation : RouteBinding)

def RoutePlanFields.postInit (p : RoutePlanFields) : Py Unit := do
  requireSupervisorText p.planId "critical-alert route-plan ID"
  requireSupervisorText p.planVersion "critical-alert route-plan version"
  raiseIf (p.primary.val.route ≠ .primary) "critical-alert primary binding has the wrong route"
  raiseIf (p.escalation.val.route ≠ .escalation)
    "critical-alert escalation binding has the wrong route"
  raiseIf (p.primary.val.providerId = p.escalation.val.providerId)
    "critical-alert primary and escalation providers must be distinct"

abbrev RoutePlan := Checked RoutePlanFields.postInit

/-- `binding_for`. -/
def RoutePlan.bindingFor (plan : RoutePlan) : Route → RouteBinding
  | .primary => plan.val.primary
  | .escalation => plan.val.escalation

/-- The identifiers and digests of alerts; `routeDigest` is the digest in the key of a route. -/
structure AlertHashes where
  canonicalId : CanonicalId
  incident : Incident → Str
  command : DeliveryCommand → Str
  attempt : DeliveryAttempt → Str
  result : DeliveryResult → Str
  request : ProviderRequest → Str
  routePlan : RoutePlan → Str
  routeDigest : Incident → RoutePlan → RouteBinding → Str

variable (H : AlertHashes)

/-! ## Attempts and results -/

section history

variable (incident : Incident) (command : DeliveryCommand) (claimedAt : Instant)
  (attempts : List DeliveryAttempt)

/-- `append_critical_alert_delivery_attempt`: the checks against the attempt before. -/
def checkPreviousAttempt (previous : DeliveryAttempt) : Py Unit := do
  raiseIf (previous.val.incidentId ≠ incident.incidentId H.canonicalId ∨
      previous.val.incidentSha256 ≠ H.incident incident)
    "critical-alert predecessor crosses incident identities"
  raiseIf (command.val.requestedAt < previous.val.requestedAt)
    "critical-alert attempt request time moved backwards"
  raiseIf (claimedAt < previous.val.claimedAt) "critical-alert attempt claim time moved backwards"

def appendDeliveryAttempt (previous : Option DeliveryAttempt) : Py DeliveryAttempt := do
  raiseIf (command.val.incidentId ≠ incident.incidentId H.canonicalId ∨
      command.val.incidentSha256 ≠ H.incident incident)
    "critical-alert command crosses incident identities"
  raiseIf (command.val.requestedAt < incident.val.recordedAt)
    "critical-alert delivery request predates durable incident creation"
  previous.forM (checkPreviousAttempt H incident command claimedAt)
  construct {
    incidentId := incident.incidentId H.canonicalId
    incidentSha256 := H.incident incident
    sequenceNumber := previous.elim 1 (·.val.sequenceNumber + 1)
    previousAttemptId := previous.map (·.attemptId H.canonicalId)
    previousAttemptSha256 := previous.map H.attempt
    route := command.val.route
    providerId := command.val.providerId
    idempotencyKey := command.val.idempotencyKey
    requestSha256 := command.val.requestSha256
    requestedAt := command.val.requestedAt
    claimedAt
    commandSha256 := H.command command }

def recordDeliveryResult (attempt : DeliveryAttempt) (outcome : DeliveryOutcome)
    (completedAt : Instant) (elapsedMicroseconds : Int)
    (providerReceiptSha256 failureCode : Option Str) : Py DeliveryResult := do
  raiseIf (attempt.val.incidentId ≠ incident.incidentId H.canonicalId ∨
      attempt.val.incidentSha256 ≠ H.incident incident)
    "critical-alert result attempt crosses incident identities"
  raiseIf (completedAt < attempt.val.claimedAt)
    "critical-alert delivery completion predates its claim"
  construct {
    incidentId := incident.incidentId H.canonicalId
    incidentSha256 := H.incident incident
    attemptId := attempt.attemptId H.canonicalId
    attemptSha256 := H.attempt attempt
    outcome
    completedAt
    elapsedMicroseconds
    providerReceiptSha256
    failureCode }

/-- `critical_alert_delivery_deadline`. -/
def deliveryDeadline : Route → Instant
  | .primary => incident.val.primaryDeadline
  | .escalation => incident.val.escalationDeadline

/-- Whether the attempt was confirmed before the deadline of its route, on both clocks. -/
def deliveryMilestoneMet (attempt : DeliveryAttempt) (result : DeliveryResult) : Py Bool := do
  raiseIf (attempt.val.incidentId ≠ incident.incidentId H.canonicalId ∨
      attempt.val.incidentSha256 ≠ H.incident incident ∨
      result.val.incidentId ≠ incident.incidentId H.canonicalId ∨
      result.val.incidentSha256 ≠ H.incident incident ∨
      result.val.attemptId ≠ attempt.attemptId H.canonicalId ∨
      result.val.attemptSha256 ≠ H.attempt attempt)
    "critical-alert milestone facts cross immutable identities"
  let deadline := deliveryDeadline incident attempt.val.route
  return result.val.outcome = .confirmed ∧ result.val.completedAt < deadline ∧
    result.val.elapsedMicroseconds < deadline - incident.val.recordedAt

/-! ## Histories -/

/-- What the loop over the attempts has seen: how many, the latest, identities and delivery keys. -/
structure AttemptScan where
  count : Nat
  previous : Option DeliveryAttempt
  attemptIds : List Str
  deliveryKeys : List (Str × Str)

def checkAttempt (scan : AttemptScan) (attempt : DeliveryAttempt) : Py AttemptScan := do
  raiseIf (attempt.val.incidentId ≠ incident.incidentId H.canonicalId ∨
      attempt.val.incidentSha256 ≠ H.incident incident ∨
      attempt.val.sequenceNumber ≠ scan.count + 1)
    "critical-alert attempt history is not gap-free and incident-bound"
  let command ← (construct attempt.val.commandFields : Py DeliveryCommand)
  raiseIf (H.command command ≠ attempt.val.commandSha256)
    "critical-alert attempt command digest is invalid"
  raiseIf ((attempt.val.previousAttemptId, attempt.val.previousAttemptSha256) ≠
      (scan.previous.map (·.attemptId H.canonicalId), scan.previous.map H.attempt))
    "critical-alert attempt predecessor chain is invalid"
  let attemptId := attempt.attemptId H.canonicalId
  raiseIf (attemptId ∈ scan.attemptIds) "critical-alert attempt identity is repeated"
  let deliveryKey := (attempt.val.providerId, attempt.val.idempotencyKey)
  raiseIf (deliveryKey ∈ scan.deliveryKeys)
    "critical-alert provider idempotency key is repeated"
  return ⟨scan.count + 1, some attempt, attemptId :: scan.attemptIds,
    deliveryKey :: scan.deliveryKeys⟩

def checkResult (seen : List Str) (result : DeliveryResult) : Py (List Str) := do
  let attempt ← getOrThrow
    (lookup (attempts.map fun attempt => (attempt.attemptId H.canonicalId, attempt))
      result.val.attemptId)
    (.valueError "critical-alert result has no attempt in its history")
  raiseIf (result.val.attemptId ∈ seen) "critical-alert attempt has multiple terminal results"
  raiseIf (result.val.incidentId ≠ incident.incidentId H.canonicalId ∨
      result.val.incidentSha256 ≠ H.incident incident ∨
      result.val.attemptSha256 ≠ H.attempt attempt ∨
      result.val.completedAt < attempt.val.claimedAt)
    "critical-alert result conflicts with its immutable attempt"
  return result.val.attemptId :: seen

/-- `validate_critical_alert_delivery_history`. -/
def validateDeliveryHistory (results : List DeliveryResult) : Py Unit := do
  raiseIf (maxAttempts < attempts.length) "critical-alert attempt history exceeds its bound"
  let _ ← attempts.foldlM (checkAttempt H incident) ⟨0, none, [], []⟩
  let _ ← results.foldlM (checkResult H incident attempts) []

end history

/-! ## The repository -/

/-- The rows of one incident, in the order in which they were inserted. -/
structure History where
  incident : Incident
  attempts : List DeliveryAttempt
  results : List DeliveryResult

abbrev Store := Dict Str History

namespace Repository

/-- Rows are inserted for an incident. -/
def insertRows (store : Store) (incidentId : Str) (insert : History → History) : Store :=
  match store.get? incidentId with
  | some rows => store.set incidentId (insert rows)
  | none => store

/-- `_load_history`: the results in the order of their completion, the whole history checked. -/
def loadHistory (store : Store) (incidentId : Str) : Py History := do
  let history ← getOrThrow (store.get? incidentId)
    (.valueError ("critical-alert incident " ++ incidentId.quoted ++ " does not exist"))
  let results :=
    sortOn (fun r : DeliveryResult => toLex (r.val.completedAt, r.resultId H.canonicalId))
    history.results
  validateDeliveryHistory H history.incident history.attempts results
  return { history with results }

def loadIncident (store : Store) (incidentId : Str) : Py Incident := do
  let history ← getOrThrow (store.get? incidentId)
    (.valueError ("critical-alert incident " ++ incidentId.quoted ++ " does not exist"))
  return history.incident

def findDeliveryAttempt (store : Store) (incidentId providerId idempotencyKey : Str) :
    Py (Option DeliveryAttempt) := do
  let history ← loadHistory H store incidentId
  return history.attempts.find? fun attempt =>
    attempt.val.providerId = providerId ∧ attempt.val.idempotencyKey = idempotencyKey

/-- The attempt row with an identity, which is the primary key of all attempts. -/
def attemptRow (store : Store) (attemptId : Str) : Option DeliveryAttempt :=
  (store.values.flatMap (·.attempts)).find? (·.attemptId H.canonicalId = attemptId)

/-- The new attempt that a command claims, if none of its delivery key exists. -/
def claimNew (store : Store) (history : History) (command : DeliveryCommand) (claimedAt : Instant) :
    Py DeliveryAttempt := do
  let attempt ← appendDeliveryAttempt H history.incident command claimedAt history.attempts.getLast?
  raiseIf ((attemptRow H store (attempt.attemptId H.canonicalId)).isSome)
    "critical-alert delivery attempt conflicts with durable history"
  return attempt

/-- `claim_delivery_attempt`, one transaction: the attempt, whether it is new, and the store. -/
def claimDeliveryAttempt (store : Store) (command : DeliveryCommand) (claimedAt : Instant) :
    Py ((DeliveryAttempt × Bool) × Store) := do
  let history ← loadHistory H store command.val.incidentId
  raiseIf (command.val.incidentSha256 ≠ H.incident history.incident)
    "critical-alert command has the wrong incident digest"
  match history.attempts.find? fun attempt => attempt.val.providerId = command.val.providerId ∧
      attempt.val.idempotencyKey = command.val.idempotencyKey with
  | some existing => do
    raiseIf (existing.attemptId H.canonicalId ≠ attemptIdOf H.canonicalId command.val.incidentId
          command.val.providerId command.val.idempotencyKey ∨
        existing.val.route ≠ command.val.route ∨
        existing.val.requestSha256 ≠ command.val.requestSha256)
      "critical-alert delivery idempotency key conflicts"
    return ((existing, false), store)
  | none => do
    let attempt ← claimNew H store history command claimedAt
    return ((attempt, true), insertRows store command.val.incidentId fun rows =>
      { rows with attempts := rows.attempts ++ [attempt] })

def loadDeliveryResult (store : Store) (attemptId : Str) : Py (Option DeliveryResult) := do
  let attempt ← getOrThrow (attemptRow H store attemptId)
    (.valueError ("critical-alert attempt " ++ attemptId.quoted ++ " does not exist"))
  let history ← loadHistory H store attempt.val.incidentId
  return history.results.find? (·.val.attemptId = attemptId)

/-- `record_delivery_result`, one transaction at a repository instant. -/
def recordDeliveryResult (store : Store) (result : DeliveryResult) (observedAt : Instant) :
    Py (DeliveryResult × Store) := do
  let history ← loadHistory H store result.val.incidentId
  raiseIf (history.attempts.all (·.attemptId H.canonicalId ≠ result.val.attemptId))
    "critical-alert result has no durable attempt"
  match history.results.find? (·.val.attemptId = result.val.attemptId) with
  | some existing => do
    raiseIf (existing ≠ result) "critical-alert attempt result conflicts"
    return (existing, store)
  | none => do
    validateDeliveryHistory H history.incident history.attempts (history.results ++ [result])
    raiseIf (observedAt < result.val.completedAt)
      "critical-alert result completion is in the repository future"
    raiseIf ((store.values.flatMap (·.results)).any
        (·.resultId H.canonicalId = result.resultId H.canonicalId))
      "critical-alert delivery result conflicts with durable history"
    return (result, insertRows store result.val.incidentId fun rows =>
      { rows with results := rows.results ++ [result] })

end Repository

end AutoQuantTrader.CriticalAlert
