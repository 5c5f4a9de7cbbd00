import AutoQuantTrader.CriticalAlert
import AutoQuantTrader.Lib.Process

/-!
# Supervision of alert delivery

A supervisor reloads the durable history of an incident, decides from it and from one clock reading,
and makes at most one delivery.  Its code runs concurrently with other supervisors: every access to
the repository, every clock reading and every call of a provider is one atomic operation.
-/

namespace AutoQuantTrader.CriticalAlert

open Result Concurrent

/-! ## Operations -/

/-- Binary floating point, as far as the code computes with seconds: `microseconds` is
`int(x * 1_000_000)`, and `totalSeconds` turns a `timedelta` into seconds. -/
structure FloatArithmetic where
  Value : Type
  isFinite : Value → Bool
  lt : Value → Value → Bool
  sub : Value → Value → Value
  nonpositive : Value → Bool
  totalSeconds : Int → Value
  microseconds : Value → Py Int

/-- What a provider does with a request. -/
inductive ProviderAnswer where
  | receipt (providerReceiptSha256 : Str)
  | invalidReceipt
  | unavailable (reasonCode : Str)
  | timeout
  | error

variable (H : AlertHashes) (F : FloatArithmetic)

inductive Operation where
  | readUtc
  | readMonotonic
  | loadIncident (incidentId : Str)
  | loadDeliveryHistory (incidentId : Str)
  | findDeliveryAttempt (incidentId providerId idempotencyKey : Str)
  | claimDeliveryAttempt (command : DeliveryCommand)
  | loadDeliveryResult (attemptId : Str)
  | recordDeliveryResult (result : DeliveryResult)
  | deliver (request : ProviderRequest) (timeoutSeconds : F.Value)

variable {F} in
def Operation.Answer : Operation F → Type
  | .readUtc => Instant
  | .readMonotonic => F.Value
  | .loadIncident _ => Py Incident
  | .loadDeliveryHistory _ => Py (List DeliveryAttempt × List DeliveryResult)
  | .findDeliveryAttempt _ _ _ => Py (Option DeliveryAttempt)
  | .claimDeliveryAttempt _ => Py (DeliveryAttempt × Bool)
  | .loadDeliveryResult _ => Py (Option DeliveryResult)
  | .recordDeliveryResult _ => Py DeliveryResult
  | .deliver _ _ => ProviderAnswer

/-- The shared state: the durable store, and the latest reading of the clocks. -/
structure World where
  store : Store
  now : Instant

/-- A transaction commits its store with its answer, and changes nothing if it raises. -/
def commits {α : Type} (store : Store) (transaction : Py (α × Store)) (answer : Py α)
    (store' : Store) : Prop :=
  match transaction with
  | .ok (a, after) => answer = .ok a ∧ store' = after
  | .error e => answer = .error e ∧ store' = store

/-- What an operation can answer.  Clocks of supervisors and of the repository never run backwards;
the repository reads its own at most once in a transaction; providers answer as they like. -/
def perform (w : World) : (op : Operation F) → op.Answer → World → Prop
  | .readUtc, t, w' => w.now ≤ t ∧ w' = { w with now := t }
  | .readMonotonic, _, w' => w' = w
  | .loadIncident incidentId, answer, w' =>
    answer = Repository.loadIncident w.store incidentId ∧ w' = w
  | .loadDeliveryHistory incidentId, answer, w' =>
    answer = (fun h => (h.attempts, h.results)) <$> Repository.loadHistory H w.store incidentId ∧
      w' = w
  | .findDeliveryAttempt incidentId providerId key, answer, w' =>
    answer = Repository.findDeliveryAttempt H w.store incidentId providerId key ∧ w' = w
  | .claimDeliveryAttempt command, answer, w' => w.now ≤ w'.now ∧
      commits w.store (Repository.claimDeliveryAttempt H w.store command w'.now) answer w'.store
  | .loadDeliveryResult attemptId, answer, w' =>
    answer = Repository.loadDeliveryResult H w.store attemptId ∧ w' = w
  | .recordDeliveryResult result, answer, w' => w.now ≤ w'.now ∧
      commits w.store (Repository.recordDeliveryResult H w.store result w'.now) answer w'.store
  | .deliver _ _, _, w' => w' = w

/-- Code of a supervisor. -/
abbrev Supervised := Program (Operation F) Operation.Answer PyError

def readUtc : Supervised F Instant := Program.perform Operation.readUtc

/-- A transaction of the repository, which may raise. -/
def transact {α : Type} (transaction : Supervised F (Py α)) : Supervised F α := do
  let answer ← transaction
  .lift answer

def loadIncident (incidentId : Str) : Supervised F Incident :=
  transact F (Program.perform (Operation.loadIncident incidentId))

def loadDeliveryHistory (incidentId : Str) :
    Supervised F (List DeliveryAttempt × List DeliveryResult) :=
  transact F (Program.perform (Operation.loadDeliveryHistory incidentId))

def findDeliveryAttempt (incidentId providerId idempotencyKey : Str) :
    Supervised F (Option DeliveryAttempt) :=
  transact F (Program.perform (Operation.findDeliveryAttempt incidentId providerId idempotencyKey))

def claimDeliveryAttempt (command : DeliveryCommand) : Supervised F (DeliveryAttempt × Bool) :=
  transact F (Program.perform (Operation.claimDeliveryAttempt command))

def loadDeliveryResult (attemptId : Str) : Supervised F (Option DeliveryResult) :=
  transact F (Program.perform (Operation.loadDeliveryResult attemptId))

def saveDeliveryResult (result : DeliveryResult) : Supervised F DeliveryResult :=
  transact F (Program.perform (Operation.recordDeliveryResult result))

def callProvider (providerRequest : ProviderRequest) (timeoutSeconds : F.Value) :
    Supervised F ProviderAnswer :=
  Program.perform (Operation.deliver providerRequest timeoutSeconds)

/-! ## Delivery -/

section delivery

variable (incident : Incident) (route : Route) (attempt : DeliveryAttempt)
  (attempts : List DeliveryAttempt) (results : List DeliveryResult)

/-- `CriticalAlertProviderRequest.bind`, whose checks are those of a command. -/
def ProviderRequest.bind (providerId idempotencyKey : Str) : Py ProviderRequest := do
  let _ ← (construct {
    incidentId := incident.incidentId H.canonicalId
    incidentSha256 := H.incident incident
    route
    providerId
    idempotencyKey
    requestSha256 := "0"
    requestedAt := incident.val.recordedAt } : Py DeliveryCommand)
  return {
    incidentId := incident.incidentId H.canonicalId
    incidentSha256 := H.incident incident
    scopeId := incident.val.scopeId
    sourceId := incident.val.sourceId
    alertCode := incident.val.alertCode
    evidenceSha256 := incident.val.evidenceSha256
    correlationSha256 := incident.val.correlationSha256
    route
    providerId
    idempotencyKey }

/-- What a delivery shows: the attempt, its result if there is one, whether the provider was
called. -/
structure DeliveryRun where
  incident : Incident
  attempt : DeliveryAttempt
  result : Option DeliveryResult
  (providerCalled exactRetry : Bool)

/-- `_read_monotonic`. -/
def readMonotonic (previous : Option F.Value) : Supervised F F.Value := do
  let value ← (Program.perform Operation.readMonotonic : Supervised F F.Value)
  .lift (raiseIf (¬ F.isFinite value) "critical-alert monotonic clock must return a finite number")
  .lift (raiseIf (previous.any (F.lt value)) "critical-alert monotonic clock moved backwards")
  return value

/-- `_elapsed_microseconds`. -/
def elapsedMicroseconds (started completed : F.Value) : Py Int := do
  let elapsed ← F.microseconds (F.sub completed started)
  return max 0 elapsed

/-- The result of an attempt, by its identity. -/
def resultOf : Option DeliveryResult :=
  lookup (results.map fun result => (result.val.attemptId, result))
    (attempt.attemptId H.canonicalId)

/-- The first attempt with a result in budget, and the result. -/
def confirmedAttempt (incident : Incident) (results : List DeliveryResult) :
    List DeliveryAttempt → Py (Option (DeliveryAttempt × DeliveryResult))
  | [] => return none
  | attempt :: attempts =>
    match resultOf H attempt results with
    | some result => do
      let met ← deliveryMilestoneMet H incident attempt result
      if met then return some (attempt, result)
      else confirmedAttempt incident results attempts
    | none => confirmedAttempt incident results attempts

/-- `_already_delivered`. -/
def alreadyDelivered : Py Bool := do
  let confirmed ← confirmedAttempt H incident results attempts
  return confirmed.isSome

/-- Whether a primary attempt has a result that is not in budget. -/
def primaryFailed (incident : Incident) (results : List DeliveryResult) :
    List DeliveryAttempt → Py Bool
  | [] => return false
  | attempt :: attempts =>
    match if attempt.val.route = .primary then resultOf H attempt results else none with
    | some result => do
      let met ← deliveryMilestoneMet H incident attempt result
      if met then primaryFailed incident results attempts else return true
    | none => primaryFailed incident results attempts

/-- `_escalation_is_eligible`. -/
def escalationIsEligible (requestedAt : Instant) : Py Bool := do
  let failed ← primaryFailed H incident results attempts
  return failed || incident.val.primaryDeadline ≤ requestedAt

/-- The checks of a history before a new attempt is claimed. -/
def checkClaim (requestedAt : Instant) : Py Unit := do
  let delivered ← alreadyDelivered H incident attempts results
  raiseIf delivered "critical-alert already has an in-budget confirmed delivery"
  if route = .escalation then do
    let eligible ← escalationIsEligible H incident attempts results requestedAt
    raiseIf (¬ eligible) "critical-alert escalation is not yet eligible"

/-- An answer of the provider as an outcome, a failure code and a receipt. -/
def outcomeOf : ProviderAnswer → Py (DeliveryOutcome × Option Str × Option Str)
  | .receipt sha256 => return (.confirmed, none, some sha256)
  | .invalidReceipt => return (.error, some "invalid_provider_receipt", none)
  | .unavailable reasonCode => throw (.valueError reasonCode)
  | .timeout => return (.timeout, some "provider_timeout", none)
  | .error => return (.error, some "provider_error", none)

/-- The result of a delivery that the provider was called for. -/
def resultOfSend (deadline completedAt : Instant) (deadlineSeconds : F.Value) (elapsed : Int)
    (sent : DeliveryOutcome × Option Str × Option Str) : Py DeliveryResult := do
  let budget ← F.microseconds deadlineSeconds
  let (outcome, failureCode, receipt) :=
    if deadline ≤ completedAt ∨ budget ≤ elapsed then
      (.timeout, some (Str.of "delivery_deadline_missed"), none)
    else sent
  recordDeliveryResult H incident attempt outcome completedAt elapsed receipt failureCode

/-- The result is recorded and shown. -/
def recordRun (result : DeliveryResult) (providerCalled : Bool) : Supervised F DeliveryRun := do
  let recorded ← saveDeliveryResult F result
  return ⟨incident, attempt, some recorded, providerCalled, false⟩

/-- The deadline had passed before the provider could be called. -/
def missDeadline (started last : F.Value) : Supervised F DeliveryRun := do
  let completedAt ← readUtc F
  let elapsed ← .lift (elapsedMicroseconds F started last)
  let result ← .lift (recordDeliveryResult H incident attempt .timeout completedAt elapsed none
    (some "delivery_deadline_missed"))
  recordRun F incident attempt result false

/-- The provider is called for a claimed attempt. -/
def send (providerRequest : ProviderRequest) (deadline : Instant)
    (deadlineSeconds remainingSeconds started last : F.Value) : Supervised F DeliveryRun := do
  let answer ← callProvider F providerRequest remainingSeconds
  let sent ← .lift (outcomeOf answer)
  let completed ← readMonotonic F (some last)
  let completedAt ← readUtc F
  let elapsed ← .lift (elapsedMicroseconds F started completed)
  let result ← .lift (resultOfSend H F incident attempt deadline completedAt deadlineSeconds elapsed
    sent)
  recordRun F incident attempt result true

/-- What follows a claim that was won. -/
def deliverClaimed (providerRequest : ProviderRequest) (requestedAt : Instant) (started : F.Value) :
    Supervised F DeliveryRun := do
  let last ← readMonotonic F (some started)
  let deadline := deliveryDeadline incident route
  let deadlineSeconds := F.totalSeconds (deadline - requestedAt)
  let remainingSeconds := F.sub deadlineSeconds (F.sub last started)
  if deadline ≤ requestedAt ∨ F.nonpositive remainingSeconds then
    missDeadline H F incident attempt started last
  else
    send H F incident attempt providerRequest deadline deadlineSeconds remainingSeconds started last

/-- An attempt that exists already is shown as it is. -/
def showAttempt : Supervised F DeliveryRun := do
  let result ← loadDeliveryResult F (attempt.attemptId H.canonicalId)
  return ⟨incident, attempt, result, false, true⟩

/-- An attempt is claimed; whoever wins the claim delivers. -/
def claimAndDeliver (command : DeliveryCommand) (providerRequest : ProviderRequest)
    (started : F.Value) : Supervised F DeliveryRun := do
  let (attempts, results) ← loadDeliveryHistory F (incident.incidentId H.canonicalId)
  .lift (checkClaim H incident route attempts results command.val.requestedAt)
  let (attempt, created) ← claimDeliveryAttempt F command
  if created then
    deliverClaimed H F incident route attempt providerRequest command.val.requestedAt started
  else
    showAttempt H F incident attempt

/-- `deliver_critical_alert`, with the first reading of its UTC clock as `requestedAt`. -/
def deliverCriticalAlert (idempotencyKey providerId : Str) (requestedAt : Instant) :
    Supervised F DeliveryRun := do
  let providerRequest ← .lift (ProviderRequest.bind H incident route providerId idempotencyKey)
  let started ← readMonotonic F none
  let command ← .lift (construct {
    incidentId := incident.incidentId H.canonicalId
    incidentSha256 := H.incident incident
    route
    providerId
    idempotencyKey
    requestSha256 := H.request providerRequest
    requestedAt } : Py DeliveryCommand)
  let existing ← findDeliveryAttempt F (incident.incidentId H.canonicalId) providerId
    idempotencyKey
  match existing with
  | some existing => do
    .lift (raiseIf (existing.val.route ≠ route ∨
        existing.val.requestSha256 ≠ H.request providerRequest)
      "critical-alert delivery idempotency key conflicts")
    showAttempt H F incident existing
  | none => claimAndDeliver H F incident route command providerRequest started

end delivery

/-! ## Evidence -/

inductive Disposition where
  | confirmed | primaryFailed | wait | totalDeliveryFailure
deriving DecidableEq

inductive Reason where
  | primaryConfirmed | escalationConfirmed | primaryAttemptFailed | primaryClaimUnresolved
  | primaryDeadlineWait | escalationConfirmedAfterPrimaryDeadline | escalationClaimUnresolved
  | escalationAttemptFailed | escalationDeadlineUnresolved
deriving DecidableEq

/-- The disposition that a reason belongs to. -/
def Reason.disposition : Reason → Disposition
  | .primaryConfirmed => .confirmed
  | .escalationConfirmed => .confirmed
  | .escalationConfirmedAfterPrimaryDeadline => .confirmed
  | .primaryAttemptFailed => .primaryFailed
  | .primaryClaimUnresolved => .wait
  | .primaryDeadlineWait => .wait
  | .escalationClaimUnresolved => .wait
  | .escalationAttemptFailed => .totalDeliveryFailure
  | .escalationDeadlineUnresolved => .totalDeliveryFailure

/-- What one invocation of the supervisor shows. -/
structure EvidenceFields where
  (incidentId incidentSha256 routePlanSha256 : Str)
  disposition : Disposition
  reason : Reason
  observedAt : Instant
  selectedRoute : Route
  (attemptId attemptSha256 resultId resultSha256 : Option Str)
  waitUntil : Option Instant
  (providerCalled unresolvedClaim : Bool)

namespace EvidenceFields

def checkResultIdentity (e : EvidenceFields) : Py Unit := do
  raiseIf (e.resultId.isNone ≠ e.resultSha256.isNone)
    "critical-alert supervisor result identity is incomplete"
  e.resultId.forM fun resultId => do
    raiseIf (e.attemptId = none) "critical-alert supervisor result requires an attempt"
    requireSupervisorText resultId "critical-alert supervisor result ID"

def postInit (e : EvidenceFields) : Py Unit := do
  requireSupervisorText e.incidentId "critical-alert supervisor incident ID"
  raiseIf (e.attemptId.isNone ≠ e.attemptSha256.isNone)
    "critical-alert supervisor attempt identity is incomplete"
  e.attemptId.forM fun attemptId =>
    requireSupervisorText attemptId "critical-alert supervisor attempt ID"
  checkResultIdentity e
  raiseIf (e.unresolvedClaim ≠ (e.attemptId.isSome && e.resultId.isNone))
    "critical-alert supervisor unresolved-claim evidence conflicts"
  raiseIf (e.reason.disposition ≠ e.disposition)
    "critical-alert supervisor reason conflicts with its disposition"
  let pending := e.disposition = .wait ∨ e.disposition = .primaryFailed
  raiseIf (pending ∧ e.waitUntil = none)
    "critical-alert supervisor pending evidence requires wait_until"
  raiseIf (¬ pending ∧ e.waitUntil ≠ none)
    "terminal critical-alert supervisor evidence cannot wait"

end EvidenceFields

abbrev Evidence := Checked EvidenceFields.postInit

section history

variable (incident : Incident) (plan : RoutePlan) (route : Route) (attempts : List DeliveryAttempt)

/-- `_evidence`. -/
def evidence (reason : Reason) (observedAt : Instant) (route : Route)
    (attempt : Option DeliveryAttempt) (result : Option DeliveryResult) (waitUntil : Option Instant)
    (providerCalled : Bool) : Py Evidence :=
  construct {
    incidentId := incident.incidentId H.canonicalId
    incidentSha256 := H.incident incident
    routePlanSha256 := H.routePlan plan
    disposition := reason.disposition
    reason
    observedAt
    selectedRoute := route
    attemptId := attempt.map (·.attemptId H.canonicalId)
    attemptSha256 := attempt.map H.attempt
    resultId := result.map (·.resultId H.canonicalId)
    resultSha256 := result.map H.result
    waitUntil
    providerCalled
    unresolvedClaim := attempt.isSome && result.isNone }

/-! ## The supervisor -/

/-- `critical_alert_route_idempotency_key`. -/
def routeKey : Str :=
  "critical-alert-" ++ route.value ++ "-" ++ H.routeDigest incident plan (plan.bindingFor route)

/-- `_expected_request`. -/
def expectedRequest : Py ProviderRequest :=
  ProviderRequest.bind H incident route (plan.bindingFor route).val.providerId
    (routeKey H incident plan route)

def checkRouteAttempt (seen : List Route) (attempt : DeliveryAttempt) : Py (List Route) := do
  raiseIf (attempt.val.route ∈ seen) "critical-alert supervisor history repeats a fixed route"
  let expected ← expectedRequest H incident plan attempt.val.route
  raiseIf (attempt.val.providerId ≠ expected.providerId ∨
      attempt.val.idempotencyKey ≠ expected.idempotencyKey ∨
      attempt.val.requestSha256 ≠ H.request expected)
    "critical-alert supervisor history conflicts with the route plan"
  raiseIf (attempt.val.route = .primary ∧ incident.val.primaryDeadline ≤ attempt.val.requestedAt)
    "critical-alert supervisor primary claim missed its selection window"
  raiseIf (attempt.val.route = .escalation ∧ attempt.val.requestedAt < incident.val.primaryDeadline)
    "critical-alert supervisor escalation claim predates its selection window"
  return attempt.val.route :: seen

/-- `validate_critical_alert_route_plan_history`. -/
def validateRoutePlanHistory : Py Unit := do
  let _ ← attempts.foldlM (checkRouteAttempt H incident plan) []
  raiseIf (attempts.length = 2 ∧ attempts.head?.any (·.val.route ≠ .primary))
    "critical-alert supervisor route history is not primary-first"

/-- `_history_latest_time`. -/
def historyLatestTime (results : List DeliveryResult) : Instant :=
  (attempts.map (·.val.claimedAt) ++ results.map (·.val.completedAt)).foldl max
    incident.val.recordedAt

/-- The instant that evidence about a delivery is of. -/
def DeliveryRun.observedAt (run : DeliveryRun) (decisionAt : Instant) : Instant :=
  match run.result with
  | none => max decisionAt run.attempt.val.claimedAt
  | some result => max decisionAt result.val.completedAt

/-- What a delivery that was not confirmed in budget leads to. -/
def fromFailedRun (run : DeliveryRun) (observedAt : Instant) : Py Evidence :=
  let report (reason : Reason) (waitUntil : Option Instant) : Py Evidence :=
    evidence H incident plan reason observedAt run.attempt.val.route (some run.attempt) run.result
      waitUntil run.providerCalled
  match run.attempt.val.route, run.result with
  | .primary, none => report .primaryClaimUnresolved (some incident.val.primaryDeadline)
  | .primary, some _ => report .primaryAttemptFailed (some incident.val.primaryDeadline)
  | .escalation, none =>
    if incident.val.escalationDeadline ≤ observedAt then
      report .escalationDeadlineUnresolved none
    else
      report .escalationClaimUnresolved (some incident.val.escalationDeadline)
  | .escalation, some _ => report .escalationAttemptFailed none

/-- `_from_delivery_run`. -/
def fromDeliveryRun (run : DeliveryRun) (decisionAt : Instant) : Py Evidence := do
  let observedAt := run.observedAt decisionAt
  let met ← run.result.elim (pure false) (deliveryMilestoneMet H run.incident run.attempt)
  if met then
    let reason : Reason := match run.attempt.val.route with
      | .primary => .primaryConfirmed
      | .escalation => .escalationConfirmedAfterPrimaryDeadline
    evidence H incident plan reason observedAt run.attempt.val.route (some run.attempt)
      run.result none run.providerCalled
  else
    fromFailedRun H incident plan run observedAt

end history

section supervision

variable (plan : RoutePlan) (incident : Incident) (attempts : List DeliveryAttempt)
  (results : List DeliveryResult) (observedAt : Instant)

/-- `_deliver`: the first reading of the anchored clock is the instant of the decision. -/
def deliverRoute (route : Route) (observedAt : Instant) : Supervised F Evidence := do
  let run ← deliverCriticalAlert H F incident route (routeKey H incident plan route)
    (plan.bindingFor route).val.providerId observedAt
  .lift (fromDeliveryRun H incident plan run observedAt)

/-- The durable history has no delivery in budget: wait, escalate or report the failure. -/
def superviseUnconfirmed : Supervised F Evidence :=
  let report (reason : Reason) (route : Route) (attempt : DeliveryAttempt)
      (waitUntil : Option Instant) : Supervised F Evidence :=
    .lift (evidence H incident plan reason observedAt route (some attempt)
      (resultOf H attempt results) waitUntil false)
  if observedAt < incident.val.primaryDeadline then
    match attempts.find? (·.val.route = .primary) with
    | none => deliverRoute H F plan incident .primary observedAt
    | some primary =>
      report (if (resultOf H primary results).isNone then .primaryClaimUnresolved
        else .primaryDeadlineWait) .primary primary (some incident.val.primaryDeadline)
  else
    match attempts.find? (·.val.route = .escalation) with
    | none => deliverRoute H F plan incident .escalation observedAt
    | some escalation =>
      if (resultOf H escalation results).isSome then
        report .escalationAttemptFailed .escalation escalation none
      else if incident.val.escalationDeadline ≤ observedAt then
        report .escalationDeadlineUnresolved .escalation escalation none
      else
        report .escalationClaimUnresolved .escalation escalation
          (some incident.val.escalationDeadline)

/-- What a supervisor decides from an authentic history and one reading of its clock. -/
def supervise : Supervised F Evidence := do
  .lift (raiseIf (observedAt < historyLatestTime incident attempts results)
    "critical-alert supervisor clock predates durable history")
  let confirmed ← .lift (confirmedAttempt H incident results attempts)
  match confirmed with
  | some (attempt, result) =>
    let reason : Reason := match attempt.val.route with
      | .primary => .primaryConfirmed
      | .escalation => .escalationConfirmed
    .lift (evidence H incident plan reason observedAt attempt.val.route (some attempt) (some result)
      none false)
  | none => superviseUnconfirmed H F plan incident attempts results observedAt

/-- `run_once`, for a supervisor whose ports are those of its route plan. -/
def runOnce (incidentId : Str) : Supervised F Evidence := do
  .lift (requireSupervisorText incidentId "critical-alert supervisor incident ID")
  let incident ← loadIncident F incidentId
  .lift (raiseIf (incident.incidentId H.canonicalId ≠ incidentId)
    "critical-alert repository returned the wrong incident identity")
  let (attempts, results) ← loadDeliveryHistory F incidentId
  .lift (validateDeliveryHistory H incident attempts results)
  .lift (validateRoutePlanHistory H incident plan attempts)
  let observedAt ← readUtc F
  supervise H F plan incident attempts results observedAt

end supervision

end AutoQuantTrader.CriticalAlert
