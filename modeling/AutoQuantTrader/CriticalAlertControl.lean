import AutoQuantTrader.CriticalAlertSafety
import AutoQuantTrader.OperationalControlTrip

/-!
# A total delivery failure trips the control

The worker dates the evidence of a total failure back to the first instant at which it could have
been seen, and the trip is requested at that instant.  A control head that was decided later refuses
it.
-/

namespace AutoQuantTrader.CriticalAlert

open Result Sorting OperationalControl

/-! ## The binding -/

/-- The digests of alerts and of the control, and what the binding adds to them. -/
structure FailureHashes where
  alert : AlertHashes
  control : ControlHashes
  evidence : Evidence → Str
  policySha256 : Str

variable (H : FailureHashes)

section failure

variable (incident : Incident) (plan : RoutePlan) (attempts : List DeliveryAttempt)
  (results : List DeliveryResult) (evidence : Evidence)

/-- `_canonical_results`. -/
def canonicalResults : List DeliveryResult :=
  attempts.filterMap fun attempt => resultOf H.alert attempt results

/-- Whether one of the results is a delivery in budget. -/
def anyMilestoneMet (incident : Incident) (attempts : List DeliveryAttempt) :
    List DeliveryResult → Py Bool
  | [] => return false
  | result :: results => do
    let attempt ← getOrThrow (lookup (attempts.map fun attempt =>
      (attempt.attemptId H.alert.canonicalId, attempt)) result.val.attemptId) .keyError
    let met ← deliveryMilestoneMet H.alert incident attempt result
    if met then return true else anyMilestoneMet incident attempts results

/-- What the reason of a failure says about the escalation attempt. -/
def checkReason (result : Option DeliveryResult) : Py Unit :=
  match evidence.val.reason with
  | .escalationDeadlineUnresolved => do
    raiseIf (evidence.val.observedAt < incident.val.escalationDeadline)
      "unresolved total delivery failure predates the escalation deadline"
    raiseIf (result ≠ none ∨ evidence.val.resultId ≠ none ∨ evidence.val.resultSha256 ≠ none ∨
        ¬ evidence.val.unresolvedClaim)
      "unresolved escalation evidence conflicts with terminal history"
  | .escalationAttemptFailed =>
    raiseIf (result = none ∨
        evidence.val.resultId ≠ result.map (·.resultId H.alert.canonicalId) ∨
        evidence.val.resultSha256 ≠ result.map H.alert.result ∨ evidence.val.unresolvedClaim)
      "terminal escalation failure does not bind its exact result"
  | _ => throw (.valueError "total delivery failure uses an unsupported reason")

/-- `authenticate_total_delivery_failure_evidence`. -/
def authenticateTotalDeliveryFailureEvidence : Py Evidence := do
  rephrase (fun _ => "critical-alert failure-control source history is not authentic") do
    validateDeliveryHistory H.alert incident attempts results
    validateRoutePlanHistory H.alert incident plan attempts
  raiseIf (results ≠ canonicalResults H attempts results)
    "critical-alert failure-control results do not follow attempt history"
  raiseIf (evidence.val.incidentId ≠ incident.incidentId H.alert.canonicalId ∨
      evidence.val.incidentSha256 ≠ H.alert.incident incident)
    "critical-alert failure-control evidence crosses incident identity"
  raiseIf (evidence.val.routePlanSha256 ≠ H.alert.routePlan plan)
    "critical-alert failure-control evidence crosses route-plan identity"
  raiseIf (evidence.val.disposition ≠ .totalDeliveryFailure)
    "only total delivery failure may request alert failure control"
  raiseIf (evidence.val.selectedRoute ≠ .escalation)
    "total delivery failure must select the escalation route"
  raiseIf evidence.val.providerCalled
    "failure control accepts only replay-derived supervisor evidence"
  raiseIf (evidence.val.observedAt < historyLatestTime incident attempts results)
    "total-delivery-failure observation predates durable history"
  let confirmed ← anyMilestoneMet H incident attempts results
  raiseIf confirmed "a confirmed delivery result cannot authorize failure control"
  let escalation ← getOrThrow (attempts.find? (·.val.route = .escalation))
    (.valueError "total delivery failure lacks an escalation attempt")
  raiseIf (evidence.val.attemptId ≠ some (escalation.attemptId H.alert.canonicalId) ∨
      evidence.val.attemptSha256 ≠ some (H.alert.attempt escalation))
    "total-delivery-failure evidence does not bind the escalation attempt"
  checkReason H incident evidence
    (results.find? (·.val.attemptId = escalation.attemptId H.alert.canonicalId))
  return evidence

/-- `_critical_alert_total_delivery_failure_trip_command`. -/
def totalDeliveryFailureTripCommand (actorAuthoritySha256 : Str) : Py Command := do
  raiseIf (evidence.val.incidentId ≠ incident.incidentId H.alert.canonicalId ∨
      evidence.val.incidentSha256 ≠ H.alert.incident incident ∨
      evidence.val.disposition ≠ .totalDeliveryFailure ∨ evidence.val.selectedRoute ≠ .escalation ∨
      evidence.val.providerCalled ∨
      (evidence.val.reason = .escalationDeadlineUnresolved ∧
        evidence.val.observedAt < incident.val.escalationDeadline) ∨
      (evidence.val.reason = .escalationAttemptFailed ∧
        evidence.val.observedAt < incident.val.primaryDeadline) ∨
      (evidence.val.reason ≠ .escalationDeadlineUnresolved ∧
        evidence.val.reason ≠ .escalationAttemptFailed))
    "critical-alert failure trip does not bind an eligible incident"
  let actor ← construct {
    actorId := "phase5d-critical-alert-failure-control"
    kind := .system
    authoritySha256 := actorAuthoritySha256
    authenticatedAt := none }
  construct {
    scopeId := incident.val.scopeId
    idempotencyKey := "critical-alert-failure:" ++ incident.incidentId H.alert.canonicalId
    kind := .trip
    targetState := .paused
    actor
    reasonCode := "critical_alert_total_delivery_failure"
    reasonEvidenceSha256 := H.evidence evidence
    requestedAt := evidence.val.observedAt
    rearmEvidenceSha256 := none
    tripRuleId := some "critical_alert_total_delivery_failure"
    tripPolicySha256 := some H.policySha256
    tripObservationSha256 := some (H.evidence evidence) }

/-- Proof of one binding of a failure to the control. -/
structure ReceiptFields where
  incident : Incident
  routePlan : RoutePlan
  evidence : Evidence
  preControl : Transition H.control.toControlIds
  command : Command
  finalControl : Transition H.control.toControlIds
  boundAt : Instant

variable {H} in
def ReceiptFields.postInit (r : ReceiptFields H) : Py Unit := do
  raiseIf (r.evidence.val.incidentId ≠ r.incident.incidentId H.alert.canonicalId ∨
      r.evidence.val.incidentSha256 ≠ H.alert.incident r.incident ∨
      r.evidence.val.routePlanSha256 ≠ H.alert.routePlan r.routePlan)
    "failure-control receipt crosses alert source identities"
  let expectedCommand ← totalDeliveryFailureTripCommand H r.incident r.evidence
    r.command.val.actor.val.authoritySha256
  raiseIf (r.command ≠ expectedCommand)
    "failure-control receipt command is not the exact policy command"
  raiseIf (r.preControl.val.scopeId ≠ r.incident.val.scopeId)
    "failure-control receipt pre-control scope crosses the incident"
  raiseIf (r.preControl.val.commandId = r.command.commandId H.control.toControlIds)
    "failure-control receipt pre-control already contains its source command"
  raiseIf (r.boundAt < max r.evidence.val.observedAt r.preControl.val.decidedAt)
    "failure-control binding predates its authenticated sources"
  let expectedFinal ← rephrase
    (fun _ => "failure-control receipt cannot apply its exact control command")
    (applyOperationalControlCommand H.control (some r.preControl) r.command r.boundAt none none)
  raiseIf (r.finalControl ≠ expectedFinal)
    "failure-control receipt final transition conflicts with the severity join"

abbrev Receipt := Checked (ReceiptFields.postInit (H := H))

/-- `bind_critical_alert_failure_control_receipt`. -/
def bindCriticalAlertFailureControlReceipt (preControl : Transition H.control.toControlIds)
    (actorAuthoritySha256 : Str) (boundAt : Instant) : Py (Receipt H) := do
  let authenticated ← authenticateTotalDeliveryFailureEvidence H incident plan attempts
    results evidence
  let command ← totalDeliveryFailureTripCommand H incident authenticated actorAuthoritySha256
  raiseIf (preControl.val.commandId = command.commandId H.control.toControlIds)
    "failure-control source command is already present in the pre-control head"
  let finalControl ← rephrase
    (fun _ => "failure-control trip cannot apply to the exact pre-control head")
    (applyOperationalControlCommand H.control (some preControl) command boundAt none none)
  construct {
    incident
    routePlan := plan
    evidence := authenticated
    preControl
    command
    finalControl
    boundAt }

/-! ## The worker -/

/-- `_canonical_total_failure_evidence`: the evidence as of the first instant it could be seen
at. -/
def canonicalTotalFailureEvidence (supervision : Evidence) : Py (Option Evidence) := do
  let latest := historyLatestTime incident attempts results
  let eligibleAt := if supervision.val.reason = .escalationDeadlineUnresolved then
    max incident.val.escalationDeadline latest else latest
  if supervision.val.providerCalled ∨ supervision.val.observedAt < eligibleAt then
    return none
  else do
    let canonical ← construct { supervision.val with
      observedAt := eligibleAt, waitUntil := none, providerCalled := false }
    let _ ← authenticateTotalDeliveryFailureEvidence H incident plan attempts results canonical
    return some canonical

end failure

/-! ## When a binding succeeds -/

section Binding

variable {H : FailureHashes} {incident : Incident} {plan : RoutePlan}
    {attempts : List DeliveryAttempt}
  {results : List DeliveryResult} {supervision evidence : Evidence} {command : Command}
  {head : Transition H.control.toControlIds} {authority : Str} {boundAt : Instant}

/-- What authentic evidence of a total failure says. -/
structure Authentic (H : FailureHashes) (incident : Incident) (plan : RoutePlan)
    (attempts : List DeliveryAttempt) (results : List DeliveryResult) (evidence : Evidence) :
    Prop where
  identity : evidence.val.incidentId = incident.incidentId H.alert.canonicalId ∧
    evidence.val.incidentSha256 = H.alert.incident incident
  plan : evidence.val.routePlanSha256 = H.alert.routePlan plan
  failure : evidence.val.disposition = .totalDeliveryFailure
  route : evidence.val.selectedRoute = .escalation
  replayed : evidence.val.providerCalled = false
  reason : evidence.val.reason = .escalationDeadlineUnresolved ∧
      incident.val.escalationDeadline ≤ evidence.val.observedAt ∨
    evidence.val.reason = .escalationAttemptFailed ∧
      incident.val.primaryDeadline ≤ evidence.val.observedAt

/-- An instant is before the latest fact of a history if it is before one of them. -/
theorem le_historyLatestTime_iff :
    t ≤ historyLatestTime incident attempts results ↔ t ≤ incident.val.recordedAt ∨
      (∃ attempt ∈ attempts, t ≤ attempt.val.claimedAt) ∨ ∃ result ∈ results,
      t ≤ result.val.completedAt := by
  simp only [historyLatestTime, le_foldl_max_iff, List.mem_append, List.mem_map,
    or_and_right, exists_or, exists_exists_and_eq_and]

theorem checkReason_spec (h : checkReason H incident evidence result = .ok u) :
    evidence.val.reason = .escalationDeadlineUnresolved ∧
        incident.val.escalationDeadline ≤ evidence.val.observedAt ∨
      evidence.val.reason = .escalationAttemptFailed := by
  unfold checkReason at h
  split at h
  · next hreason =>
    simp only [Py.eq_ok, not_lt] at h
    exact .inl ⟨hreason, h.choose_spec.1⟩
  · next hreason => exact .inr hreason
  · cases h

/-- An escalation attempt of a history of the plan was requested after the primary deadline. -/
theorem primaryDeadline_le_of_escalation
    (h : validateRoutePlanHistory H.alert incident plan attempts = .ok ())
    (hattempt : attempt ∈ attempts) (hroute : attempt.val.route = .escalation) :
    incident.val.primaryDeadline ≤ attempt.val.requestedAt := by
  simp only [validateRoutePlanHistory, eq_ok] at h
  obtain ⟨seen, hloop, -⟩ := h
  have hall := foldlM_invariant_done
    (fun done _ => ∀ a ∈ done, a.val.route = .escalation →
      incident.val.primaryDeadline ≤ a.val.requestedAt) ?_ (by simp) hloop
  · exact hall attempt hattempt hroute
  intro done a seen seen' _ hdone hstep
  simp only [checkRouteAttempt, Py.eq_ok] at hstep
  obtain ⟨_, -, _, -, _, -, _, -, _, hlate, -⟩ := hstep
  exact forall_mem_snoc.2 ⟨hdone, fun hroute => not_lt.1 fun hearly => hlate ⟨hroute, hearly⟩⟩

/-- Evidence the check accepts is authentic. -/
theorem authentic_of_ok
    (h : authenticateTotalDeliveryFailureEvidence H incident plan attempts results
      evidence = .ok shown) :
    shown = evidence ∧ Authentic H incident plan attempts results evidence := by
  simp only [authenticateTotalDeliveryFailureEvidence, Py.eq_ok, rephrase_eq_ok, not_or,
    not_lt] at h
  obtain ⟨_, ⟨_, -, hplan⟩, _, -, _, hidentity, _, hrouteplan, _, hfailure, _, hroute, _,
    hreplayed, _, hlatest, confirmed, -, _, -, escalation, hescalation, _, -, _, hreason, rfl⟩ := h
  refine ⟨rfl, hidentity, hrouteplan, hfailure, hroute, by simpa using hreplayed, ?_⟩
  rcases checkReason_spec hreason with hunresolved | hfailed
  · exact .inl hunresolved
  · refine .inr ⟨hfailed, ?_⟩
    have hmem := List.mem_of_find?_eq_some hescalation
    have hroute : escalation.val.route = .escalation := by simpa using List.find?_some hescalation
    have hrequested := primaryDeadline_le_of_escalation hplan hmem hroute
    have hclaimed := escalation.requestedAt_le_claimedAt
    have hseen : escalation.val.claimedAt ≤ historyLatestTime incident attempts results :=
      le_historyLatestTime_iff.2 (.inr (.inl ⟨escalation, hmem, le_rfl⟩))
    exact hrequested.trans (hclaimed.trans (hseen.trans hlatest))

/-- The key of a trip is safe, as the identifier of the incident is. -/
theorem isSafeKey_failureKey {id : Str} (h : isUuid id) :
    isSafeKey ("critical-alert-failure:" ++ id) := by
  have hchars : ("critical-alert-failure:" ++ id : Str).chars =
      ("critical-alert-failure:" : Str).chars ++ id.chars := rfl
  have hlength : ("critical-alert-failure:" : Str).chars.length = 23 := by decide
  simp only [isSafeKey, hchars, List.all_append, List.length_append, h.1, hlength, Bool.and_eq_true,
    decide_eq_true_eq]
  refine ⟨⟨⟨by rfl, by decide, ?_⟩, by decide⟩, by decide⟩
  rw [List.all_eq_true]
  intro c hc
  rcases h.2 c hc with halnum | rfl
  · simp [halnum]
  · decide

/-- Authentic evidence has a trip. -/
theorem exists_tripCommand (hids : ∀ kind parts, isUuid (H.alert.canonicalId kind parts))
    (h : Authentic H incident plan attempts results evidence) (authority : Str) :
    ∃ command, totalDeliveryFailureTripCommand H incident evidence authority = .ok command := by
  have hactor : ActorFields.postInit ⟨"phase5d-critical-alert-failure-control", .system,
      authority, none⟩ = .ok () := rfl
  have hscope : requireVisibleText 128 incident.val.scopeId "control scope ID" = .ok () := by
    have hpasses := incident.passes
    simp only [IncidentFields.postInit, bind_eq_ok] at hpasses
    exact requireVisibleText_congr hpasses.choose_spec.1
  simp only [totalDeliveryFailureTripCommand, bind_eq_ok, raiseIf_eq_ok, construct_eq_ok]
  refine ⟨⟨_, ?_⟩, (), ?_, ⟨_, hactor⟩, rfl, rfl⟩
  · simp only [CommandFields.postInit, CommandFields.checkTarget, CommandFields.checkTrip,
      CommandFields.checkRearm, requireIdempotencyKey, requirePresentSha256,
      CommandKind.fixedTarget, bind_eq_ok, raiseIf_eq_ok, if_true]
    refine ⟨(), hscope, (), not_not.2 (isSafeKey_failureKey (hids _ _)), (), rfl,
      (), by simp, (), rfl, (), by simp, (), ?_, by simp⟩
    exact ⟨(), by simp, (), by simp, (), rfl, (), by simp, by simp⟩
  · obtain ⟨hid, hsha⟩ := h.identity
    have hlate : ¬ (evidence.val.reason = .escalationDeadlineUnresolved ∧
        evidence.val.observedAt < incident.val.escalationDeadline) ∧
      ¬ (evidence.val.reason = .escalationAttemptFailed ∧
        evidence.val.observedAt < incident.val.primaryDeadline) ∧
      ¬ (evidence.val.reason ≠ .escalationDeadlineUnresolved ∧
        evidence.val.reason ≠ .escalationAttemptFailed) := by
      rcases h.reason with ⟨hreason, htime⟩ | ⟨hreason, htime⟩
      · simp [hreason, htime]
      · simp [hreason, htime]
    simp only [not_or]
    exact ⟨not_not.2 hid, not_not.2 hsha, not_not.2 h.failure,
      not_not.2 h.route, by simp [h.replayed], hlate⟩

/-- The trip pauses the incident's scope at the time of the evidence. -/
theorem tripCommand_spec
    (h : totalDeliveryFailureTripCommand H incident evidence authority = .ok command) :
    command.val.kind = .trip ∧ command.val.targetState = .paused ∧
      command.val.scopeId = incident.val.scopeId ∧
      command.val.requestedAt = evidence.val.observedAt ∧
      command.val.actor.val.authoritySha256 = authority := by
  simp only [totalDeliveryFailureTripCommand, Py.eq_ok] at h
  obtain ⟨_, -, actor, hactor, hcommand⟩ := h
  rw [hcommand]
  exact ⟨rfl, rfl, rfl, rfl, by rw [hactor]⟩

/-- The head was decided no later than some fact of the incident, or than the escalation deadline if
that is what the failure is about. -/
def DecidedInTime (head : Transition H.control.toControlIds) (incident : Incident)
    (attempts : List DeliveryAttempt) (results : List DeliveryResult) (reason : Reason) : Prop :=
  head.val.decidedAt ≤ incident.val.recordedAt ∨
    (∃ attempt ∈ attempts, head.val.decidedAt ≤ attempt.val.claimedAt) ∨
    (∃ result ∈ results, head.val.decidedAt ≤ result.val.completedAt) ∨
    reason = .escalationDeadlineUnresolved ∧ head.val.decidedAt ≤ incident.val.escalationDeadline

/-- What the worker derives is authentic, and is dated by the history and the deadline. -/
theorem canonical_spec (head : Transition H.control.toControlIds)
    (h : canonicalTotalFailureEvidence H incident plan attempts results supervision =
      .ok (some evidence)) :
    authenticateTotalDeliveryFailureEvidence H incident plan attempts results
      evidence = .ok evidence ∧ (head.val.decidedAt ≤ evidence.val.observedAt ↔
        DecidedInTime head incident attempts results supervision.val.reason) := by
  unfold canonicalTotalFailureEvidence at h
  dsimp only at h
  generalize heligible : (if supervision.val.reason = .escalationDeadlineUnresolved then
    max incident.val.escalationDeadline (historyLatestTime incident attempts results)
    else historyLatestTime incident attempts results) = eligibleAt at h
  split at h
  · cases h
  · simp only [Py.eq_ok, Option.some.injEq] at h
    obtain ⟨canonical, hfields, shown, hauthentic, rfl⟩ := h
    obtain ⟨rfl, -⟩ := authentic_of_ok hauthentic
    refine ⟨hauthentic, ?_⟩
    rw [hfields, DecidedInTime, ← heligible]
    split
    · next hreason =>
      rw [le_max_iff, le_historyLatestTime_iff, or_comm]
      simp only [hreason, true_and, or_assoc]
    · next hreason =>
      rw [le_historyLatestTime_iff]
      simp only [hreason, false_and, or_false]

/-- A binding leaves the control at least paused. -/
theorem paused_le_of_applied
    (hkind : command.val.kind = .trip) (htarget : command.val.targetState = .paused)
    (hnew : head.val.commandId ≠ command.commandId H.control.toControlIds)
    (h : applyOperationalControlCommand H.control (some head) command boundAt none
      none = .ok final) :
    head.val.decidedAt ≤ command.val.requestedAt ∧
      State.paused.severity ≤ final.val.effectiveState.severity := by
  simp only [applyOperationalControlCommand, Py.eq_ok, if_neg hnew, not_lt] at h
  obtain ⟨_, -, _, -, _, -, _, htime, state, hstate, hadvance⟩ := h
  rw [nextState, if_neg (by rw [hkind]; decide), pure_eq_ok] at hstate
  refine ⟨htime, ?_⟩
  rw [(advance_spec hadvance).effectiveState, ← hstate, ← htarget]
  exact (severity_le_stateJoin _ _).2

/-- **A total failure trips the control exactly if the head is not newer than the failure.**  For
evidence that the worker derives, a head of the scope that does not hold the trip yet, and an
instant that is neither before the evidence nor before the head. -/
theorem failure_trips_control_iff
    (hincidents : ∀ kind parts, isUuid (H.alert.canonicalId kind parts))
    (hcontrols : ∀ kind parts, isUuid (H.control.canonicalId kind parts))
    (hcanonical : canonicalTotalFailureEvidence H incident plan attempts results supervision =
      .ok (some evidence)) (hscope : head.val.scopeId = incident.val.scopeId)
    (hnew : ∀ command, totalDeliveryFailureTripCommand H incident evidence authority = .ok command →
      IsNew head command) (hevidence : evidence.val.observedAt ≤ boundAt)
    (hhead : head.val.decidedAt ≤ boundAt) :
    (∃ receipt, bindCriticalAlertFailureControlReceipt H incident plan attempts
        results evidence head authority boundAt = .ok receipt ∧
      State.paused.severity ≤ receipt.val.finalControl.val.effectiveState.severity) ↔
    DecidedInTime head incident attempts results supervision.val.reason := by
  obtain ⟨hauthenticate, htime⟩ := canonical_spec head hcanonical
  obtain ⟨-, hauthentic⟩ := authentic_of_ok hauthenticate
  obtain ⟨command, hcommand⟩ := exists_tripCommand hincidents hauthentic authority
  obtain ⟨hkind, htarget, hcommandScope, hrequested, hauthority⟩ := tripCommand_spec hcommand
  have hfresh := hnew command hcommand
  rw [← htime, ← hrequested]
  constructor
  · rintro ⟨receipt, hbind, -⟩
    simp only [bindCriticalAlertFailureControlReceipt, hauthenticate, Py.eq_ok, rephrase_eq_ok,
      Except.ok.injEq] at hbind
    obtain ⟨_, rfl, other, hother, _, -, final, hfinal, -⟩ := hbind
    obtain rfl : other = command := Except.ok.inj (hother.symm.trans hcommand)
    exact (paused_le_of_applied hkind htarget hfresh.unapplied hfinal).1
  · intro hontime
    have hsafety : command.val.kind.isSafety := by simp [CommandKind.isSafety, hkind]
    have hcommandHead := hscope.trans hcommandScope.symm
    obtain ⟨final, hadvance, -⟩ := exists_advance boundAt hcontrols hcommandHead hfresh
      (stateJoin_ne_running head.val.effectiveState (command.target_of_safety hsafety))
    have hfinal := applyOperationalControlCommand_safety none hsafety hcommandHead hfresh
      hontime (hrequested ▸ hevidence) hadvance
    have hreceipt : ReceiptFields.postInit (H := H)
        ⟨incident, plan, evidence, head, command, final, boundAt⟩ = .ok () := by
      simp only [ReceiptFields.postInit, hauthority, hcommand, hfinal, Py.eq_ok, rephrase_eq_ok,
        Except.ok.injEq, not_or, not_lt]
      exact ⟨(), ⟨hauthentic.identity.1, hauthentic.identity.2, hauthentic.plan⟩, command,
        rfl, (), rfl, (), hscope, (), hfresh.unapplied, (), max_le hevidence hhead, final, rfl, rfl⟩
    refine ⟨⟨_, hreceipt⟩, ?_, (paused_le_of_applied hkind htarget hfresh.unapplied hfinal).2⟩
    simp only [bindCriticalAlertFailureControlReceipt, hauthenticate, Py.eq_ok, rephrase_eq_ok,
      Except.ok.injEq]
    exact ⟨evidence, rfl, command, hcommand, (), hfresh.unapplied, final, hfinal, rfl⟩

end Binding

/-! ## A failure before and after a re-arm -/

def FailureHashes.plain : FailureHashes where
  alert := .plain
  control := {
    canonicalId := digitsId
    policySha256 := "policy"
    command := ControlHashes.plain.command
    event := ControlHashes.plain.event
    transition t := t.val.transitionId
    evidence e := e.val.currentTransitionId }
  evidence e := e.val.incidentId
  policySha256 := "policy"

def failedIncident : Incident where
  val := { sampleIncident.val with
    scopeId := "account", detectedAt := -30000000, recordedAt := -30000000 }
  passes := by decide +kernel

/-- Supervisors find their providers unavailable at the start, at the primary and at the escalation
deadline; the worker then derives its evidence. -/
def sampleFailure (H : FailureHashes) : Py (History × Evidence × Evidence) := do
  let id := failedIncident.incidentId digitsId
  let run (w : World) (now : Instant) :=
    (runOnce .plain .exact samplePlan id).drive (sampleRespond (.unavailable "down")) { w with now }
  let first := run ⟨Dict.empty.set id ⟨failedIncident, [], []⟩, 0⟩ (-30000000)
  let second := run first.1 (-15000000)
  let last := run second.1 50
  let supervision ← last.2.2
  let rows ← getOrThrow (last.1.store.get? id) .keyError
  let derived ← canonicalTotalFailureEvidence H failedIncident samplePlan rows.attempts rows.results
    supervision
  let evidence ← getOrThrow derived .keyError
  return (rows, supervision, evidence)

/-- A binding after the control was re-armed: the states and instants before, and what is raised. -/
def sampleRefusal : Py ((State × Disposition) × (Instant × Instant) × Option PyError) := do
  let H := { FailureHashes.plain with control := .plain }
  let control ← sampleRearm
  let (rows, supervision, evidence) ← sampleFailure H
  let bound := bindCriticalAlertFailureControlReceipt H failedIncident samplePlan rows.attempts
    rows.results evidence control.running "authority" 50
  return ((control.running.val.effectiveState, supervision.val.disposition),
    (evidence.val.observedAt, control.running.val.decidedAt),
    match bound with
    | .ok _ => none
    | .error e => some e)

/-- The control was re-armed after the escalation deadline: it stays running. -/
theorem failure_leaves_control_running :
    sampleRefusal = .ok ((.running, .totalDeliveryFailure), (0, 30),
      some (.valueError "failure-control trip cannot apply to the exact pre-control head")) := by
  decide +kernel

/-- A control that was initialised before the incident, and the trip of its failure. -/
def sampleTrip : Py ((History × Evidence × Evidence) ×
    Transition FailureHashes.plain.control.toControlIds × Command) := do
  let failure ← sampleFailure .plain
  let system ← (construct ⟨"system", .system, "authority", none⟩ : Py Actor)
  let start ← (construct {
    scopeId := "account", idempotencyKey := "initialise", kind := .initializeHalted
    targetState := .halted, actor := system, reasonCode := "start", reasonEvidenceSha256 := "r"
    requestedAt := -60000000, rearmEvidenceSha256 := none, tripRuleId := none
    tripPolicySha256 := none, tripObservationSha256 := none } : Py Command)
  let head ← applyOperationalControlCommand FailureHashes.plain.control none start (-60000000) none
    none
  let trip ← totalDeliveryFailureTripCommand .plain failedIncident failure.2.2 "authority"
  return (failure, head, trip)

theorem sampleTrip_bound : ∃ (rows : History) (supervision evidence : Evidence)
    (head : Transition FailureHashes.plain.control.toControlIds),
    canonicalTotalFailureEvidence .plain failedIncident samplePlan rows.attempts rows.results
        supervision = .ok (some evidence) ∧
      ∃ receipt, bindCriticalAlertFailureControlReceipt .plain failedIncident
          samplePlan rows.attempts rows.results evidence head "authority" 50 = .ok receipt ∧
        State.paused.severity ≤ receipt.val.finalControl.val.effectiveState.severity := by
  have h : (fun x => (decide (x.2.1.val.scopeId = failedIncident.val.scopeId),
      decide (IsNew x.2.1 x.2.2), x.1.2.2.val.observedAt, x.2.1.val.decidedAt)) <$> sampleTrip =
        .ok (true, true, 0, -60000000) := by
    decide +kernel
  simp only [sampleTrip, sampleFailure, eq_ok, Prod.mk.injEq, decide_eq_true_eq] at h
  obtain ⟨_, ⟨_, ⟨supervision, -, rows, -, _, hderived, evidence, rfl, rfl⟩, _, -, _,
    -, head, -, trip, htrip, rfl⟩, hscope, hnew, hobserved, hdecided⟩ := h
  refine ⟨rows, supervision, evidence, head, hderived, ?_⟩
  have htime : head.val.decidedAt ≤ failedIncident.val.recordedAt := by
    rw [hdecided]
    decide
  refine (failure_trips_control_iff isUuid_digitsId isUuid_digitsId hderived hscope ?_ ?_ ?_).2
    (.inl htime)
  · intro command hcommand
    exact Except.ok.inj (htrip.symm.trans hcommand) ▸ hnew
  · rw [hobserved]
    decide
  · rw [hdecided]
    decide

end AutoQuantTrader.CriticalAlert
