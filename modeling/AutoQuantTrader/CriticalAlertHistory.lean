import Mathlib.Tactic.Linarith
import AutoQuantTrader.CriticalAlertSupervisor

/-!
# The durable history of an alert

What the checks of a history let through, and the histories that supervisors of one route plan can
build: at most one attempt of each route, the primary one first, each claimed by the request that
the plan prescribes.  Every operation of a supervisor keeps the store like that and only adds rows.
-/

namespace AutoQuantTrader.CriticalAlert

open Result Sorting

variable {H : AlertHashes} {F : FloatArithmetic} {incident : Incident} {plan : RoutePlan}
  {attempts : List DeliveryAttempt} {results : List DeliveryResult} {attempt : DeliveryAttempt}
  {result : DeliveryResult} {command : DeliveryCommand}

/-! ## Attempts -/

def DeliveryAttempt.deliveryKey (a : DeliveryAttempt) : Str × Str :=
  (a.val.providerId, a.val.idempotencyKey)

/-- An attempt continues the attempts before it. -/
structure AttemptFits (H : AlertHashes) (incident : Incident) (done : List DeliveryAttempt)
    (attempt : DeliveryAttempt) : Prop where
  incidentId : attempt.val.incidentId = incident.incidentId H.canonicalId
  incidentSha256 : attempt.val.incidentSha256 = H.incident incident
  sequenceNumber : attempt.val.sequenceNumber = done.length + 1
  command : ∃ command : DeliveryCommand, command.val = attempt.val.commandFields ∧
    H.command command = attempt.val.commandSha256
  previousId : attempt.val.previousAttemptId = done.getLast?.map (·.attemptId H.canonicalId)
  previousSha256 : attempt.val.previousAttemptSha256 = done.getLast?.map H.attempt
  freshId : attempt.attemptId H.canonicalId ∉ done.map (·.attemptId H.canonicalId)
  freshKey : attempt.deliveryKey ∉ done.map (·.deliveryKey)

/-- What the loop over the attempts has seen after some of them. -/
def scanOf (H : AlertHashes) (done : List DeliveryAttempt) : AttemptScan where
  count := done.length
  previous := done.getLast?
  attemptIds := (done.map (·.attemptId H.canonicalId)).reverse
  deliveryKeys := (done.map (·.deliveryKey)).reverse

/-- The scan accepts exactly an attempt that fits those before it. -/
theorem checkAttempt_eq_ok :
    checkAttempt H incident (scanOf H done) attempt = .ok scan ↔
      AttemptFits H incident done attempt ∧ scan = scanOf H (done ++ [attempt]) := by
  simp only [checkAttempt, Py.eq_ok, not_or, Prod.mk.injEq]
  simp only [scanOf, List.mem_reverse]
  constructor
  · rintro ⟨_, ⟨hid, hsha, hsequence⟩, command, hcommand, _, hdigest, _, ⟨hprevious, hpreviousSha⟩,
      _, hfreshId, _, hfreshKey, rfl⟩
    refine ⟨⟨hid, hsha, hsequence, ⟨command, hcommand, hdigest⟩, hprevious, hpreviousSha, hfreshId,
      hfreshKey⟩, ?_⟩
    simp [DeliveryAttempt.deliveryKey]
  · rintro ⟨h, rfl⟩
    obtain ⟨command, hcommand, hdigest⟩ := h.command
    refine ⟨(), ⟨h.incidentId, h.incidentSha256, h.sequenceNumber⟩, command, hcommand, (), hdigest,
      (), ⟨h.previousId, h.previousSha256⟩, (), h.freshId, (), h.freshKey, ?_⟩
    simp [DeliveryAttempt.deliveryKey]

/-- Every attempt continues those before it. -/
def ValidAttempts (H : AlertHashes) (incident : Incident) (attempts : List DeliveryAttempt) :
    Prop :=
  attempts.foldlM (checkAttempt H incident) (scanOf H []) = .ok (scanOf H attempts)

theorem validAttempts_of_ok (h : attempts.foldlM (checkAttempt H incident) (scanOf H []) =
    .ok scan) : ValidAttempts H incident attempts := by
  have hscan := foldlM_invariant_done (fun done scan => scan = scanOf H done)
    (fun done attempt scan scan' _ hdone hstep => by
      rw [hdone] at hstep
      exact (checkAttempt_eq_ok.1 hstep).2) rfl h
  rw [ValidAttempts, h, hscan]

theorem validAttempts_snoc :
    ValidAttempts H incident (attempts ++ [attempt]) ↔
      ValidAttempts H incident attempts ∧ AttemptFits H incident attempts attempt := by
  constructor
  · intro h
    obtain ⟨scan, hscan, hlast⟩ := foldlM_snoc_eq_ok.1 h
    have hvalid := validAttempts_of_ok hscan
    rw [hvalid] at hscan
    rw [← Except.ok.inj hscan] at hlast
    exact ⟨hvalid, (checkAttempt_eq_ok.1 hlast).1⟩
  · rintro ⟨hvalid, hfits⟩
    exact foldlM_snoc_eq_ok.2 ⟨_, hvalid, checkAttempt_eq_ok.2 ⟨hfits, rfl⟩⟩

theorem ValidAttempts.nodup (h : ValidAttempts H incident attempts) :
    (attempts.map (·.attemptId H.canonicalId)).Nodup := by
  induction attempts using List.reverseRecOn with
  | nil => exact List.nodup_nil
  | append_singleton done attempt ih =>
    obtain ⟨hvalid, hfits⟩ := validAttempts_snoc.1 h
    rw [List.map_append]
    refine List.Nodup.append (ih hvalid) (List.nodup_singleton _) ?_
    simpa using hfits.freshId

theorem ValidAttempts.fits (h : ValidAttempts H incident attempts) :
    ∀ attempt ∈ attempts, attempt.val.incidentId = incident.incidentId H.canonicalId ∧
      attempt.val.incidentSha256 = H.incident incident := by
  induction attempts using List.reverseRecOn with
  | nil => simp
  | append_singleton done attempt ih =>
    obtain ⟨hvalid, hfits⟩ := validAttempts_snoc.1 h
    intro other hother
    rcases mem_snoc.1 hother with hdone | rfl
    · exact ih hvalid other hdone
    · exact ⟨hfits.incidentId, hfits.incidentSha256⟩

/-- The last attempt's number is the count of attempts. -/
theorem ValidAttempts.sequence_last (h : ValidAttempts H incident attempts) :
    ∀ attempt ∈ attempts.getLast?, attempt.val.sequenceNumber = attempts.length := by
  induction attempts using List.reverseRecOn with
  | nil => simp
  | append_singleton done attempt _ =>
    intro last hlast
    rw [List.getLast?_append_of_ne_nil _ (by simp)] at hlast
    obtain rfl : attempt = last := by simpa using hlast
    simpa using (validAttempts_snoc.1 h).2.sequenceNumber

/-! ## Results -/

/-- A result of one of the attempts. -/
structure ResultFits (H : AlertHashes) (incident : Incident) (attempts : List DeliveryAttempt)
    (result : DeliveryResult) : Prop where
  incidentId : result.val.incidentId = incident.incidentId H.canonicalId
  incidentSha256 : result.val.incidentSha256 = H.incident incident
  attempt : ∃ attempt ∈ attempts, attempt.attemptId H.canonicalId = result.val.attemptId ∧
    result.val.attemptSha256 = H.attempt attempt ∧ attempt.val.claimedAt ≤ result.val.completedAt

theorem ResultFits.mono (h : ResultFits H incident attempts result) (hsub : attempts ⊆ attempts') :
    ResultFits H incident attempts' result := by
  obtain ⟨attempt, hattempt, hfacts⟩ := h.attempt
  exact ⟨h.incidentId, h.incidentSha256, attempt, hsub hattempt, hfacts⟩

theorem lookup_attempt_eq_some (hnodup : (attempts.map (·.attemptId H.canonicalId)).Nodup)
    {id : Str} :
    lookup (attempts.map fun attempt => (attempt.attemptId H.canonicalId, attempt))
      id = some attempt ↔ attempt ∈ attempts ∧ attempt.attemptId H.canonicalId = id := by
  rw [lookup_eq_some_iff (by simpa [List.map_map, Function.comp_def] using hnodup)]
  simp only [List.mem_map, Prod.mk.injEq]
  constructor
  · rintro ⟨_, hmem, hid, rfl⟩
    exact ⟨hmem, hid⟩
  · rintro ⟨hmem, hid⟩
    exact ⟨attempt, hmem, hid, rfl⟩

theorem checkResult_eq_ok (hnodup : (attempts.map (·.attemptId H.canonicalId)).Nodup) :
    checkResult H incident attempts seen result = .ok seen' ↔
      ResultFits H incident attempts result ∧ result.val.attemptId ∉ seen ∧
        seen' = result.val.attemptId :: seen := by
  simp only [checkResult, Py.eq_ok, lookup_attempt_eq_some hnodup, not_or, not_lt]
  constructor
  · rintro ⟨attempt, ⟨hmem, hid⟩, _, hfresh, _, ⟨hincident, hsha, hattempt, hclaimed⟩, rfl⟩
    exact ⟨⟨hincident, hsha, attempt, hmem, hid, hattempt, hclaimed⟩, hfresh, rfl⟩
  · rintro ⟨h, hfresh, rfl⟩
    obtain ⟨attempt, hmem, hid, hattempt, hclaimed⟩ := h.attempt
    exact ⟨attempt, ⟨hmem, hid⟩, (), hfresh, (),
      ⟨h.incidentId, h.incidentSha256, hattempt, hclaimed⟩, rfl⟩

theorem foldlM_checkResult_eq_ok (hnodup : (attempts.map (·.attemptId H.canonicalId)).Nodup) :
    results.foldlM (checkResult H incident attempts) seen = .ok seen' ↔
      (∀ result ∈ results, ResultFits H incident attempts result) ∧
        (results.map (·.val.attemptId)).Nodup ∧
        (∀ result ∈ results, result.val.attemptId ∉ seen) ∧
        seen' = (results.map (·.val.attemptId)).reverse ++ seen := by
  induction results generalizing seen with
  | nil =>
    rw [foldlM_nil_eq_ok]
    simp [eq_comm]
  | cons result results ih =>
    simp only [foldlM_cons_eq_ok, checkResult_eq_ok hnodup, ih, List.map_cons, List.nodup_cons,
      List.reverse_cons, List.append_assoc, List.singleton_append, List.forall_mem_cons]
    constructor
    · rintro ⟨_, ⟨hfits, hfresh, rfl⟩, hrest, hunique, hnew, rfl⟩
      refine ⟨⟨hfits, hrest⟩, ⟨fun hmem => ?_, hunique⟩, ⟨hfresh, fun r hr hseen => ?_⟩, rfl⟩
      · obtain ⟨r, hr, hsame⟩ := List.mem_map.1 hmem
        exact hnew r hr (hsame ▸ List.mem_cons_self)
      · exact hnew r hr (List.mem_cons_of_mem _ hseen)
    · rintro ⟨⟨hfits, hrest⟩, ⟨hother, hunique⟩, ⟨hfresh, hnew⟩, rfl⟩
      refine ⟨_, ⟨hfits, hfresh, rfl⟩, hrest, hunique, fun r hr hseen => ?_, rfl⟩
      rcases List.mem_cons.1 hseen with hsame | hseen
      · exact hother (hsame ▸ List.mem_map_of_mem hr)
      · exact hnew r hr hseen

/-- What `validate_critical_alert_delivery_history` lets through. -/
structure ValidHistory (H : AlertHashes) (incident : Incident) (attempts : List DeliveryAttempt)
    (results : List DeliveryResult) : Prop where
  bounded : attempts.length ≤ maxAttempts
  chain : ValidAttempts H incident attempts
  fit : ∀ result ∈ results, ResultFits H incident attempts result
  nodup : (results.map (·.val.attemptId)).Nodup

variable {u : Unit}

/-- The source's check accepts exactly the valid histories. -/
theorem validateDeliveryHistory_eq_ok :
    validateDeliveryHistory H incident attempts results = .ok u ↔
      ValidHistory H incident attempts results := by
  simp only [validateDeliveryHistory, Py.eq_ok, not_lt]
  constructor
  · rintro ⟨_, hbounded, _, hattempts, _, hresults, -⟩
    have hvalid := validAttempts_of_ok hattempts
    obtain ⟨hfits, hnodup, -⟩ := (foldlM_checkResult_eq_ok hvalid.nodup).1 hresults
    exact ⟨hbounded, hvalid, hfits, hnodup⟩
  · intro h
    have hresults := (foldlM_checkResult_eq_ok h.chain.nodup).2
      ⟨h.fit, h.nodup, fun _ _ => List.not_mem_nil, rfl⟩
    exact ⟨(), h.bounded, _, h.chain, _, hresults, trivial⟩

/-- The order of the results does not matter. -/
theorem ValidHistory.perm (h : ValidHistory H incident attempts results)
    (hperm : results.Perm results') :
    ValidHistory H incident attempts results' where
  bounded := h.bounded
  chain := h.chain
  fit := fun result hresult => h.fit result (hperm.mem_iff.2 hresult)
  nodup := (hperm.map _).nodup_iff.1 h.nodup

/-! ## Transactions -/

theorem optionForM_eq_ok {α : Type} {o : Option α} {f : α → Py Unit} :
    o.forM f = .ok u ↔ ∀ a ∈ o, f a = .ok u := by
  cases o with
  | none => simp [Option.forM, pure, Except.pure]
  | some a => simp [Option.forM]

variable {incidentId : Str} {store : Store}

/-- A load shows the stored rows of a valid history, results in order. -/
theorem loadHistory_eq_ok : Repository.loadHistory H store incidentId = .ok history ↔
      ∃ rows, store.get? incidentId = some rows ∧
        ValidHistory H rows.incident rows.attempts rows.results ∧
        history = { rows with
          results := sortOn (fun r : DeliveryResult =>
            toLex (r.val.completedAt, r.resultId H.canonicalId)) rows.results } := by
  simp only [Repository.loadHistory, eq_ok, validateDeliveryHistory_eq_ok]
  constructor
  · rintro ⟨rows, hrows, _, hvalid, rfl⟩
    exact ⟨rows, hrows, hvalid.perm (sortOn_perm _ _), rfl⟩
  · rintro ⟨rows, hrows, hvalid, rfl⟩
    exact ⟨rows, hrows, (), hvalid.perm (sortOn_perm _ _).symm, rfl⟩

variable {rows : History}

theorem attemptRow_eq_none (h : ¬ (Repository.attemptRow H store attemptId).isSome)
    (hrows : store.get? incidentId = some rows) :
    attemptId ∉ rows.attempts.map (·.attemptId H.canonicalId) := by
  rw [Option.not_isSome_iff_eq_none, Repository.attemptRow, List.find?_eq_none] at h
  intro hmem
  obtain ⟨attempt, hattempt, hid⟩ := List.mem_map.1 hmem
  refine h attempt (List.mem_flatMap.2 ⟨rows, Dict.mem_values.2 ⟨incidentId, hrows⟩, hattempt⟩) ?_
  simpa using hid

/-- A new attempt of an incident. -/
structure NewAttempt (H : AlertHashes) (rows : History) (command : DeliveryCommand)
    (claimedAt : Instant) (attempt : DeliveryAttempt) : Prop where
  requested : attempt.val.commandFields = command.val
  claimed : attempt.val.claimedAt = claimedAt
  recorded : rows.incident.val.recordedAt ≤ command.val.requestedAt
  later : ∀ last ∈ rows.attempts.getLast?, last.val.requestedAt ≤ command.val.requestedAt
  fits : AttemptFits H rows.incident rows.attempts attempt
  keyed : ∀ other ∈ rows.attempts,
    other.deliveryKey ≠ (command.val.providerId, command.val.idempotencyKey)

variable {claimedAt : Instant}

theorem claimNew_spec (hrows : store.get? command.val.incidentId = some rows)
    (hvalid : ValidHistory H rows.incident rows.attempts rows.results)
    (hincident : history.incident = rows.incident) (hattempts : history.attempts = rows.attempts)
    (hkeyed : ∀ other ∈ rows.attempts, other.deliveryKey ≠ (command.val.providerId,
      command.val.idempotencyKey))
    (h : Repository.claimNew H store history command claimedAt = .ok attempt) :
    NewAttempt H rows command claimedAt attempt := by
  simp only [Repository.claimNew, appendDeliveryAttempt, Py.eq_ok, optionForM_eq_ok, hincident,
    hattempts, not_or, not_lt] at h
  obtain ⟨_, ⟨_, ⟨hid, hsha⟩, _, hrecorded, _, hprevious, hattempt⟩, _, hrow, rfl⟩ := h
  have hcommand : DeliveryAttemptFields.commandFields _ = command.val :=
    (congrArg DeliveryAttemptFields.commandFields hattempt).trans (by rw [← hid, ← hsha]; rfl)
  refine ⟨hcommand, congrArg (·.claimedAt) hattempt, hrecorded, ?_, ?_, hkeyed⟩
  · intro last hlast
    have hcheck := hprevious last hlast
    simp only [checkPreviousAttempt, Py.eq_ok, not_lt] at hcheck
    obtain ⟨_, -, _, hrequested, -⟩ := hcheck
    exact hrequested
  · refine ⟨congrArg (·.incidentId) hattempt, congrArg (·.incidentSha256) hattempt, ?_,
      ⟨command, hcommand.symm, (congrArg (·.commandSha256) hattempt).symm⟩,
      congrArg (·.previousAttemptId) hattempt, congrArg (·.previousAttemptSha256) hattempt,
      attemptRow_eq_none hrow hrows, ?_⟩
    · rw [hattempt]
      cases hlast : rows.attempts.getLast? with
      | none => simp [List.getLast?_eq_none_iff.1 hlast]
      | some last => simp [hvalid.chain.sequence_last last hlast]
    · intro hmem
      obtain ⟨other, hother, hkey⟩ := List.mem_map.1 hmem
      refine hkeyed other hother (hkey.trans ?_)
      rw [← hcommand]
      rfl

/-- What a claim does: it finds the attempt of its delivery key, or adds it. -/
inductive Claims (H : AlertHashes) (store : Store) (command : DeliveryCommand)
    (claimedAt : Instant) : DeliveryAttempt × Bool → Store → Prop where
  | existing {rows : History} {attempt : DeliveryAttempt}
      (hrows : store.get? command.val.incidentId = some rows) (hattempt : attempt ∈ rows.attempts)
      (hroute : attempt.val.route = command.val.route) :
      Claims H store command claimedAt (attempt, false) store
  | created {rows : History} {attempt : DeliveryAttempt}
      (hrows : store.get? command.val.incidentId = some rows)
      (hvalid : ValidHistory H rows.incident rows.attempts rows.results)
      (hnew : NewAttempt H rows command claimedAt attempt) :
      Claims H store command claimedAt (attempt, true)
        (store.set command.val.incidentId { rows with attempts := rows.attempts ++ [attempt] })

/-- A claim that returns is an existing attempt or a new one. -/
theorem claims_of_ok
    (h : Repository.claimDeliveryAttempt H store command claimedAt = .ok (claim, store')) :
    Claims H store command claimedAt claim store' := by
  simp only [Repository.claimDeliveryAttempt, Py.eq_ok, loadHistory_eq_ok] at h
  obtain ⟨history, ⟨rows, hrows, hvalid, rfl⟩, _, -, h⟩ := h
  split at h
  · next existing hfind =>
    simp only [Py.eq_ok, not_or, Prod.mk.injEq] at h
    obtain ⟨_, ⟨-, hroute, -⟩, rfl, rfl⟩ := h
    exact .existing hrows (List.mem_of_find?_eq_some hfind) hroute
  · next hfind =>
    simp only [eq_ok, Prod.mk.injEq] at h
    obtain ⟨attempt, hattempt, rfl, rfl⟩ := h
    have hkeyed : ∀ other ∈ rows.attempts,
        other.deliveryKey ≠ (command.val.providerId, command.val.idempotencyKey) := by
      intro other hother hkey
      obtain ⟨hprovider, hidempotency⟩ := Prod.mk.inj hkey
      exact List.find?_eq_none.1 hfind other hother (by simp [hprovider, hidempotency])
    simp only [Repository.insertRows, hrows]
    exact .created hrows hvalid (claimNew_spec hrows hvalid rfl rfl hkeyed hattempt)

/-- What recording a result does: it finds the same result, or adds it. -/
inductive Records (H : AlertHashes) (store : Store) (result : DeliveryResult)
    (observedAt : Instant) : Store → Prop where
  | existing : Records H store result observedAt store
  | recorded {rows : History} (hrows : store.get? result.val.incidentId = some rows)
      (hvalid : ValidHistory H rows.incident rows.attempts (rows.results ++ [result]))
      (hcompleted : result.val.completedAt ≤ observedAt) :
      Records H store result observedAt
        (store.set result.val.incidentId { rows with results := rows.results ++ [result] })

/-- A record that returns adds the result or finds it there. -/
theorem records_of_ok
    (h : Repository.recordDeliveryResult H store result observedAt = .ok (recorded, store')) :
    Records H store result observedAt store' := by
  simp only [Repository.recordDeliveryResult, Py.eq_ok, loadHistory_eq_ok] at h
  obtain ⟨history, ⟨rows, hrows, -, rfl⟩, _, -, h⟩ := h
  split at h
  · simp only [Py.eq_ok, Prod.mk.injEq] at h
    obtain ⟨_, -, -, rfl⟩ := h
    exact .existing
  · simp only [Py.eq_ok, validateDeliveryHistory_eq_ok, not_lt, Prod.mk.injEq] at h
    obtain ⟨_, hvalid, _, hcompleted, _, -, -, rfl⟩ := h
    simp only [Repository.insertRows, hrows]
    exact .recorded hrows (hvalid.perm ((sortOn_perm _ _).append_right _)) hcompleted

/-! ## Histories of one route plan -/

/-- A request that the plan prescribes for its route, made in the window of the route. -/
structure Planned (H : AlertHashes) (plan : RoutePlan) (incident : Incident)
    (c : DeliveryCommandFields) : Prop where
  request : ∃ request, expectedRequest H incident plan c.route = .ok request ∧
    c.providerId = request.providerId ∧ c.idempotencyKey = request.idempotencyKey ∧
    c.requestSha256 = H.request request
  window : c.route = .primary ∧ c.requestedAt < incident.val.primaryDeadline ∨
    c.route = .escalation ∧ incident.val.primaryDeadline ≤ c.requestedAt

/-- Two planned requests of one route have the same delivery key. -/
theorem Planned.key_eq (h : Planned H plan incident c) (h' : Planned H plan incident c')
    (hroute : c.route = c'.route) :
    (c.providerId, c.idempotencyKey) = (c'.providerId, c'.idempotencyKey) := by
  obtain ⟨request, hrequest, hprovider, hkey, -⟩ := h.request
  obtain ⟨request', hrequest', hprovider', hkey', -⟩ := h'.request
  rw [hroute, hrequest'] at hrequest
  rw [hprovider, hkey, hprovider', hkey', Except.ok.inj hrequest]

/-- The rows of an incident as supervisors of the plan have built them by an instant. -/
structure PlanHistory (H : AlertHashes) (plan : RoutePlan) (incidentId : Str) (now : Instant)
    (rows : History) : Prop where
  identity : rows.incident.incidentId H.canonicalId = incidentId
  valid : ValidHistory H rows.incident rows.attempts rows.results
  planned : ∀ attempt ∈ rows.attempts, Planned H plan rows.incident attempt.val.commandFields
  order : rows.attempts.Pairwise fun a b => a.val.route = .primary ∧ b.val.route = .escalation
  recorded : ∀ attempt ∈ rows.attempts, rows.incident.val.recordedAt ≤ attempt.val.requestedAt
  claimed : ∀ attempt ∈ rows.attempts, attempt.val.claimedAt ≤ now
  completed : ∀ result ∈ rows.results, result.val.completedAt ≤ now

variable {now : Instant}

theorem PlanHistory.later (h : PlanHistory H plan incidentId now rows) (hnow : now ≤ now') :
    PlanHistory H plan incidentId now' rows :=
  { h with
    claimed := fun attempt hattempt => (h.claimed attempt hattempt).trans hnow
    completed := fun result hresult => (h.completed result hresult).trans hnow }

/-- No route is before itself, and the primary one is not after the escalation. -/
theorem PlanHistory.length_le (h : PlanHistory H plan incidentId now rows) :
    rows.attempts.length ≤ 2 := by
  match hrows : rows.attempts, h.order with
  | [], _ => simp
  | [_], _ => simp
  | [_, _], _ => simp
  | _ :: b :: c :: _, horder =>
    obtain ⟨-, hrest⟩ := List.pairwise_cons.1 horder
    obtain ⟨hb, -⟩ := List.pairwise_cons.1 hrest
    obtain ⟨hfirst, -⟩ := List.pairwise_cons.1 horder
    have hsecond := (hfirst b List.mem_cons_self).2
    rw [(hb c List.mem_cons_self).1] at hsecond
    cases hsecond

/-- The new attempt comes after a primary one, and is the escalation. -/
theorem PlanHistory.order_new (h : PlanHistory H plan incidentId now rows)
    (hplanned : Planned H plan rows.incident command.val)
    (hnew : NewAttempt H rows command claimedAt attempt) :
    ∀ a ∈ rows.attempts, a.val.route = .primary ∧ attempt.val.route = .escalation := by
  have hroute : attempt.val.route = command.val.route := congrArg (·.route) hnew.requested
  -- the attempt of a route is the only one with its delivery key
  have hother : ∀ a ∈ rows.attempts, a.val.route ≠ command.val.route := by
    intro a ha hsame
    exact hnew.keyed a ha ((h.planned a ha).key_eq hplanned hsame)
  have hlast : ∀ last ∈ rows.attempts.getLast?, last.val.route = .primary := by
    intro last hlast
    have hmem := List.mem_of_getLast? hlast
    rcases (h.planned last hmem).window with ⟨hprimary, -⟩ | ⟨hescalation, hdeadline⟩
    · exact hprimary
    · -- a primary request after the escalation would be older than it
      rcases hplanned.window with ⟨-, hbefore⟩ | ⟨hagain, -⟩
      · have hlater := hnew.later last hlast
        have hdeadline' : rows.incident.val.primaryDeadline ≤ last.val.requestedAt := hdeadline
        linarith
      · exact absurd (hescalation.trans hagain.symm) (hother last hmem)
  intro a ha
  have hprimary : a.val.route = .primary := by
    obtain ⟨done, last, hrows⟩ := List.eq_nil_or_concat'  rows.attempts |>.resolve_left
      (List.ne_nil_of_mem ha)
    have hlastPrimary := hlast last (by simp [hrows])
    have horder := h.order
    rw [hrows] at ha horder
    rcases mem_snoc.1 ha with hdone | rfl
    · exact ((List.pairwise_append.1 horder).2.2 a hdone last (by simp)).1
    · exact hlastPrimary
  refine ⟨hprimary, ?_⟩
  cases hcases : attempt.val.route with
  | escalation => rfl
  | primary => exact absurd (hprimary.trans (hcases.symm.trans hroute)) (hother a ha)

/-- A planned new attempt keeps the history that of the plan. -/
theorem PlanHistory.claim (h : PlanHistory H plan incidentId now rows)
    (hplanned : Planned H plan rows.incident command.val) (hnow : now ≤ claimedAt)
    (hnew : NewAttempt H rows command claimedAt attempt) :
    PlanHistory H plan incidentId claimedAt { rows with attempts := rows.attempts ++
      [attempt] } := by
  have hlater := h.later hnow
  have horder : (rows.attempts ++ [attempt]).Pairwise fun a b =>
      a.val.route = .primary ∧ b.val.route = .escalation := by
    refine List.pairwise_append.2 ⟨h.order, List.pairwise_singleton _ _, fun a ha b hb => ?_⟩
    rw [List.mem_singleton.1 hb]
    exact h.order_new hplanned hnew a ha
  refine ⟨h.identity, ⟨?_, ?_, ?_, h.valid.nodup⟩, ?_, horder, ?_, ?_, hlater.completed⟩
  · have hlength := h.length_le
    simp only [List.length_append, List.length_singleton, maxAttempts]
    omega
  · exact validAttempts_snoc.2 ⟨h.valid.chain, hnew.fits⟩
  · exact fun result hresult => (h.valid.fit result hresult).mono (List.subset_append_left _ _)
  · exact forall_mem_snoc.2 ⟨h.planned, hnew.requested ▸ hplanned⟩
  · refine forall_mem_snoc.2 ⟨h.recorded, ?_⟩
    rw [show attempt.val.requestedAt = command.val.requestedAt from
      congrArg (·.requestedAt) hnew.requested]
    exact hnew.recorded
  · exact forall_mem_snoc.2 ⟨hlater.claimed, hnew.claimed.le⟩

/-- A valid result keeps the history that of the plan. -/
theorem PlanHistory.record (h : PlanHistory H plan incidentId now rows) (hnow : now ≤ observedAt)
    (hvalid : ValidHistory H rows.incident rows.attempts (rows.results ++ [result]))
    (hcompleted : result.val.completedAt ≤ observedAt) :
    PlanHistory H plan incidentId observedAt { rows with results := rows.results ++ [result] } := by
  have hlater := h.later hnow
  refine ⟨h.identity, hvalid, h.planned, h.order, h.recorded, hlater.claimed, ?_⟩
  exact forall_mem_snoc.2 ⟨hlater.completed, hcompleted⟩

/-! ## The discipline of the operations -/

/-- Every incident of the store has a history of the plan. -/
def PlanStore (H : AlertHashes) (plan : RoutePlan) (w : World) : Prop :=
  ∀ incidentId rows, w.store.get? incidentId = some rows →
    PlanHistory H plan incidentId w.now rows

/-- Supervisors only claim what the plan prescribes for an incident of the store. -/
def Allowed (H : AlertHashes) (plan : RoutePlan) (w : World) : Operation F → Prop
  | .claimDeliveryAttempt command => ∃ rows, w.store.get? command.val.incidentId = some rows ∧
      Planned H plan rows.incident command.val
  | _ => True

/-- Time passes and rows are added. -/
structure World.Grows (w w' : World) : Prop where
  now : w.now ≤ w'.now
  rows : ∀ incidentId rows, w.store.get? incidentId = some rows →
    ∃ rows', w'.store.get? incidentId = some rows' ∧ rows'.incident = rows.incident ∧
      rows.attempts <+: rows'.attempts ∧ rows.results <+: rows'.results

theorem World.Grows.refl (w : World) : w.Grows w :=
  ⟨le_rfl, fun _ rows hrows => ⟨rows, hrows, rfl, List.prefix_rfl, List.prefix_rfl⟩⟩

variable {w w' : World}

theorem World.Grows.trans (h : w.Grows w') (h' : w'.Grows w'') : w.Grows w'' := by
  refine ⟨h.now.trans h'.now, fun incidentId rows hrows => ?_⟩
  obtain ⟨rows', hrows', hincident, hattempts, hresults⟩ := h.rows incidentId rows hrows
  obtain ⟨rows'', hrows'', hincident', hattempts', hresults'⟩ := h'.rows incidentId rows' hrows'
  exact ⟨rows'', hrows'', hincident'.trans hincident, hattempts.trans hattempts',
    hresults.trans hresults'⟩

/-- A world whose clock alone has moved. -/
theorem World.grows_now (hnow : w.now ≤ w'.now) (hstore : w'.store = w.store) : w.Grows w' :=
  ⟨hnow, fun _ rows hrows => ⟨rows, hstore ▸ hrows, rfl, List.prefix_rfl, List.prefix_rfl⟩⟩

theorem PlanStore.later (h : PlanStore H plan w) (hnow : w.now ≤ w'.now)
    (hstore : w'.store = w.store) : PlanStore H plan w' := by
  intro incidentId rows hrows
  exact (h incidentId rows (hstore ▸ hrows)).later hnow

/-- A world where the rows of one incident have grown. -/
theorem PlanStore.set (h : PlanStore H plan w) (hrows : w.store.get? incidentId = some rows)
    (hnow : w.now ≤ w'.now) (hstore : w'.store = w.store.set incidentId rows')
    (hplan : PlanHistory H plan incidentId w'.now rows')
    (hincident : rows'.incident = rows.incident) (hattempts : rows.attempts <+: rows'.attempts)
    (hresults : rows.results <+: rows'.results) : PlanStore H plan w' ∧ w.Grows w' := by
  refine ⟨fun other otherRows hother => ?_, hnow, fun other otherRows hother => ?_⟩
  · rw [hstore, Dict.get?_set] at hother
    split at hother
    · next hsame =>
      rw [hsame, ← Option.some.inj hother]
      exact hplan
    · exact (h other otherRows hother).later hnow
  · rw [hstore, Dict.get?_set]
    split
    · next hsame =>
      rw [hsame, hrows] at hother
      rw [← Option.some.inj hother]
      exact ⟨rows', rfl, hincident, hattempts, hresults⟩
    · exact ⟨otherRows, hother, rfl, List.prefix_rfl, List.prefix_rfl⟩

/-- Every allowed operation keeps all stored histories those of the plan. -/
theorem planStore_keeps {op : Operation F} {answer : op.Answer} (h : PlanStore H plan w)
    (hallowed : Allowed H plan w op) (hperform : perform H F w op answer w') :
    PlanStore H plan w' ∧ w.Grows w' := by
  have hsame : w' = w → PlanStore H plan w' ∧ w.Grows w' := by
    rintro rfl
    exact ⟨h, .refl _⟩
  cases op with
  | readUtc =>
    obtain ⟨hnow, rfl⟩ := hperform
    exact ⟨h.later hnow rfl, World.grows_now hnow rfl⟩
  | readMonotonic => exact hsame hperform
  | deliver _ _ => exact hsame hperform
  | claimDeliveryAttempt command =>
    obtain ⟨hnow, hcommits⟩ := hperform
    unfold commits at hcommits
    split at hcommits
    · next attempt store hclaim =>
      have hcases := claims_of_ok hclaim
      obtain ⟨-, hstore⟩ := hcommits
      rw [← hstore] at hcases
      generalize hafter : w'.store = after at hcases
      cases hcases with
      | existing _ _ _ => exact ⟨h.later hnow hafter, World.grows_now hnow hafter⟩
      | @created rows attempt hrows _ hnew =>
        obtain ⟨rows', hrows', hplanned⟩ := hallowed
        rw [hrows] at hrows'
        rw [← Option.some.inj hrows'] at hplanned
        exact h.set hrows hnow hafter ((h _ rows hrows).claim hplanned hnow hnew) rfl
          (List.prefix_append _ _) List.prefix_rfl
    · exact ⟨h.later hnow hcommits.2, World.grows_now hnow hcommits.2⟩
  | recordDeliveryResult result =>
    obtain ⟨hnow, hcommits⟩ := hperform
    unfold commits at hcommits
    split at hcommits
    · next recorded store hrecord =>
      have hcases := records_of_ok hrecord
      obtain ⟨-, hstore⟩ := hcommits
      rw [← hstore] at hcases
      generalize hafter : w'.store = after at hcases
      cases hcases with
      | existing => exact ⟨h.later hnow hafter, World.grows_now hnow hafter⟩
      | @recorded rows hrows hvalid hcompleted =>
        exact h.set hrows hnow hafter ((h _ rows hrows).record hnow hvalid hcompleted) rfl
          List.prefix_rfl (List.prefix_append _ _)
    · exact ⟨h.later hnow hcommits.2, World.grows_now hnow hcommits.2⟩
  | _ => exact hsame hperform.2

end AutoQuantTrader.CriticalAlert
