import AutoQuantTrader.BatchRetry

/-!
# Consumption in time

An authorization is consumed at most once, and only while every time-based rule of its decision
holds: the expiry of a decision is the earliest of the deadlines that the rules set.
-/

namespace AutoQuantTrader

open Result Machine

variable {H : BatchHashes} {limits : BatchRiskLimits} {a : BatchRiskAccount H}
  {event : BatchRiskEvent H} {events : List (BatchRiskEvent H)}

/-- The authorization a call has consumed. -/
def BatchRiskEvent.consumed? (event : BatchRiskEvent H) : Option Str :=
  match event.call, event.answer with
  | .consume decisionId _ _, .ok _ => some decisionId
  | _, _ => none

/-- The event published a decision with the authorization. -/
structure Issues (limits : BatchRiskLimits) (event : BatchRiskEvent H) (batch : OrderIntentBatch)
    (evaluatedAt : Instant) (decision : BatchRiskDecision H.canonicalId)
    (authorization : BatchRiskAuthorization H.canonicalId) : Prop where
  call : ∃ target, event.call = .authorize batch target evaluatedAt
  answer : event.answer = .ok (.decided decision)
  approval : ∃ activeCapacity,
    Approval H batch event.snapshot limits activeCapacity evaluatedAt decision
  child : authorization ∈ decision.val.authorizations

/-- Every authorization was issued by an event of the run, and those consumed are marked. -/
structure ConsumptionHistory (limits : BatchRiskLimits) (events : List (BatchRiskEvent H))
    (a : BatchRiskAccount H) : Prop where
  issued : ∀ id authorization, a.store.authorizations.get? id = some authorization →
    authorization.val.decisionId = id ∧ ∃ event ∈ events, ∃ batch evaluatedAt decision,
      Issues limits event batch evaluatedAt decision authorization
  once : (events.filterMap BatchRiskEvent.consumed?).Nodup
  marked : ∀ id ∈ events.filterMap BatchRiskEvent.consumed?, id ∈ a.store.consumed

theorem ConsumptionHistory.initial (snapshot : VersionedBatchRiskSnapshot H) :
    ConsumptionHistory limits [] (.initial H snapshot) := by
  refine ⟨fun id authorization hget => ?_, List.nodup_nil, by simp⟩
  simp [BatchRiskAccount.initial, BatchRiskStore.empty] at hget

/-- An event that consumes nothing. -/
theorem ConsumptionHistory.append (h : ConsumptionHistory limits events a)
    (hnone : event.consumed? = none) (hconsumed : a'.store.consumed = a.store.consumed)
    (hissued : ∀ id authorization, a'.store.authorizations.get? id = some authorization →
      a.store.authorizations.get? id = some authorization ∨
        authorization.val.decisionId = id ∧ ∃ batch evaluatedAt decision,
          Issues limits event batch evaluatedAt decision authorization) :
    ConsumptionHistory limits (events ++ [event]) a' := by
  have hsame : (events ++ [event]).filterMap BatchRiskEvent.consumed? =
      events.filterMap BatchRiskEvent.consumed? := by
    simp [List.filterMap_append, hnone]
  refine ⟨fun id authorization hget => ?_, hsame ▸ h.once, hsame ▸ hconsumed ▸ h.marked⟩
  rcases hissued id authorization hget with hold | ⟨hid, hnew⟩
  · obtain ⟨hid, e, he, hissues⟩ := h.issued id authorization hold
    exact ⟨hid, e, List.mem_append_left _ he, hissues⟩
  · exact ⟨hid, event, by simp, hnew⟩

/-- The event that publishes a decision issues its authorizations. -/
theorem issues_of_publishes (h : Publishes limits a batch target t decision)
    (hsnapshot : event.snapshot = a.snapshot) (hcall : event.call = .authorize batch target t)
    (hanswer : event.answer = .ok (.decided decision))
    (hchild : authorization ∈ decision.val.authorizations) :
    Issues limits event batch t decision authorization := by
  obtain ⟨activeCapacity, -, hevaluated⟩ := h.evaluated
  obtain ⟨-, ⟨-, hnone⟩ | happroval⟩ := evaluateBatchRiskDecision_cases hevaluated
  · simp [hnone] at hchild
  · exact ⟨⟨target, hcall⟩, hanswer, ⟨activeCapacity, hsnapshot ▸ happroval⟩, hchild⟩

/-- Every step extends the consumption history by its event. -/
theorem ConsumptionHistory.step (h : ConsumptionHistory limits events a)
    (hstep : BatchRiskStep limits a event a') : ConsumptionHistory limits
    (events ++ [event]) a' := by
  have hchange := hstep.change
  have hsnapshot := hstep.1
  generalize hcall : event.call = call at hchange
  generalize hanswer : event.answer = answer at hchange
  cases hchange with
  | raised => exact h.append (by simp [BatchRiskEvent.consumed?, hanswer]) rfl fun _ _ => .inl
  | moved => exact h.append (by simp [BatchRiskEvent.consumed?, hcall]) rfl fun _ _ => .inl
  | @consumed _ decisionId _ _ hconsumes =>
    have hnew : (events ++ [event]).filterMap BatchRiskEvent.consumed? =
        events.filterMap BatchRiskEvent.consumed? ++ [decisionId] := by
      simp [List.filterMap_append, BatchRiskEvent.consumed?, hcall, hanswer]
    refine ⟨fun id authorization hget => ?_, ?_, fun id hid => ?_⟩
    · obtain ⟨hid, e, he, hissues⟩ := h.issued id authorization hget
      exact ⟨hid, e, List.mem_append_left _ he, hissues⟩
    · rw [hnew, ← List.concat_eq_append, List.nodup_concat]
      exact ⟨fun hmem => hconsumes.unused (h.marked _ hmem), h.once⟩
    · rw [hnew, List.mem_append, List.mem_singleton] at hid
      rw [Finset.mem_insert]
      exact hid.symm.imp_right (h.marked id)
  | @authorized decision batch target t _ hauthorizes =>
    have hnone : event.consumed? = none := by simp [BatchRiskEvent.consumed?, hcall]
    cases hauthorizes with
    | retried => exact h.append hnone rfl fun _ _ => .inl
    | published _ hpublishes =>
      refine h.append hnone rfl fun id authorization hget => ?_
      rcases Dict.mem_of_get?_foldl_set hget with ⟨hchild, hid⟩ | hold
      · exact .inr ⟨hid, batch, t, decision,
          issues_of_publishes hpublishes hsnapshot hcall hanswer hchild⟩
      · exact .inl hold

/-- The consumption of an authorization is in time: the event that issued it came before, and every
time-based rule of that decision holds. -/
structure ConsumedInTime (limits : BatchRiskLimits) (before : List (BatchRiskEvent H))
    (event : BatchRiskEvent H) (decisionId : Str) (intent : OrderIntent) (t : Instant) : Prop where
  issued : ∃ issue ∈ before, ∃ batch evaluatedAt decision authorization,
    Issues limits issue batch evaluatedAt decision authorization ∧
      authorization.val.decisionId = decisionId ∧ evaluatedAt ≤ t ∧
      RulesHoldAt H batch issue.snapshot limits t
  running : event.snapshot.val.operationalState = .running
  trading : intent.val.instrumentId ∉ event.snapshot.val.haltedInstruments

/-- A successful consumption came within its authorization's lifetime. -/
theorem ConsumptionHistory.inTime (h : ConsumptionHistory limits events a)
    (hstep : BatchRiskStep limits a event a') (hcall : event.call = .consume decisionId intent t)
    (hanswer : event.answer = .ok answer) :
    ConsumedInTime limits events event decisionId intent t := by
  have hchange := hstep.change
  rw [hcall, hanswer] at hchange
  cases hchange with
  | consumed hconsumes =>
    obtain ⟨hid, issue, hissue, batch, evaluatedAt, decision, hissues⟩ :=
      h.issued _ _ hconsumes.known
    obtain ⟨activeCapacity, happroval⟩ := hissues.approval
    obtain ⟨hevaluated, hexpires, -⟩ := happroval.bound _ hissues.child
    have hle : evaluatedAt ≤ t := hevaluated ▸ hconsumes.evaluated
    refine ⟨⟨issue, hissue, batch, evaluatedAt, decision, _, hissues, hid, hle,
      happroval.lifetime t hle (hexpires ▸ hconsumes.unexpired)⟩, ?_, ?_⟩
    · exact hstep.1 ▸ hconsumes.running
    · exact hstep.1 ▸ hconsumes.trading

/-- **Authorizations are consumed at most once, and in time**, in every run of the repository. -/
theorem authorizations_consumed_in_time {snapshot₀ : VersionedBatchRiskSnapshot H}
    (h : Trace (BatchRiskStep limits) (.initial H snapshot₀) events a) :
    (events.filterMap BatchRiskEvent.consumed?).Nodup ∧
      ∀ before event after decisionId intent t answer, events = before ++ event :: after →
        event.call = .consume decisionId intent t → event.answer = .ok answer →
        ConsumedInTime limits before event decisionId intent t := by
  have history {events : List (BatchRiskEvent H)} {a : BatchRiskAccount H}
      (h : Trace (BatchRiskStep limits) (.initial H snapshot₀) events a) :
      ConsumptionHistory limits events a :=
    h.invariant_done (ConsumptionHistory limits) (.initial snapshot₀)
      fun _ _ _ _ _ hs hstep => hs.step hstep
  refine ⟨(history h).once, ?_⟩
  rintro before event after decisionId intent t answer rfl hcall hanswer
  obtain ⟨b, b', hbefore, hstep, -⟩ := h.exists_step
  exact (history hbefore).inTime hstep hcall hanswer

/-- The sample approval, its only authorization and the intent that is consumed with it. -/
def sampleConsumption :
    Py (SampleApproval × Str × OrderIntent × Instant × BatchRiskAccount .plain) := do
  let x ← sampleApproval
  let authorization ← getOrThrow x.decision.val.authorizations.head? .indexError
  let intent ← getOrThrow x.batch.val.intents.head? .indexError
  let run := BatchRepository.consume sampleLimits authorization.val.decisionId intent 150 x.account
  let consumedAt ← run.1
  return (x, authorization.val.decisionId, intent, consumedAt, run.2)

/-- The authorization of the sample is consumed, and that is in time. -/
theorem sample_consumed_in_time : ∃ (snapshot₀ : VersionedBatchRiskSnapshot .plain)
    (issue event : BatchRiskEvent .plain) (a : BatchRiskAccount .plain) (decisionId : Str)
    (intent : OrderIntent),
    Trace (BatchRiskStep sampleLimits) (.initial .plain snapshot₀) [issue, event] a ∧
      event.consumed? = some decisionId ∧
      ConsumedInTime sampleLimits [issue] event decisionId intent 150 := by
  have h : (fun x => x.2.2.2.1) <$> sampleConsumption = .ok 150 := by decide +kernel
  simp only [sampleConsumption, sampleApproval, map_eq_ok, Result.bind_eq_ok, pure_eq_ok] at h
  obtain ⟨_, ⟨_, ⟨snapshot, -, batch, -, decision, hdecision, rfl⟩, authorization, -, intent, -,
    consumedAt, hconsumed, rfl⟩, -⟩ := h
  have htrace : Trace (BatchRiskStep sampleLimits) (.initial .plain snapshot) _ _ :=
    .snoc (.snoc .nil (.of_authorize (Prod.ext hdecision rfl)))
      (.of_consume (Prod.ext hconsumed rfl))
  exact ⟨snapshot, _, _, _, _, intent, htrace, rfl,
    (authorizations_consumed_in_time htrace).2 [_] _ [] _ _ _ _ rfl rfl rfl⟩

end AutoQuantTrader
