import AutoQuantTrader.BatchApproval
import AutoQuantTrader.BatchRepository

/-!
# What a call of the repository does

A call that raises leaves the account as it was.  `authorize` returns a decision it published
before, or publishes one; `consume` records one authorization as used.
-/

namespace AutoQuantTrader

open Result Machine

variable {H : BatchHashes} {limits : BatchRiskLimits} {a a' : BatchRiskAccount H}
  {batch : OrderIntentBatch} {target : TargetPortfolio} {intent : OrderIntent} {t : Instant}
  {decisionId : Str}

/-- The snapshot belongs to the epoch of the store, if that has one. -/
structure InEpoch (s : BatchRiskStore H) (snapshot : VersionedBatchRiskSnapshot H) : Prop where
  matches_ : ∀ epoch ∈ s.accountSnapshots.get? snapshot.val.accountId,
    epoch = (snapshot.val.version, H.riskSnapshot snapshot.val)
  only : s.accountSnapshots.get? snapshot.val.accountId = none → s.accountSnapshots.entries = []

/-- The decision is evaluated against all that is held, and contradicts nothing published. -/
structure Publishes (limits : BatchRiskLimits) (a : BatchRiskAccount H) (batch : OrderIntentBatch)
    (target : TargetPortfolio) (t : Instant) (decision : BatchRiskDecision H.canonicalId) :
    Prop where
  unknown : a.store.batchDecisionIds.get? batch.val.intentBatchId = none
  epoch : InEpoch a.store a.snapshot
  evaluated : ∃ activeCapacity, initialActiveCapacityUniverse H a.snapshot.val.accountId
      (BatchRepository.activeReservations a.store) = .ok activeCapacity ∧
    evaluateBatchRiskDecision H batch target a.snapshot limits activeCapacity t = .ok decision
  decisions : ∀ existing ∈ a.store.decisions.get? decision.val.decisionId, existing = decision
  reservations : ∀ r ∈ decision.val.reservation,
    ∀ existing ∈ a.store.reservations.get? r.val.reservationId, existing = r
  authorizations : ∀ authorization ∈ decision.val.authorizations,
    ∀ existing ∈ a.store.authorizations.get? authorization.val.decisionId, existing = authorization

/-- The batch was derived from the target. -/
def BindsTarget (H : BatchHashes) (batch : OrderIntentBatch) (target : TargetPortfolio) : Prop :=
  batch.val.targetId = target.val.targetId ∧ batch.val.targetSha256 = H.targetPortfolio target

/-- What `authorize` can do. -/
inductive Authorizes (limits : BatchRiskLimits) (a : BatchRiskAccount H) (batch : OrderIntentBatch)
    (target : TargetPortfolio) (t : Instant) (decision : BatchRiskDecision H.canonicalId) :
    BatchRiskAccount H → Prop where
  | retried {decisionId : Str} (hbinds : BindsTarget H batch target)
      (hepoch : InEpoch a.store a.snapshot)
      (hid : a.store.batchDecisionIds.get? batch.val.intentBatchId = some decisionId)
      (hpayload : a.store.batchPayloads.get? batch.val.intentBatchId = some (H.intentBatch batch))
      (hprior : a.store.decisions.get? decisionId = some decision)
      (hdecides : Decides H a.snapshot decision) : Authorizes limits a batch target t decision a
  | published (hbinds : BindsTarget H batch target)
      (h : Publishes limits a batch target t decision) : Authorizes limits a batch target t decision
        { a with store := BatchRepository.publish batch a.snapshot decision a.store }

variable {snapshot : VersionedBatchRiskSnapshot H}

namespace BatchRepository

variable {α : Type} {Q : α → BatchRiskAccount H → Prop} {E : PyError → BatchRiskAccount H → Prop}

theorem wp_validateAccountEpoch {Q : Unit → BatchRiskAccount H → Prop}
    (hok : InEpoch a.store snapshot → Q () a) (hbad : ∀ e, E e a) :
    wp (validateAccountEpoch snapshot) Q E a := by
  unfold validateAccountEpoch
  rw [wp_bind, wp_read]
  split
  · next hnone =>
    refine wp_refuse (fun hempty => hok ⟨fun epoch hepoch => ?_, fun _ => not_not.1 hempty⟩)
      (hbad _)
    cases hnone.symm.trans hepoch
  · next version digest hsome =>
    rw [wp_bind]
    refine wp_refuse (fun hversion => wp_refuse (fun hdigest => hok ⟨fun epoch hepoch => ?_,
      fun hnone => ?_⟩) (hbad _)) (hbad _)
    · rw [← Option.some.inj (hsome.symm.trans hepoch), not_not.1 hversion, not_not.1 hdigest]
    · cases hsome.symm.trans hnone

theorem wp_checkIntentRecords {Q : Unit → BatchRiskAccount H → Prop} (hok : Q () a)
    (hbad : ∀ e, E e a) : wp (each intents (checkIntentRecord batch)) Q E a := by
  refine wp_mono (fun _ s hs => ?_) (fun _ _ he => he) (wp_each (I := fun _ s => s = a) ?_ rfl)
  · rw [hs]
    exact hok
  · rintro intent rest s rfl
    unfold checkIntentRecord
    rw [wp_bind, wp_read]
    split
    · rfl
    · rw [wp_bind]
      exact wp_refuse (fun _ => hbad _) (hbad _)

theorem wp_priorDecision {Q : BatchRiskDecision H.canonicalId → BatchRiskAccount H → Prop}
    (hok : ∀ prior, a.store.batchPayloads.get? batch.val.intentBatchId =
      some (H.intentBatch batch) → a.store.decisions.get? decisionId = some prior →
      Decides H snapshot prior → Q prior a)
    (hbad : ∀ e, E e a) : wp (priorDecision batch snapshot decisionId) Q E a := by
  unfold priorDecision
  rw [wp_bind, wp_read, wp_bind]
  refine wp_lift (fun payload hpayload => ?_) (fun e _ => hbad e)
  rw [wp_bind]
  refine wp_refuse (fun hsame => ?_) (hbad _)
  rw [wp_bind]
  refine wp_lift (fun prior hprior => ?_) (fun e _ => hbad e)
  rw [wp_bind]
  refine wp_refuse (fun hdecides => ?_) (hbad _)
  rw [wp_pure]
  simp only [not_or, not_not] at hdecides hsame
  rw [getOrThrow_eq_ok] at hpayload hprior
  exact hok prior (hsame ▸ hpayload) hprior ⟨hdecides.1, hdecides.2.1, hdecides.2.2⟩

theorem wp_checkImmutable {decision : BatchRiskDecision H.canonicalId}
    {Q : Unit → BatchRiskAccount H → Prop}
    (hok : (∀ existing ∈ a.store.decisions.get? decision.val.decisionId, existing = decision) →
      (∀ r ∈ decision.val.reservation,
        ∀ existing ∈ a.store.reservations.get? r.val.reservationId, existing = r) →
      (∀ authorization ∈ decision.val.authorizations,
        ∀ existing ∈ a.store.authorizations.get? authorization.val.decisionId,
          existing = authorization) → Q () a) (hbad : ∀ e, E e a) :
    wp (checkImmutable decision) Q E a := by
  unfold checkImmutable
  rw [wp_bind, wp_read, wp_bind]
  refine wp_refuse (fun hdecisions => ?_) (hbad _)
  rw [wp_bind]
  refine wp_refuse (fun hreservations => ?_) (hbad _)
  refine wp_refuse (fun hauthorizations => ?_) (hbad _)
  push Not at hdecisions hreservations hauthorizations
  exact hok hdecisions hreservations hauthorizations

/-- **`authorize`** retries or publishes; if it raises, nothing has changed. -/
theorem authorize_spec : wp (authorize limits batch target t)
    (fun decision a' => Authorizes limits a batch target t decision a') (fun _ a' => a' = a) a := by
  unfold authorize
  rw [wp_bind]
  refine wp_refuse (fun hbinds => ?_) rfl
  simp only [not_or, not_not] at hbinds
  rw [wp_bind, wp_read, wp_bind]
  refine wp_validateAccountEpoch (fun hepoch => ?_) (fun _ => rfl)
  split
  · next decisionId hid =>
    exact wp_priorDecision (fun prior hpayload hprior hdecides =>
      .retried hbinds hepoch hid hpayload hprior hdecides) (fun _ => rfl)
  · next hid =>
    unfold newDecision
    rw [wp_bind]
    refine wp_checkIntentRecords ?_ (fun _ => rfl)
    rw [wp_bind, wp_read, wp_bind]
    refine wp_lift (fun activeCapacity hactive => ?_) (fun _ _ => rfl)
    rw [wp_bind]
    refine wp_lift (fun decision hdecision => ?_) (fun _ _ => rfl)
    rw [wp_bind]
    refine wp_checkImmutable (fun hdecisions hreservations hauthorizations => ?_) (fun _ => rfl)
    rw [wp_bind, wp_modify, wp_pure]
    exact .published hbinds ⟨hid, hepoch, ⟨activeCapacity, hactive, hdecision⟩,
      hdecisions, hreservations, hauthorizations⟩

end BatchRepository

/-- What it takes to consume an authorization. -/
structure Consumes (a : BatchRiskAccount H) (decisionId : Str) (intent : OrderIntent) (t : Instant)
    (authorization : BatchRiskAuthorization H.canonicalId) : Prop where
  known : a.store.authorizations.get? decisionId = some authorization
  evaluated : authorization.val.evaluatedAt ≤ t
  unexpired : t < authorization.val.expiresAt
  running : a.snapshot.val.operationalState = .running
  trading : intent.val.instrumentId ∉ a.snapshot.val.haltedInstruments
  unused : decisionId ∉ a.store.consumed

namespace BatchRepository

theorem wp_checkParent {E : PyError → BatchRiskAccount H → Prop}
    {Q : Unit → BatchRiskAccount H → Prop} (hok : Q () a) (hbad : ∀ e, E e a) :
    wp (checkParent authorization parent) Q E a := by
  cases parent with
  | none => exact hbad _
  | some parent => exact wp_refuse (fun _ => hok) (hbad _)

/-- **`consume`** records the authorization as used; if it raises, nothing has changed. -/
theorem consume_spec : wp (consume limits decisionId intent t)
    (fun t' a' => t' = t ∧ (∃ authorization, Consumes a decisionId intent t authorization) ∧
      a' = { a with store.consumed := insert decisionId a.store.consumed })
    (fun _ a' => a' = a) a := by
  unfold consume
  rw [wp_bind, wp_read, wp_bind]
  refine wp_lift (fun authorization hknown => ?_) (fun _ _ => rfl)
  rw [wp_bind]
  refine wp_lift (fun _ hvalid => ?_) (fun _ _ => rfl)
  rw [wp_bind]
  refine wp_lift (fun expected hexpected => ?_) (fun _ _ => rfl)
  rw [wp_bind]
  refine wp_refuse (fun _ => ?_) rfl
  rw [wp_bind]
  refine wp_refuse (fun _ => ?_) rfl
  rw [wp_bind]
  refine wp_checkParent ?_ (fun _ => rfl)
  rw [wp_bind]
  refine wp_refuse (fun hrunning => ?_) rfl
  rw [wp_bind]
  refine wp_refuse (fun htrading => ?_) rfl
  rw [wp_bind]
  refine wp_refuse (fun _ => ?_) rfl
  rw [wp_bind]
  refine wp_refuse (fun _ => ?_) rfl
  rw [wp_bind]
  refine wp_refuse (fun _ => ?_) rfl
  rw [wp_bind]
  refine wp_refuse (fun _ => ?_) rfl
  rw [wp_bind]
  refine wp_refuse (fun hunused => ?_) rfl
  rw [wp_bind, wp_modify, wp_pure]
  simp only [validateAuthorizationConsumption, Py.eq_ok, not_or, not_lt, not_le]
    at hvalid
  obtain ⟨_, -, _, -, _, ⟨-, hevaluated⟩, hunexpired, -⟩ := hvalid
  exact ⟨rfl, ⟨authorization, getOrThrow_eq_ok.1 hknown, hevaluated, hunexpired,
    not_not.1 hrunning, htrading, hunused⟩, rfl⟩

theorem transitionTo_spec : wp (transitionTo snapshot)
    (fun _ a' => a' = { a with snapshot }) (fun _ a' => a' = a) a := by
  unfold transitionTo
  rw [wp_bind, wp_read, wp_bind]
  exact wp_refuse (fun _ => rfl) rfl

end BatchRepository

/-- **What a call can do**, by its answer. -/
inductive BatchRiskChange (limits : BatchRiskLimits) (a : BatchRiskAccount H) :
    BatchRiskCall H → Except PyError (BatchRiskAnswer H) → BatchRiskAccount H → Prop where
  | raised : BatchRiskChange limits a call (.error error) a
  | authorized {batch : OrderIntentBatch} {target : TargetPortfolio} {t : Instant}
      {a' : BatchRiskAccount H} (h : Authorizes limits a batch target t decision a') :
      BatchRiskChange limits a (.authorize batch target t) (.ok (.decided decision)) a'
  | consumed {decisionId : Str} {intent : OrderIntent} {t : Instant}
      (h : Consumes a decisionId intent t authorization) :
      BatchRiskChange limits a (.consume decisionId intent t) (.ok (.consumedAt t))
        { a with store.consumed := insert decisionId a.store.consumed }
  | moved {snapshot : VersionedBatchRiskSnapshot H} :
      BatchRiskChange limits a (.transitionTo snapshot) (.ok .moved) { a with snapshot }

/-- Whatever a call answers, the account changed as its rule allows. -/
theorem BatchRiskCall.run_spec (limits : BatchRiskLimits) (a : BatchRiskAccount H)
    (call : BatchRiskCall H) : wp (call.run limits)
    (fun answer a' => BatchRiskChange limits a call (.ok answer) a')
    (fun error a' => BatchRiskChange limits a call (.error error) a') a := by
  have hraised (error : PyError) (a' : BatchRiskAccount H) (h : a' = a) :
      BatchRiskChange limits a call (.error error) a' := h ▸ .raised
  cases call with
  | authorize batch target t =>
    rw [BatchRiskCall.run, wp_bind]
    exact wp_mono (fun decision a' h => .authorized h) hraised BatchRepository.authorize_spec
  | consume decisionId intent t =>
    rw [BatchRiskCall.run, wp_bind]
    refine wp_mono (fun t' a' h => ?_) hraised BatchRepository.consume_spec
    obtain ⟨rfl, ⟨authorization, hconsumes⟩, rfl⟩ := h
    exact .consumed hconsumes
  | transitionTo snapshot =>
    rw [BatchRiskCall.run, wp_bind]
    refine wp_mono (fun _ a' h => ?_) hraised BatchRepository.transitionTo_spec
    rw [h]
    exact .moved

/-- Every step of the account is a change by its call. -/
theorem BatchRiskStep.change (h : BatchRiskStep limits a event a') :
    BatchRiskChange limits a event.call event.answer a' := by
  have hrun := event.call.run_spec limits a
  unfold wp at hrun
  rw [h.2] at hrun
  cases hanswer : event.answer with
  | ok answer => simpa [hanswer] using hrun
  | error error => simpa [hanswer] using hrun

end AutoQuantTrader
