import AutoQuantTrader.BatchCapacity

/-!
# Retries and failures of the repository

A call that raises has changed nothing.  A decision that was published stays published, so an exact
repeat of the request is answered with it as long as the account is in the same epoch.
-/

namespace AutoQuantTrader

open Result Machine

variable {H : BatchHashes} {limits : BatchRiskLimits} {a : BatchRiskAccount H}
  {batch : OrderIntentBatch} {target : TargetPortfolio} {t : Instant}
  {decision : BatchRiskDecision H.canonicalId} {snapshot : VersionedBatchRiskSnapshot H}

/-- The snapshots are of one account and have one version and one digest. -/
structure SameEpoch (s s' : VersionedBatchRiskSnapshot H) : Prop where
  account : s.val.accountId = s'.val.accountId
  version : s.val.version = s'.val.version
  digest : H.riskSnapshot s.val = H.riskSnapshot s'.val

/-- The store has the decision on a batch, and the epoch it was made in. -/
structure Remembers (s : BatchRiskStore H) (batch : OrderIntentBatch)
    (snapshot : VersionedBatchRiskSnapshot H) (decision : BatchRiskDecision H.canonicalId) :
    Prop where
  known : ∃ decisionId, s.batchDecisionIds.get? batch.val.intentBatchId = some decisionId ∧
    s.decisions.get? decisionId = some decision
  payload : s.batchPayloads.get? batch.val.intentBatchId = some (H.intentBatch batch)
  decides : Decides H snapshot decision
  epoch : s.accountSnapshots.get? snapshot.val.accountId =
    some (snapshot.val.version, H.riskSnapshot snapshot.val)

/-- A published decision is remembered for its batch. -/
theorem remembers_publish (h : Publishes limits a batch target t decision) :
    Remembers (BatchRepository.publish batch a.snapshot decision a.store) batch a.snapshot
      decision := by
  obtain ⟨_, -, hevaluated⟩ := h.evaluated
  exact ⟨⟨_, Dict.get?_set_self _ _ _, Dict.get?_set_self _ _ _⟩, Dict.get?_set_self _ _ _,
    (evaluateBatchRiskDecision_cases hevaluated).1, Dict.get?_set_self _ _ _⟩

/-- Publishing another decision keeps every one that was published. -/
theorem Remembers.publish (h : Remembers a.store batch snapshot decision)
    (hpublishes : Publishes limits a batch' target t decision') :
    Remembers (BatchRepository.publish batch' a.snapshot decision' a.store) batch snapshot
      decision := by
  obtain ⟨decisionId, hid, hdecision⟩ := h.known
  have hother : batch.val.intentBatchId ≠ batch'.val.intentBatchId := by
    intro hsame
    rw [hsame, hpublishes.unknown] at hid
    cases hid
  refine ⟨⟨decisionId, ?_, ?_⟩, ?_, h.decides, hpublishes.epoch.get?_set h.epoch⟩
  · exact (Dict.get?_set_of_ne _ hother _).trans hid
  · simp only [BatchRepository.publish, Dict.get?_set]
    split
    · next hsame => rw [hpublishes.decisions decision (hsame ▸ hdecision)]
    · exact hdecision
  · exact (Dict.get?_set_of_ne _ hother _).trans h.payload

/-- No step forgets a decision. -/
theorem Remembers.step (h : Remembers a.store batch snapshot decision)
    (hstep : BatchRiskStep limits a event a') : Remembers a'.store batch snapshot decision := by
  obtain ⟨call, seen, answer⟩ := event
  cases hstep.change with
  | raised => exact h
  | consumed => exact ⟨h.known, h.payload, h.decides, h.epoch⟩
  | moved => exact h
  | authorized hauthorizes =>
    cases hauthorizes with
    | retried => exact h
    | published _ hpublishes => exact h.publish hpublishes

/-- A store with a decision has an epoch. -/
def HasEpoch (s : BatchRiskStore H) : Prop :=
  s.batchDecisionIds.entries ≠ [] → s.accountSnapshots.entries ≠ []

theorem Dict.entries_ne_nil {κ ν : Type} [DecidableEq κ] {d : Dict κ ν} {k : κ} {v : ν}
    (h : d.get? k = some v) : d.entries ≠ [] :=
  List.ne_nil_of_mem (Dict.get?_eq_some.1 h)

/-- No step leaves decisions without an epoch. -/
theorem HasEpoch.step {event : BatchRiskEvent H} (h : HasEpoch a.store)
    (hstep : BatchRiskStep limits a event a') : HasEpoch a'.store := by
  obtain ⟨call, seen, answer⟩ := event
  cases hstep.change with
  | raised => exact h
  | consumed => exact h
  | moved => exact h
  | authorized hauthorizes =>
    cases hauthorizes with
    | retried => exact h
    | published _ hpublishes =>
      exact fun _ => Dict.entries_ne_nil (remembers_publish hpublishes).epoch

theorem Authorizes.snapshot_eq (h : Authorizes limits a batch target t decision a') :
    a'.snapshot = a.snapshot := by
  cases h <;> rfl

/-- An accepted request is remembered. -/
theorem remembers_of_authorizes (h : Authorizes limits a batch target t decision a')
    (hepoch : HasEpoch a.store) : Remembers a'.store batch a.snapshot decision := by
  cases h with
  | @retried decisionId _ hin hid hpayload hprior hdecides =>
    refine ⟨⟨decisionId, hid, hprior⟩, hpayload, hdecides, ?_⟩
    cases hget : a.store.accountSnapshots.get? a.snapshot.val.accountId with
    | none => exact absurd (hin.only hget) (hepoch (Dict.entries_ne_nil hid))
    | some epoch => rw [hin.matches_ epoch hget]
  | published _ hpublishes => exact remembers_publish hpublishes

namespace BatchRepository

theorem validateAccountEpoch_of_matches (h : a.store.accountSnapshots.get? snapshot.val.accountId =
      some (snapshot.val.version, H.riskSnapshot snapshot.val)) :
    validateAccountEpoch snapshot a = (.ok (), a) := by
  unfold validateAccountEpoch
  refine (bind_of_ok rfl).trans ?_
  simp only [h]
  exact (bind_of_ok (refuse_of_not (by simp))).trans (refuse_of_not (by simp))

/-- A remembered decision is the answer to the same request. -/
theorem authorize_of_remembers (h : Remembers a.store batch snapshot decision)
    (hbinds : BindsTarget H batch target) (hsame : SameEpoch a.snapshot snapshot) :
    authorize limits batch target t a = (.ok decision, a) := by
  obtain ⟨decisionId, hid, hdecision⟩ := h.known
  have hbound : ¬ (batch.val.targetId ≠ target.val.targetId ∨
      batch.val.targetSha256 ≠ H.targetPortfolio target) := by
    simpa [BindsTarget] using hbinds
  have hepoch : a.store.accountSnapshots.get? a.snapshot.val.accountId =
      some (a.snapshot.val.version, H.riskSnapshot a.snapshot.val) := by
    rw [hsame.account, hsame.version, hsame.digest, h.epoch]
  have hdecides : ¬ (decision.val.accountId ≠ a.snapshot.val.accountId ∨
      decision.val.snapshotVersion ≠ a.snapshot.val.version ∨
      decision.val.snapshotSha256 ≠ H.riskSnapshot a.snapshot.val) := by
    rw [hsame.account, hsame.version, hsame.digest]
    simp [h.decides.account, h.decides.version, h.decides.digest]
  unfold authorize
  refine (bind_of_ok (refuse_of_not hbound)).trans ((bind_of_ok rfl).trans
    ((bind_of_ok (validateAccountEpoch_of_matches hepoch)).trans ?_))
  simp only [hid]
  unfold priorDecision
  refine (bind_of_ok rfl).trans ?_
  simp only [h.payload, hdecision]
  exact (bind_of_ok rfl).trans ((bind_of_ok (refuse_of_not (by simp))).trans
    ((bind_of_ok rfl).trans ((bind_of_ok (refuse_of_not hdecides)).trans rfl)))

end BatchRepository

/-- **Failed calls change nothing, and retries return the original decision**: any call on any
account, and any request that was accepted in a run, repeated after any other calls in the epoch. -/
theorem repository_exact :
    (∀ (b b' : BatchRiskAccount H) (call : BatchRiskCall H) (error : PyError),
      call.run limits b = (.error error, b') → b' = b) ∧
    ∀ (snapshot₀ : VersionedBatchRiskSnapshot H) (before later : List (BatchRiskEvent H))
      (a a₁ a₂ : BatchRiskAccount H) (batch : OrderIntentBatch) (target : TargetPortfolio)
      (decision : BatchRiskDecision H.canonicalId) (t t' : Instant),
      Trace (BatchRiskStep limits) (.initial H snapshot₀) before a →
      BatchRepository.authorize limits batch target t a = (.ok decision, a₁) →
      Trace (BatchRiskStep limits) a₁ later a₂ → SameEpoch a₂.snapshot a.snapshot →
      BatchRepository.authorize limits batch target t' a₂ = (.ok decision, a₂) := by
  constructor
  · intro b b' call error hfailed
    have hstep : BatchRiskStep limits b ⟨call, b.snapshot, .error error⟩ b' := ⟨rfl, hfailed⟩
    cases hstep.change
    rfl
  · intro snapshot₀ before later a a₁ a₂ batch target decision t t' hrun haccepted hlater hepoch
    have hauthorizes := of_wp_ok BatchRepository.authorize_spec haccepted
    have hbinds : BindsTarget H batch target := by cases hauthorizes <;> assumption
    have hepochs : HasEpoch a.store := hrun.invariant (fun b => HasEpoch b.store)
      (fun h => absurd rfl h) fun _ _ _ hb hstep => hb.step hstep
    have hremembers := hlater.invariant (fun b => Remembers b.store batch a.snapshot decision)
      (remembers_of_authorizes hauthorizes hepochs) fun _ _ _ hb hstep => hb.step hstep
    exact BatchRepository.authorize_of_remembers hremembers hbinds hepoch

/-- The sample request is answered as before after the account has moved to another snapshot and
back. -/
theorem sample_request_retried : ∃ (x : SampleApproval) (poor : VersionedBatchRiskSnapshot .plain),
    BatchRepository.authorize sampleLimits x.batch sampleTargetPortfolio 110
      (.initial .plain x.snapshot) = (.ok x.decision, x.account) ∧
    BatchRepository.transitionTo poor x.account = (.ok (), { x.account with snapshot := poor }) ∧
    BatchRepository.transitionTo x.snapshot { x.account with snapshot := poor } =
      (.ok (), x.account) ∧
    BatchRepository.authorize sampleLimits x.batch sampleTargetPortfolio 900 x.account =
      (.ok x.decision, x.account) := by
  obtain ⟨x, hauthorize, -, -, hid⟩ := sampleApproval_ok
  obtain ⟨poor, hpoorId, -⟩ := samplePoor_ok
  have hauthorizes := of_wp_ok BatchRepository.authorize_spec hauthorize
  have hsnapshot : x.account.snapshot = x.snapshot := hauthorizes.snapshot_eq
  have haway := BatchRepository.transitionTo_of_accountId (hpoorId.trans hid.symm)
  have hback : BatchRepository.transitionTo x.snapshot { x.account with snapshot := poor } =
      (.ok (), x.account) := by
    rw [BatchRepository.transitionTo_of_accountId (hsnapshot ▸ hid.trans hpoorId.symm), ← hsnapshot]
  have hepoch : SameEpoch x.account.snapshot x.snapshot :=
    ⟨by rw [hsnapshot], by rw [hsnapshot], by rw [hsnapshot]⟩
  exact ⟨x, poor, hauthorize, haway, hback, repository_exact.2 _ [] _ _ _ _ _ _ _ 110 900 .nil
    hauthorize (.snoc (.snoc .nil (.of_transitionTo haway)) (.of_transitionTo hback)) hepoch⟩

end AutoQuantTrader
