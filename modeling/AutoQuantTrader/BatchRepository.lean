import AutoQuantTrader.BatchRisk
import AutoQuantTrader.Lib.Machine
import AutoQuantTrader.Lib.Trace

/-!
# The batch risk repository

One account has one store of decisions, under one authority with fixed limits.  `authorize` returns
the decision it gave before for an exact repeat, or evaluates the batch against every open
reservation and publishes the result; `consume` uses an authorization once; `transitionTo` replaces
the capacity snapshot.  The lock makes each call one step, so an interleaving of callers is a
sequence of calls.
-/

namespace AutoQuantTrader

open Result Sorting

variable (H : BatchHashes)

/-- `_InMemoryBatchRiskStore`. -/
structure BatchRiskStore where
  decisions : Dict Str (BatchRiskDecision H.canonicalId)
  (batchDecisionIds batchPayloads : Dict Str Str)
  intentRecords : Dict Str (Str × Str)
  authorizations : Dict Str (BatchRiskAuthorization H.canonicalId)
  reservations : Dict Str (BatchRiskReservation H.canonicalId)
  authorizationSnapshots : Dict Str (Str × Str × Str)
  accountSnapshots : Dict Str (Str × Str)
  consumed : Finset Str

def BatchRiskStore.empty : BatchRiskStore H :=
  ⟨.empty, .empty, .empty, .empty, .empty, .empty, .empty, .empty, ∅⟩

/-- `_InMemoryBatchRiskAccountState`. -/
structure BatchRiskAccount where
  snapshot : VersionedBatchRiskSnapshot H
  store : BatchRiskStore H

/-- An account whose store is new. -/
def BatchRiskAccount.initial (snapshot : VersionedBatchRiskSnapshot H) : BatchRiskAccount H :=
  ⟨snapshot, .empty H⟩

abbrev BatchRiskM := Machine (BatchRiskAccount H) PyError

namespace BatchRepository

variable {H}

/-- The open reservations, by their identity. -/
def activeReservations (s : BatchRiskStore H) : List (BatchRiskReservation H.canonicalId) :=
  (sortOn (·.1) s.reservations.entries).map (·.2)

variable (limits : BatchRiskLimits) (batch : OrderIntentBatch) (target : TargetPortfolio)
  (snapshot : VersionedBatchRiskSnapshot H)

/-- `_validate_account_epoch`. -/
def validateAccountEpoch : BatchRiskM H Unit := do
  let a ← Machine.read
  match a.store.accountSnapshots.get? snapshot.val.accountId with
  | none =>
    refuse (a.store.accountSnapshots.entries ≠ [])
      "process-local batch risk authority changed its account identity"
  | some (version, digest) => do
    refuse (version ≠ snapshot.val.version)
      "process-local risk reservations belong to a different snapshot version"
    refuse (digest ≠ H.riskSnapshot snapshot.val)
      "risk snapshot version changed its immutable semantics"

/-- An intent is new to the repository. -/
def checkIntentRecord (intent : OrderIntent) : BatchRiskM H Unit := do
  let a ← Machine.read
  match a.store.intentRecords.get? intent.val.intentId with
  | none => return ⟨⟩
  | some existing => do
    refuse (existing ≠ (H.intentPayloadHash intent, batch.val.intentBatchId))
      "intent IDs are immutable across batches"
    Machine.raise (.valueError "an existing intent identity cannot be attached to another decision")

/-- Nothing the decision would publish contradicts what was published. -/
def checkImmutable (decision : BatchRiskDecision H.canonicalId) : BatchRiskM H Unit := do
  let a ← Machine.read
  refuse (∃ existing ∈ a.store.decisions.get? decision.val.decisionId, existing ≠ decision)
    "batch risk decision IDs are immutable"
  refuse (∃ r ∈ decision.val.reservation,
      ∃ existing ∈ a.store.reservations.get? r.val.reservationId, existing ≠ r)
    "batch reservation IDs are immutable"
  refuse (∃ authorization ∈ decision.val.authorizations,
      ∃ existing ∈ a.store.authorizations.get? authorization.val.decisionId,
        existing ≠ authorization)
    "batch authorization IDs are immutable"

/-- The store with one more decision. -/
def publish (decision : BatchRiskDecision H.canonicalId) (s : BatchRiskStore H) :
    BatchRiskStore H where
  decisions := s.decisions.set decision.val.decisionId decision
  batchDecisionIds := s.batchDecisionIds.set batch.val.intentBatchId decision.val.decisionId
  batchPayloads := s.batchPayloads.set batch.val.intentBatchId (H.intentBatch batch)
  intentRecords := batch.val.intents.foldl (fun records intent => records.set intent.val.intentId
    (H.intentPayloadHash intent, batch.val.intentBatchId)) s.intentRecords
  authorizations := decision.val.authorizations.foldl
    (fun known authorization => known.set authorization.val.decisionId authorization)
    s.authorizations
  reservations := decision.val.reservation.elim s.reservations fun r =>
    s.reservations.set r.val.reservationId r
  authorizationSnapshots := decision.val.authorizations.foldl (fun known authorization =>
    known.set authorization.val.decisionId
      (snapshot.val.accountId, snapshot.val.version, H.riskSnapshot snapshot.val))
    s.authorizationSnapshots
  accountSnapshots := s.accountSnapshots.set snapshot.val.accountId
    (snapshot.val.version, H.riskSnapshot snapshot.val)
  consumed := s.consumed

/-- The decision that was given for the batch before. -/
def priorDecision (decisionId : Str) : BatchRiskM H (BatchRiskDecision H.canonicalId) := do
  let a ← Machine.read
  let payload ← Machine.lift
    (getOrThrow (a.store.batchPayloads.get? batch.val.intentBatchId) .keyError)
  refuse (payload ≠ H.intentBatch batch) "intent batch IDs are immutable"
  let prior ← Machine.lift (getOrThrow (a.store.decisions.get? decisionId) .keyError)
  refuse (prior.val.accountId ≠ snapshot.val.accountId ∨
      prior.val.snapshotVersion ≠ snapshot.val.version ∨
      prior.val.snapshotSha256 ≠ H.riskSnapshot snapshot.val)
    "intent batch decision belongs to a different capacity snapshot"
  return prior

/-- A decision on a batch that is new to the repository. -/
def newDecision (evaluatedAt : Instant) : BatchRiskM H (BatchRiskDecision H.canonicalId) := do
  Machine.each batch.val.intents (checkIntentRecord batch)
  let a ← Machine.read
  let activeCapacity ← Machine.lift
    (initialActiveCapacityUniverse H snapshot.val.accountId (activeReservations a.store))
  let decision ← Machine.lift
    (evaluateBatchRiskDecision H batch target snapshot limits activeCapacity evaluatedAt)
  checkImmutable decision
  Machine.modify fun a => { a with store := publish batch snapshot decision a.store }
  return decision

/-- Return an exact retry or atomically publish one all-or-none result. -/
def authorize (evaluatedAt : Instant) : BatchRiskM H (BatchRiskDecision H.canonicalId) := do
  refuse (batch.val.targetId ≠ target.val.targetId ∨
      batch.val.targetSha256 ≠ H.targetPortfolio target)
    "intent batch does not bind the supplied target evidence"
  let a ← Machine.read
  validateAccountEpoch a.snapshot
  match a.store.batchDecisionIds.get? batch.val.intentBatchId with
  | some decisionId => priorDecision batch a.snapshot decisionId
  | none => newDecision limits batch target a.snapshot evaluatedAt

/-- `validate_authorization_consumption`. -/
def validateAuthorizationConsumption (authorization : BatchRiskAuthorization H.canonicalId)
    (intent : OrderIntent) (consumedAt : Instant) : Py Unit := do
  raiseIf (authorization.val.intentId ≠ intent.val.intentId)
    "risk decision does not authorize this intent"
  raiseIf (authorization.val.intentPayloadHash ≠ H.intentPayloadHash intent)
    "risk decision payload does not match this intent"
  raiseIf (consumedAt < intent.val.createdAt ∨ consumedAt < authorization.val.evaluatedAt)
    "risk approval cannot be consumed before evaluation"
  raiseIf (authorization.val.expiresAt ≤ consumedAt ∨ intent.val.expiresAt ≤ consumedAt)
    "risk approval has expired"

/-- The decision an authorization was given by is there, approved and the same. -/
def checkParent (authorization : BatchRiskAuthorization H.canonicalId) :
    Option (BatchRiskDecision H.canonicalId) → BatchRiskM H Unit
  | none => Machine.raise (.valueError "authorization parent evidence is unavailable")
  | some parent =>
    refuse (parent.val.status ≠ .approved ∨
        parent.val.intentBatchSha256 ≠ authorization.val.intentBatchSha256 ∨
        parent.val.snapshotSha256 ≠ authorization.val.snapshotSha256 ∨
        parent.val.policySha256 ≠ authorization.val.policySha256 ∨
        parent.val.currency ≠ authorization.val.currency)
      "authorization parent evidence is unavailable"

/-- Consume one child once while retaining its complete parent hold. -/
def consume (decisionId : Str) (intent : OrderIntent) (consumedAt : Instant) :
    BatchRiskM H Instant := do
  let a ← Machine.read
  let snapshot := a.snapshot.val
  let authorization ← Machine.lift (getOrThrow (a.store.authorizations.get? decisionId)
    (.valueError "execution requires a persisted batch risk authorization"))
  Machine.lift (validateAuthorizationConsumption authorization intent consumedAt)
  let expected ← Machine.lift
    (getOrThrow (a.store.authorizationSnapshots.get? decisionId) .keyError)
  refuse (expected ≠ (snapshot.accountId, snapshot.version, H.riskSnapshot snapshot))
    "batch authorization capacity snapshot changed before consumption"
  refuse (authorization.val.intentBatchId ≠ intent.val.intentBatchId)
    "authorization does not bind the intent batch"
  checkParent authorization (a.store.decisions.get? authorization.val.parentDecisionId)
  refuse (snapshot.operationalState ≠ .running) "batch risk control is no longer running"
  refuse (intent.val.instrumentId ∈ snapshot.haltedInstruments)
    "instrument became halted before consumption"
  refuse (H.session snapshot.session ≠ authorization.val.sessionSha256)
    "authorization session evidence changed"
  refuse (¬ snapshot.session.val.contains consumedAt) "batch authorization is outside its session"
  refuse (limits.val.maxSnapshotAge < consumedAt - authorization.val.snapshotAsOf)
    "batch authorization snapshot became stale"
  refuse (limits.val.maxPriceAge < consumedAt - authorization.val.referenceEventTime)
    "batch authorization reference price became stale"
  refuse (decisionId ∈ a.store.consumed) "batch authorization has already been consumed"
  Machine.modify fun a => { a with store.consumed := insert decisionId a.store.consumed }
  return consumedAt

/-- `transition_to`. -/
def transitionTo : BatchRiskM H Unit := do
  let a ← Machine.read
  refuse (snapshot.val.accountId ≠ a.snapshot.val.accountId)
    "risk snapshot transition changed its account identity"
  Machine.modify fun a => { a with snapshot }

end BatchRepository

/-! ## Calls -/

/-- What a caller can ask for. -/
inductive BatchRiskCall where
  | authorize (batch : OrderIntentBatch) (target : TargetPortfolio) (evaluatedAt : Instant)
  | consume (decisionId : Str) (intent : OrderIntent) (consumedAt : Instant)
  | transitionTo (snapshot : VersionedBatchRiskSnapshot H)

/-- What a caller is told. -/
inductive BatchRiskAnswer where
  | decided (decision : BatchRiskDecision H.canonicalId)
  | consumedAt (instant : Instant)
  | moved

variable {H}

/-- Run one call. -/
def BatchRiskCall.run (limits : BatchRiskLimits) : BatchRiskCall H →
    BatchRiskM H (BatchRiskAnswer H)
  | .authorize batch target evaluatedAt => do
    let decision ← BatchRepository.authorize limits batch target evaluatedAt
    return .decided decision
  | .consume decisionId intent consumedAt => do
    let instant ← BatchRepository.consume limits decisionId intent consumedAt
    return .consumedAt instant
  | .transitionTo snapshot => do
    BatchRepository.transitionTo snapshot
    return .moved

/-- A call, the snapshot it found, and how it was answered. -/
structure BatchRiskEvent (H : BatchHashes) where
  call : BatchRiskCall H
  snapshot : VersionedBatchRiskSnapshot H
  answer : Except PyError (BatchRiskAnswer H)

/-- One call of some caller. -/
def BatchRiskStep (limits : BatchRiskLimits) (a : BatchRiskAccount H) (event : BatchRiskEvent H)
    (a' : BatchRiskAccount H) : Prop :=
  event.snapshot = a.snapshot ∧ event.call.run limits a = (event.answer, a')

section steps

variable {limits : BatchRiskLimits} {a a' : BatchRiskAccount H}

theorem BatchRiskStep.of_authorize
    (h : BatchRepository.authorize limits batch target t a = (.ok decision, a')) :
    BatchRiskStep limits a ⟨.authorize batch target t, a.snapshot, .ok (.decided decision)⟩ a' :=
  ⟨rfl, Machine.bind_of_ok h⟩

theorem BatchRiskStep.of_consume
    (h : BatchRepository.consume limits decisionId intent t a = (.ok t', a')) :
    BatchRiskStep limits a ⟨.consume decisionId intent t, a.snapshot, .ok (.consumedAt t')⟩ a' :=
  ⟨rfl, Machine.bind_of_ok h⟩

theorem BatchRiskStep.of_transitionTo (h : BatchRepository.transitionTo snapshot a = (.ok (), a')) :
    BatchRiskStep limits a ⟨.transitionTo snapshot, a.snapshot, .ok .moved⟩ a' :=
  ⟨rfl, Machine.bind_of_ok h⟩

end steps

end AutoQuantTrader
