import AutoQuantTrader.Engine

/-!
# The daily engine: decisions and installation

A decision calls the strategy on a snapshot projected for it, converts the target it returns against
that snapshot, has risk evaluate the batch, and installs the approved intents one by one on a copy
of the account: the copy replaces the account only once every commitment of the batch has been
applied.
-/

namespace AutoQuantTrader

open Result Sorting

/-! ## The calendar -/

/-- `self.labels`. -/
def RunSpec.labels (r : RunSpec) : List Day := r.sessions.map (·.sessionLabel)

/-- `self.sessions[label]`. -/
def RunSpec.session (r : RunSpec) (label : Day) : Py ResearchSession :=
  getOrThrow (r.sessions.find? (·.sessionLabel = label)) .keyError

/-- `self.labels[self.labels.index(label) + 1]`. -/
def RunSpec.nextLabel (r : RunSpec) (label : Day) : Py Day := do
  let i ← getOrThrow (r.labels.idxOf? label) (.valueError "tuple.index(x): x not in tuple")
  getOrThrow r.labels[i + 1]? .indexError

/-- `_cutoff`: 09:00 in New York. -/
def cutoff (Z : EasternTime) (session : Day) : Instant := Z.instant session (9 * 60)

namespace Engine

variable (E : EngineEnv Z)

/-! ## Risk evidence -/

/-- `_complete`: every instrument has a price for the session. -/
def complete (s : EngineState) (session : Day) : Prop :=
  ∀ i ∈ E.spec.instruments, (s.heads.get? (session, i.1)).isSome

instance (s : EngineState) (session : Day) : Decidable (complete E s session) :=
  inferInstanceAs (Decidable (∀ _ ∈ _, _))

/-- `_loss`: the return of the day and the drawdown at the current snapshot. -/
def loss (s : EngineState) : Py (Option ℚ × Option ℚ) :=
  if s.wealth = [] then return (none, none)
  else do
    let point ← createWealthPoint {
      pointId := "risk-" ++ Str.ofInt s.sequence
      sequence := s.sequence + 1
      nav := s.current.snapshot.nav
      signedFlow := 0
      flowPairId := none
      role := .valuation
      reasons := s.current.snapshot.valuationReasons }
    let values ← deriveWealthPath (s.wealth ++ [point])
    let value ← getOrThrow values.getLast? .indexError
    match value.val.figures, s.dailyWealth with
    | some figures, some daily => do
      let ratio ← derivedDivide figures.wealth daily
      return (some (← derivedSubtract ratio 1), some figures.drawdown)
    | figures, _ => return (none, figures.map (·.drawdown))

/-- A call of the simulated limiter. -/
def limiter {α : Type} (call : Machine SimulatedRequests Fault α) : EngineM α := fun s =>
  Machine.within (·.requests) (fun requests => { s with requests }) call s

/-- `_evidence`. -/
def evidence (batch : DailyIntentBatch) (phase : RiskPhase) : EngineM DailyRiskEvidence := do
  let s ← Machine.read
  let (dailyReturn, drawdown) ← py (loss s)
  let trigger := batch.target.trigger
  let producer ← py (getOrThrow (E.spec.pins.find? (·.name = Str.of "engine")) .stopIteration)
  let permitted ← limiter (SimulatedRequests.permits s.now
    (if phase = .decision then batch.intents.length else 0) true)
  return {
    snapshotSha256 := E.hashes.snapshot s.current.snapshot
    phase
    producedAt := s.now
    sourceSession := trigger.sourceSession
    executionSession := trigger.executionSession
    producer
    dailyReturn
    drawdown
    acceptedIntentIds := sortOn id (s.accepted.getD trigger.executionSession [])
    completeDailyInputs := complete E s trigger.sourceSession
    controlsHealthy := !s.state.halted
    sessionHealthy := true
    timeHealthy := s.now < batch.target.expiresAt
    cashSemanticsKnown := true
    requestCapacityAvailable := permitted
    simulationReconciled := true
    reasons := [] }

/-! ## Installation -/

def commitmentIdOf (intent : OrderIntent) : Str :=
  E.hashes.canonicalId "commitment" [.text intent.val.intentId]

def attemptIdOf (intent : OrderIntent) : Str :=
  E.hashes.canonicalId "model-attempt" [.text intent.val.intentId]

/-- How far the installation of a batch got. -/
inductive Installation where
  | installed (state : AccountingState) (results : List AccountingTransition)
  | rolledBack (reasons : List Str)

/-- The price a commitment approves: the reference price with the adverse reserve. -/
def approvedPrice (intent : OrderIntent) : Py ℚ := do
  let factor ← exactDecimalAdd 1 E.spec.riskPolicy.val.adverseReserveFraction
  exactDecimalMultiply intent.val.referencePrice factor

section commitments

variable (batch : DailyIntentBatch) (decision : DailyRiskDecision) (before : AccountSnapshot)

/-- The fields of a commitment that is not sent yet. -/
abbrev unsentFields (sequence : Nat) (intent : OrderIntent) (orderId policySha256 : Str)
    (hold shares approvedPrice feeBudget : ℚ) : CommitmentFields :=
  { commitmentId := commitmentIdOf E intent
    intentId := intent.val.intentId
    orderId
    instrumentId := intent.val.instrumentId
    symbol := intent.val.symbol
    side := intent.val.side
    originalQuantity := intent.val.quantity
    filledQuantity := 0
    remainingQuantity := intent.val.quantity
    reservedCash := hold
    reservedSellQuantity := shares
    approvedPrice
    remainingFeeBudget := feeBudget
    sourceSession := batch.target.trigger.sourceSession
    executionSession := batch.target.trigger.executionSession
    createdSequence := sequence
    notBefore := batch.target.notBefore
    expiresAt := batch.target.expiresAt
    policySha256
    snapshotSha256 := E.hashes.snapshot before
    state := .approvedUnsent
    activatedAt := none
    activationSequence := none
    activationFrontier := none
    terminalReason := none }

/-- The commitment of an approved intent, with the capacity the decision reserved for it. -/
def intentCommitment (sequence : Nat) (submission : OrderSubmission) (intent : OrderIntent) :
    Py Commitment := do
  let hold ← getOrThrow (lookup decision.reservedCashByIntent intent.val.intentId) .keyError
  let approvedPrice ← approvedPrice E intent
  let feeBudget ← exactDecimalMultiply intent.val.quantity E.spec.riskPolicy.val.feePerShare
  let shares := (lookup decision.reservedSharesByIntent intent.val.intentId).getD 0
  construct (unsentFields E batch before sequence intent submission.val.orderId
    decision.policySha256 hold shares approvedPrice feeBudget)

/-- Submit one intent at a point and try its commitment on an account. -/
def tryIntent (state : AccountingState) (p : EnginePoint) (intent : OrderIntent) :
    Py AccountingTransition := do
  let submission ← createOrderSubmission E.hashes.toOrderHashes intent
    (E.hashes.decision decision) (attemptIdOf E intent) p.now
  let commitment ← intentCommitment E batch decision before p.sequence submission intent
  E.accounting.advance state
    ⟨commitment.val.commitmentId, .installCommitment submission commitment⟩
    (context E p commitment.val.commitmentId (some before)) E.spec.executionPolicy

end commitments

/-- The loop of `_install`: the first commitment that is not applied ends it. -/
def installIntents (batch : DailyIntentBatch) (decision : DailyRiskDecision)
    (before : AccountSnapshot) :
    List OrderIntent → AccountingState → List AccountingTransition → EngineM Installation
  | [], state, results => return .installed state results
  | intent :: rest, state, results => do
    point 6
    let s ← Machine.read
    let result ← py (tryIntent E batch decision before state s.toEnginePoint intent)
    if result.disposition ≠ .applied then return .rolledBack result.reasons
    else installIntents batch decision before rest result.state (results ++ [result])

/-- Adopt the account of a batch that is installed. -/
def adoptBatch (batch : DailyIntentBatch) (state : AccountingState)
    (results : List AccountingTransition) : EngineM Unit := do
  let current ← py (getOrThrow results.getLast? .indexError)
  Machine.modify fun s => { s with state, current }
  Machine.each results fun result => due E result.dueEvents
  let session := batch.target.trigger.executionSession
  Machine.modify fun s => { s with
    accepted := s.accepted.set session
      (s.accepted.getD session [] ∪ batch.intents.map (·.val.intentId))
    targets := batch.intents.foldl (fun targets intent =>
      targets.set intent.val.intentId batch.target) s.targets }

/-- `_install`. -/
def install (batch : DailyIntentBatch) : EngineM Unit := do
  let s ← Machine.read
  let before := s.current.snapshot
  let source := batch.target.trigger.sourceSha256
  let evidence ← evidence E batch .decision
  let decision ← py (evaluateDailyRisk E.hashes E.spec.riskPolicy before batch evidence s.now)
  if ¬ decision.approved ∨ batch.intents = [] then
    trace E batch.target.trigger.triggerId
      (if decision.approved then "risk_approved" else "risk_rejected") source before
      decision.reasons (some batch)
  else
    match ← installIntents E batch decision before batch.intents s.state [] with
    | .rolledBack reasons => do
      let _ ← project E "atomic-batch-rollback" 6
      trace E batch.batchId "batch_install_rolled_back" source before
        (if reasons = [] then [Str.of "INSTALL_NOT_APPLIED"] else reasons) (some batch)
    | .installed state results => do
      adoptBatch E batch state results
      trace E batch.batchId "batch_installed" source before [] (some batch)

/-! ## Decisions -/

/-- The prices a decision of a session may use, as its digest covers them. -/
def visiblePrices (s : EngineState) (session : Day) : List IdPart :=
  (sortOn (fun head => toLex head.1) (s.heads.entries.filter (·.1.1 ≤ session))).flatMap fun head =>
    [.day head.1.1, .text head.1.2, .text (E.hashes.event head.2)]

/-- The price of a head in the basis of the features. -/
def featurePrice : Option EngineEvent → Py (Option ℚ)
  | none => return none
  | some event =>
    match event.val.payload with
    | .dailyPrice price => return some (match E.spec.featurePriceBasis with
      | .adjustedClose => price.adjustedClose
      | .rawClose => price.closePrice)
    | .accountingCommand _ => throw .assertionError

/-- What the strategy is shown. -/
def strategyContext (s : EngineState) (account : AccountSnapshot) (trigger : DailyTrigger) :
    Py DailyStrategyContext := do
  let expected := (E.spec.warmupSessions ++ E.spec.scoredSessions).filter
    (· ≤ trigger.sourceSession)
  let history ← expected.mapM fun label => do
    let values ← E.spec.instruments.mapM fun i => do
      return (i.1, ← featurePrice E (s.heads.get? (label, i.1)))
    return (label, values)
  let index ← getOrThrow (E.spec.scoredSessions.idxOf? trigger.sourceSession)
    (.valueError "tuple.index(x): x not in tuple")
  let session ← E.spec.session trigger.executionSession
  return {
    trigger
    account
    state := s.strategyState
    configuration := E.spec.strategyConfiguration
    instrumentSymbols := E.spec.instruments
    history
    expectedSessions := expected
    scoredSessionIndex := index
    notBefore := session.opensAt
    expiresAt := session.closesAt }

/-- The target keeps to the context it was asked for in.  Mappings given by pairs are compared. -/
def keepsContext (ctx : DailyStrategyContext) (target : DailyTarget) : Prop :=
  let symbols := target.targets.map fun t => (t.val.instrumentId, t.val.symbol)
  target.trigger = ctx.trigger ∧
    target.configurationSha256 = E.hashes.configuration ctx.configuration ∧
    target.notBefore = ctx.notBefore ∧ target.expiresAt = ctx.expiresAt ∧
    (∀ i ∈ (symbols ++ E.spec.instruments).map (·.1), lookup symbols i =
      lookup E.spec.instruments i) ∧
    target.fullSnapshot

instance (ctx : DailyStrategyContext) (target : DailyTarget) :
    Decidable (keepsContext E ctx target) :=
  inferInstanceAs (Decidable (_ ∧ _))

/-- Ask the strategy, once the session can be decided. -/
def askStrategy (session execution : Day) (eventId : Str) (kind : TriggerKind) : EngineM Unit := do
  let closing ← py (E.spec.session session)
  Machine.modify fun s => { s with markSession := session, economic := closing.closesAt }
  let account ← project E eventId 5
  let s ← Machine.read
  let trigger : DailyTrigger := {
    triggerId := eventId
    sourceSession := session
    executionSession := execution
    asOf := s.now
    kind
    sourceSha256 := E.hashes.contentDigest (visiblePrices E s session)
    sequence := s.sequence }
  let ctx ← py (strategyContext E s account trigger)
  let transition ← py (E.strategy.onDecision ctx)
  stopIf (transition.state.generation ≠ s.strategyState.generation + 1 ∨
      transition.state.predecessorSha256 ≠ some (E.hashes.strategyState s.strategyState))
    .failed "STRATEGY_STATE_TRANSITION_UNBOUND"
  Machine.modify fun s => { s with strategyState := transition.state }
  match transition.target with
  | none =>
    trace E eventId "strategy_no_target" trigger.sourceSha256 account transition.reasons none
  | some target => do
    stopIf (¬ keepsContext E ctx target) .failed "STRATEGY_TARGET_OUTSIDE_FROZEN_CONTEXT"
    point 6
    let batch ← py (dailyTargetToIntents E.hashes target account E.spec.strategy)
    install E batch

/-- A session can be decided from its availability until the cutoff before its execution. -/
def inWindow (session execution : Day) (now : Instant) : Prop :=
  modeledDailyAvailability Z session ≤ now ∧ now < cutoff Z execution

instance (session execution : Day) (now : Instant) :
    Decidable (inWindow (Z := Z) session execution now) :=
  inferInstanceAs (Decidable (_ ∧ _))

/-- `_decision`. -/
def decision (session : Day) (eventId : Str) (kind : TriggerKind) : EngineM Unit := do
  let s ← Machine.read
  if session ∉ E.spec.scoredSessions ∨ s.baselineId = none then return ()
  else do
    let execution ← py (E.spec.nextLabel session)
    if ¬ inWindow (Z := Z) session execution s.now ∨ ¬ complete E s session then return ()
    else askStrategy E session execution eventId kind

end Engine

end AutoQuantTrader
