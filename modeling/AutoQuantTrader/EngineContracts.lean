import AutoQuantTrader.AccountingContracts

/-!
# The records of the daily engine

The specification of a run, the events a decision reads and schedules, what the strategy and the
risk policy exchange with the engine, and the rows of its trace.
-/

namespace AutoQuantTrader

open Sorting

/-! ## Sessions -/

/-- A trading session, named by its date in New York. -/
structure ResearchSession where
  sessionLabel : Day
  (opensAt closesAt : Instant)

/-- When the closing prices of a session are modeled to be available: 20:00 in New York. -/
def modeledDailyAvailability (Z : EasternTime) (session : Day) : Instant :=
  Z.instant session (20 * 60)

/-! ## The specification of a run -/

inductive PolicyScope where
  | product | syntheticOracle
deriving DecidableEq

structure DailyRiskPolicyFields where
  policyId : Str
  (maxOrderQuantity maxOrderNavFraction maxBatchNavFraction maxSymbolNavFraction
    maxGrossNavFraction adverseReserveFraction feePerShare : ℚ)
  (maxOpenIntents maxPerSymbolIntents maxNewIntentsPerSession : Int)
  (dailyLossBoundary drawdownBoundary : ℚ)
  policyScope : PolicyScope

def requireFraction (value : ℚ) (name : Str) : Py Unit := do
  requireAmount value name false true false
  raiseIf (1 < value) "cash-funded maximum fraction exceeds one"

def DailyRiskPolicyFields.postInit (p : DailyRiskPolicyFields) : Py Unit := do
  requireBoundedText p.policyId "risk policy"
  requireAmount p.maxOrderQuantity "maximum order quantity" false true true
  requireFraction p.maxOrderNavFraction "max_order_nav_fraction"
  requireFraction p.maxBatchNavFraction "max_batch_nav_fraction"
  requireFraction p.maxSymbolNavFraction "max_symbol_nav_fraction"
  requireFraction p.maxGrossNavFraction "max_gross_nav_fraction"
  requireFraction p.drawdownBoundary "drawdown_boundary"
  requireAmount p.adverseReserveFraction "adverse_reserve_fraction" true false false
  requireAmount p.feePerShare "fee_per_share" true false false
  raiseIf (¬ (-1 ≤ p.dailyLossBoundary ∧ p.dailyLossBoundary < 0))
    "daily loss boundary must be negative"
  raiseIf (min (min p.maxOpenIntents p.maxPerSymbolIntents) p.maxNewIntentsPerSession < 1)
    "risk count limits must be positive"
  raiseIf (p.policyScope = .product ∧ (1 / 4 < p.maxOrderNavFraction ∨
      1 / 4 < p.maxSymbolNavFraction ∨ 95 / 100 < p.maxGrossNavFraction ∨
      95 / 100 < p.maxBatchNavFraction ∨ 1000 < p.maxOrderQuantity ∨
      p.adverseReserveFraction < 1 / 100 ∨ 4 < p.maxOpenIntents ∨ 1 < p.maxPerSymbolIntents ∨
      8 < p.maxNewIntentsPerSession))
    "product policy may not exceed the frozen simulation envelope"

abbrev DailyRiskPolicy := Checked DailyRiskPolicyFields.postInit

structure VersionPin where
  (name version sha256 : Str)

inductive ReferenceKind where
  | buyHold | trendSma

structure ReferenceConfiguration where
  kind : ReferenceKind
  lookback : Int
  allocation : ℚ
  rebalanceSessions : Option Int

inductive FeaturePriceBasis where
  | adjustedClose | rawClose

/-- What a decision reads of the specification of a run.  The checks that its records have passed
when they were built are not needed here: the results are about any specification. -/
structure RunSpec where
  instruments : List (Str × Str)
  sessions : List ResearchSession
  strategy : VersionPin
  strategyConfiguration : ReferenceConfiguration
  (warmupSessions scoredSessions : List Day)
  executionPolicy : ExecutionPolicy
  riskPolicy : DailyRiskPolicy
  pins : List VersionPin
  featurePriceBasis : FeaturePriceBasis
  (maxEvents maxOutputBytes : Nat)

/-! ## Events -/

/-- Where an observation comes from.  A modeled availability carries the assumption it rests on. -/
structure ObservationProvenanceFields where
  sourceNamespace : Str
  observedAt : Option Instant
  simulatedAvailableAt : Option (Instant × Str)
deriving DecidableEq

def ObservationProvenanceFields.postInit (p : ObservationProvenanceFields) : Py Unit := do
  requireBoundedText p.sourceNamespace "source namespace"
  raiseIf (p.observedAt = none ∧ p.simulatedAvailableAt = none)
    "event needs observed or explicitly modeled availability"

abbrev ObservationProvenance := Checked ObservationProvenanceFields.postInit

structure DailyPrice where
  (closePrice adjustedClose : ℚ)
deriving DecidableEq

/-- The payloads that a decision reads and schedules. -/
inductive EnginePayload where
  | dailyPrice (price : DailyPrice)
  | accountingCommand (command : AccountingCommand)
deriving DecidableEq

/-- An event, with when it held and when it was known.  The digest of the payload that the
provenance also carries is checked to be the payload's, so it is left out. -/
structure EngineEventFields where
  eventId : Str
  (economicAt knowledgeAt : Instant)
  payload : EnginePayload
  provenance : ObservationProvenance
  predecessorIds : List Str
deriving DecidableEq

def EngineEventFields.postInit (e : EngineEventFields) : Py Unit := do
  requireBoundedText e.eventId "event ID"
  raiseIf (e.knowledgeAt < e.economicAt) "economic application cannot precede its effective time"
  raiseIf (e.eventId ∈ e.predecessorIds ∨ ¬ e.predecessorIds.Nodup)
    "event has invalid predecessor IDs"

abbrev EngineEvent := Checked EngineEventFields.postInit

/-! ## Strategy and risk -/

structure DailyStrategyState where
  generation : Nat
  predecessorSha256 : Option Str
  previouslyAllocated : Bool
  values : List (Str × Str)

/-- The state of a strategy that has not been initialized. -/
def DailyStrategyState.initial : DailyStrategyState := ⟨0, none, false, []⟩

inductive TriggerKind where
  | completeMarket | timer
deriving DecidableEq

structure DailyTrigger where
  triggerId : Str
  (sourceSession executionSession : Day)
  asOf : Instant
  kind : TriggerKind
  sourceSha256 : Str
  sequence : Nat
deriving DecidableEq

/-- What a strategy sees when it decides. -/
structure DailyStrategyContext where
  trigger : DailyTrigger
  account : AccountSnapshot
  state : DailyStrategyState
  configuration : ReferenceConfiguration
  instrumentSymbols : List (Str × Str)
  history : List (Day × List (Str × Option ℚ))
  expectedSessions : List Day
  scoredSessionIndex : Nat
  (notBefore expiresAt : Instant)

structure PositionTargetFields where
  (instrumentId symbol : Str)
  quantity : ℚ

def PositionTargetFields.postInit (t : PositionTargetFields) : Py Unit := do
  raiseIf (t.instrumentId = "" ∨ ¬ isTrimmed t.instrumentId)
    "target instrument_id must be non-empty and trimmed"
  raiseIf (t.symbol = "" ∨ ¬ isTrimmed t.symbol) "target symbol must be non-empty and trimmed"
  raiseIf (¬ isUppercase t.symbol) "target symbol must use its canonical uppercase form"
  raiseIf (t.quantity < 0) "target quantity must be finite and non-negative"
  raiseIf (¬ isWhole t.quantity) "target quantity must be a whole number of shares"
  let _ ← canonicalPersistedDecimal t.quantity "target quantity"

abbrev PositionTarget := Checked PositionTargetFields.postInit

structure DailyTarget where
  targetId : Str
  trigger : DailyTrigger
  configurationSha256 : Str
  targets : List PositionTarget
  (notBefore expiresAt : Instant)
  (fullSnapshot reduceOnlyScope : Bool)
  explanation : Str

structure DailyStrategyTransition where
  state : DailyStrategyState
  target : Option DailyTarget
  reasons : List Str

structure DailyIntentBatch where
  batchId : Str
  target : DailyTarget
  snapshotSha256 : Str
  intents : List OrderIntent
  reasons : List Str

inductive RiskPhase where
  | decision | activation
deriving DecidableEq

structure DailyRiskEvidence where
  snapshotSha256 : Str
  phase : RiskPhase
  producedAt : Instant
  (sourceSession executionSession : Day)
  producer : VersionPin
  (dailyReturn drawdown : Option ℚ)
  acceptedIntentIds : List Str
  (completeDailyInputs controlsHealthy sessionHealthy timeHealthy cashSemanticsKnown
    requestCapacityAvailable simulationReconciled : Bool)
  reasons : List Str

structure DailyRiskDecision where
  approved : Bool
  batch : DailyIntentBatch
  (policySha256 evidenceSha256 : Str)
  (reservedCashByIntent reservedSharesByIntent : List (Str × ℚ))
  reasons : List Str

/-! ## What a run reports -/

structure EngineTraceRow where
  eventId : Str
  point : ReductionPoint
  (kind causalInputSha256 priorSnapshotSha256 nextSnapshotSha256 stateSha256 : Str)
  intentIds : List Str
  targetQuantities : List (Str × ℚ)
  reasons : List Str
  causalContentSha256 : Str

/-- How a run ends that is stopped. -/
inductive RunStatus where
  | cancelled | failed | rejected
deriving DecidableEq

/-- What ends a run early: a stop of the engine's own, or an exception. -/
inductive Fault where
  | stop (status : RunStatus) (reason : Str)
  | raised (error : PyError)
deriving DecidableEq

/-! ## Digests and sizes -/

/-- The identifier, digest and size functions of the engine's records.  `contentDigest` is
`content_digest` of a tuple of plain values; `derived` covers the parent's source, the due instant,
the type of the command and the policy, and `causal` the observable values of its arguments. -/
structure EngineHashes extends AccountingHashes where
  contentDigest : List IdPart → Str
  spec : RunSpec → Str
  event : EngineEvent → Str
  configuration : ReferenceConfiguration → Str
  riskPolicy : DailyRiskPolicy → Str
  strategyState : DailyStrategyState → Str
  target : DailyTarget → Str
  evidence : DailyRiskEvidence → Str
  decision : DailyRiskDecision → Str
  derived : Str → DueAccountingEvent → ExecutionPolicy → Str
  causal (source kind : Str) (point : ReductionPoint) (quantities : List (Str × ℚ))
    (reasons : List Str) (after : AccountSnapshot) (strategy : DailyStrategyState) : Str
  traceBytes : EngineTraceRow → Nat

/-- Digests that spell out a little of what they cover, and sizes of one, to run the model with. -/
def EngineHashes.plain : EngineHashes where
  toAccountingHashes := .plain
  contentDigest parts := plainId "digest" parts
  spec r := plainId "spec" [.integer r.maxEvents]
  event e := plainId "event" [.text e.val.eventId]
  configuration c := plainId "configuration" [.integer c.lookback]
  riskPolicy p := plainId "risk-policy" [.text p.val.policyId]
  strategyState s := plainId "strategy-state" [.integer s.generation]
  target t := plainId "target" [.text t.targetId]
  evidence e := plainId "evidence" [.text e.snapshotSha256, .instant e.producedAt]
  decision d := plainId "decision" [.text d.batch.batchId]
  derived source due _ := plainId "derived" [.text source, .instant due.dueAt]
  causal source kind point _ _ _ _ := plainId "causal" [.text source, .text kind,
    .instant point.knowledgeAt]
  traceBytes _ := 1

/-- `run_id`. -/
def EngineHashes.runId (H : EngineHashes) (spec : RunSpec) : Str :=
  "run-" ++ H.spec spec

/-! ## Ports -/

/-- The accounting the engine is given. -/
structure ExecutionAccountingPort where
  advance : AccountingState → AccountingCommand → AccountingContext → ExecutionPolicy →
    Py AccountingTransition
  project : AccountingState → AccountingContext → ExecutionPolicy → Py AccountingTransition

/-- The strategy the engine is given: how it answers a decision. -/
structure DailyStrategy where
  onDecision : DailyStrategyContext → Py DailyStrategyTransition

end AutoQuantTrader
