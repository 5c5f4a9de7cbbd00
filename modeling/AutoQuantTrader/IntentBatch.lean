import AutoQuantTrader.EngineContracts
import AutoQuantTrader.Replay
import AutoQuantTrader.Wealth

/-!
# Intent batches

A portfolio snapshot holds the positions of an account and the prices that were available; a target
is the portfolio a strategy wants.  `targetToIntentBatch` is the difference of the two, one intent
for each instrument that changes.
-/

namespace AutoQuantTrader

open Result Sorting

/-! ## Portfolios -/

structure PortfolioPositionFields where
  (instrumentId symbol : Str)
  quantity : ℚ
deriving DecidableEq

def PortfolioPositionFields.postInit (p : PortfolioPositionFields) : Py Unit := do
  requireTrimmed p.instrumentId "portfolio instrument_id"
  raiseIf (p.symbol = "" ∨ ¬ isTrimmed p.symbol ∨ ¬ isUppercase p.symbol)
    "portfolio symbol must use its canonical uppercase form"
  raiseIf (p.quantity < 0 ∨ ¬ isWhole p.quantity)
    "portfolio quantity must be non-negative and whole"
  let _ ← canonicalPersistedDecimal p.quantity "portfolio quantity"

abbrev PortfolioPosition := Checked PortfolioPositionFields.postInit

/-- A market event, as the price of its instrument. -/
structure CausalPrice where
  event : MarketEvent

namespace CausalPrice

def instrumentId (p : CausalPrice) : Str := p.event.val.instrumentId

def symbol (p : CausalPrice) : Str := p.event.val.symbol

def price (p : CausalPrice) : ℚ := p.event.val.closePrice

def eventId (p : CausalPrice) : Str := p.event.val.eventId

def eventTime (p : CausalPrice) : Instant := p.event.val.eventTime

def availableAt (p : CausalPrice) : Instant := p.event.val.availableAt

end CausalPrice

structure PortfolioSnapshotFields where
  asOf : Instant
  positions : List PortfolioPosition
  prices : List CausalPrice

def PortfolioSnapshotFields.postInit (s : PortfolioSnapshotFields) : Py Unit := do
  raiseIf (s.positions.map (·.val.instrumentId) ≠
    sortedUnique (s.positions.map (·.val.instrumentId)))
    "portfolio positions must be unique and sorted by instrument_id"
  raiseIf (s.prices.map CausalPrice.instrumentId ≠
    sortedUnique (s.prices.map CausalPrice.instrumentId))
    "portfolio prices must be unique and sorted by instrument_id"
  raiseIf (∃ price ∈ s.prices, s.asOf < price.availableAt)
    "portfolio snapshot cannot contain a future-available price"

abbrev PortfolioSnapshot := Checked PortfolioSnapshotFields.postInit

/-- `{price.instrument_id: price for price in snapshot.prices}.get(instrument_id)`. -/
def PortfolioSnapshotFields.price? (s : PortfolioSnapshotFields) (instrumentId : Str) :
    Option CausalPrice :=
  lookup (s.prices.map fun p => (p.instrumentId, p)) instrumentId

/-- `{position.instrument_id: position for position in snapshot.positions}.get(instrument_id)`. -/
def PortfolioSnapshotFields.position? (s : PortfolioSnapshotFields) (instrumentId : Str) :
    Option PortfolioPosition :=
  lookup (s.positions.map fun p => (p.val.instrumentId, p)) instrumentId

/-! ## Targets and batches -/

structure TargetPortfolioFields where
  (targetId strategyId strategyVersion strategyConfigurationSha256 : Str)
  decisionTrigger : DecisionTrigger
  (asOf expiresAt : Instant)
  targets : List PositionTarget
  rebalanceGeneration : Int := 1
  fullSnapshot : Bool := true

def TargetPortfolioFields.postInit (t : TargetPortfolioFields) : Py Unit := do
  requireTrimmed t.targetId "target_id"
  requireTrimmed t.strategyId "strategy_id"
  requireTrimmed t.strategyVersion "strategy_version"
  requireText t.decisionTrigger.triggerId "decision trigger ID"
  raiseIf (t.expiresAt ≤ t.asOf) "target must expire after its as_of time"
  raiseIf (t.targets = []) "target portfolio cannot be empty"
  raiseIf (t.targets.map (·.val.instrumentId) ≠ sortedUnique (t.targets.map (·.val.instrumentId)))
    "position targets must be unique and sorted by instrument_id"
  raiseIf (t.rebalanceGeneration < 1) "rebalance_generation must be a positive integer"
  raiseIf (t.asOf ≠ t.decisionTrigger.asOf) "target and decision trigger must share the same as_of"

abbrev TargetPortfolio := Checked TargetPortfolioFields.postInit

structure OrderIntentBatchFields where
  (intentBatchId targetId targetSha256 portfolioSnapshotSha256 : Str)
  decisionTrigger : DecisionTrigger
  intents : List OrderIntent
deriving DecidableEq

def OrderIntentBatchFields.postInit (b : OrderIntentBatchFields) : Py Unit := do
  requireTrimmed b.intentBatchId "intent_batch_id"
  requireTrimmed b.targetId "target_id"
  requireText b.decisionTrigger.triggerId "decision trigger ID"
  raiseIf (b.intents.map (·.val.instrumentId) ≠ sortedUnique (b.intents.map (·.val.instrumentId)))
    "intent batch instruments must be unique and sorted"
  raiseIf (∃ i ∈ b.intents, i.val.intentBatchId ≠ b.intentBatchId ∨ i.val.targetId ≠ b.targetId ∨
      i.val.targetSha256 ≠ b.targetSha256 ∨
      i.val.portfolioSnapshotSha256 ≠ b.portfolioSnapshotSha256 ∨
      i.val.decisionTrigger ≠ b.decisionTrigger)
    "intent batch members must preserve enclosing target evidence"

abbrev OrderIntentBatch := Checked OrderIntentBatchFields.postInit

/-- The identifier and digest functions of targets and batches. -/
structure IntentHashes extends SettlementHashes where
  marketEvent : MarketEvent → Str
  portfolioSnapshot : PortfolioSnapshot → Str
  targetPortfolio : TargetPortfolio → Str
  intentBatch : OrderIntentBatch → Str

def IntentHashes.plain : IntentHashes where
  toSettlementHashes := .plain
  marketEvent e := plainId "market-event" [.text e.val.eventId]
  portfolioSnapshot s := plainId "portfolio" [.instant s.val.asOf]
  targetPortfolio t := plainId "target" [.text t.val.targetId]
  intentBatch b := plainId "batch" [.text b.val.intentBatchId]

variable (H : IntentHashes)

/-! ## From a target to intents -/

/-- The identity of the batch of a target against a snapshot. -/
def intentBatchId (target : TargetPortfolio) (snapshot : PortfolioSnapshot) : Str :=
  H.canonicalId "intent-batch" [.text target.val.targetId, .text (H.targetPortfolio target),
    .text (H.portfolioSnapshot snapshot)]

/-- The identity of an intent of a batch. -/
def batchIntentId (batchId instrumentId : Str) (side : Side) (quantity : ℚ) : Str :=
  H.canonicalId "intent"
    [.text batchId, .text instrumentId, .enum "Side" side.value, .decimal quantity]

def batchIntent (target : TargetPortfolio) (snapshot : PortfolioSnapshot)
    (instrumentId symbol : Str) (price : CausalPrice) (delta : ℚ) : Py OrderIntent :=
  let side : Side := if 0 < delta then .buy else .sell
  let batchId := intentBatchId H target snapshot
  construct {
    intentId := batchIntentId H batchId instrumentId side |delta|
    intentBatchId := batchId
    targetId := target.val.targetId
    targetSha256 := H.targetPortfolio target
    portfolioSnapshotSha256 := H.portfolioSnapshot snapshot
    strategyId := target.val.strategyId
    strategyVersion := target.val.strategyVersion
    strategyConfigurationSha256 := target.val.strategyConfigurationSha256
    decisionTrigger := target.val.decisionTrigger
    instrumentId
    symbol
    side
    quantity := |delta|
    referencePrice := price.price
    decisionEventId := price.eventId
    referenceEventSha256 := H.marketEvent price.event
    decisionEventTime := price.eventTime
    createdAt := target.val.asOf
    expiresAt := target.val.expiresAt }

/-- The intent that moves one instrument to its target, if it is not there. -/
def convertTarget (target : TargetPortfolio) (snapshot : PortfolioSnapshot) (instrumentId : Str) :
    Py (Option OrderIntent) := do
  let current := snapshot.val.position? instrumentId
  let desired := lookup (target.val.targets.map fun t => (t.val.instrumentId, t)) instrumentId
  let delta ← exactDecimalSubtract ((desired.map (·.val.quantity)).getD 0)
    ((current.map (·.val.quantity)).getD 0)
  if delta = 0 then return none
  else do
    let price ← getOrThrow (snapshot.val.price? instrumentId) (.valueError
      ("changed target " ++ instrumentId.quoted ++ " has no causal reference price"))
    -- an instrument comes from the target or the snapshot, so one of the two is there
    let symbol ← getOrThrow ((desired.map (·.val.symbol)).or (current.map (·.val.symbol)))
      .assertionError
    raiseIf (symbol ≠ price.symbol)
      ("target symbol for " ++ instrumentId.quoted ++ " does not match its price")
    raiseIf (∃ position ∈ current, position.val.symbol ≠ symbol)
      ("current symbol for " ++ instrumentId.quoted ++ " differs from its target")
    let intent ← batchIntent H target snapshot instrumentId symbol price delta
    return some intent

/-- Convert a complete desired portfolio against one immutable causal snapshot. -/
def targetToIntentBatch (target : TargetPortfolio) (snapshot : PortfolioSnapshot) :
    Py OrderIntentBatch := do
  raiseIf (target.val.asOf ≠ snapshot.val.asOf)
    "target and portfolio snapshot must share the same as_of"
  let instrumentIds := sortedUnique (target.val.targets.map (·.val.instrumentId) ++
    if target.val.fullSnapshot then snapshot.val.positions.map (·.val.instrumentId) else [])
  let intents ← instrumentIds.mapM (convertTarget H target snapshot)
  construct {
    intentBatchId := intentBatchId H target snapshot
    targetId := target.val.targetId
    targetSha256 := H.targetPortfolio target
    portfolioSnapshotSha256 := H.portfolioSnapshot snapshot
    decisionTrigger := target.val.decisionTrigger
    intents := intents.reduceOption }

end AutoQuantTrader
