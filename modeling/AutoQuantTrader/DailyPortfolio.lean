import AutoQuantTrader.EngineContracts
import AutoQuantTrader.Wealth

/-!
# From a target to intents

`dailyTargetToIntents` converts a desired daily portfolio against what is held and every live
commitment.  A changed target with a live commitment is refused, not netted.
-/

namespace AutoQuantTrader

open Result Sorting

variable (H : EngineHashes)

/-- The trigger of an intent: the daily decision as a clock event. -/
def dailyDecisionTrigger (trigger : DailyTrigger) : Py DecisionTrigger := do
  requireText trigger.triggerId "clock event ID"
  return {
    kind := .clock
    triggerId := trigger.triggerId
    triggerSha256 := H.contentDigest [.text "phase2-clock-event-v1", .text trigger.triggerId,
      .text "personal-daily-decision/1", .instant trigger.asOf, .integer trigger.sequence]
    asOf := trigger.asOf }

variable (target : DailyTarget) (snapshot : AccountSnapshot) (strategyPin : VersionPin)
  (trigger : DecisionTrigger)

/-- The commitments of a snapshot that are not terminal. -/
def AccountSnapshot.pending : List Commitment :=
  snapshot.commitments.filter (·.val.state ≠ .terminal)

/-- The position of an instrument in a snapshot. -/
def AccountSnapshot.position? (instrumentId : Str) : Option PositionState :=
  lookup (snapshot.positions.map fun p => (p.instrumentId, p)) instrumentId

/-- The shares of an instrument that a snapshot holds. -/
def AccountSnapshot.held (instrumentId : Str) : ℚ :=
  ((snapshot.position? instrumentId).map (·.quantity)).getD 0

/-- The mark of an instrument in a snapshot. -/
def AccountSnapshot.mark? (instrumentId : Str) : Option CausalMark :=
  lookup (snapshot.marks.map fun m => (m.val.instrumentId, m)) instrumentId

/-- The shares a commitment is still to move, a sale counting down. -/
def Commitment.signedRemaining (c : Commitment) : ℚ := c.val.side.sign * c.val.remainingQuantity

/-- What the conversion has found so far. -/
structure Conversion where
  intents : List OrderIntent
  reasons : List Str

/-- The change an instrument needs, after fills and live commitments. -/
def targetDelta (live : List Commitment) (instrumentId : Str) (wanted : Option PositionTarget) :
    Py ℚ := do
  let committed ← exactDecimalSum (live.map Commitment.signedRemaining)
  let filled := ((snapshot.position? instrumentId).map (·.quantity)).getD 0
  let effective ← exactDecimalAdd filled committed
  exactDecimalSubtract ((wanted.map (·.val.quantity)).getD 0) effective

/-- The symbol an intent is for: the wanted one, or the one that is held. -/
def intentSymbol (instrumentId : Str) (wanted : Option PositionTarget) : Option Str :=
  match wanted with
  | some target => some target.val.symbol
  | none => (snapshot.position? instrumentId).map (·.symbol)

def dailyIntent (batchId instrumentId : Str) (mark : CausalMark) (delta : ℚ) : Py OrderIntent :=
  let side : Side := if 0 < delta then .buy else .sell
  construct {
    intentId := H.canonicalId "daily-intent"
      [.text batchId, .text instrumentId, .enum "Side" side.value, .decimal |delta|]
    intentBatchId := batchId
    targetId := target.targetId
    targetSha256 := H.target target
    portfolioSnapshotSha256 := H.snapshot snapshot
    strategyId := strategyPin.name
    strategyVersion := strategyPin.version
    strategyConfigurationSha256 := target.configurationSha256
    decisionTrigger := trigger
    instrumentId
    symbol := mark.val.symbol
    side
    quantity := |delta|
    referencePrice := mark.val.price
    decisionEventId := mark.val.markId
    referenceEventSha256 := mark.val.sourceSha256
    decisionEventTime := mark.val.economicAt
    createdAt := target.trigger.asOf
    expiresAt := target.expiresAt }

/-- The intent of an instrument that is to change and can be priced. -/
def convertAtMark (batchId instrumentId : Str) (wanted : Option PositionTarget) (mark : CausalMark)
    (delta : ℚ) (c : Conversion) : Py Conversion := do
  let symbol := intentSymbol snapshot instrumentId wanted
  raiseIf (symbol ≠ some mark.val.symbol ∨
      ∃ position ∈ snapshot.position? instrumentId, some position.symbol ≠ symbol)
    "daily instrument symbol differs from account mark"
  if target.reduceOnlyScope ∧ 0 < delta then
    return { c with reasons := c.reasons ++ [Str.of "REDUCE_ONLY_TARGET_INCREASES_EXPOSURE"] }
  else do
    let intent ← dailyIntent H target snapshot strategyPin trigger batchId instrumentId mark delta
    return { c with intents := c.intents ++ [intent] }

def convertInstrument (batchId : Str) (c : Conversion) (instrumentId : Str) : Py Conversion := do
  let wanted := target.targets.find? (·.val.instrumentId = instrumentId)
  let live := snapshot.pending.filter (·.val.instrumentId = instrumentId)
  let delta ← targetDelta snapshot live instrumentId wanted
  if delta = 0 then return c
  else if live ≠ [] then
    return { c with
      reasons := c.reasons ++ [Str.of "PENDING_COMMITMENT_REQUIRES_EXPLICIT_RESOLUTION"] }
  else
    match snapshot.mark? instrumentId with
    | none => return { c with reasons := c.reasons ++ [Str.of "MISSING_CURRENT_REFERENCE_PRICE"] }
    | some mark =>
      if mark.val.quality ≠ .current ∨ target.trigger.asOf < mark.val.knowledgeAt then
        return { c with reasons := c.reasons ++ [Str.of "MISSING_CURRENT_REFERENCE_PRICE"] }
      else
        convertAtMark H target snapshot strategyPin trigger batchId instrumentId wanted mark delta c

/-- The instruments a target is about. -/
def targetInstruments : List Str :=
  sortedUnique (target.targets.map (·.val.instrumentId) ++
    if target.fullSnapshot then
      snapshot.positions.map (·.instrumentId) ++ snapshot.pending.map (·.val.instrumentId)
    else [])

/-- The orders that take the account to its target. -/
def dailyTargetToIntents : Py DailyIntentBatch := do
  raiseIf (target.trigger.asOf ≠ snapshot.point.knowledgeAt)
    "daily target and account must share a knowledge frontier"
  raiseIf (target.notBefore < target.trigger.asOf ∨ target.expiresAt ≤ target.notBefore)
    "daily target has an invalid execution window"
  raiseIf (¬ (target.targets.map (·.val.instrumentId)).Nodup)
    "daily targets contain duplicate instruments"
  let batchId := H.canonicalId "daily-intent-batch"
    [.text (H.target target), .text (H.snapshot snapshot)]
  let trigger ← dailyDecisionTrigger H target.trigger
  let c ← (targetInstruments target snapshot).foldlM
    (convertInstrument H target snapshot strategyPin trigger batchId) ⟨[], []⟩
  return {
    batchId
    target
    snapshotSha256 := H.snapshot snapshot
    intents := if c.reasons = [] then c.intents else []
    reasons := sortedUnique c.reasons }

end AutoQuantTrader
