import AutoQuantTrader.AccountingAdvance
import AutoQuantTrader.DailyRisk
import AutoQuantTrader.SimulatedRequests

/-!
# The daily engine: its state, its queue and its trace

The engine is a scheduler over one account.  Its methods are computations on `EngineState` that may
raise: a `Fault` is a stop of the engine's own or an exception, and what was done before it stays
done.  The account is behind a port and the strategy is a parameter, as in the code.

Wall time and the owner's wish to stop are not functions of the inputs: `stopRequested` and
`outOfTime` say what the check of the budget finds, by how often it has been made.
-/

namespace AutoQuantTrader

open Result Sorting

/-! ## Environment and state -/

/-- `PersonalAccounting`: the accounting of this project behind the port. -/
def personalAccounting (H : AccountingHashes) (Z : EasternTime) : ExecutionAccountingPort where
  advance := advance H Z
  project := project H

/-- What an engine is given. -/
structure EngineEnv (Z : EasternTime) where
  hashes : EngineHashes
  accounting : ExecutionAccountingPort
  strategy : DailyStrategy
  spec : RunSpec
  (stopRequested outOfTime : Nat → Bool)

/-- Where the engine stands. -/
structure EnginePoint where
  (now economic : Instant)
  markSession : Day
  (frontier sequence : Nat)
  stage : Fin 9

/-- `ReductionPoint(self.frontier, self.sequence, self.now, self.stage)`. -/
def EnginePoint.reduction (p : EnginePoint) : ReductionPoint :=
    ⟨p.frontier, p.sequence, p.now, p.stage⟩

/-- What the engine's loop carries from event to event. -/
structure EngineState extends EnginePoint where
  requests : SimulatedRequests
  state : AccountingState
  current : AccountingTransition
  strategyState : DailyStrategyState
  (processed outputBytes budgetChecks : Nat)
  events : Dict Str EngineEvent
  causalSources : Dict Str Str
  queue : List (Instant ×ₗ Str)
  seen : List Str
  heads : Dict (Day × Str) EngineEvent
  accepted : Dict Day (List Str)
  targets : Dict Str DailyTarget
  trace : List EngineTraceRow
  wealth : List WealthPoint
  dailyWealth : Option ℚ
  baselineId : Option Str

abbrev EngineM := Machine EngineState Fault

namespace Engine

variable (E : EngineEnv Z)

/-- `_context`. -/
def context (p : EnginePoint) (eventId : Str) (approved : Option AccountSnapshot) :
    AccountingContext :=
  { runId := E.hashes.runId E.spec
    point := p.reduction
    economicAt := p.economic
    eventId
    expectedMarkSession := p.markSession
    instruments := E.spec.instruments
    approvedSnapshot := approved
    riskPolicySha256 := approved.map fun _ => E.hashes.riskPolicy E.spec.riskPolicy }

/-- A computation without access to the engine. -/
def py {α : Type} (x : Py α) : EngineM α := Machine.lift (x.mapError .raised)

/-- `if bad: raise _Stop(status, reason)`. -/
def stopIf (bad : Prop) [Decidable bad] (status : RunStatus) (reason : Str) : EngineM Unit :=
  Machine.raiseWhen bad (.stop status reason)

/-- `_point`: the next place in the reduction. -/
def point (stage : Fin 9) : EngineM Unit :=
  Machine.modify fun s => { s with sequence := s.sequence + 1, stage }

/-- `_project`. -/
def project (eventId : Str) (stage : Fin 9) : EngineM AccountSnapshot := do
  point stage
  let s ← Machine.read
  let current ← py (E.accounting.project s.state (context E s.toEnginePoint eventId none)
    E.spec.executionPolicy)
  Machine.modify fun s => { s with current }
  return current.snapshot

/-! ## Budget and trace -/

/-- `_budget`. -/
def budget : EngineM Unit := do
  let s ← Machine.read
  Machine.modify fun s => { s with budgetChecks := s.budgetChecks + 1 }
  stopIf (E.stopRequested s.budgetChecks) .cancelled "OWNER_CANCELLED"
  stopIf (E.outOfTime s.budgetChecks) .cancelled "WALL_TIME_BUDGET_EXCEEDED"
  stopIf (E.spec.maxEvents < s.processed) .rejected "EVENT_BUDGET_EXCEEDED"
  stopIf (E.spec.maxOutputBytes < s.outputBytes) .rejected "OUTPUT_BUDGET_EXCEEDED"

/-- `_trace`. -/
def trace (eventId kind source : Str) (before : AccountSnapshot) (reasons : List Str)
    (batch : Option DailyIntentBatch) : EngineM Unit := do
  let s ← Machine.read
  let quantities := (batch.map fun b =>
    b.target.targets.map fun t => (t.val.instrumentId, t.val.quantity)).getD []
  let row : EngineTraceRow := {
    eventId
    point := s.reduction
    kind
    causalInputSha256 := source
    priorSnapshotSha256 := E.hashes.snapshot before
    nextSnapshotSha256 := E.hashes.snapshot s.current.snapshot
    stateSha256 := E.hashes.state s.state
    intentIds := (batch.map fun b => b.intents.map (·.val.intentId)).getD []
    targetQuantities := quantities
    reasons
    causalContentSha256 := E.hashes.causal source kind s.reduction quantities reasons
      s.current.snapshot s.strategyState }
  Machine.modify fun s => { s with
    trace := s.trace ++ [row], outputBytes := s.outputBytes + E.hashes.traceBytes row }
  budget E

/-! ## The queue -/

/-- `_enqueue`: an event is queued once. -/
def enqueue (event : EngineEvent) : EngineM Unit := do
  let s ← Machine.read
  match s.events.get? event.val.eventId with
  | some prior => stopIf (prior ≠ event) .rejected "CONFLICTING_EVENT_ID"
  | none => do
    stopIf (E.spec.maxEvents ≤ s.events.entries.length) .rejected "EVENT_BUDGET_EXCEEDED"
    Machine.modify fun s => { s with
      events := s.events.set event.val.eventId event
      queue := s.queue.orderedInsert (· ≤ ·) (toLex (event.val.knowledgeAt, event.val.eventId)) }

/-- `_internal`: an event of the engine's own. -/
def internal (eventId : Str) (payload : EnginePayload) (instant : Instant)
    (predecessorIds : List Str) : Py EngineEvent := do
  let provenance ← construct {
    sourceNamespace := "personal-engine-schedule/1"
    observedAt := none
    simulatedAvailableAt := some (instant, "deterministic-calendar-or-due-command/1") }
  construct { eventId, economicAt := instant, knowledgeAt := instant, payload, provenance,
              predecessorIds }

/-- One event of `_due`. -/
def dueEvent (due : DueAccountingEvent) : EngineM Unit := do
  let s ← Machine.read
  stopIf (due.policySha256 ≠ E.hashes.policy E.spec.executionPolicy ∨ due.dueAt < s.now)
    .failed "INVALID_ACCOUNTING_DUE_EVENT"
  stopIf (due.parentEventId ∉ s.seen) .failed "ACCOUNTING_DUE_EVENT_PARENT_UNAVAILABLE"
  match s.causalSources.get? due.parentEventId with
  | none => Machine.raise (.stop .failed "ACCOUNTING_DUE_EVENT_CAUSAL_BINDING_UNAVAILABLE")
  | some parentSource => do
    Machine.modify fun s => { s with
      causalSources := s.causalSources.set due.eventId
        (E.hashes.derived parentSource due E.spec.executionPolicy) }
    let event ← py (internal due.eventId (.accountingCommand due.command) due.dueAt
      [due.parentEventId])
    enqueue E event

/-- `_due`. -/
def due (events : List DueAccountingEvent) : EngineM Unit := Machine.each events (dueEvent E)

end Engine

end AutoQuantTrader
