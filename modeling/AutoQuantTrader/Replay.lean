import AutoQuantTrader.Contracts
import AutoQuantTrader.Lib.Machine

/-!
# Market replay

A tape of market events and watermarks, replayed in the order of availability.  A watermark seals
the slice of one event time into a batch; a complete batch is handed to the strategy.  Identities,
revision chains and availability are checked over the whole tape before the loop starts, and most of
it is checked again inside.

The callback is outside code: it works on a world of its own and may raise anything.  `Observed` is
what the replay leaves behind when it raises: that world, and the record of what was sealed and
called.
-/

namespace AutoQuantTrader

open Result Sorting

/-! ## Records -/

structure MarketEventFields where
  (eventId instrumentId symbol : Str)
  (eventTime availableAt : Instant)
  closePrice : ℚ
  source : Str := "fixed-tape"
  sourceSequence : Option Int := none
  observationId : Option Str := none
  revision : Int := 1
  supersedesEventRevisionId : Option Str := none
deriving DecidableEq

def MarketEventFields.postInit (e : MarketEventFields) : Py Unit := do
  requireTrimmed e.eventId "event_id"
  requireTrimmed e.instrumentId "instrument_id"
  requireTrimmed e.symbol "symbol"
  requireTrimmed e.source "source"
  raiseIf (¬ isUppercase e.symbol) "symbol must use its canonical uppercase form"
  raiseIf (∃ id ∈ e.observationId, id = "" ∨ ¬ isTrimmed id)
    "observation_id must be non-empty and trimmed"
  raiseIf (∃ n ∈ e.sourceSequence, n < 0) "source_sequence must be a non-negative integer"
  raiseIf (e.revision < 1) "revision must be a positive integer"
  raiseIf (e.revision = 1 ∧ e.supersedesEventRevisionId ≠ none)
    "an initial event revision cannot supersede another revision"
  raiseIf (1 < e.revision ∧ (e.observationId = none ∨ e.supersedesEventRevisionId.getD "" = ""))
    "a correction requires an observation_id and superseded event revision"
  raiseIf (e.supersedesEventRevisionId = some e.eventId) "an event revision cannot supersede itself"
  raiseIf (e.closePrice ≤ 0) "close_price must be a finite positive decimal"
  let _ ← canonicalPersistedDecimal e.closePrice "close_price"
  raiseIf (e.availableAt < e.eventTime) "available_at cannot precede event_time"

abbrev MarketEvent := Checked MarketEventFields.postInit

/-- `observation_id or event_id`; the check excludes an empty observation. -/
def MarketEventFields.observationKey (e : MarketEventFields) : Str := e.observationId.getD e.eventId

inductive ReplayRevisionPolicy where
  | firstSeen | revisedAsOf
deriving DecidableEq

structure MarketWatermarkFields where
  watermarkId : Str
  (eventTimeThrough closedAt : Instant)
  expectedInstrumentIds : List Str
  revisionPolicy : ReplayRevisionPolicy := .revisedAsOf
deriving DecidableEq

def MarketWatermarkFields.postInit (w : MarketWatermarkFields) : Py Unit := do
  requireTrimmed w.watermarkId "watermark_id"
  raiseIf (w.closedAt < w.eventTimeThrough)
    "watermark closed_at cannot precede its event-time frontier"
  raiseIf (w.expectedInstrumentIds = []) "watermark requires at least one expected instrument"
  raiseIf (w.expectedInstrumentIds ≠ sortOn id w.expectedInstrumentIds.dedup)
    "expected instruments must be unique and sorted"
  w.expectedInstrumentIds.forM (requireTrimmed · "expected instrument_id")

/-- An event-time frontier sealed at one instant. -/
abbrev MarketWatermark := Checked MarketWatermarkFields.postInit

/-- The order of the events of a batch. -/
def MarketEventFields.batchKey (e : MarketEventFields) :
    Str ×ₗ Str ×ₗ Bool ×ₗ Int ×ₗ Str ×ₗ Int ×ₗ Str :=
  toLex (e.instrumentId, toLex (e.source, toLex (e.sourceSequence.isNone,
    toLex (e.sourceSequence.getD 0, toLex (e.observationKey, toLex (e.revision, e.eventId))))))

structure MarketBatchFields where
  watermark : MarketWatermark
  events : List MarketEvent

def MarketBatchFields.validate (b : MarketBatchFields) : Py Unit := do
  raiseIf (b.events ≠ sortOn (·.val.batchKey) b.events)
    "market batch events must use canonical order"
  raiseIf (¬ (b.events.map (·.val.instrumentId)).Nodup)
    "market batch must contain at most one event per instrument"
  raiseIf (∃ e ∈ b.events, e.val.instrumentId ∉ b.watermark.val.expectedInstrumentIds)
    "market batch contains an unexpected instrument"
  b.events.forM fun e => do
    raiseIf (e.val.eventTime ≠ b.watermark.val.eventTimeThrough)
      "market batch event is outside its exact decision slice"
    raiseIf (b.watermark.val.closedAt < e.val.availableAt)
      "market batch cannot contain a fact unavailable at its as_of"

/-- One permanently sealed decision slice. -/
abbrev MarketBatch := Checked MarketBatchFields.validate

namespace MarketBatchFields

def asOf (b : MarketBatchFields) : Instant := b.watermark.val.closedAt

def missingInstrumentIds (b : MarketBatchFields) : List Str :=
  b.watermark.val.expectedInstrumentIds.filter (· ∉ b.events.map (·.val.instrumentId))

def complete (b : MarketBatchFields) : Prop := b.missingInstrumentIds = []

instance (b : MarketBatchFields) : Decidable b.complete :=
  inferInstanceAs (Decidable (b.missingInstrumentIds = []))

end MarketBatchFields

/-- The digests of the replay. -/
structure ReplayHashes where
  tape : List MarketEvent → List MarketWatermark → Str
  batch : MarketBatch → Str

def ReplayHashes.plain : ReplayHashes where
  tape events watermarks := plainId "tape" (events.map (.text ·.val.eventId) ++
    watermarks.map (.text ·.val.watermarkId))
  batch batch := plainId "batch" [.text batch.val.watermark.val.watermarkId]

def ReplayHashes.batchId (H : ReplayHashes) (batch : MarketBatch) : Str :=
  "market-batch-" ++ ⟨(H.batch batch).chars.take 32⟩

/-! ## The tape -/

inductive ReplayItem where
  | event (event : MarketEvent)
  | watermark (watermark : MarketWatermark)

/-- When an item takes its turn. -/
def ReplayItem.availableAt : ReplayItem → Instant
  | .event e => e.val.availableAt
  | .watermark w => w.val.closedAt

/-- The order of the queue; at one instant the events come before the watermarks. -/
def ReplayItem.key : ReplayItem →
    Instant ×ₗ Nat ×ₗ Str ×ₗ Bool ×ₗ Int ×ₗ Str ×ₗ Instant ×ₗ Str ×ₗ Str ×ₗ Int ×ₗ Str
  | .event e => toLex (e.val.availableAt, toLex (0, toLex (e.val.source,
      toLex (e.val.sourceSequence.isNone, toLex (e.val.sourceSequence.getD 0, toLex ("market",
        toLex (e.val.eventTime, toLex (e.val.instrumentId, toLex (e.val.observationKey,
          toLex (e.val.revision, e.val.eventId))))))))))
  | .watermark w => toLex (w.val.closedAt, toLex (1, toLex ("", toLex (true, toLex (0,
      toLex ("watermark", toLex (w.val.eventTimeThrough, toLex ("", toLex (w.val.watermarkId,
        toLex (0, w.val.watermarkId))))))))))

/-- What an observation is known by, and what it is an observation of. -/
def MarketEventFields.observationIdentity (e : MarketEventFields) : Str × Str :=
  (e.source, e.observationKey)

def MarketEventFields.observationBinding (e : MarketEventFields) : Str × Instant :=
  (e.instrumentId, e.eventTime)

def eventConflict (event : MarketEvent) : PyError :=
  .valueError ("market event identity " ++ event.val.eventId.quoted ++ " has conflicting semantics")

def observationConflict (event : MarketEvent) : PyError :=
  .valueError ("market observation identity (" ++ event.val.source.quoted ++ ", " ++
    event.val.observationKey.quoted ++ ") is bound to multiple instrument/event-time chains")

def uniqueMarketEvents (events : List MarketEvent) : Py (List MarketEvent) := do
  let byId ← events.foldlM
    (fun d event => Dict.uniqueStep (·.val.eventId) (eventConflict event) d event) .empty
  let _ ← byId.values.foldlM (Dict.bindStep (·.val.observationIdentity) (·.val.observationBinding)
    observationConflict) .empty
  return byId.values

def watermarkConflict (w : MarketWatermark) : PyError :=
  .valueError ("watermark identity " ++ w.val.watermarkId.quoted ++ " has conflicting semantics")

def sliceConflict (_ : MarketWatermark) : PyError :=
  .valueError "one replay tape cannot seal the same decision event time more than once"

def MarketWatermarkFields.order (w : MarketWatermarkFields) : Instant ×ₗ Instant ×ₗ Str :=
  toLex (w.closedAt, toLex (w.eventTimeThrough, w.watermarkId))

def uniqueWatermarks (watermarks : List MarketWatermark) : Py (List MarketWatermark) := do
  let (byId, _) ← watermarks.foldlM (Dict.admitStep (·.val.watermarkId) (·.val.eventTimeThrough)
    watermarkConflict sliceConflict) (.empty, .empty)
  raiseIf (byId.values = []) "replay requires at least one market watermark"
  let ordered := sortOn (·.val.order) byId.values
  raiseIf (¬ (ordered.map (·.val.eventTimeThrough)).IsChain (· < ·))
    "watermark event-time frontiers must strictly increase in closed-at order"
  return ordered

/-! ## Selection -/

def addRevision (instrumentId : Str) (byRevision : Dict Int MarketEvent) (event : MarketEvent) :
    Py (Dict Int MarketEvent) := do
  raiseIf (∃ existing ∈ byRevision.get? event.val.revision,
      existing.val.eventId ≠ event.val.eventId)
    ("instrument " ++ instrumentId.quoted ++ " has conflicting revision " ++
      Str.ofInt event.val.revision)
  return byRevision.set event.val.revision event

/-- A revision continues the one before it. -/
def checkRevision (instrumentId : Str) (pair : MarketEvent × MarketEvent) : Py Unit := do
  let previous := pair.1.val
  let current := pair.2.val
  raiseIf (current.supersedesEventRevisionId ≠ some previous.eventId)
    ("instrument " ++ instrumentId.quoted ++ " has a broken revision chain")
  raiseIf (current.source ≠ previous.source)
    ("instrument " ++ instrumentId.quoted ++ " changes source within a revision chain")
  raiseIf (current.availableAt < previous.availableAt)
    ("instrument " ++ instrumentId.quoted ++ " has nonmonotonic revision availability")
  raiseIf (previous.sourceSequence.isNone ≠ current.sourceSequence.isNone)
    ("instrument " ++ instrumentId.quoted ++ " changes source-sequence presence")
  raiseIf (∃ m ∈ previous.sourceSequence, ∃ n ∈ current.sourceSequence, n ≤ m)
    ("instrument " ++ instrumentId.quoted ++ " has nonmonotonic source sequence")

/-- The revision of one instrument that a batch uses. -/
def selectRevision (policy : ReplayRevisionPolicy) (instrumentId : Str)
    (instrumentEvents : List MarketEvent) : Py MarketEvent := do
  raiseIf ((instrumentEvents.map (·.val.observationKey)).dedup.length ≠ 1)
    ("instrument " ++ instrumentId.quoted ++ " has multiple observations in one decision slice")
  let byRevision ← instrumentEvents.foldlM (addRevision instrumentId) .empty
  let revisions := sortOn id byRevision.keys
  raiseIf (revisions.head? ≠ some 1 ∨ ¬ revisions.IsChain (fun previous current =>
      current = previous + 1))
    ("instrument " ++ instrumentId.quoted ++ " has a noncontiguous revision chain")
  let ordered ← revisions.mapM fun revision => getOrThrow (byRevision.get? revision) .keyError
  (ordered.zip ordered.tail).forM (checkRevision instrumentId)
  match policy with
  | .firstSeen => getOrThrow ordered.head? .indexError
  | .revisedAsOf => getOrThrow ordered.getLast? .indexError

/-- One event of each instrument of a slice. -/
def selectEvents (events : List MarketEvent) (watermark : MarketWatermark) :
    Py (List MarketEvent) := do
  let byInstrument := Dict.group (·.val.instrumentId) events
  let selected ← byInstrument.entries.mapM fun item =>
    selectRevision watermark.val.revisionPolicy item.1 item.2
  return sortOn (·.val.batchKey) selected

/-! ## What is checked up front -/

/-- The watermark of an event, if it expects the event's instrument. -/
def expectedWatermark (watermarkByEventTime : Dict Instant MarketWatermark) (event : MarketEvent) :
    Py MarketWatermark := do
  let watermark ← getOrThrow (watermarkByEventTime.get? event.val.eventTime)
    (.valueError ("market event " ++ event.val.eventId.quoted ++
      " has no pinned decision watermark"))
  raiseIf (event.val.instrumentId ∉ watermark.val.expectedInstrumentIds)
    ("market event " ++ event.val.eventId.quoted ++ " has an unexpected instrument")
  return watermark

def lateEvent (event : MarketEvent) : Str :=
  "market event " ++ event.val.eventId.quoted ++ " arrived after its watermark"

def checkArrival (watermarkByEventTime : Dict Instant MarketWatermark) (event : MarketEvent) :
    Py Unit := do
  let watermark ← expectedWatermark watermarkByEventTime event
  raiseIf (watermark.val.closedAt < event.val.availableAt) (lateEvent event)

/-- A tape that passed the checks. -/
structure ReplayTape where
  watermarkByEventTime : Dict Instant MarketWatermark
  queue : List ReplayItem
  tapeSha256 : Str
  startedAt : Instant

def prepareTape (H : ReplayHashes) (events : List MarketEvent) (watermarks : List MarketWatermark) :
    Py ReplayTape := do
  let uniqueEvents ← uniqueMarketEvents events
  let uniqueWatermarks ← uniqueWatermarks watermarks
  let watermarkByEventTime := uniqueWatermarks.foldl
    (fun d w => d.set w.val.eventTimeThrough w) .empty
  (sortOn (ReplayItem.event · |>.key) uniqueEvents).forM (checkArrival watermarkByEventTime)
  let eventsByTime := Dict.group (·.val.eventTime) uniqueEvents
  uniqueWatermarks.forM fun w => do
    let _ ← selectEvents (eventsByTime.getD w.val.eventTimeThrough []) w
  let queue := sortOn ReplayItem.key (uniqueEvents.map .event ++ uniqueWatermarks.map .watermark)
  let first ← getOrThrow queue.head? .indexError
  return {
    watermarkByEventTime
    queue
    tapeSha256 := H.tape (sortOn (ReplayItem.event · |>.key) uniqueEvents)
      (sortOn (ReplayItem.watermark · |>.key) uniqueWatermarks)
    startedAt := first.availableAt }

/-! ## The loop -/

/-- An exception of the replay itself, or one of the callback. -/
inductive ReplayFault (ε : Type) where
  | own (error : PyError)
  | callback (error : ε)

/-- What outlives the replay: the world of the callback, with a record of the batches that were
sealed and of the calls that were made, each with the instant it happened at. -/
structure Observed (κ : Type) where
  world : κ
  (sealedBatches calls : List (MarketBatch × Instant))

structure ReplayState (κ : Type) extends Observed κ where
  clock : Instant
  buffered : Dict Instant (List MarketEvent)
  closedEventTimes : List Instant
  processedEventIds : List Str
  batches : List MarketBatch
  (completeBatchIds skippedBatchIds : List Str)

structure ReplayResult where
  (startedAt completedAt : Instant)
  tapeSha256 : Str
  processedEventIds : List Str
  batches : List MarketBatch
  (completeBatchIds skippedBatchIds : List Str)

section loop

variable {κ ε : Type}

/-- `on_complete_batch(batch, FixedClock(now))`, in the world of the callback. -/
abbrev CompleteBatchCallback (κ ε : Type) := MarketBatch → Instant → Machine κ ε Unit

/-- A check of the replay itself. -/
def own {σ α : Type} (x : Py α) : Machine σ (ReplayFault ε) α := Machine.lift (x.mapError .own)

def advanceTo (instant : Instant) : Machine (ReplayState κ) (ReplayFault ε) Unit := do
  let s ← Machine.read
  own (raiseIf (instant < s.clock) "simulated clock cannot move backwards")
  Machine.modify fun s => { s with clock := instant }

def bufferEvent (watermarkByEventTime : Dict Instant MarketWatermark) (event : MarketEvent) :
    Machine (ReplayState κ) (ReplayFault ε) Unit := do
  let _ ← own (expectedWatermark watermarkByEventTime event)
  let s ← Machine.read
  own (raiseIf (event.val.eventTime ∈ s.closedEventTimes) (lateEvent event))
  Machine.modify fun s => { s with
    buffered := s.buffered.push event.val.eventTime event
    processedEventIds := s.processedEventIds ++ [event.val.eventId] }

/-- Call back with a batch; the call is on record before the callback can raise. -/
def callBack (callback : CompleteBatchCallback κ ε) (batch : MarketBatch) :
    Machine (ReplayState κ) (ReplayFault ε) Unit := fun s =>
  match callback batch s.clock s.world with
  | (r, world) =>
    (r.mapError .callback, { s with world, calls := s.calls ++ [(batch, s.clock)] })

variable (H : ReplayHashes) (onCompleteBatch : Option (CompleteBatchCallback κ ε))

/-- Hand a batch over, or skip it. -/
def dispatchBatch (batch : MarketBatch) : Machine (ReplayState κ) (ReplayFault ε) Unit :=
  if batch.val.complete then do
    Machine.modify fun s => { s with completeBatchIds := s.completeBatchIds ++ [H.batchId batch] }
    match onCompleteBatch with
    | some callback => callBack callback batch
    | none => pure ()
  else
    Machine.modify fun s => { s with skippedBatchIds := s.skippedBatchIds ++ [H.batchId batch] }

def sealWatermark (watermark : MarketWatermark) : Machine (ReplayState κ) (ReplayFault ε) Unit := do
  let s ← Machine.read
  let eventTime := watermark.val.eventTimeThrough
  let selected ← own (selectEvents (s.buffered.getD eventTime []) watermark)
  let batch ← own (construct ⟨watermark, selected⟩)
  Machine.modify fun s => { s with
    buffered := s.buffered.erase eventTime
    batches := s.batches ++ [batch]
    closedEventTimes := eventTime :: s.closedEventTimes
    sealedBatches := s.sealedBatches ++ [(batch, s.clock)] }
  dispatchBatch H onCompleteBatch batch

/-- One item of the queue: buffer an event, or seal a watermark. -/
def replayItem (watermarkByEventTime : Dict Instant MarketWatermark) (item : ReplayItem) :
    Machine (ReplayState κ) (ReplayFault ε) Unit := do
  advanceTo item.availableAt
  match item with
  | .event event => bufferEvent watermarkByEventTime event
  | .watermark watermark => sealWatermark H onCompleteBatch watermark

def ReplayState.initial (startedAt : Instant) (observed : Observed κ) : ReplayState κ :=
  { observed with
    clock := startedAt
    buffered := .empty
    closedEventTimes := []
    processedEventIds := []
    batches := []
    completeBatchIds := []
    skippedBatchIds := [] }

/-- Replay an immutable event tape through explicit watermarks. -/
def replayMarketEvents (events : List MarketEvent) (watermarks : List MarketWatermark) :
    Machine (Observed κ) (ReplayFault ε) ReplayResult := do
  let tape ← own (prepareTape H events watermarks)
  Machine.within (ReplayState.initial tape.startedAt) ReplayState.toObserved do
    Machine.each tape.queue (replayItem H onCompleteBatch tape.watermarkByEventTime)
    let s ← Machine.read
    return {
      startedAt := tape.startedAt
      completedAt := s.clock
      tapeSha256 := tape.tapeSha256
      processedEventIds := s.processedEventIds
      batches := s.batches
      completeBatchIds := s.completeBatchIds
      skippedBatchIds := s.skippedBatchIds }

end loop

end AutoQuantTrader
