import AutoQuantTrader.CorporateAction

/-!
# The settlement ledger

Trade-date cash moves when a trade is executed; money moves when it settles.  The settlement ledger
reclassifies the cash of every execution event as a receivable or a payable, and a confirmation
turns it back into cash.  The aggregate is sealed only after every part of it has been derived a
second time from the trade-date ledger.
-/

namespace AutoQuantTrader

open Result Sorting

/-! ## Instructions, confirmations and obligations -/

structure ExecutionSettlementInstructionFields where
  (instructionId executionEventId executionEventSha256 : Str)
  (contractualSettlementAt recordedAt : Instant)
  externalReference : Str
deriving DecidableEq

def ExecutionSettlementInstructionFields.postInit (i : ExecutionSettlementInstructionFields) :
    Py Unit := do
  requireText i.instructionId "settlement instruction_id"
  requireText i.executionEventId "settlement execution_event_id"
  requireText i.externalReference "settlement external_reference"

abbrev ExecutionSettlementInstruction := Checked ExecutionSettlementInstructionFields.postInit

structure ExecutionSettlementConfirmationFields where
  (confirmationId instructionId instructionSha256 : Str)
  (settledAt recordedAt : Instant)
  externalReference : Str
deriving DecidableEq

def ExecutionSettlementConfirmationFields.postInit (c : ExecutionSettlementConfirmationFields) :
    Py Unit := do
  requireText c.confirmationId "settlement confirmation_id"
  requireText c.instructionId "settlement confirmation instruction_id"
  requireText c.externalReference "settlement confirmation external_reference"
  raiseIf (c.recordedAt < c.settledAt) "settlement cannot be recorded before it occurred"

abbrev ExecutionSettlementConfirmation := Checked ExecutionSettlementConfirmationFields.postInit

inductive SettlementDirection where
  | receivable | payable
deriving DecidableEq

inductive SettlementStatus where
  | unsettled | settled
deriving DecidableEq

structure SettlementObligationFields where
  instruction : ExecutionSettlementInstruction
  confirmation : Option ExecutionSettlementConfirmation
  (orderId executionId executionEventId : Str)
  direction : SettlementDirection
  amount : ℚ
  status : SettlementStatus
deriving DecidableEq

/-- The status a confirmation stands for. -/
def statusOf (confirmation : Option ExecutionSettlementConfirmation) : SettlementStatus :=
  if confirmation.isSome then .settled else .unsettled

/-- The direction of a change in cash. -/
def directionOf (cashDelta : ℚ) : SettlementDirection :=
  if 0 < cashDelta then .receivable else .payable

def SettlementObligationFields.postInit (o : SettlementObligationFields) : Py Unit := do
  requireText o.orderId "obligation order_id"
  requireText o.executionId "obligation execution_id"
  requireText o.executionEventId "obligation execution_event_id"
  let amount ← canonicalPersistedDecimal o.amount "settlement obligation amount"
  raiseIf (amount ≤ 0) "settlement obligation amount must be positive"
  raiseIf (o.status ≠ statusOf o.confirmation)
    "obligation status disagrees with confirmation evidence"

abbrev SettlementObligation := Checked SettlementObligationFields.postInit

structure CanonicalSettlementLedgerState where
  accountId : Str
  tradeDateLedger : CanonicalLedgerState
  settlementEntries : List CanonicalLedgerEntry
  balances : List LedgerBalance
  obligations : List SettlementObligation
  currency : Str
  (tradeDateCash settledCash availableCash receivables payables : ℚ)
  asOf : Option Instant

/-- The identifier and digest functions of the settlement records. -/
structure SettlementHashes extends CorporateHashes where
  instruction : ExecutionSettlementInstruction → Str
  confirmation : ExecutionSettlementConfirmation → Str

def SettlementHashes.plain : SettlementHashes where
  toCorporateHashes := .plain
  instruction i := plainId "instruction" [.text i.val.instructionId]
  confirmation c := plainId "confirmation" [.text c.val.confirmationId]

variable (H : SettlementHashes)

/-- Bind one contractual settlement instruction to an exact execution revision. -/
def createSettlementInstruction (event : BrokerOrderEvent)
    (contractualSettlementAt recordedAt : Instant) (externalReference : Str) :
    Py ExecutionSettlementInstruction := do
  raiseIf (event.val.kind.report? = none) "settlement instruction requires an execution event"
  raiseIf (contractualSettlementAt < event.val.occurredAt)
    "contractual settlement cannot precede execution"
  raiseIf (recordedAt < event.val.receivedAt)
    "settlement instruction cannot predate execution receipt"
  construct {
    instructionId := H.canonicalId "settlement-instruction" [.text externalReference]
    executionEventId := event.val.eventId
    executionEventSha256 := H.brokerEvent event
    contractualSettlementAt
    recordedAt
    externalReference }

/-- Confirm the actual settlement of one exact instruction. -/
def createSettlementConfirmation (instruction : ExecutionSettlementInstruction)
    (settledAt recordedAt : Instant) (externalReference : Str) :
    Py ExecutionSettlementConfirmation := do
  raiseIf (settledAt < instruction.val.recordedAt)
    "actual settlement cannot predate its instruction"
  construct {
    confirmationId := H.canonicalId "settlement-confirmation" [.text externalReference]
    instructionId := instruction.val.instructionId
    instructionSha256 := H.instruction instruction
    settledAt
    recordedAt
    externalReference }

/-! ## What executions do to cash -/

structure ExecutionCashDelta where
  (orderId executionId : Str)
  event : BrokerOrderEvent
  cashDelta : ℚ

def eventCash (report : ExecutionReport) (side : Side) : Py ℚ := do
  let notional ← exactDecimalMultiply report.quantity report.price
  match side with
  | .buy => do
    let total ← exactDecimalAdd notional report.fee
    return -total
  | .sell => exactDecimalSubtract notional report.fee

/-- The cash an execution event replaces: none for a first revision. -/
def previousCash (side : Side) (predecessors : Dict Str BrokerOrderEvent)
    (event : BrokerOrderEvent) : Py ℚ :=
  match event.val.kind with
  | .executionCorrection report _ => do
    let predecessor ← getOrThrow (predecessors.get? report.executionId) .keyError
    let previous ← getOrThrow predecessor.val.kind.report? .assertionError
    eventCash previous side
  | _ => return 0

/-- What has been collected from the orders so far. -/
structure CashDeltaState where
  sourceEventIds : Dict Str BrokerOrderEvent
  executionOwners : Dict Str Str
  predecessors : Dict Str BrokerOrderEvent
  deltas : List ExecutionCashDelta

def collectCashDelta (state : CanonicalOrderState) (acc : CashDeltaState)
    (event : BrokerOrderEvent) : Py CashDeltaState :=
  match event.val.kind.report? with
  | none => return acc
  | some report => do
    let orderId := state.submission.val.orderId
    let side := state.submission.val.intent.val.side
    let sourceEventIds ← Dict.uniqueStep (·.val.eventId)
      (.valueError "execution event identity has conflicting semantics") acc.sourceEventIds event
    raiseIf (∃ owner ∈ acc.executionOwners.get? report.executionId, owner ≠ orderId)
      "execution identity is reused across orders"
    let currentCash ← eventCash report side
    let previous ← previousCash side acc.predecessors event
    let cashDelta ← exactDecimalSubtract currentCash previous
    return {
      sourceEventIds
      executionOwners := acc.executionOwners.set report.executionId orderId
      predecessors := acc.predecessors.set report.executionId event
      deltas := if cashDelta = 0 then acc.deltas
        else acc.deltas ++ [⟨orderId, report.executionId, event, cashDelta⟩] }

def collectOrderDeltas (acc : CashDeltaState) (state : CanonicalOrderState) : Py CashDeltaState :=
  state.brokerEvents.foldlM (collectCashDelta state) { acc with predecessors := .empty }

def ExecutionCashDelta.order (d : ExecutionCashDelta) : Instant ×ₗ Instant ×ₗ Str ×ₗ Nat :=
  toLex (d.event.val.receivedAt, toLex (d.event.val.occurredAt,
    toLex (d.orderId, d.event.val.brokerSequence)))

def executionCashDeltas (states : List CanonicalOrderState) : Py (List ExecutionCashDelta) := do
  let uniqueStates ← Dict.unique (·.submission.val.orderId)
    (.valueError "order identity has conflicting settlement states") states
  let acc ← (sortOn (·.submission.val.orderId) uniqueStates.values).foldlM collectOrderDeltas
    ⟨.empty, .empty, .empty, []⟩
  return sortOn ExecutionCashDelta.order acc.deltas

/-! ## Entries -/

def settlementPosting (account : LedgerAccount) (currency : Str) (amountDelta : ℚ) :
    Py CanonicalLedgerPosting := do
  let amountDelta ← canonicalPersistedDecimal amountDelta (account.name ++ " settlement delta")
  raiseIf (amountDelta = 0) "settlement posting cannot be empty"
  construct (postingFields ⟨account, currency, none⟩ amountDelta 0)

def settlementAccount (cashDelta : ℚ) : LedgerAccount :=
  if 0 < cashDelta then .tradeReceivables else .tradePayables

/-- An entry that moves `cashDelta` out of cash into the settlement account, or back. -/
def settlementEntry (kind : LedgerEntryKind) (referenceId sourceSha256 : Str)
    (effectiveAt recordedAt : Instant) (currency : Str) (account : LedgerAccount)
    (intoCash : ℚ) : Py CanonicalLedgerEntry := do
  let cash ← settlementPosting (.cash currency) currency intoCash
  let settlement ← settlementPosting account currency (-intoCash)
  construct {
    entryId := H.canonicalId "settlement-ledger-entry"
      [.enum "LedgerEntryKind" kind.value, .text referenceId, .text sourceSha256]
    kind, referenceId, sourceSha256, effectiveAt, recordedAt
    postings := sortOn (·.val.key.account.name) [cash, settlement] }

/-- The entry that takes an execution's cash out of settled cash. -/
def reclassificationEntry (currency : Str) (instruction : ExecutionSettlementInstruction)
    (effectiveAt : Instant) (cashDelta : ℚ) : Py CanonicalLedgerEntry :=
  settlementEntry H .settlementReclassification instruction.val.instructionId
    (H.instruction instruction) effectiveAt instruction.val.recordedAt currency
    (settlementAccount cashDelta) (-cashDelta)

/-- The entry that brings it back. -/
def confirmationEntry (currency : Str) (confirmation : ExecutionSettlementConfirmation)
    (cashDelta : ℚ) : Py CanonicalLedgerEntry :=
  settlementEntry H .executionSettlement confirmation.val.confirmationId
    (H.confirmation confirmation) confirmation.val.settledAt confirmation.val.recordedAt currency
    (settlementAccount cashDelta) cashDelta

/-! ## The second derivation -/

def validateTradeDateLedger (ledger : CanonicalLedgerState) : Py Unit := do
  raiseIf (ledger.entries ≠ sortOn (·.val.order) ledger.entries)
    "trade-date entries must use canonical order"
  raiseIf (¬ (ledger.entries.map (·.val.entryId)).Nodup)
    "trade-date ledger cannot repeat an entry identity"
  ledger.entries.forM fun e => do
    raiseIf (e.val.kind ∉ [LedgerEntryKind.cashFlow, .execution, .executionCorrection])
      "trade-date ledger contains a non-trade-date entry"
    raiseIf (e.val.entryId ≠ H.canonicalId "ledger-entry"
        [.enum "LedgerEntryKind" e.val.kind.value, .text e.val.referenceId,
          .text e.val.sourceSha256])
      "trade-date ledger entry identity is not canonical"
  let balances ← projectBalances ledger.entries
  raiseIf (ledger.balances ≠ balances) "trade-date balances do not match the canonical entries"
  raiseIf (ledger.asOf ≠ latestRecordedAt ledger.entries)
    "trade-date as_of does not match the canonical entries"

/-- The cash an entry moves in a currency. -/
def entryCashDelta (currency : Str) (entry : CanonicalLedgerEntry) : Py ℚ :=
  match entry.val.postings.find? (·.val.key = ⟨.cash currency, currency, none⟩) with
  | some posting => exactDecimalSubtract posting.val.debit posting.val.credit
  | none => return 0

def collectCashEntry (currency : Str) (entries : Dict Str (CanonicalLedgerEntry × ℚ))
    (entry : CanonicalLedgerEntry) : Py (Dict Str (CanonicalLedgerEntry × ℚ)) :=
  if entry.val.kind ∉ [LedgerEntryKind.execution, .executionCorrection] then return entries
  else do
    let cashDelta ← entryCashDelta currency entry
    raiseIf (cashDelta ≠ 0 ∧ (entries.get? entry.val.referenceId).isSome)
      "trade-date ledger repeats an execution event identity"
    return if cashDelta = 0 then entries else entries.set entry.val.referenceId (entry, cashDelta)

def executionCashEntries (ledger : CanonicalLedgerState) (currency : Str) :
    Py (Dict Str (CanonicalLedgerEntry × ℚ)) :=
  ledger.entries.foldlM (collectCashEntry currency) .empty

/-- The identities used and the entries made while obligations are checked. -/
structure ObligationState where
  (instructionIds confirmationIds : List Str)
  entries : List CanonicalLedgerEntry

def checkObligation (currency : Str) (obligations : Dict Str SettlementObligation)
    (acc : ObligationState) (item : Str × CanonicalLedgerEntry × ℚ) : Py ObligationState := do
  let (eventId, tradeEntry, cashDelta) := item
  let obligation ← getOrThrow (obligations.get? eventId) .keyError
  let instruction := obligation.val.instruction
  raiseIf (instruction.val.instructionId ∈ acc.instructionIds)
    "settlement obligations cannot reuse an instruction identity"
  raiseIf (instruction.val.executionEventId ≠ eventId)
    "settlement instruction belongs to a different execution event"
  raiseIf (instruction.val.executionEventSha256 ≠ tradeEntry.val.sourceSha256)
    "settlement instruction does not bind its trade-date entry"
  raiseIf (instruction.val.contractualSettlementAt < tradeEntry.val.effectiveAt)
    "contractual settlement cannot precede execution"
  raiseIf (instruction.val.recordedAt < tradeEntry.val.recordedAt)
    "settlement instruction predates execution receipt"
  raiseIf (obligation.val.direction ≠ directionOf cashDelta)
    "settlement obligation direction disagrees with trade-date cash"
  raiseIf (obligation.val.amount ≠ |cashDelta|)
    "settlement obligation amount disagrees with trade-date cash"
  let entry ← reclassificationEntry H currency instruction tradeEntry.val.effectiveAt cashDelta
  raiseIf (obligation.val.confirmation = none ∧ obligation.val.status ≠ .unsettled)
    "settlement obligation status disagrees with confirmation evidence"
  let confirmed ← obligation.val.confirmation.toList.mapM fun confirmation => do
    raiseIf (confirmation.val.confirmationId ∈ acc.confirmationIds)
      "settlement obligations cannot reuse a confirmation identity"
    raiseIf (confirmation.val.instructionId ≠ instruction.val.instructionId)
      "settlement confirmation belongs to a different instruction"
    raiseIf (confirmation.val.instructionSha256 ≠ H.instruction instruction)
      "settlement confirmation does not bind its exact instruction"
    raiseIf (confirmation.val.settledAt < instruction.val.recordedAt)
      "actual settlement predates its instruction"
    raiseIf (obligation.val.status ≠ .settled)
      "settlement obligation status disagrees with confirmation evidence"
    confirmationEntry H currency confirmation cashDelta
  return {
    instructionIds := instruction.val.instructionId :: acc.instructionIds
    confirmationIds :=
      (obligation.val.confirmation.map (·.val.confirmationId)).toList ++ acc.confirmationIds
    entries := acc.entries ++ entry :: confirmed }

def entriesForObligations (ledger : CanonicalLedgerState) (obligations : List SettlementObligation)
    (currency : Str) : Py (List CanonicalLedgerEntry) := do
  let executions ← executionCashEntries ledger currency
  let byEvent := obligations.foldl (fun d o => d.set o.val.executionEventId o) .empty
  raiseIf (¬ (byEvent.keys ⊆ executions.keys ∧ executions.keys ⊆ byEvent.keys))
    "settlement obligations do not cover the trade-date execution cash deltas"
  let acc ← executions.entries.foldlM (checkObligation H currency byEvent) ⟨[], [], []⟩
  return sortOn (·.val.order) acc.entries

structure DerivedSettlementAggregate where
  balances : List LedgerBalance
  (tradeDateCash settledCash availableCash receivables payables : ℚ)
  asOf : Option Instant

def deriveSettlementAggregate (ledger : CanonicalLedgerState)
    (settlementEntries : List CanonicalLedgerEntry) (currency : Str) :
    Py DerivedSettlementAggregate := do
  let allEntries := sortOn (·.val.order) (ledger.entries ++ settlementEntries)
  raiseIf (¬ (allEntries.map (·.val.entryId)).Nodup)
    "settlement aggregate cannot repeat a ledger entry identity"
  let balances ← projectBalances allEntries
  let settledCash := (balanceAt balances ⟨.cash currency, currency, none⟩).1
  let receivables := (balanceAt balances ⟨.tradeReceivables, currency, none⟩).1
  let payableBalance := (balanceAt balances ⟨.tradePayables, currency, none⟩).1
  raiseIf (receivables < 0 ∨ 0 < payableBalance)
    "settlement balances have invalid account orientation"
  let availableCash ← exactDecimalAdd settledCash payableBalance
  return {
    balances
    tradeDateCash := (balanceAt ledger.balances ⟨.cash currency, currency, none⟩).1
    settledCash
    availableCash
    receivables
    payables := -payableBalance
    asOf := latestRecordedAt allEntries }

def SettlementObligationFields.order (o : SettlementObligationFields) : Instant ×ₗ Str ×ₗ Str :=
  toLex (o.instruction.val.recordedAt, toLex (o.orderId, o.executionEventId))

def checkSettlementAmount (fieldName : Str) (actual expected : ℚ) : Py Unit := do
  let actual ← canonicalPersistedDecimal actual ("settlement " ++ fieldName)
  raiseIf (actual ≠ expected) ("settlement " ++ fieldName ++ " does not match canonical balances")

def CanonicalSettlementLedgerState.validate (s : CanonicalSettlementLedgerState) : Py Unit := do
  requireText s.accountId "settlement account_id"
  requireCurrency s.currency
  validateTradeDateLedger H s.tradeDateLedger
  raiseIf (s.obligations ≠ sortOn (·.val.order) s.obligations)
    "settlement obligations must use canonical order"
  raiseIf (¬ (s.obligations.map (·.val.executionEventId)).Nodup)
    "settlement obligations cannot repeat an execution event"
  let expectedEntries ← entriesForObligations H s.tradeDateLedger s.obligations s.currency
  raiseIf (s.settlementEntries ≠ expectedEntries)
    "settlement entries do not match their canonical obligations"
  let derived ← deriveSettlementAggregate s.tradeDateLedger s.settlementEntries s.currency
  raiseIf (s.balances ≠ derived.balances)
    "settlement balances do not match the canonical ledger entries"
  checkSettlementAmount "trade-date cash" s.tradeDateCash derived.tradeDateCash
  checkSettlementAmount "settled cash" s.settledCash derived.settledCash
  checkSettlementAmount "available cash" s.availableCash derived.availableCash
  checkSettlementAmount "receivables" s.receivables derived.receivables
  checkSettlementAmount "payables" s.payables derived.payables
  raiseIf (s.asOf ≠ derived.asOf) "settlement as_of does not match the canonical ledger entries"

/-! ## The reduction -/

/-- The entries and the obligation of one execution's cash. -/
def settleDelta (currency : Str) (byEvent : Dict Str ExecutionSettlementInstruction)
    (byInstruction : Dict Str ExecutionSettlementConfirmation) (delta : ExecutionCashDelta) :
    Py (List CanonicalLedgerEntry × SettlementObligation) := do
  let instruction ← getOrThrow (byEvent.get? delta.event.val.eventId) .keyError
  raiseIf (instruction.val.executionEventSha256 ≠ H.brokerEvent delta.event)
    "settlement instruction does not bind its execution event"
  raiseIf (instruction.val.contractualSettlementAt < delta.event.val.occurredAt)
    "contractual settlement cannot precede execution"
  raiseIf (instruction.val.recordedAt < delta.event.val.receivedAt)
    "settlement instruction predates execution receipt"
  let entry ← reclassificationEntry H currency instruction delta.event.val.occurredAt
    delta.cashDelta
  let confirmation := byInstruction.get? instruction.val.instructionId
  let confirmed ← confirmation.toList.mapM fun confirmation => do
    raiseIf (confirmation.val.instructionSha256 ≠ H.instruction instruction)
      "confirmation does not bind its exact instruction"
    raiseIf (confirmation.val.settledAt < instruction.val.recordedAt)
      "actual settlement predates its instruction"
    confirmationEntry H currency confirmation delta.cashDelta
  let obligation ← construct {
    instruction
    confirmation
    orderId := delta.orderId
    executionId := delta.executionId
    executionEventId := delta.event.val.eventId
    direction := directionOf delta.cashDelta
    amount := |delta.cashDelta|
    status := statusOf confirmation }
  return (entry :: confirmed, obligation)

/-- The aggregate as it is put together, before it is sealed. -/
def unsealedSettlementLedger (accountId : Str) (orderStates : List CanonicalOrderState)
    (cashFlows : List LedgerCashFlow) (instructions : List ExecutionSettlementInstruction)
    (confirmations : List ExecutionSettlementConfirmation) (currency : Str) :
    Py CanonicalSettlementLedgerState := do
  requireText accountId "settlement account_id"
  requireCurrency currency
  let tradeDateLedger ← reduceExecutionLedger H.toLedgerHashes orderStates cashFlows currency
  let deltas ← executionCashDeltas orderStates
  let (byId, byEvent) ← Dict.unique₃ (·.val.instructionId) (·.val.executionEventId)
    (·.val.externalReference) (.valueError "settlement instruction identity conflicts")
    (.valueError "execution event has conflicting instructions")
    (.valueError "instruction external reference conflicts") instructions
  let (_, byInstruction) ← Dict.unique₃ (·.val.confirmationId) (·.val.instructionId)
    (·.val.externalReference) (.valueError "settlement confirmation identity conflicts")
    (.valueError "instruction has conflicting confirmations")
    (.valueError "confirmation external reference conflicts") confirmations
  let expectedEventIds := deltas.map (·.event.val.eventId)
  raiseIf (∃ id ∈ expectedEventIds, id ∉ byEvent.keys)
    "settlement instructions have missing execution events"
  raiseIf (∃ id ∈ byEvent.keys, id ∉ expectedEventIds)
    "settlement instructions have unexpected execution events"
  raiseIf (∃ id ∈ byInstruction.keys, id ∉ byId.keys)
    "settlement confirmation has no known instruction"
  let settled ← deltas.mapM (settleDelta H currency byEvent byInstruction)
  let settlementEntries := sortOn (·.val.order) (settled.flatMap (·.1))
  let derived ← deriveSettlementAggregate tradeDateLedger settlementEntries currency
  return {
    accountId
    tradeDateLedger
    settlementEntries
    balances := derived.balances
    obligations := sortOn (·.val.order) (settled.map (·.2))
    currency
    tradeDateCash := derived.tradeDateCash
    settledCash := derived.settledCash
    availableCash := derived.availableCash
    receivables := derived.receivables
    payables := derived.payables
    asOf := derived.asOf }

/-- Reclassify trade-date cash and apply explicit execution settlements. -/
def reduceSettlementLedger (accountId : Str) (orderStates : List CanonicalOrderState)
    (cashFlows : List LedgerCashFlow) (instructions : List ExecutionSettlementInstruction)
    (confirmations : List ExecutionSettlementConfirmation) (currency : Str) :
    Py CanonicalSettlementLedgerState := do
  let state ← unsealedSettlementLedger H accountId orderStates cashFlows instructions confirmations
    currency
  state.validate H
  return state

end AutoQuantTrader
