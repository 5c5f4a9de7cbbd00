import AutoQuantTrader.Order

/-!
# The execution ledger

External cash flows and executions become balanced entries of a double-entry ledger; a correction
posts only the difference to the revision it supersedes.  Balances are projected from the entries.

An account is a constructor here and a text in the code; `LedgerAccount.name` is that text, and no
two accounts share one (`LedgerAccount.name_injective`).
-/

namespace AutoQuantTrader

open Result Sorting

/-! ## Records -/

inductive CashFlowKind where
  | contribution | withdrawal
deriving DecidableEq

inductive LedgerEntryKind where
  | cashFlow | execution | executionCorrection | settlementReclassification | executionSettlement
  | stockSplit | cashDividendAccrual | cashDividendPayment
deriving DecidableEq

def LedgerEntryKind.value : LedgerEntryKind → Str
  | .cashFlow => "cash_flow"
  | .execution => "execution"
  | .executionCorrection => "execution_correction"
  | .settlementReclassification => "settlement_reclassification"
  | .executionSettlement => "execution_settlement"
  | .stockSplit => "stock_split"
  | .cashDividendAccrual => "cash_dividend_accrual"
  | .cashDividendPayment => "cash_dividend_payment"

def requireCurrency (value : Str) : Py Unit :=
  raiseIf (¬ isCurrencyCode value) "currency must be a three-letter uppercase code"

structure LedgerCashFlowFields where
  cashFlowId : Str
  kind : CashFlowKind
  currency : Str
  amount : ℚ
  (effectiveAt recordedAt : Instant)
  externalReference : Str
deriving DecidableEq

def LedgerCashFlowFields.postInit (f : LedgerCashFlowFields) : Py Unit := do
  requireText f.cashFlowId "cash_flow_id"
  requireText f.externalReference "cash flow external_reference"
  requireCurrency f.currency
  let amount ← canonicalPersistedDecimal f.amount "cash flow amount"
  raiseIf (amount ≤ 0) "cash flow amount must be positive"
  raiseIf (f.recordedAt < f.effectiveAt) "cash flow cannot be recorded before it is effective"

abbrev LedgerCashFlow := Checked LedgerCashFlowFields.postInit

/-- The accounts of the ledgers. -/
inductive LedgerAccount where
  | cash (currency : Str)
  | contributions
  | distributions
  | clearing (instrumentId : Str)
  | executionFees
  | tradeReceivables
  | tradePayables
  | splits (instrumentId : Str)
  | dividendReceivable
  | dividendIncome
deriving DecidableEq

def LedgerAccount.name : LedgerAccount → Str
  | .cash currency => "assets:cash:" ++ currency
  | .contributions => "equity:contributions"
  | .distributions => "equity:distributions"
  | .clearing instrumentId => "clearing:executions:" ++ instrumentId
  | .executionFees => "expenses:execution_fees"
  | .tradeReceivables => "assets:trade_receivables"
  | .tradePayables => "liabilities:trade_payables"
  | .splits instrumentId => "corporate-actions:splits:" ++ instrumentId
  | .dividendReceivable => "assets:dividend_receivable"
  | .dividendIncome => "income:cash_dividends"

theorem LedgerAccount.name_injective : Function.Injective LedgerAccount.name := by
  intro a b h
  have happend (s t : Str) : (s ++ t).chars = s.chars ++ t.chars := rfl
  have hchars := congrArg Str.chars h
  cases a <;> cases b <;> simp [name, Str.of, happend] at hchars ⊢ <;> exact congrArg Str.mk hchars

/-- What a balance is kept for. -/
structure BalanceKey where
  account : LedgerAccount
  currency : Str
  instrumentId : Option Str
deriving DecidableEq

/-- The canonical order of balances and postings. -/
def BalanceKey.order (k : BalanceKey) : Str ×ₗ Str ×ₗ Str :=
  toLex (k.account.name, toLex (k.currency, k.instrumentId.getD ""))

structure CanonicalLedgerPostingFields where
  key : BalanceKey
  (debit credit unitsDelta : ℚ)
deriving DecidableEq

def CanonicalLedgerPostingFields.postInit (p : CanonicalLedgerPostingFields) : Py Unit := do
  requireText p.key.account.name "ledger account"
  requireCurrency p.key.currency
  let debit ← canonicalPersistedDecimal p.debit "posting debit"
  let credit ← canonicalPersistedDecimal p.credit "posting credit"
  let unitsDelta ← canonicalPersistedDecimal p.unitsDelta "posting units_delta"
  raiseIf (debit < 0 ∨ credit < 0) "posting debit and credit cannot be negative"
  raiseIf (0 < debit ∧ 0 < credit) "posting cannot contain both a debit and credit"
  raiseIf (debit = 0 ∧ credit = 0 ∧ unitsDelta = 0) "posting must contain money or security units"
  raiseIf (unitsDelta ≠ 0 ∧ p.key.instrumentId = none) "unit posting requires an instrument_id"
  raiseIf (unitsDelta ≠ 0 ∧ ¬ isWhole unitsDelta) "security units must be whole shares"
  requireOptionalText p.key.instrumentId "posting instrument_id"

abbrev CanonicalLedgerPosting := Checked CanonicalLedgerPostingFields.postInit

structure CanonicalLedgerEntryFields where
  entryId : Str
  kind : LedgerEntryKind
  (referenceId sourceSha256 : Str)
  (effectiveAt recordedAt : Instant)
  postings : List CanonicalLedgerPosting
deriving DecidableEq

def CanonicalLedgerEntryFields.postInit (e : CanonicalLedgerEntryFields) : Py Unit := do
  requireText e.entryId "ledger entry_id"
  requireText e.referenceId "ledger reference_id"
  raiseIf (e.recordedAt < e.effectiveAt) "ledger entry cannot be recorded before it is effective"
  raiseIf (e.postings = []) "ledger entry requires immutable postings"
  let keys := e.postings.map (·.val.key)
  raiseIf (keys ≠ sortOn BalanceKey.order keys) "ledger postings must use canonical account order"
  raiseIf (¬ keys.Nodup) "ledger entry cannot repeat one account balance key"
  let totalDebits ← exactDecimalSum (e.postings.map (·.val.debit))
  let totalCredits ← exactDecimalSum (e.postings.map (·.val.credit))
  raiseIf (totalDebits ≠ totalCredits) "ledger entry is not balanced"

abbrev CanonicalLedgerEntry := Checked CanonicalLedgerEntryFields.postInit

structure LedgerBalanceFields where
  key : BalanceKey
  (amount units : ℚ)
deriving DecidableEq

def LedgerBalanceFields.postInit (b : LedgerBalanceFields) : Py Unit := do
  requireText b.key.account.name "balance account"
  requireCurrency b.key.currency
  requireOptionalText b.key.instrumentId "balance instrument_id"
  let _ ← canonicalPersistedDecimal b.amount "balance amount"
  let units ← canonicalPersistedDecimal b.units "balance units"
  raiseIf (¬ isWhole units) "balance units must be whole shares"

abbrev LedgerBalance := Checked LedgerBalanceFields.postInit

structure CanonicalLedgerState where
  entries : List CanonicalLedgerEntry
  balances : List LedgerBalance
  asOf : Option Instant
deriving DecidableEq

/-- The amount and the units a list of balances holds under a key; an account without a balance
holds nothing. -/
def balanceAt (balances : List LedgerBalance) (k : BalanceKey) : ℚ × ℚ :=
  match balances.find? (·.val.key = k) with
  | some balance => (balance.val.amount, balance.val.units)
  | none => (0, 0)

def CanonicalLedgerState.cashBalance (ledger : CanonicalLedgerState) (currency : Str) : ℚ :=
  (balanceAt ledger.balances ⟨.cash currency, currency, none⟩).1

def CanonicalLedgerState.positionQuantity (ledger : CanonicalLedgerState)
    (instrumentId currency : Str) : ℚ :=
  (balanceAt ledger.balances ⟨.clearing instrumentId, currency, some instrumentId⟩).2

/-- The identifier and digest functions of the ledger records. -/
structure LedgerHashes extends OrderHashes where
  brokerEvent : BrokerOrderEvent → Str
  cashFlow : LedgerCashFlow → Str

def LedgerHashes.plain : LedgerHashes where
  toOrderHashes := .plain
  brokerEvent event := plainId "broker-event" [.text event.val.eventId]
  cashFlow flow := plainId "cash-flow" [.text flow.val.cashFlowId]

variable (H : LedgerHashes)

def createCashFlow (kind : CashFlowKind) (currency : Str) (amount : ℚ)
    (effectiveAt recordedAt : Instant) (externalReference : Str) : Py LedgerCashFlow :=
  construct {
    cashFlowId := H.canonicalId "ledger-cash-flow" [.text externalReference]
    kind, currency, amount, effectiveAt, recordedAt, externalReference }

/-! ## Entries -/

/-- The debit and the credit of a change, and the units that move with it. -/
def postingFields (key : BalanceKey) (amountDelta unitsDelta : ℚ) : CanonicalLedgerPostingFields :=
  { key
    debit := if 0 < amountDelta then amountDelta else 0
    credit := if amountDelta < 0 then -amountDelta else 0
    unitsDelta }

def postingFromDelta (key : BalanceKey) (amountDelta unitsDelta : ℚ) :
    Py (Option CanonicalLedgerPosting) := do
  let amountDelta ← canonicalPersistedDecimal amountDelta (key.account.name ++ " amount delta")
  let unitsDelta ← canonicalPersistedDecimal unitsDelta (key.account.name ++ " units delta")
  if amountDelta = 0 ∧ unitsDelta = 0 then return none
  let posting ← construct (postingFields key amountDelta unitsDelta)
  return some posting

/-- An entry with its identity and its postings in canonical order. -/
def ledgerEntry (canonicalId : CanonicalId) (idKind : Str) (kind : LedgerEntryKind)
    (referenceId sourceSha256 : Str) (effectiveAt recordedAt : Instant)
    (postings : List CanonicalLedgerPosting) : Py CanonicalLedgerEntry :=
  construct {
    entryId := canonicalId idKind
      [.enum "LedgerEntryKind" kind.value, .text referenceId, .text sourceSha256]
    kind, referenceId, sourceSha256, effectiveAt, recordedAt
    postings := sortOn (fun p => p.val.key.order) postings }

def cashFlowEntry (cashFlow : LedgerCashFlow) : Py CanonicalLedgerEntry := do
  let f := cashFlow.val
  let direction : ℚ := if f.kind = .contribution then 1 else -1
  let cashDelta ← exactDecimalMultiply f.amount direction
  let equityAccount : LedgerAccount :=
    if f.kind = .contribution then .contributions else .distributions
  let cash ← postingFromDelta ⟨.cash f.currency, f.currency, none⟩ cashDelta 0
  let equity ← postingFromDelta ⟨equityAccount, f.currency, none⟩ (-cashDelta) 0
  ledgerEntry H.canonicalId "ledger-entry" .cashFlow f.cashFlowId (H.cashFlow cashFlow)
    f.effectiveAt f.recordedAt (cash.toList ++ equity.toList)

/-- What one execution does to cash, to the clearing account, to fees and to units. -/
structure ExecutionEconomics where
  (cash clearing fee units : ℚ)

def executionEconomics (report : ExecutionReport) (side : Side) : Py ExecutionEconomics := do
  let notional ← exactDecimalMultiply report.quantity report.price
  match side with
  | .buy => do
    let total ← exactDecimalAdd notional report.fee
    return ⟨-total, notional, report.fee, report.quantity⟩
  | .sell => do
    let proceeds ← exactDecimalSubtract notional report.fee
    return ⟨proceeds, -notional, report.fee, -report.quantity⟩

/-- The difference of two revisions, exactly. -/
def ExecutionEconomics.subtract (current previous : ExecutionEconomics) :
    Py ExecutionEconomics := do
  let cash ← exactDecimalSubtract current.cash previous.cash
  let clearing ← exactDecimalSubtract current.clearing previous.clearing
  let fee ← exactDecimalSubtract current.fee previous.fee
  let units ← exactDecimalSubtract current.units previous.units
  return ⟨cash, clearing, fee, units⟩

/-- The economics an execution event replaces: nothing for a first revision. -/
def previousEconomics (side : Side) (predecessors : Dict Str BrokerOrderEvent)
    (event : BrokerOrderEvent) : Py ExecutionEconomics :=
  match event.val.kind with
  | .executionCorrection report _ => do
    let predecessor ← getOrThrow (predecessors.get? report.executionId) .keyError
    let previous ← getOrThrow predecessor.val.kind.report? .assertionError
    executionEconomics previous side
  | _ => return ⟨0, 0, 0, 0⟩

def executionPostings (instrumentId currency : Str) (delta : ExecutionEconomics) :
    Py (List CanonicalLedgerPosting) := do
  let cash ← postingFromDelta ⟨.cash currency, currency, none⟩ delta.cash 0
  let clearing ← postingFromDelta ⟨.clearing instrumentId, currency, some instrumentId⟩
    delta.clearing delta.units
  let fees ← postingFromDelta ⟨.executionFees, currency, none⟩ delta.fee 0
  return cash.toList ++ clearing.toList ++ fees.toList

/-- The entries posted so far and the current revision of every execution. -/
structure ExecutionJournal where
  predecessors : Dict Str BrokerOrderEvent
  entries : List CanonicalLedgerEntry

/-- The kind of the entry an execution event makes. -/
def BrokerOrderEventKind.entryKind : BrokerOrderEventKind → LedgerEntryKind
  | .executionCorrection _ _ => .executionCorrection
  | _ => .execution

/-- The entry of an execution event, unless nothing changes. -/
def executionEntry (event : BrokerOrderEvent) (postings : List CanonicalLedgerPosting) :
    Py (List CanonicalLedgerEntry) :=
  if postings = [] then return []
  else do
    let entry ← ledgerEntry H.canonicalId "ledger-entry" event.val.kind.entryKind event.val.eventId
      (H.brokerEvent event) event.val.occurredAt event.val.receivedAt postings
    return [entry]

def journalEvent (intent : OrderIntent) (currency : Str) (journal : ExecutionJournal)
    (event : BrokerOrderEvent) : Py ExecutionJournal :=
  match event.val.kind.report? with
  | none => return journal
  | some report => do
    let current ← executionEconomics report intent.val.side
    let previous ← previousEconomics intent.val.side journal.predecessors event
    let delta ← current.subtract previous
    let postings ← executionPostings intent.val.instrumentId currency delta
    let posted ← executionEntry H event postings
    return { predecessors := journal.predecessors.set report.executionId event
             entries := journal.entries ++ posted }

/-- The journal entries of an order's executions. -/
def executionEntries (state : CanonicalOrderState) (currency : Str) :
    Py (List CanonicalLedgerEntry) := do
  let journal ← state.brokerEvents.foldlM
    (journalEvent H state.submission.val.intent currency) ⟨.empty, []⟩
  return journal.entries

/-! ## Balances -/

def projectPosting (projected : Dict BalanceKey (ℚ × ℚ)) (posting : CanonicalLedgerPosting) :
    Py (Dict BalanceKey (ℚ × ℚ)) := do
  let p := posting.val
  let (amount, units) := projected.getD p.key (0, 0)
  let delta ← exactDecimalSubtract p.debit p.credit
  let amount ← exactDecimalAdd amount delta
  let units ← exactDecimalAdd units p.unitsDelta
  return projected.set p.key (amount, units)

def projectBalances (entries : List CanonicalLedgerEntry) : Py (List LedgerBalance) := do
  let projected ← (entries.flatMap (·.val.postings)).foldlM projectPosting .empty
  ((sortOn (fun item => item.1.order) projected.entries).filter
    fun item => item.2.1 ≠ 0 ∨ item.2.2 ≠ 0).mapM
      fun item => construct ⟨item.1, item.2.1, item.2.2⟩

/-- The latest recording time of some entries. -/
def latestRecordedAt (entries : List CanonicalLedgerEntry) : Option Instant :=
  (entries.map (·.val.recordedAt)).max?

/-- The canonical order of entries. -/
def CanonicalLedgerEntryFields.order (e : CanonicalLedgerEntryFields) :
    Instant ×ₗ Instant ×ₗ Str :=
  toLex (e.recordedAt, toLex (e.effectiveAt, e.entryId))

/-! ## The reduction -/

/-- A state is accepted only as the reducer itself produces it. -/
def requireCanonicalOrder (message : Str) (state : CanonicalOrderState) : Py Unit := do
  let canonical ← reduceOrderLifecycle H.toOrderHashes state.submission state.brokerEvents
    state.cancelRequest
  raiseIf (canonical ≠ state) message

def admitOrder (index : Dict Str CanonicalOrderState) (state : CanonicalOrderState) :
    Py (Dict Str CanonicalOrderState) := do
  requireCanonicalOrder H "ledger requires reducer-produced canonical order states" state
  Dict.uniqueStep (·.submission.val.orderId)
    (.valueError "order identity has conflicting canonical states") index state

/-- The execution events of an order. -/
def CanonicalOrderState.executionEvents (state : CanonicalOrderState) : List BrokerOrderEvent :=
  state.brokerEvents.filter (·.val.kind.report?.isSome)

/-- The entries of one order, once its events do not conflict with those of earlier orders. -/
def postOrder (currency : Str)
    (acc : Dict Str BrokerOrderEvent × List CanonicalLedgerEntry) (state : CanonicalOrderState) :
    Py (Dict Str BrokerOrderEvent × List CanonicalLedgerEntry) := do
  let sourceEvents ← state.executionEvents.foldlM (Dict.uniqueStep (·.val.eventId)
    (.valueError "broker event identity has conflicting ledger semantics")) acc.1
  let entries ← executionEntries H state currency
  return (sourceEvents, acc.2 ++ entries)

/-- Rebuild append-only entries and balances from exact financial facts. -/
def reduceExecutionLedger (orderStates : List CanonicalOrderState)
    (cashFlows : List LedgerCashFlow) (executionCurrency : Str) : Py CanonicalLedgerState := do
  requireCurrency executionCurrency
  let uniqueOrders ← orderStates.foldlM (admitOrder H) .empty
  let flows ← Dict.unique₂ (·.val.cashFlowId) (·.val.externalReference)
    (.valueError "cash flow identity has conflicting semantics")
    (.valueError "cash flow external reference has conflicting semantics") cashFlows
  let flowEntries ← flows.values.mapM (cashFlowEntry H)
  let (_, entries) ← (sortOn (·.submission.val.orderId) uniqueOrders.values).foldlM
    (postOrder H executionCurrency) (.empty, flowEntries)
  let entryIds ← Dict.unique (·.val.entryId)
    (.valueError "ledger entry identity has conflicting semantics")
    (sortOn (·.val.order) entries)
  let entries := entryIds.values
  let balances ← projectBalances entries
  return { entries, balances, asOf := latestRecordedAt entries }

end AutoQuantTrader
