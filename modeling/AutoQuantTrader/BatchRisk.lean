import AutoQuantTrader.BatchRiskContracts
import AutoQuantTrader.Settlement

/-!
# Batch risk

`evaluateBatchRiskDecision` takes a batch, the target it was derived from, the capacity snapshot of
the account, the limits and the holds of earlier decisions.  It measures the batch, judges every
rule, and approves with one reservation if all of them pass.  It changes nothing.
-/

namespace AutoQuantTrader

open Result Sorting

/-! ## The capacity snapshot -/

/-- What the projections prove of a snapshot. -/
structure BatchRiskProjectionAttestation where
  (accountId currency : Str)
  (availableCash currentGrossExposure : ℚ)
  (accountProjectionSha256 settlementProjectionSha256 : Str)
  accountPositions : List PortfolioPosition
  (accountProjectionAsOf settlementProjectionAsOf : Instant)
  (accountExecutionLedgerSha256 settlementExecutionLedgerSha256 : Str)

/-- Everything a decision is measured against, with the projections it was taken from. -/
structure BatchRiskSnapshotFields extends BatchRiskProjectionAttestation where
  version : Str
  portfolioSnapshot : PortfolioSnapshot
  accountProjection : CanonicalAccountProjection
  settlementProjection : CanonicalSettlementLedgerState
  session : BatchRiskSession
  operationalState : BatchRiskOperationalState
  haltedInstruments : Finset Str := ∅
  dailyOrderCount : Nat := 0
  openOrderCount : Nat := 0

/-- The identifier and digest functions of batch risk; `sha256` is the digest of a tagged tuple of
plain values. -/
structure BatchHashes extends IntentHashes where
  sha256 : CanonicalId
  accountProjection : CanonicalAccountProjection → Str
  settlementProjection : CanonicalSettlementLedgerState → Str
  ledger : CanonicalLedgerState → Str
  session : BatchRiskSession → Str
  limits : BatchRiskLimits → Str
  riskSnapshot : BatchRiskSnapshotFields → Str
  authorization : BatchRiskAuthorization canonicalId → Str
  reservation : BatchRiskReservation canonicalId → Str
  activeCapacity : ActiveCapacityUniverse → Str
  riskDecision : BatchRiskDecision canonicalId → Str

def BatchHashes.plain : BatchHashes where
  toIntentHashes := { IntentHashes.plain with canonicalId := digitsId }
  sha256 := plainId
  accountProjection p := plainId "account" [.text p.accountId, .instant p.asOf]
  settlementProjection s := plainId "settlement" [.text s.accountId]
  ledger l := plainId "ledger" [.integer l.entries.length]
  session s := plainId "session" [.day s.val.sessionLabel]
  limits l := plainId "limits" [.text l.val.policyId]
  riskSnapshot s := plainId "risk-snapshot" [.text s.version]
  authorization a := plainId "authorization" [.text a.val.decisionId]
  reservation r := plainId "reservation" [.text r.val.reservationId]
  activeCapacity u := plainId "active-capacity"
    (u.val.reservations.map fun r => .text r.val.reservationId)
  riskDecision d := plainId "risk-decision" [.text d.val.decisionId]

variable (H : BatchHashes)

/-- An open position is valued at the price the portfolio has for it. -/
def attestMark (portfolio : PortfolioSnapshot) (position : InstrumentAccountProjection) :
    Py Unit :=
  if position.val.quantity ≤ 0 then return ⟨⟩
  else
    match portfolio.val.price? position.val.instrumentId, position.val.mark with
    | some price, some mark =>
      raiseIf (price.symbol ≠ position.val.symbol ∨ price.eventId ≠ mark.val.sourceEventId ∨
          price.price ≠ mark.val.price ∨ price.eventTime ≠ mark.val.effectiveAt ∨
          price.availableAt ≠ mark.val.recordedAt)
        "portfolio price does not match the account projection mark"
    | _, _ => throw (.valueError "open account position lacks exact valuation evidence")

/-- Re-prove every economic field retained by a batch-risk snapshot. -/
def attestBatchRiskProjections (portfolio : PortfolioSnapshot)
    (account : CanonicalAccountProjection)
    (settlement : CanonicalSettlementLedgerState) : Py BatchRiskProjectionAttestation := do
  rephrase ("invalid account projection evidence: " ++ ·) (account.validate H.toCorporateHashes)
  rephrase ("invalid settlement projection evidence: " ++ ·)
    (settlement.validate H.toSettlementHashes)
  raiseIf (account.accountId ≠ settlement.accountId)
    "account and settlement projections disagree on account"
  raiseIf (account.currency ≠ settlement.currency) "account and settlement currencies disagree"
  raiseIf (account.ledger ≠ settlement.tradeDateLedger)
    "account and settlement projections use different execution ledgers"
  raiseIf (account.asOf ≠ portfolio.val.asOf)
    "account and portfolio projections have different as_of"
  let settlementAsOf ← getOrThrow settlement.asOf
    (.valueError "settlement projection requires a causal observation time")
  raiseIf (portfolio.val.asOf < settlementAsOf)
    "settlement projection cannot come from the future"
  let accountPositions ← (account.positions.filter (0 < ·.val.quantity)).mapM fun position =>
    (construct ⟨position.val.instrumentId, position.val.symbol, position.val.quantity⟩ :
      Py PortfolioPosition)
  raiseIf (accountPositions ≠ portfolio.val.positions)
    "portfolio positions do not match post-action account positions"
  account.positions.forM (attestMark portfolio)
  let availableCash ← exactDecimalAdd
    (balanceAt settlement.balances ⟨.cash settlement.currency, settlement.currency, none⟩).1
    (balanceAt settlement.balances ⟨.tradePayables, settlement.currency, none⟩).1
  raiseIf (availableCash ≠ settlement.availableCash)
    "settlement available cash does not match its canonical balances"
  let grossExposure ← exactDecimalSum (account.positions.map (|·.val.marketValue|))
  raiseIf (grossExposure ≠ account.grossExposure)
    "account gross exposure does not match its canonical positions"
  return {
    accountId := account.accountId
    currency := account.currency
    availableCash
    currentGrossExposure := grossExposure
    accountProjectionSha256 := H.accountProjection account
    settlementProjectionSha256 := H.settlementProjection settlement
    accountPositions
    accountProjectionAsOf := account.asOf
    settlementProjectionAsOf := settlementAsOf
    accountExecutionLedgerSha256 := H.ledger account.ledger
    settlementExecutionLedgerSha256 := H.ledger settlement.tradeDateLedger }

/-- A retained field is the attested one. -/
def checkAttested {α : Type} [DecidableEq α] (actual expected : α) (fieldName : Str) : Py Unit :=
  raiseIf (actual ≠ expected)
    ("risk snapshot " ++ fieldName ++ " does not match its retained projections")

/-- `_validate`. -/
def BatchRiskSnapshotFields.validate (s : BatchRiskSnapshotFields) : Py Unit := do
  requireText s.accountId "account_id"
  requireText s.version "snapshot version"
  let attestation ← attestBatchRiskProjections H s.portfolioSnapshot s.accountProjection
    s.settlementProjection
  let _ ← canonicalPersistedDecimal s.availableCash "available_cash"
  let _ ← persistedDecimal s.currentGrossExposure "current_gross_exposure" false
  requireText s.currency "currency"
  requireCurrency s.currency
  checkAttested s.accountId attestation.accountId "account identity"
  checkAttested s.currency attestation.currency "currency"
  checkAttested s.availableCash attestation.availableCash "available cash"
  checkAttested s.currentGrossExposure attestation.currentGrossExposure "current gross exposure"
  checkAttested s.accountProjectionSha256 attestation.accountProjectionSha256
    "account projection digest"
  checkAttested s.settlementProjectionSha256 attestation.settlementProjectionSha256
    "settlement projection digest"
  checkAttested s.accountPositions attestation.accountPositions "account positions"
  checkAttested s.accountProjectionAsOf attestation.accountProjectionAsOf "account projection time"
  checkAttested s.settlementProjectionAsOf attestation.settlementProjectionAsOf
    "settlement projection time"
  checkAttested s.accountExecutionLedgerSha256 attestation.accountExecutionLedgerSha256
    "account execution-ledger digest"
  checkAttested s.settlementExecutionLedgerSha256 attestation.settlementExecutionLedgerSha256
    "settlement execution-ledger digest"
  raiseIf (∃ id ∈ s.haltedInstruments, ¬ isText id)
    "halted instrument ID must be a non-empty, trimmed string"

/-- A snapshot that its projections prove. -/
abbrev VersionedBatchRiskSnapshot := Checked (BatchRiskSnapshotFields.validate H)

/-- Seal one reconciled risk snapshot from exact accounting projections. -/
def batchRiskSnapshotFromProjections (version : Str) (portfolio : PortfolioSnapshot)
    (account : CanonicalAccountProjection) (settlement : CanonicalSettlementLedgerState)
    (session : BatchRiskSession) (operationalState : BatchRiskOperationalState)
    (haltedInstruments : Finset Str) (dailyOrderCount openOrderCount : Nat) :
    Py (VersionedBatchRiskSnapshot H) := do
  let attestation ← attestBatchRiskProjections H portfolio account settlement
  construct {
    attestation with
    version
    portfolioSnapshot := portfolio
    accountProjection := account
    settlementProjection := settlement
    session, operationalState, haltedInstruments, dailyOrderCount, openOrderCount }

/-! ## Evidence -/

/-- The quantity and the value of every position of a portfolio. -/
abbrev PortfolioValues := Dict Str ℚ × Dict Str ℚ

/-- One more position, valued at its price. -/
def valueHolding (portfolio : PortfolioSnapshot) (values : PortfolioValues)
    (position : PortfolioPosition) : Py PortfolioValues := do
  let price ← getOrThrow (portfolio.val.price? position.val.instrumentId) (.valueError
    ("current position " ++ position.val.instrumentId.quoted ++ " lacks an exact price"))
  raiseIf (price.symbol ≠ position.val.symbol) "portfolio position and price symbols disagree"
  let value ← exactDecimalMultiply position.val.quantity price.price
  return (values.1.set position.val.instrumentId position.val.quantity,
    values.2.set position.val.instrumentId value)

/-- An intent has its canonical identity and the reference price of the snapshot. -/
def checkIntentEvidence (batch : OrderIntentBatch) (portfolio : PortfolioSnapshot)
    (evaluatedAt : Instant) (intent : OrderIntent) : Py Unit := do
  let i := intent.val
  raiseIf (i.intentId ≠ batchIntentId H.toIntentHashes batch.val.intentBatchId i.instrumentId i.side
      i.quantity)
    "intent ID is not canonically derived"
  let price ← getOrThrow (portfolio.val.price? i.instrumentId)
    (.valueError ("intent " ++ i.intentId.quoted ++ " lacks an exact reference price"))
  raiseIf (i.decisionEventId ≠ price.eventId ∨ i.referenceEventSha256 ≠ H.marketEvent price.event ∨
      i.instrumentId ≠ price.instrumentId ∨ i.symbol ≠ price.symbol ∨
      i.referencePrice ≠ price.price ∨ i.decisionEventTime ≠ price.eventTime)
    "intent reference price evidence does not match snapshot"
  raiseIf (portfolio.val.asOf < price.availableAt ∨ evaluatedAt < price.availableAt)
    "intent reference price was not causally available"
  raiseIf (i.createdAt ≠ portfolio.val.asOf) "intent creation and portfolio snapshot disagree"

/-- The strategy an intent comes from, and when it expires. -/
def strategyBinding (i : OrderIntent) : Str × Str × Str × Instant :=
  (i.val.strategyId, i.val.strategyVersion, i.val.strategyConfigurationSha256, i.val.expiresAt)

def validateBatchRiskEvidence (batch : OrderIntentBatch) (target : TargetPortfolio)
    (snapshot : VersionedBatchRiskSnapshot H) (evaluatedAt : Instant) : Py PortfolioValues := do
  let portfolio := snapshot.val.portfolioSnapshot
  raiseIf (evaluatedAt < portfolio.val.asOf) "risk evaluation cannot precede its portfolio snapshot"
  raiseIf (batch.val.portfolioSnapshotSha256 ≠ H.portfolioSnapshot portfolio)
    "intent batch does not bind the supplied portfolio snapshot"
  raiseIf (batch.val.decisionTrigger.asOf ≠ portfolio.val.asOf)
    "intent batch trigger and portfolio snapshot disagree"
  raiseIf (batch.val.targetId ≠ target.val.targetId ∨
      batch.val.targetSha256 ≠ H.targetPortfolio target)
    "intent batch does not bind the supplied target portfolio"
  let expected ← rephrase ("target-to-intent derivation failed: " ++ ·)
    (targetToIntentBatch H.toIntentHashes target portfolio)
  raiseIf (batch ≠ expected) "intent batch is not the canonical target-position delta"
  raiseIf (batch.val.intentBatchId ≠ H.canonicalId "intent-batch" [.text batch.val.targetId,
      .text batch.val.targetSha256, .text (H.portfolioSnapshot portfolio)])
    "intent batch ID is not canonically derived"
  raiseIf (¬ (batch.val.intents.map (·.val.intentId)).Nodup)
    "intent IDs must be unique within a batch"
  raiseIf (1 < (batch.val.intents.map strategyBinding).dedup.length)
    "intent batch members have conflicting strategy evidence"
  let values ← portfolio.val.positions.foldlM (valueHolding portfolio) (.empty, .empty)
  let gross ← exactDecimalSum values.2.values
  raiseIf (gross ≠ snapshot.val.currentGrossExposure)
    "account gross exposure does not match the supplied positions and prices"
  batch.val.intents.forM (checkIntentEvidence H batch portfolio evaluatedAt)
  return values

/-! ## Reservation terms -/

/-- What one intent is to hold back. -/
structure BatchRiskReservationTerms where
  intent : OrderIntent
  (maximumExecutionPrice maximumFee reservedCash reservedSellQuantity reservedBuyExposure
    grossNotional : ℚ)

/-- The highest price an intent may be executed at. -/
def highestPrice (limits : BatchRiskLimits) (i : OrderIntentFields) : Py ℚ :=
  if i.side = .buy then exactDecimalAdd i.referencePrice limits.val.marketOrderPriceBufferPerShare
  else return i.referencePrice

/-- The notional of an intent: what a purchase may cost, or what a sale is worth. -/
def orderNotional (i : OrderIntentFields) (reservedBuyExposure : ℚ) : Py ℚ :=
  if i.side = .buy then return reservedBuyExposure
  else exactDecimalMultiply i.quantity i.referencePrice

def batchRiskReservationTerms (limits : BatchRiskLimits) (intent : OrderIntent) :
    Py BatchRiskReservationTerms := do
  let i := intent.val
  let variableFee ← exactDecimalMultiply limits.val.estimatedFeePerShare i.quantity
  let maximumFee ← exactDecimalAdd limits.val.estimatedFixedFee variableFee
  let maximumExecutionPrice ← highestPrice limits i
  let reservedBuyExposure ← heldBuyExposure i.side i.quantity maximumExecutionPrice
  let grossNotional ← orderNotional i reservedBuyExposure
  let reservedCash ← exactDecimalAdd reservedBuyExposure maximumFee
  let maximumExecutionPrice ← persistedDecimal maximumExecutionPrice "maximum execution price" true
  let maximumFee ← persistedDecimal maximumFee "maximum fee" false
  let reservedCash ← persistedDecimal reservedCash "reserved cash" false
  let reservedSellQuantity ← persistedDecimal (heldSellQuantity i.side i.quantity)
    "reserved sell quantity" false
  let reservedBuyExposure ← persistedDecimal reservedBuyExposure "reserved buy exposure" false
  let grossNotional ← persistedDecimal grossNotional "gross order notional" false
  return {
    intent, maximumExecutionPrice, maximumFee, reservedCash, reservedSellQuantity
    reservedBuyExposure, grossNotional }

/-! ## The measures of a batch -/

/-- The instruments whose prices a decision rests on: those held, and those of the batch. -/
def riskPriceIds (snapshot : VersionedBatchRiskSnapshot H) (batch : OrderIntentBatch) : List Str :=
  sortedUnique
    ((snapshot.val.portfolioSnapshot.val.positions.filter (0 < ·.val.quantity)).map
      (·.val.instrumentId) ++ batch.val.intents.map (·.val.instrumentId))

/-- `prices[instrument_id]`. -/
def riskPrices (snapshot : VersionedBatchRiskSnapshot H) (batch : OrderIntentBatch) :
    Py (List CausalPrice) :=
  (riskPriceIds H snapshot batch).mapM fun id =>
    getOrThrow (snapshot.val.portfolioSnapshot.val.price? id) .keyError

/-- `amounts[key] = amounts.get(key, 0) + amount`, for each pair in turn. -/
def addAmounts (amounts : Dict Str ℚ) (pairs : List (Str × ℚ)) : Py (Dict Str ℚ) :=
  pairs.foldlM (fun amounts pair => do
    let total ← exactDecimalAdd (amounts.getD pair.1 0) pair.2
    return amounts.set pair.1 total) amounts

/-- The shares of an instrument that no hold claims. -/
def remainingShares (quantities active proposed : Dict Str ℚ) (instrumentId : Str) :
    Py (Str × ℚ) := do
  let unheld ← exactDecimalSubtract (quantities.getD instrumentId 0) (active.getD instrumentId 0)
  let remaining ← exactDecimalSubtract unheld (proposed.getD instrumentId 0)
  return (instrumentId, remaining)

/-- The figures the rules of a decision compare. -/
structure BatchRiskMeasures where
  terms : List BatchRiskReservationTerms
  prices : List CausalPrice
  (batchNotional proposedCash remainingCash : ℚ)
  remainingShares : List (Str × ℚ)
  instrumentExposure : Dict Str ℚ
  (proposedExposure accountGross : ℚ)

section evaluation

variable (batch : OrderIntentBatch) (snapshot : VersionedBatchRiskSnapshot H)
  (limits : BatchRiskLimits) (activeCapacity : ActiveCapacityUniverse) (evaluatedAt : Instant)

def measureBatch (values : PortfolioValues) : Py BatchRiskMeasures := do
  let terms ← batch.val.intents.mapM (batchRiskReservationTerms limits)
  let active := activeCapacity.val.authorizations
  let prices ← riskPrices H snapshot batch
  let batchNotional ← exactDecimalSum (terms.map (·.grossNotional))
  let activeCash ← exactDecimalSumOf (·.val.remainingCash) activeCapacity.val.reservations
  let proposedCash ← exactDecimalSum (terms.map (·.reservedCash))
  let unheldCash ← exactDecimalSubtract snapshot.val.availableCash activeCash
  let remainingCash ← exactDecimalSubtract unheldCash proposedCash
  let activeSells ← addAmounts .empty
    (active.map fun a => (a.val.instrumentId, a.val.remainingSellQuantity))
  let proposedSells ← addAmounts .empty
    (terms.map fun t => (t.intent.val.instrumentId, t.reservedSellQuantity))
  let remainingShares ← (sortedUnique (activeSells.keys ++ proposedSells.keys)).mapM
    (remainingShares values.1 activeSells proposedSells)
  let heldExposure ← addAmounts values.2
    (active.map fun a => (a.val.instrumentId, a.val.remainingBuyExposure))
  let instrumentExposure ← addAmounts heldExposure
    (terms.map fun t => (t.intent.val.instrumentId, t.reservedBuyExposure))
  let activeExposure ← exactDecimalSum (active.map (·.val.remainingBuyExposure))
  let proposedExposure ← exactDecimalSum (terms.map (·.reservedBuyExposure))
  let addedExposure ← exactDecimalAdd activeExposure proposedExposure
  let accountGross ← exactDecimalAdd snapshot.val.currentGrossExposure addedExposure
  return {
    terms, prices, batchNotional, proposedCash, remainingCash, remainingShares, instrumentExposure
    proposedExposure, accountGross }

/-! ## The rules -/

/-- `_decimal_bindings`. -/
def decimalBindings (values : List (Str × ℚ)) : Str :=
  Str.join "," ((sortOn (·.1) values).map fun v => v.1 ++ ":" ++ canonicalDecimalText v.2)

/-- `",".join(sorted(values))`. -/
def joinSorted (values : List Str) : Str := Str.join "," (sortOn id values)

/-- The prices, the snapshot and the evaluation fall into the session. -/
def sessionIsCurrent (prices : List CausalPrice) (evaluatedAt : Instant) : Prop :=
  let session := snapshot.val.session.val
  session.contains snapshot.val.portfolioSnapshot.val.asOf ∧ session.contains evaluatedAt ∧
    ∀ price ∈ prices, session.contains price.eventTime ∧ session.contains price.availableAt

instance (prices : List CausalPrice) (evaluatedAt : Instant) :
    Decidable (sessionIsCurrent H snapshot prices evaluatedAt) :=
  inferInstanceAs (Decidable (_ ∧ _ ∧ _))

def makeRule (rule : BatchRiskRule) (passed : Prop) [Decidable passed] (observed limit : Str) :
    RiskRuleResult :=
  ⟨rule, decide passed, observed, limit⟩

/-- Whether the batch may trade at all, and on what evidence. -/
def evidenceRules (m : BatchRiskMeasures) : List RiskRuleResult :=
  let instruments := batch.val.intents.map (·.val.instrumentId)
  let activeInstruments := activeCapacity.val.authorizations.map (·.val.instrumentId)
  let reserved := instruments.filter (· ∈ activeInstruments)
  let disallowed := instruments.filter (· ∉ limits.val.allowedInstruments)
  let halted := instruments.filter (· ∈ snapshot.val.haltedInstruments)
  let asOf := snapshot.val.portfolioSnapshot.val.asOf
  let session := snapshot.val.session.val
  let stale := (m.prices.filter (limits.val.maxPriceAge ≤ evaluatedAt - ·.eventTime)).map
    CausalPrice.instrumentId
  let expired := (batch.val.intents.filter (·.val.expiresAt ≤ evaluatedAt)).map (·.val.intentId)
  [makeRule .operationalState (snapshot.val.operationalState = .running)
      snapshot.val.operationalState.value BatchRiskOperationalState.running.value,
    makeRule .activeInstrument (reserved = []) (joinSorted reserved) "none",
    makeRule .instrumentAllowList (disallowed = []) (joinSorted disallowed)
      (Str.join "," limits.val.allowedInstruments.sort),
    makeRule .instrumentHalt (halted = []) (joinSorted halted) "none",
    makeRule .session (sessionIsCurrent H snapshot m.prices evaluatedAt)
      (isoformat asOf ++ "," ++ isoformat evaluatedAt)
      ("[" ++ isoformat session.opensAt ++ "," ++ isoformat session.closesAt ++ ")"),
    makeRule .snapshotFreshness (evaluatedAt - asOf < limits.val.maxSnapshotAge)
      (Str.ofInt (evaluatedAt - asOf)) (Str.ofInt limits.val.maxSnapshotAge),
    makeRule .referencePriceFreshness (stale = []) (joinSorted stale)
      (Str.ofInt limits.val.maxPriceAge),
    makeRule .intentFreshness (expired = []) (Str.join "," expired)
      "evaluated_at < intent.expires_at"]

/-- Whether the batch fits the limits, on top of what is held already. -/
def capacityRules (m : BatchRiskMeasures) : List RiskRuleResult :=
  let l := limits.val
  let overQuantity := (m.terms.filter (l.maxOrderQuantity < ·.intent.val.quantity)).map fun t =>
    (t.intent.val.instrumentId, t.intent.val.quantity)
  let overNotional := (m.terms.filter (l.maxOrderNotional < ·.grossNotional)).map fun t =>
    (t.intent.val.instrumentId, t.grossNotional)
  let oversold := m.remainingShares.filter (·.2 < 0)
  let overExposed := m.instrumentExposure.entries.filter (l.maxInstrumentGrossExposure < ·.2)
  let orders := activeCapacity.val.authorizations.length + batch.val.intents.length
  let dailyCount : Int := snapshot.val.dailyOrderCount + orders
  let openCount : Int := snapshot.val.openOrderCount + orders
  [makeRule .quantity (overQuantity = []) (decimalBindings overQuantity)
      (canonicalDecimalText l.maxOrderQuantity),
    makeRule .orderNotional (overNotional = []) (decimalBindings overNotional)
      (canonicalDecimalText l.maxOrderNotional),
    makeRule .batchNotional (m.batchNotional ≤ l.maxBatchNotional)
      (canonicalDecimalText m.batchNotional) (canonicalDecimalText l.maxBatchNotional),
    makeRule .cashBuffer (l.minimumCashBuffer ≤ m.remainingCash)
      (canonicalDecimalText m.remainingCash) (canonicalDecimalText l.minimumCashBuffer),
    makeRule .sellCapacity (oversold = []) (decimalBindings oversold) "remaining shares >= 0",
    makeRule .instrumentGrossExposure (overExposed = []) (decimalBindings overExposed)
      (canonicalDecimalText l.maxInstrumentGrossExposure),
    makeRule .accountGrossExposure (m.accountGross ≤ l.maxAccountGrossExposure)
      (canonicalDecimalText m.accountGross) (canonicalDecimalText l.maxAccountGrossExposure),
    makeRule .dailyOrderCount (dailyCount ≤ l.maxDailyOrderCount) (Str.ofInt dailyCount)
      (Str.ofInt l.maxDailyOrderCount),
    makeRule .openOrderCount (openCount ≤ l.maxOpenOrderCount) (Str.ofInt openCount)
      (Str.ofInt l.maxOpenOrderCount)]

/-! ## The decision -/

/-- `_decision_expiry`: the earliest of all the deadlines a decision rests on. -/
def decisionExpiry : Py Instant := do
  let prices ← riskPrices H snapshot batch
  let deadlines := [snapshot.val.session.val.closesAt,
      snapshot.val.portfolioSnapshot.val.asOf + limits.val.maxSnapshotAge] ++
    batch.val.intents.map (·.val.expiresAt) ++ prices.map (·.eventTime + limits.val.maxPriceAge)
  return deadlines.foldl min (evaluatedAt + limits.val.approvalTtl)

/-- The authorization of one intent of an approved batch. -/
def authorizeTerms (decisionId : Str) (evaluatedAt expiresAt : Instant)
    (t : BatchRiskReservationTerms) : Py (BatchRiskAuthorization H.canonicalId) :=
  let i := t.intent.val
  construct {
    decisionId := authorizationIdOf H.canonicalId decisionId i.intentId
    parentDecisionId := decisionId
    reservationId := reservationIdOf H.canonicalId decisionId
    intentBatchId := batch.val.intentBatchId
    intentBatchSha256 := H.intentBatch batch
    snapshotSha256 := H.riskSnapshot snapshot.val
    policySha256 := H.limits limits
    sessionSha256 := H.session snapshot.val.session
    currency := snapshot.val.currency
    intentId := i.intentId
    intentPayloadHash := H.intentPayloadHash t.intent
    evaluatedAt
    expiresAt
    instrumentId := i.instrumentId
    symbol := i.symbol
    side := i.side
    quantity := i.quantity
    referencePrice := i.referencePrice
    snapshotAsOf := snapshot.val.portfolioSnapshot.val.asOf
    referenceEventTime := i.decisionEventTime
    maximumExecutionPrice := t.maximumExecutionPrice
    maximumFee := t.maximumFee
    maximumCashRequirement := t.reservedCash
    reservedCash := t.reservedCash
    reservedSellQuantity := t.reservedSellQuantity
    reservedBuyExposure := t.reservedBuyExposure }

/-- The identity of the decision on a batch. -/
def batchDecisionId : Str :=
  decisionIdOf H.canonicalId batch.val.intentBatchId (H.intentBatch batch)
    (H.riskSnapshot snapshot.val) (H.activeCapacity activeCapacity) (H.limits limits) evaluatedAt

/-- A decision without holds, from which every other one differs in its last fields. -/
def decisionFields (status : BatchRiskDecisionStatus) (rules : List RiskRuleResult) :
    BatchRiskDecisionFields H.canonicalId where
  decisionId := batchDecisionId H batch snapshot limits activeCapacity evaluatedAt
  intentBatchId := batch.val.intentBatchId
  intentBatchSha256 := H.intentBatch batch
  accountId := snapshot.val.accountId
  snapshotVersion := snapshot.val.version
  snapshotSha256 := H.riskSnapshot snapshot.val
  activeCapacitySha256 := H.activeCapacity activeCapacity
  policyId := limits.val.policyId
  policyVersion := limits.val.policyVersion
  policySha256 := H.limits limits
  currency := snapshot.val.currency
  status
  evaluatedAt
  expiresAt := evaluatedAt + limits.val.approvalTtl
  intentCount := batch.val.intents.length
  rules
  reservation := none
  authorizations := []

/-- The approval of a batch that passed every rule. -/
def approveBatch (m : BatchRiskMeasures) (rules : List RiskRuleResult) :
    Py (BatchRiskDecision H.canonicalId) := do
  let decision := decisionFields H batch snapshot limits activeCapacity evaluatedAt .approved rules
  let expiresAt ← decisionExpiry H batch snapshot limits evaluatedAt
  raiseIf (expiresAt ≤ evaluatedAt) "approved batch has no positive executable lifetime"
  let authorizations ← m.terms.mapM
    (authorizeTerms H batch snapshot limits decision.decisionId evaluatedAt expiresAt)
  let reservation ← (construct {
    reservationId := reservationIdOf H.canonicalId decision.decisionId
    parentDecisionId := decision.decisionId
    intentBatchId := batch.val.intentBatchId
    intentBatchSha256 := H.intentBatch batch
    snapshotSha256 := H.riskSnapshot snapshot.val
    policySha256 := H.limits limits
    currency := snapshot.val.currency
    authorizations
    reservedCash := m.proposedCash
    reservedBuyExposure := m.proposedExposure } : Py (BatchRiskReservation H.canonicalId))
  construct { decision with expiresAt, reservation := some reservation, authorizations }

end evaluation

/-- Evaluate one complete batch without changing capacity. -/
def evaluateBatchRiskDecision (batch : OrderIntentBatch) (target : TargetPortfolio)
    (snapshot : VersionedBatchRiskSnapshot H) (limits : BatchRiskLimits)
    (activeCapacity : ActiveCapacityUniverse) (evaluatedAt : Instant) :
    Py (BatchRiskDecision H.canonicalId) := do
  raiseIf (activeCapacity.val.accountId ≠ snapshot.val.accountId)
    "active capacity and risk snapshot accounts differ"
  raiseIf (∃ r ∈ activeCapacity.val.reservations, r.val.currency ≠ snapshot.val.currency)
    "active capacity and risk snapshot currencies differ"
  let values ← validateBatchRiskEvidence H batch target snapshot evaluatedAt
  let decision := decisionFields H batch snapshot limits activeCapacity evaluatedAt
  if batch.val.intents = [] then construct (decision .noAction [])
  else do
    let m ← measureBatch H batch snapshot limits activeCapacity values
    let rules := evidenceRules H batch snapshot limits activeCapacity evaluatedAt m ++
      capacityRules H batch snapshot limits activeCapacity m
    if ∀ rule ∈ rules, rule.passed = true then
      approveBatch H batch snapshot limits activeCapacity evaluatedAt m rules
    else construct (decision .rejected rules)

/-! ## The holds of open reservations -/

/-- A hold of which nothing was released. -/
def initialActiveAuthorization (a : BatchRiskAuthorization H.canonicalId) :
    Py ActiveCapacityAuthorization :=
  construct {
    authorizationId := a.val.decisionId
    authorizationSha256 := H.authorization a
    intentId := a.val.intentId
    instrumentId := a.val.instrumentId
    side := a.val.side
    reservedCash := a.val.reservedCash
    reservedSellQuantity := a.val.reservedSellQuantity
    reservedBuyExposure := a.val.reservedBuyExposure
    remainingCash := a.val.reservedCash
    remainingSellQuantity := a.val.reservedSellQuantity
    remainingBuyExposure := a.val.reservedBuyExposure }

def initialActiveReservation (r : BatchRiskReservation H.canonicalId) :
    Py ActiveCapacityReservation := do
  let authorizations ← r.val.authorizations.mapM (initialActiveAuthorization H)
  construct {
    reservationId := r.val.reservationId
    reservationSha256 := H.reservation r
    projectionSha256 := H.sha256 "initial_active_capacity_projection" [.text (H.reservation r)]
    provenanceSha256 := H.sha256 "initial_active_capacity_provenance" [.text (H.reservation r)]
    currency := r.val.currency
    state := .active
    authorizations }

/-- Project immutable, unreleased reservations into their complete initial holds. -/
def initialActiveCapacityUniverse (accountId : Str)
    (reservations : List (BatchRiskReservation H.canonicalId)) : Py ActiveCapacityUniverse := do
  raiseIf (reservations ≠ sortOn (·.val.reservationId) reservations)
    "initial active reservations must be canonically ordered"
  let reservations ← reservations.mapM (initialActiveReservation H)
  construct { accountId, reservations }

end AutoQuantTrader
