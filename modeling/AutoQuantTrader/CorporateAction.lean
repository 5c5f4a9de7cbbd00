import AutoQuantTrader.LedgerBalances

/-!
# Corporate actions

Splits, cash dividends and dividend payments as entries over a base ledger.  A split posts units
only; a dividend accrues a receivable against income when it is recorded, and its payment turns the
receivable into cash.

`reduceCorporateActionLedger_spec` adds the effects of the corporate facts to those of the base
ledger.
-/

namespace AutoQuantTrader

open Result Sorting

/-! ## Records -/

def wholeShares (value : ℚ) (fieldName : Str) : Py Unit := do
  let _ ← canonicalPersistedDecimal value fieldName
  raiseIf (value ≤ 0 ∨ ¬ isWhole value) (fieldName ++ " must be positive whole shares")

structure StockSplitFields where
  (splitId sourceActionId sourceRevisionId sourceSha256 instrumentId symbol : Str)
  (numerator denominator entitledQuantity : ℚ)
  (effectiveAt recordedAt : Instant)
deriving DecidableEq

def StockSplitFields.postSplitQuantity (s : StockSplitFields) : Py ℚ := do
  let scaled ← exactDecimalMultiply s.entitledQuantity s.numerator
  deterministicDecimalDivide scaled s.denominator

def StockSplitFields.unitsDelta (s : StockSplitFields) : Py ℚ := do
  let postSplitQuantity ← s.postSplitQuantity
  exactDecimalSubtract postSplitQuantity s.entitledQuantity

def StockSplitFields.postInit (s : StockSplitFields) : Py Unit := do
  requireText s.splitId "split_id"
  requireText s.sourceActionId "split source_action_id"
  requireText s.sourceRevisionId "split source_revision_id"
  requireText s.instrumentId "split instrument_id"
  requireText s.symbol "split symbol"
  raiseIf (¬ isUppercase s.symbol) "split symbol must use canonical uppercase form"
  wholeShares s.numerator "split numerator"
  wholeShares s.denominator "split denominator"
  raiseIf (s.numerator = s.denominator) "stock split ratio cannot be neutral"
  wholeShares s.entitledQuantity "split entitled_quantity"
  let postSplitQuantity ← s.postSplitQuantity
  raiseIf (¬ isWhole postSplitQuantity)
    "stock split requires unsupported fractional shares or cash-in-lieu"
  raiseIf (s.recordedAt < s.effectiveAt) "split cannot be recorded before it is effective"

abbrev StockSplitAction := Checked StockSplitFields.postInit

structure CashDividendFields where
  (dividendId sourceActionId sourceRevisionId sourceSha256 instrumentId symbol currency : Str)
  (amountPerShare entitledQuantity : ℚ)
  (effectiveAt payableAt recordedAt : Instant)
deriving DecidableEq

def CashDividendFields.amount (d : CashDividendFields) : Py ℚ :=
  exactDecimalMultiply d.entitledQuantity d.amountPerShare

def CashDividendFields.postInit (d : CashDividendFields) : Py Unit := do
  requireText d.dividendId "dividend_id"
  requireText d.sourceActionId "dividend source_action_id"
  requireText d.sourceRevisionId "dividend source_revision_id"
  requireText d.instrumentId "dividend instrument_id"
  requireText d.symbol "dividend symbol"
  raiseIf (¬ isUppercase d.symbol) "dividend symbol must use canonical uppercase form"
  requireCurrency d.currency
  let amount ← canonicalPersistedDecimal d.amountPerShare "dividend amount_per_share"
  raiseIf (amount ≤ 0) "dividend amount_per_share must be positive"
  wholeShares d.entitledQuantity "dividend entitled_quantity"
  raiseIf (d.payableAt < d.effectiveAt) "dividend payable time cannot precede entitlement"
  raiseIf (d.recordedAt < d.effectiveAt) "dividend cannot be recorded before entitlement"

abbrev CashDividendAccrual := Checked CashDividendFields.postInit

structure CashDividendPaymentFields where
  (paymentId dividendId dividendSha256 : Str)
  (paidAt recordedAt : Instant)
  externalReference : Str
deriving DecidableEq

def CashDividendPaymentFields.postInit (p : CashDividendPaymentFields) : Py Unit := do
  requireText p.paymentId "dividend payment_id"
  requireText p.dividendId "payment dividend_id"
  requireText p.externalReference "dividend payment external_reference"
  raiseIf (p.recordedAt < p.paidAt) "dividend payment cannot be recorded before payment"

abbrev CashDividendPayment := Checked CashDividendPaymentFields.postInit

structure CorporateActionLedgerState where
  baseLedger : CanonicalLedgerState
  corporateActionEntries : List CanonicalLedgerEntry
  balances : List LedgerBalance
  stockSplits : List StockSplitAction
  cashDividends : List CashDividendAccrual
  dividendPayments : List CashDividendPayment
  currency : Str
  (dividendIncome dividendReceivable : ℚ)
  asOf : Option Instant
deriving DecidableEq

def CorporateActionLedgerState.cashBalance (ledger : CorporateActionLedgerState) : ℚ :=
  (balanceAt ledger.balances ⟨.cash ledger.currency, ledger.currency, none⟩).1

def CorporateActionLedgerState.positionQuantity (ledger : CorporateActionLedgerState)
    (instrumentId : Str) : Py ℚ :=
  exactDecimalAdd
    (balanceAt ledger.balances ⟨.clearing instrumentId, ledger.currency, some instrumentId⟩).2
    (balanceAt ledger.balances ⟨.splits instrumentId, ledger.currency, some instrumentId⟩).2

/-- The identifier and digest functions of the corporate-action records. -/
structure CorporateHashes extends LedgerHashes where
  stockSplit : StockSplitAction → Str
  cashDividend : CashDividendAccrual → Str
  dividendPayment : CashDividendPayment → Str

def CorporateHashes.plain : CorporateHashes where
  toLedgerHashes := .plain
  stockSplit split := plainId "stock-split" [.text split.val.splitId]
  cashDividend dividend := plainId "cash-dividend" [.text dividend.val.dividendId]
  dividendPayment payment := plainId "dividend-payment" [.text payment.val.paymentId]

variable (H : CorporateHashes)

/-! ## The base ledger -/

def validateBaseLedger (ledger : CanonicalLedgerState) : Py Unit := do
  raiseIf (ledger.entries ≠ sortOn (·.val.order) ledger.entries)
    "base ledger entries are not canonically ordered"
  raiseIf (¬ (ledger.entries.map (·.val.entryId)).Nodup) "base ledger repeats an entry identity"
  raiseIf (∃ e ∈ ledger.entries, e.val.kind ∉
      [LedgerEntryKind.cashFlow, .execution, .executionCorrection])
    "corporate actions require an execution-ledger base"
  raiseIf (∃ e ∈ ledger.entries, ∃ p ∈ e.val.postings, p.val.unitsDelta ≠ 0 ∧
      p.val.key.account ≠ .clearing (p.val.key.instrumentId.getD "None"))
    "base ledger contains unsupported security-unit postings"
  let balances ← projectBalances ledger.entries
  raiseIf (balances ≠ ledger.balances ∨ latestRecordedAt ledger.entries ≠ ledger.asOf)
    "corporate actions require a canonical ledger state"

/-! ## Entitlements -/

/-- What can change or use a held quantity, in the order in which one instant is processed. -/
inductive EntitlementEvent where
  | unitDelta (entryId instrumentId : Str) (unitsDelta : ℚ) (effectiveAt : Instant)
  | split (split : StockSplitAction)
  | dividend (dividend : CashDividendAccrual)

def EntitlementEvent.order : EntitlementEvent → Instant ×ₗ Nat ×ₗ Str
  | .unitDelta entryId _ _ effectiveAt => toLex (effectiveAt, toLex (0, entryId))
  | .split s => toLex (s.val.effectiveAt, toLex (1, s.val.splitId))
  | .dividend d => toLex (d.val.effectiveAt, toLex (2, d.val.dividendId))

/-- The unit changes of a ledger, with the instrument each one names. -/
def unitDeltas (ledger : CanonicalLedgerState) : List EntitlementEvent :=
  ledger.entries.flatMap fun e => (e.val.postings.filter (·.val.unitsDelta ≠ 0)).map fun p =>
    .unitDelta e.val.entryId (p.val.key.instrumentId.getD "None") p.val.unitsDelta e.val.effectiveAt

def positionChangeKeys (ledger : CanonicalLedgerState) : List (Instant × Str) :=
  (unitDeltas ledger).filterMap fun
    | .unitDelta _ instrumentId _ effectiveAt => some (effectiveAt, instrumentId)
    | _ => none

def checkSplitKey (changes : List (Instant × Str)) (splitKeys : List (Instant × Str))
    (split : StockSplitAction) : Py (List (Instant × Str)) := do
  let key := (split.val.effectiveAt, split.val.instrumentId)
  raiseIf (key ∈ changes) "corporate-action entitlement is ambiguous at a position-change time"
  raiseIf (key ∈ splitKeys) "multiple stock splits share an ambiguous effective time"
  return splitKeys ++ [key]

def checkDividendKey (changes splitKeys : List (Instant × Str))
    (dividend : CashDividendAccrual) : Py Unit := do
  let key := (dividend.val.effectiveAt, dividend.val.instrumentId)
  raiseIf (key ∈ changes) "corporate-action entitlement is ambiguous at a position-change time"
  raiseIf (key ∈ splitKeys) "split and dividend entitlements share an ambiguous effective time"

/-- Follow the held quantities; a split or dividend must be entitled to exactly what is held. -/
def entitle (quantities : Dict Str ℚ) : EntitlementEvent → Py (Dict Str ℚ)
  | .unitDelta _ instrumentId unitsDelta _ => do
    let quantity ← exactDecimalAdd (quantities.getD instrumentId 0) unitsDelta
    return quantities.set instrumentId quantity
  | .split s => do
    let held := quantities.getD s.val.instrumentId 0
    raiseIf (held ≠ s.val.entitledQuantity)
      "stock split entitlement does not match causal ledger units"
    let unitsDelta ← s.val.unitsDelta
    let quantity ← exactDecimalAdd held unitsDelta
    return quantities.set s.val.instrumentId quantity
  | .dividend d => do
    raiseIf (quantities.getD d.val.instrumentId 0 ≠ d.val.entitledQuantity)
      "cash dividend entitlement does not match causal ledger units"
    return quantities

def validateCausalEntitlements (ledger : CanonicalLedgerState) (splits : List StockSplitAction)
    (dividends : List CashDividendAccrual) : Py Unit := do
  let changes := positionChangeKeys ledger
  let splitKeys ← splits.foldlM (checkSplitKey changes) []
  dividends.forM (checkDividendKey changes splitKeys)
  let timeline := unitDeltas ledger ++ splits.map .split ++ dividends.map .dividend
  let _ ← (sortOn EntitlementEvent.order timeline).foldlM entitle .empty

/-! ## The reduction -/

def uniqueFacts {α : Type} [DecidableEq α] (identity sourceIdentity : α → Str) (label : Str)
    (values : List α) : Py (List α) := do
  let byId ← Dict.unique₂ identity sourceIdentity
    (.valueError (label ++ " identity has conflicting semantics"))
    (.valueError (label ++ " source identity has conflicting semantics")) values
  return byId.values

/-- Match a payment to its accrual. -/
def matchPayment (dividends : List CashDividendAccrual)
    (paymentsByDividend : Dict Str CashDividendPayment) (payment : CashDividendPayment) :
    Py (Dict Str CashDividendPayment) := do
  let dividend ← getOrThrow (dividends.find? (·.val.dividendId = payment.val.dividendId))
    (.valueError "dividend payment has no known accrual")
  raiseIf (payment.val.dividendSha256 ≠ H.cashDividend dividend)
    "dividend payment does not bind its accrual"
  raiseIf (payment.val.paidAt < dividend.val.payableAt) "dividend payment precedes payable_at"
  raiseIf (payment.val.recordedAt < dividend.val.recordedAt)
    "dividend payment predates its accrual"
  Dict.uniqueStep (·.val.dividendId) (.valueError "dividend has conflicting payments")
    paymentsByDividend payment

/-- One posting of a corporate action. -/
def corporatePosting (key : BalanceKey) (amountDelta unitsDelta : ℚ) :
    Py CanonicalLedgerPosting := do
  let amountDelta ← canonicalPersistedDecimal amountDelta
    (key.account.name ++ " corporate-action amount")
  let unitsDelta ← canonicalPersistedDecimal unitsDelta
    (key.account.name ++ " corporate-action units")
  construct (postingFields key amountDelta unitsDelta)

def splitEntry (currency : Str) (split : StockSplitAction) : Py CanonicalLedgerEntry := do
  let s := split.val
  let unitsDelta ← s.unitsDelta
  raiseIf (unitsDelta = 0) "stock split cannot have zero unit effect"
  let units ← corporatePosting ⟨.splits s.instrumentId, currency, some s.instrumentId⟩ 0 unitsDelta
  ledgerEntry H.canonicalId "corporate-action-entry" .stockSplit s.splitId (H.stockSplit split)
    s.effectiveAt s.recordedAt [units]

def accrualEntry (currency : Str) (dividend : CashDividendAccrual) :
    Py CanonicalLedgerEntry := do
  let d := dividend.val
  raiseIf (d.currency ≠ currency) "dividend currency differs from account currency"
  let amount ← d.amount
  let receivable ← corporatePosting ⟨.dividendReceivable, currency, none⟩ amount 0
  let income ← corporatePosting ⟨.dividendIncome, currency, none⟩ (-amount) 0
  ledgerEntry H.canonicalId "corporate-action-entry" .cashDividendAccrual d.dividendId
    (H.cashDividend dividend) d.effectiveAt d.recordedAt [receivable, income]

def paymentEntry (currency : Str) (dividend : CashDividendAccrual)
    (payment : CashDividendPayment) : Py CanonicalLedgerEntry := do
  let p := payment.val
  let amount ← dividend.val.amount
  let cash ← corporatePosting ⟨.cash currency, currency, none⟩ amount 0
  let receivable ← corporatePosting ⟨.dividendReceivable, currency, none⟩ (-amount) 0
  ledgerEntry H.canonicalId "corporate-action-entry" .cashDividendPayment p.paymentId
    (H.dividendPayment payment) p.paidAt p.recordedAt [cash, receivable]

/-- The entries of a dividend: its accrual and, once it is paid, its payment. -/
def dividendEntries (currency : Str) (paymentsByDividend : Dict Str CashDividendPayment)
    (dividend : CashDividendAccrual) : Py (List CanonicalLedgerEntry) := do
  let accrual ← accrualEntry H currency dividend
  let paid ← ((paymentsByDividend.get? dividend.val.dividendId).toList).mapM
    (paymentEntry H currency dividend)
  return accrual :: paid

/-- The first balance of an account in a currency. -/
def accountAmount (balances : List LedgerBalance) (account : LedgerAccount) (currency : Str) :
    ℚ :=
  match balances.find? fun b => b.val.key.account = account ∧ b.val.key.currency = currency with
  | some balance => balance.val.amount
  | none => 0

/-- Overlay admitted split and dividend facts on a canonical ledger. -/
def reduceCorporateActionLedger (baseLedger : CanonicalLedgerState)
    (stockSplits : List StockSplitAction) (cashDividends : List CashDividendAccrual)
    (dividendPayments : List CashDividendPayment) (currency : Str) :
    Py CorporateActionLedgerState := do
  requireCurrency currency
  validateBaseLedger baseLedger
  let splits ← uniqueFacts (·.val.splitId) (·.val.sourceActionId) "stock split" stockSplits
  let dividends ← uniqueFacts (·.val.dividendId) (·.val.sourceActionId) "cash dividend"
    cashDividends
  let payments ← uniqueFacts (·.val.paymentId) (·.val.externalReference) "dividend payment"
    dividendPayments
  raiseIf (¬ (splits.map (·.val.sourceActionId) ++
    dividends.map (·.val.sourceActionId)).Nodup) "corporate-action source identity is reused"
  raiseIf (¬ (splits.map (·.val.sourceRevisionId) ++
    dividends.map (·.val.sourceRevisionId)).Nodup) "corporate-action source revision is reused"
  validateCausalEntitlements baseLedger splits dividends
  let paymentsByDividend ← payments.foldlM (matchPayment H dividends) .empty
  let splitEntries ← splits.mapM (splitEntry H currency)
  let dividendEntries ← dividends.mapM
    (dividendEntries H currency paymentsByDividend)
  let corporateEntries := sortOn (·.val.order) (splitEntries ++ dividendEntries.flatten)
  let allEntries := sortOn (·.val.order) (baseLedger.entries ++ corporateEntries)
  let balances ← projectBalances allEntries
  let dividendIncomeBalance := accountAmount balances .dividendIncome currency
  let receivable := accountAmount balances .dividendReceivable currency
  raiseIf (0 < dividendIncomeBalance ∨ receivable < 0) "dividend accounts have invalid orientation"
  return {
    baseLedger
    corporateActionEntries := corporateEntries
    balances
    stockSplits := sortOn
      (fun s => toLex (s.val.effectiveAt, toLex (s.val.recordedAt, s.val.splitId))) splits
    cashDividends := sortOn
      (fun d => toLex (d.val.effectiveAt, toLex (d.val.recordedAt, d.val.dividendId))) dividends
    dividendPayments := sortOn (fun p => toLex (p.val.paidAt, p.val.paymentId)) payments
    currency
    dividendIncome := -dividendIncomeBalance
    dividendReceivable := receivable
    asOf := latestRecordedAt allEntries }

/-! ## The effect of corporate facts -/

variable {H}

/-- The units a split adds; every split that is posted has them. -/
def StockSplitFields.units (s : StockSplitFields) : ℚ :=
  match s.unitsDelta with
  | .ok units => units
  | .error _ => 0

def StockSplitFields.effect (currency : Str) (s : StockSplitFields) (k : BalanceKey) : ℚ × ℚ :=
  change ⟨.splits s.instrumentId, currency, some s.instrumentId⟩ 0 s.units k

/-- The cash a dividend brings. -/
def CashDividendFields.total (d : CashDividendFields) : ℚ := d.entitledQuantity * d.amountPerShare

def CashDividendFields.accrualEffect (currency : Str) (d : CashDividendFields)
    (k : BalanceKey) : ℚ × ℚ :=
  change ⟨.dividendReceivable, currency, none⟩ d.total 0 k +
    change ⟨.dividendIncome, currency, none⟩ (-d.total) 0 k

def CashDividendFields.paymentEffect (currency : Str) (d : CashDividendFields)
    (k : BalanceKey) : ℚ × ℚ :=
  change ⟨.cash currency, currency, none⟩ d.total 0 k +
    change ⟨.dividendReceivable, currency, none⟩ (-d.total) 0 k

theorem corporatePosting_effect (h : corporatePosting key amount units = .ok posting)
    (k : BalanceKey) : posting.val.effect k = change key amount units k := by
  simp only [corporatePosting, Py.eq_ok, canonicalPersistedDecimal_eq_ok] at h
  obtain ⟨a, ⟨-, rfl⟩, u, ⟨-, rfl⟩, hp⟩ := h
  rw [hp, postingFields_effect]

variable {currency : Str}

theorem splitEntry_effect (h : splitEntry H currency split = .ok entry) (k : BalanceKey) :
    postingsEffect entry.val.postings k = split.val.effect currency k := by
  simp only [splitEntry, eq_ok] at h
  obtain ⟨units, hunits, -, -, posting, hposting, hentry⟩ := h
  rw [ledgerEntry_effect hentry, StockSplitFields.effect, StockSplitFields.units, hunits]
  simp [postingsEffect, corporatePosting_effect hposting]

variable {dividend : CashDividendAccrual}

theorem accrualEntry_effect (h : accrualEntry H currency dividend = .ok entry) (k : BalanceKey) :
    postingsEffect entry.val.postings k = dividend.val.accrualEffect currency k := by
  simp only [accrualEntry, eq_ok] at h
  obtain ⟨-, -, amount, hamount, receivable, hreceivable, income, hincome, hentry⟩ := h
  have htotal : amount = dividend.val.total := exactDecimalMultiply_eq hamount
  rw [ledgerEntry_effect hentry, CashDividendFields.accrualEffect, ← htotal]
  simp [postingsEffect, corporatePosting_effect hreceivable, corporatePosting_effect hincome]

theorem paymentEntry_effect (h : paymentEntry H currency dividend payment = .ok entry)
    (k : BalanceKey) :
    postingsEffect entry.val.postings k = dividend.val.paymentEffect currency k := by
  simp only [paymentEntry, eq_ok] at h
  obtain ⟨amount, hamount, cash, hcash, receivable, hreceivable, hentry⟩ := h
  have htotal : amount = dividend.val.total := exactDecimalMultiply_eq hamount
  rw [ledgerEntry_effect hentry, CashDividendFields.paymentEffect, ← htotal]
  simp [postingsEffect, corporatePosting_effect hreceivable, corporatePosting_effect hcash]

/-- The dividend has been paid. -/
def isPaid (payments : List CashDividendPayment) (d : CashDividendAccrual) : Prop :=
  ∃ p ∈ payments, p.val.dividendId = d.val.dividendId

instance (payments : List CashDividendPayment) (d : CashDividendAccrual) :
    Decidable (isPaid payments d) := by
  unfold isPaid; infer_instance

/-- What a dividend has brought so far: its accrual and, once paid, its payment. -/
def dividendEffect (currency : Str) (payments : List CashDividendPayment)
    (d : CashDividendAccrual) (k : BalanceKey) : ℚ × ℚ :=
  d.val.accrualEffect currency k +
    if isPaid payments d then d.val.paymentEffect currency k else 0

theorem matchPayments_spec (h : payments.foldlM (matchPayment H dividends) .empty = .ok index) :
    Dict.unique (·.val.dividendId) () payments = .ok index := by
  refine foldlM_simulation id (fun s payment s' _ hstep => ?_) h
  simp only [matchPayment, eq_ok] at hstep
  obtain ⟨_, -, _, -, _, -, _, -, hunique⟩ := hstep
  exact Dict.uniqueStep_eq_ok.2 (Dict.uniqueStep_eq_ok.1 hunique)

/-- A dividend's entries have the effect of its accrual and payment. -/
theorem dividendEntries_effect (hindex : Dict.unique (·.val.dividendId) () payments = .ok index)
    (h : dividendEntries H currency index dividend = .ok entries) (k : BalanceKey) :
    entriesEffect entries k = dividendEffect currency payments dividend k := by
  simp only [dividendEntries, eq_ok] at h
  obtain ⟨accrual, haccrual, paid, hpaid, rfl⟩ := h
  have hget := Dict.get?_of_unique hindex dividend.val.dividendId
  rw [← List.singleton_append, entriesEffect_append, entriesEffect_singleton,
    accrualEntry_effect haccrual, dividendEffect]
  congr 1
  cases hpayment : index.get? dividend.val.dividendId with
  | none =>
    have hnot : ¬ isPaid payments dividend := by
      rintro ⟨p, hp, hpd⟩
      simpa [hpayment] using (hget p).2 ⟨hp, hpd⟩
    rw [hpayment, Option.toList_none, mapM_nil_eq_ok] at hpaid
    rw [if_neg hnot, ← hpaid, entriesEffect_nil]
  | some p =>
    have hisPaid : isPaid payments dividend := ⟨p, (hget p).1 hpayment⟩
    rw [hpayment, Option.toList_some, mapM_cons_eq_ok] at hpaid
    obtain ⟨entry, hentry, rest, hrest, rfl⟩ := hpaid
    rw [mapM_nil_eq_ok] at hrest
    rw [if_pos hisPaid, ← hrest, entriesEffect_singleton, paymentEntry_effect hentry]

/-- The facts are the different values, under identities of their own. -/
theorem uniqueFacts_spec {α : Type} [DecidableEq α] {identity sourceIdentity : α → Str}
    {values facts : List α} (h : uniqueFacts identity sourceIdentity label values = .ok facts) :
    facts.Perm values.dedup ∧ (facts.map identity).Nodup := by
  simp only [uniqueFacts, eq_ok] at h
  obtain ⟨byId, hbyId, rfl⟩ := h
  have hunique := (Dict.unique_of_unique₂ hbyId).1
  exact ⟨Dict.values_perm_dedup hunique, Dict.nodup_keys_of_unique hunique⟩

theorem isPaid_congr (h : ∀ p, p ∈ payments ↔ p ∈ payments') (d : CashDividendAccrual) :
    isPaid payments d ↔ isPaid payments' d := by
  simp [isPaid, h]

/-- **The corporate-action ledger in closed form.** -/
theorem reduceCorporateActionLedger_spec {base : CanonicalLedgerState}
    {splits : List StockSplitAction}
    (h : reduceCorporateActionLedger H base splits dividends payments currency = .ok ledger) :
    ledger.baseLedger = base ∧ ledger.currency = currency ∧ IsProjection ledger.balances ∧
      ledger.dividendIncome = -accountAmount ledger.balances .dividendIncome currency ∧
      ledger.dividendReceivable = accountAmount ledger.balances .dividendReceivable currency ∧
      (∀ k, balanceAt ledger.balances k = entriesEffect base.entries k +
        (splits.dedup.map fun s => s.val.effect currency k).sum +
        (dividends.dedup.map fun d => dividendEffect currency payments d k).sum) ∧
      ∀ s, s ∈ ledger.stockSplits ↔ s ∈ splits := by
  simp only [reduceCorporateActionLedger, eq_ok] at h
  obtain ⟨_, -, _, -, splits', hsplits, dividends', hdividends, payments', hpayments, _, -, _, -,
    _, -, index, hindex, splitEntries, hsplitEntries, dividendEntries, hdividendEntries,
    balances, hbalances, _, -, rfl⟩ := h
  obtain ⟨hprojection, hat⟩ := projectBalances_spec hbalances
  refine ⟨rfl, rfl, hprojection, rfl, rfl, fun k => ?_, fun s => ?_⟩
  rotate_left
  · rw [mem_sortOn, (uniqueFacts_spec hsplits).1.mem_iff, List.mem_dedup]
  have hpaid (d : CashDividendAccrual) : isPaid payments' d ↔ isPaid payments d :=
    isPaid_congr (fun p => (uniqueFacts_spec hpayments).1.mem_iff.trans List.mem_dedup) d
  have heffect (d : CashDividendAccrual) :
      dividendEffect currency payments' d k = dividendEffect currency payments d k := by
    simp only [dividendEffect, hpaid]
  have hsplitEffect : entriesEffect splitEntries k =
      (splits'.map fun s => s.val.effect currency k).sum :=
    sum_map_of_mapM (fun _ _ he => splitEntry_effect he k) hsplitEntries
  have hdividendEffect : entriesEffect dividendEntries.flatten k =
      (dividends'.map fun d => dividendEffect currency payments d k).sum := by
    rw [entriesEffect_flatten]
    refine sum_map_of_mapM (fun d es hes => ?_) hdividendEntries
    exact (dividendEntries_effect (matchPayments_spec hindex) hes k).trans (heffect d)
  rw [hat, entriesEffect_perm (sortOn_perm _ _), entriesEffect_append,
    entriesEffect_perm (sortOn_perm _ _), entriesEffect_append, hsplitEffect, hdividendEffect,
    ((uniqueFacts_spec hsplits).1.map _).sum_eq, ((uniqueFacts_spec hdividends).1.map _).sum_eq,
    add_assoc]

/-- An account that is only kept without an instrument is read off at that key. -/
theorem accountAmount_eq_balanceAt (hp : IsProjection balances)
    (hzero : ∀ i, balanceAt balances ⟨account, currency, some i⟩ = 0) :
    accountAmount balances account currency =
      (balanceAt balances ⟨account, currency, none⟩).1 := by
  have hkey (b : LedgerBalance) (hb : b ∈ balances) (ha : b.val.key.account = account)
      (hc : b.val.key.currency = currency) : b.val.key = ⟨account, currency, none⟩ := by
    cases hi : b.val.key.instrumentId with
    | none =>
      rw [← ha, ← hc, ← hi]
    | some i =>
      have hbi : b.val.key = ⟨account, currency, some i⟩ := by rw [← ha, ← hc, ← hi]
      have := balanceAt_of_mem hp.nodup hb
      rw [hbi, hzero i] at this
      exact absurd this.symm (hp.ne_zero b hb)
  unfold accountAmount
  split
  · next b hfind =>
    have hb : b ∈ balances := List.mem_of_find?_eq_some hfind
    have hprop := List.find?_some hfind
    rw [decide_eq_true_eq] at hprop
    rw [← hkey b hb hprop.1 hprop.2, balanceAt_of_mem hp.nodup hb]
  · next hfind =>
    rw [balanceAt_of_not_mem]
    · rfl
    · intro hmem
      obtain ⟨b, hb, hbk⟩ := List.mem_map.1 hmem
      simpa [hbk] using List.find?_eq_none.1 hfind b hb

end AutoQuantTrader
