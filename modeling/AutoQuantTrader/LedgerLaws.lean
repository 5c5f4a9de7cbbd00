import AutoQuantTrader.OrderLifecycle
import AutoQuantTrader.SettlementBalances

/-!
# The laws of the ledgers

* `reduceExecutionLedger_closed` — cash, positions and fees of the execution ledger are determined
by the cash flows and the current executions, whatever revisions came before;
* `ledgers_balance` — in every ledger the balances of each currency add up to zero, a balance is the
  sum of the postings to it, and no entry is posted twice.

An entry is checked to be balanced over all its currencies together.  The entries the reducers make
have one currency each, so they are balanced in it; a base ledger that is handed to the
corporate-action reducer may hold others (`cross_currency_base`).
-/

namespace AutoQuantTrader

open Result Sorting

/-! ## Closed forms -/

section closed

variable {H : LedgerHashes} {orders : List CanonicalOrderState} {flows : List LedgerCashFlow}
  {currency : Str} {ledger : CanonicalLedgerState}

/-- The distinct cash flows of a currency, withdrawals counted negative. -/
def netFlows (flows : List LedgerCashFlow) (currency : Str) : ℚ :=
  ((flows.dedup.filter (·.val.currency = currency)).map (·.val.signedAmount)).sum

/-- The total of an amount over the current executions of the distinct orders. -/
def executionTotal (orders : List CanonicalOrderState)
    (amount : OrderIntentFields → ExecutionProjection → ℚ) : ℚ :=
  (orders.dedup.map fun state =>
    (state.executions.map (amount state.submission.val.intent.val)).sum).sum

/-- A component of the ledger's effect at a key that reads one amount off every execution. -/
theorem sum_effect_executions (orders : List CanonicalOrderState) (f : ℚ × ℚ →+ ℚ)
    (amount : OrderIntentFields → ExecutionProjection → ℚ)
    (hamount : ∀ (intent : OrderIntent) (x : ExecutionProjection),
      f (x.effect intent currency k) = amount intent.val x) :
    f (orders.dedup.map fun state => state.effect currency k).sum = executionTotal
    orders amount := by
  rw [map_list_sum, List.map_map, executionTotal]
  congr 1
  refine List.map_congr_left fun state _ => ?_
  simp only [Function.comp_apply, CanonicalOrderState.effect, map_list_sum, List.map_map]
  congr 1
  exact List.map_congr_left fun x _ => hamount _ x

theorem cashBalance_of_reduce (h : reduceExecutionLedger H orders flows currency = .ok ledger)
    (c : Str) :
    ledger.cashBalance c = netFlows flows c - if c = currency then
      executionTotal orders fun intent x => intent.side.sign * (x.quantity * x.price) + x.fee
      else 0 := by
  obtain ⟨-, hbalance, heffect⟩ := reduceExecutionLedger_spec h
  rw [CanonicalLedgerState.cashBalance, hbalance, heffect, Prod.fst_add, fst_sum_map, netFlows,
    sum_map_filter, sub_eq_add_neg]
  simp only [LedgerCashFlowFields.effect_cash]
  congr 1
  have hsum := sum_effect_executions orders (AddMonoidHom.fst ℚ ℚ) (fun intent x =>
    if c = currency then -(intent.side.sign * (x.quantity * x.price) + x.fee) else 0)
    fun intent x => x.effect_cash intent c currency
  rw [AddMonoidHom.coe_fst] at hsum
  rw [hsum]
  split
  · simp only [executionTotal, sum_map_neg]
  · simp [executionTotal]

theorem positionQuantity_of_reduce (h : reduceExecutionLedger H orders flows currency = .ok ledger)
    (i : Str) :
    ledger.positionQuantity i currency = executionTotal orders fun intent x =>
      if intent.instrumentId = i then intent.side.sign * x.quantity else 0 := by
  obtain ⟨-, hbalance, heffect⟩ := reduceExecutionLedger_spec h
  rw [CanonicalLedgerState.positionQuantity, hbalance, heffect, Prod.snd_add, snd_sum_map]
  simp only [LedgerCashFlowFields.effect_units, List.sum_map_zero, zero_add]
  exact sum_effect_executions orders (AddMonoidHom.snd ℚ ℚ) _ fun intent x =>
    x.effect_clearing intent currency i

theorem executionFees_of_reduce (h : reduceExecutionLedger H orders flows currency = .ok ledger) :
    (balanceAt ledger.balances ⟨.executionFees, currency, none⟩).1 =
      executionTotal orders fun _ x => x.fee := by
  obtain ⟨-, hbalance, heffect⟩ := reduceExecutionLedger_spec h
  rw [hbalance, heffect, Prod.fst_add, fst_sum_map]
  simp only [LedgerCashFlowFields.effect_fees, List.sum_map_zero, zero_add]
  exact sum_effect_executions orders (AddMonoidHom.fst ℚ ℚ) _ fun intent x =>
    x.effect_fees intent currency

/-- **The execution ledger depends only on the cash flows and the current executions.** -/
theorem reduceExecutionLedger_closed
    (h : reduceExecutionLedger H orders flows currency = .ok ledger) :
    (∀ state ∈ orders, state.History) ∧
      (∀ c, ledger.cashBalance c = netFlows flows c - if c = currency then
        executionTotal orders fun intent x => intent.side.sign * (x.quantity * x.price) + x.fee
        else 0) ∧
      (∀ i, ledger.positionQuantity i currency = executionTotal orders fun intent x =>
        if intent.instrumentId = i then intent.side.sign * x.quantity else 0) ∧
      (balanceAt ledger.balances ⟨.executionFees, currency, none⟩).1 =
        executionTotal orders fun _ x => x.fee := by
  refine ⟨fun state hstate => ?_, cashBalance_of_reduce h, positionQuantity_of_reduce h,
    executionFees_of_reduce h⟩
  exact history_of_reduceOrderLifecycle ((reduceExecutionLedger_spec h).1 state hstate)

/-- A purchase of four shares that is busted and then corrected to three, in a funded account. -/
def revisedPurchase : Py (CanonicalOrderState × LedgerCashFlow × CanonicalLedgerState) := do
  let submission ← Crossing.purchase
  let first ← Crossing.report submission 1 (.execution ⟨"x1", 1, 4, 20, 1⟩)
  let bust ← Crossing.report submission 2
    (.executionCorrection ⟨"x1", 2, 0, 20, 0⟩ first.val.eventId)
  let final ← Crossing.report submission 3
    (.executionCorrection ⟨"x1", 3, 3, 21, 1⟩ bust.val.eventId)
  let order ← reduceOrderLifecycle .plain submission [first, bust, final] none
  let flow ← createCashFlow .plain .contribution "USD" 1000 0 0 "wire"
  let ledger ← reduceExecutionLedger .plain [order] [flow] "USD"
  return (order, flow, ledger)

theorem revised_purchase_closed :
    ∃ (order : CanonicalOrderState) (flow : LedgerCashFlow) (ledger : CanonicalLedgerState),
      reduceExecutionLedger .plain [order] [flow] "USD" = .ok ledger ∧
      order.brokerEvents.length = 3 ∧ ledger.cashBalance "USD" = 936 ∧
      ledger.cashBalance "USD" = netFlows [flow] "USD" - executionTotal [order]
        fun intent x => intent.side.sign * (x.quantity * x.price) + x.fee := by
  have h : (fun x => (x.1.brokerEvents.length, x.2.2.cashBalance "USD")) <$> revisedPurchase =
      .ok (3, 936) := by
    decide +kernel
  simp only [revisedPurchase, eq_ok, Prod.mk.injEq] at h
  obtain ⟨_, ⟨_, -, _, -, _, -, _, -, order, -, flow, -, ledger, hledger, rfl⟩, hlength, hcash⟩ := h
  have hclosed := (reduceExecutionLedger_closed hledger).2.1 "USD"
  rw [if_pos rfl] at hclosed
  exact ⟨order, flow, ledger, hledger, hlength, hcash, hclosed⟩

end closed

/-! ## Currencies -/

/-- The sum of the balances of a currency. -/
def currencyTotal (balances : List LedgerBalance) (currency : Str) : ℚ :=
  ((balances.filter (·.val.key.currency = currency)).map (·.val.amount)).sum

/-- What a posting adds to the balances of a currency. -/
def CanonicalLedgerPostingFields.amountIn (currency : Str) (p : CanonicalLedgerPostingFields) : ℚ :=
  if p.key.currency = currency then p.debit - p.credit else 0

/-- What an entry adds to the balances of a currency. -/
def CanonicalLedgerEntryFields.amountIn (currency : Str) (e : CanonicalLedgerEntryFields) : ℚ :=
  (e.postings.map (·.val.amountIn currency)).sum

/-- A posting moves its currency's total by its amount. -/
theorem projectPosting_total (h : projectPosting projected posting = .ok projected')
    (currency : Str) :
    projected'.sumBy (fun k v => if k.currency = currency then v.1 else 0) =
      projected.sumBy (fun k v => if k.currency = currency then v.1 else 0) +
        posting.val.amountIn currency := by
  simp only [projectPosting, eq_ok] at h
  obtain ⟨delta, hdelta, amount, hamount, units, -, rfl⟩ := h
  rw [Dict.sumBy_set, exactDecimalAdd_eq hamount, exactDecimalSubtract_eq hdelta,
    CanonicalLedgerPostingFields.amountIn, Dict.getD]
  cases projected.get? posting.val.key with
  | none => simp
  | some v =>
    simp only [Option.getD_some, Option.elim_some]
    split <;> ring

theorem sum_amountIn_postings (entries : List CanonicalLedgerEntry) (currency : Str) :
    ((entries.flatMap (·.val.postings)).map (·.val.amountIn currency)).sum =
      (entries.map (·.val.amountIn currency)).sum := by
  induction entries with
  | nil => rfl
  | cons e entries ih =>
    rw [List.flatMap_cons, List.map_append, List.sum_append, ih, List.map_cons, List.sum_cons]
    rfl

variable {balances : List LedgerBalance} {entries : List CanonicalLedgerEntry}

/-- **The balances of a currency add up to what the entries post in it.** -/
theorem currencyTotal_of_projectBalances (h : projectBalances entries = .ok balances)
    (currency : Str) :
    currencyTotal balances currency = (entries.map (·.val.amountIn currency)).sum := by
  simp only [projectBalances, eq_ok] at h
  obtain ⟨projected, hprojected, hbalances⟩ := h
  have hpostings : projected.sumBy (fun k v => if k.currency = currency then v.1 else 0) =
      ((entries.flatMap (·.val.postings)).map (·.val.amountIn currency)).sum := by
    refine foldlM_invariant_done (fun done projected =>
      projected.sumBy (fun k v => if k.currency = currency then v.1 else 0) =
        (done.map (·.val.amountIn currency)).sum) ?_ rfl hprojected
    intro done posting projected projected' _ hdone hstep
    rw [projectPosting_total hstep, hdone, sum_map_snoc]
  have hbalance (item : BalanceKey × ℚ × ℚ) (b : LedgerBalance)
      (hb : construct ⟨item.1, item.2.1, item.2.2⟩ = .ok b) :
      (if b.val.key.currency = currency then b.val.amount else 0) =
        if item.1.currency = currency then item.2.1 else 0 := by
    rw [construct_eq_ok.1 hb]
  -- balances that are zero are left out, and add nothing
  have hkept (item : BalanceKey × ℚ × ℚ) :
      (if item.2.1 ≠ 0 ∨ item.2.2 ≠ 0 then if item.1.currency = currency then item.2.1 else 0
        else 0) = if item.1.currency = currency then item.2.1 else 0 := by
    by_cases hzero : item.2.1 = 0 <;> simp [hzero]
  rw [← sum_amountIn_postings, ← hpostings, currencyTotal, sum_map_filter,
    sum_map_of_mapM hbalance hbalances, sum_map_filter, sum_map_sortOn]
  simp only [hkept]
  rfl

variable {entry : CanonicalLedgerEntry}

/-- An entry of one currency is balanced in every currency. -/
theorem amountIn_eq_zero (hcurrency : ∀ p ∈ entry.val.postings, p.val.key.currency = c)
    (currency : Str) : entry.val.amountIn currency = 0 := by
  have hbalanced : (entry.val.postings.map (·.val.debit)).sum =
      (entry.val.postings.map (·.val.credit)).sum := by
    have hpasses := entry.passes
    simp only [CanonicalLedgerEntryFields.postInit, Py.eq_ok] at hpasses
    obtain ⟨_, -, _, -, _, -, _, -, _, -, _, -, debits, hdebits, credits, hcredits, heq⟩ := hpasses
    rw [← exactDecimalSum_eq hdebits, ← exactDecimalSum_eq hcredits, heq]
  have hpost : entry.val.amountIn currency =
      (entry.val.postings.map fun p => if c = currency then p.val.debit + -p.val.credit
        else 0).sum := by
    rw [CanonicalLedgerEntryFields.amountIn]
    congr 1
    refine List.map_congr_left fun p hp => ?_
    rw [CanonicalLedgerPostingFields.amountIn, hcurrency p hp, sub_eq_add_neg]
  rw [hpost]
  split
  · rw [List.sum_map_add, sum_map_neg, hbalanced, add_neg_cancel]
  · simp

/-! ## The entries of the reducers -/

/-- The entry has one currency. -/
def CanonicalLedgerEntryFields.HasCurrency (e : CanonicalLedgerEntryFields) (currency : Str) :
    Prop :=
  ∀ p ∈ e.postings, p.val.key.currency = currency

variable {key : BalanceKey}

theorem postingFromDelta_key {posting : Option CanonicalLedgerPosting}
    (h : postingFromDelta key amount units = .ok posting) :
    ∀ p ∈ posting.toList, p.val.key = key ∧ p.val.unitsDelta = units := by
  simp only [postingFromDelta, eq_ok, canonicalPersistedDecimal_eq_ok] at h
  obtain ⟨_, ⟨-, rfl⟩, _, ⟨-, rfl⟩, h⟩ := h
  split at h
  · rw [pure_eq_ok] at h
    simp [← h]
  · simp only [Py.eq_ok] at h
    obtain ⟨p, hp, rfl⟩ := h
    simp [hp, postingFields]

variable {currency : Str} {kind : LedgerEntryKind}

theorem ledgerEntry_hasCurrency (hcurrency : ∀ p ∈ postings, p.val.key.currency = currency)
    (h : ledgerEntry canonicalId idKind kind referenceId sourceSha256 effectiveAt recordedAt
      postings = .ok entry) :
    entry.val.HasCurrency currency :=
  fun p hp => hcurrency p ((ledgerEntry_spec h).2.2.mem_iff.1 hp)

/-- An entry the execution ledger can hold: named after its source, and of one currency. -/
structure IsTradeDateEntry (H : LedgerHashes) (e : CanonicalLedgerEntryFields) : Prop where
  kind : e.kind ∈ [LedgerEntryKind.cashFlow, .execution, .executionCorrection]
  entryId : e.entryId = H.canonicalId "ledger-entry"
    [.enum "LedgerEntryKind" e.kind.value, .text e.referenceId, .text e.sourceSha256]
  currency : ∃ c, e.HasCurrency c

variable {flows : List LedgerCashFlow} {orders : List CanonicalOrderState}
  {ledger : CanonicalLedgerState}

section tradeDate

variable {H : LedgerHashes}

theorem isTradeDateEntry_of_ledgerEntry
    (hkind : kind ∈ [LedgerEntryKind.cashFlow, .execution, .executionCorrection])
    (hcurrency : ∀ p ∈ postings, p.val.key.currency = currency)
    (h : ledgerEntry H.canonicalId "ledger-entry" kind referenceId sourceSha256 effectiveAt
      recordedAt postings = .ok entry) :
    IsTradeDateEntry H entry.val := by
  have hcurrency' := ledgerEntry_hasCurrency hcurrency h
  rw [ledgerEntry, construct_eq_ok] at h
  exact ⟨by rw [h]; exact hkind, by rw [h], currency, hcurrency'⟩

theorem cashFlowEntry_tradeDate {flow : LedgerCashFlow} (h : cashFlowEntry H flow = .ok entry) :
    IsTradeDateEntry H entry.val := by
  simp only [cashFlowEntry, eq_ok] at h
  obtain ⟨_, -, cash, hcash, equity, hequity, hentry⟩ := h
  have hcurrency : ∀ p ∈ cash.toList ++ equity.toList,
      p.val.key.currency = flow.val.currency := by
    intro p hp
    rcases List.mem_append.1 hp with hp | hp
    · rw [(postingFromDelta_key hcash p hp).1]
    · rw [(postingFromDelta_key hequity p hp).1]
  exact isTradeDateEntry_of_ledgerEntry (by simp) hcurrency hentry

theorem executionPostings_currency
    (h : executionPostings instrumentId currency delta = .ok postings) :
    ∀ p ∈ postings, p.val.key.currency = currency := by
  simp only [executionPostings, eq_ok] at h
  obtain ⟨cash, hcash, clearing, hclearing, fees, hfees, rfl⟩ := h
  intro p hp
  rcases List.mem_append.1 hp with hp | hp
  · rcases List.mem_append.1 hp with hp | hp
    · rw [(postingFromDelta_key hcash p hp).1]
    · rw [(postingFromDelta_key hclearing p hp).1]
  · rw [(postingFromDelta_key hfees p hp).1]

theorem entryKind_mem (kind : BrokerOrderEventKind) :
    kind.entryKind ∈ [LedgerEntryKind.cashFlow, .execution, .executionCorrection] := by
  cases kind <;> simp [BrokerOrderEventKind.entryKind]

/-- **The entries of an execution ledger** are those of cash flows and of changes of executions. -/
theorem forall_entries_of_reduce {P : CanonicalLedgerEntry → Prop}
    (hflow : ∀ flow entry, cashFlowEntry H flow = .ok entry → P entry)
    (hexecution : ∀ (event : BrokerOrderEvent) instrumentId delta postings entry,
      executionPostings instrumentId currency delta = .ok postings →
      ledgerEntry H.canonicalId "ledger-entry" event.val.kind.entryKind event.val.eventId
      (H.brokerEvent event) event.val.occurredAt event.val.receivedAt postings = .ok entry →
      P entry) (h : reduceExecutionLedger H orders flows currency = .ok ledger) :
    ∀ e ∈ ledger.entries, P e := by
  have hjournal {intent : OrderIntent} {journal journal' : ExecutionJournal}
      {event : BrokerOrderEvent} (hold : ∀ e ∈ journal.entries, P e)
      (hstep : journalEvent H intent currency journal event = .ok journal') :
      ∀ e ∈ journal'.entries, P e := by
    cases hreport : event.val.kind.report? with
    | none =>
      rw [journalEvent, hreport, pure_eq_ok] at hstep
      exact hstep ▸ hold
    | some report =>
      obtain ⟨_, _, postings, posted, -, hpostings, hposted, rfl, -⟩ :=
        journalEvent_spec hreport hstep
      rw [List.forall_mem_append]
      refine ⟨hold, ?_⟩
      rcases executionEntry_cases hposted with ⟨-, rfl⟩ | ⟨entry, rfl, hentry⟩
      · exact List.forall_mem_nil _
      · exact List.forall_mem_singleton.2 (hexecution event _ _ postings entry hpostings hentry)
  obtain ⟨_, _, flowEntries, acc, -, -, -, hflowEntries, hacc, -, hentries, -⟩ :=
    reduceExecutionLedger_posted h
  rw [hentries]
  simp only [mem_sortOn]
  refine foldlM_invariant (fun acc : Dict Str BrokerOrderEvent × List CanonicalLedgerEntry =>
    ∀ e ∈ acc.2, P e) ?_ (fun e he => ?_) hacc
  · intro acc state acc' _ hold hstep
    simp only [postOrder, executionEntries, eq_ok] at hstep
    obtain ⟨_, -, own, ⟨journal, hrun, rfl⟩, rfl⟩ := hstep
    rw [List.forall_mem_append]
    refine ⟨hold, foldlM_invariant (fun journal : ExecutionJournal => ∀ e ∈ journal.entries, P e) ?_
      (List.forall_mem_nil _) hrun⟩
    exact fun _ _ _ _ hold hstep => hjournal hold hstep
  · obtain ⟨flow, -, hentry⟩ := exists_of_mem_mapM hflowEntries he
    exact hflow flow e hentry

/-- A ledger in the canonical form of the execution reducer. -/
structure IsTradeDateLedger (H : LedgerHashes) (ledger : CanonicalLedgerState) : Prop where
  sorted : ledger.entries = sortOn (·.val.order) ledger.entries
  ids : (ledger.entries.map (·.val.entryId)).Nodup
  entries : ∀ e ∈ ledger.entries, IsTradeDateEntry H e.val
  balances : projectBalances ledger.entries = .ok ledger.balances
  asOf : ledger.asOf = latestRecordedAt ledger.entries

/-- **What the execution reducer returns is in canonical form.** -/
theorem isTradeDateLedger_of_reduce (h : reduceExecutionLedger H orders flows currency =
    .ok ledger) : IsTradeDateLedger H ledger := by
  have hentries : ∀ e ∈ ledger.entries, IsTradeDateEntry H e.val := by
    refine forall_entries_of_reduce (fun _ _ hentry => cashFlowEntry_tradeDate hentry) ?_ h
    intro event _ _ _ _ hpostings hentry
    exact isTradeDateEntry_of_ledgerEntry (entryKind_mem _) (executionPostings_currency hpostings)
      hentry
  simp only [reduceExecutionLedger, eq_ok] at h
  obtain ⟨_, -, _, -, _, -, _, -, _, -, entryIds, hentryIds, balances, hbalances, rfl⟩ := h
  refine ⟨(sortOn_eq_self ?_).symm, Dict.nodup_keys_of_unique hentryIds, hentries, hbalances, rfl⟩
  exact (sortOn_pairwise _ _).sublist (Dict.values_sublist_of_unique hentryIds)

end tradeDate

/-! ## Entries of the other ledgers -/

variable {account : LedgerAccount}

theorem settlementPosting_key (h : settlementPosting account currency amount = .ok posting) :
    posting.val.key = ⟨account, currency, none⟩ := by
  simp only [settlementPosting, Py.eq_ok] at h
  obtain ⟨_, -, _, -, hposting⟩ := h
  rw [hposting, postingFields]

variable {H : SettlementHashes}

theorem settlementEntry_hasCurrency
    (h : settlementEntry H kind referenceId sourceSha256 effectiveAt recordedAt currency account
      intoCash = .ok entry) :
    entry.val.HasCurrency currency := by
  simp only [settlementEntry, Py.eq_ok] at h
  obtain ⟨cash, hcash, settlement, hsettlement, hentry⟩ := h
  intro p hp
  rw [hentry] at hp
  simp only [mem_sortOn, List.mem_cons, List.not_mem_nil, or_false] at hp
  rcases hp with rfl | rfl
  · rw [settlementPosting_key hcash]
  · rw [settlementPosting_key hsettlement]

theorem settleDelta_hasCurrency
    (h : settleDelta H currency byEvent byInstruction delta = .ok settled) :
    ∀ e ∈ settled.1, e.val.HasCurrency currency := by
  simp only [settleDelta, eq_ok] at h
  obtain ⟨_, -, _, -, _, -, _, -, entry, hentry, confirmed, hconfirmed, _, -, rfl⟩ := h
  intro e he
  rcases List.mem_cons.1 he with rfl | he
  · exact settlementEntry_hasCurrency hentry
  · obtain ⟨_, -, hback⟩ := exists_of_mem_mapM hconfirmed he
    simp only [eq_ok] at hback
    obtain ⟨_, -, _, -, hback⟩ := hback
    exact settlementEntry_hasCurrency hback

variable {dividends : List CashDividendAccrual} {payments : List CashDividendPayment}
  {base : CanonicalLedgerState} {splits : List StockSplitAction}

section corporate

variable {H : CorporateHashes} {currency : Str}

theorem corporatePosting_key (h : corporatePosting key amount units = .ok posting) :
    posting.val.key = key := by
  simp only [corporatePosting, Py.eq_ok] at h
  obtain ⟨_, -, _, -, hposting⟩ := h
  rw [hposting, postingFields]

/-- The entry of a split: its name and its currency. -/
theorem splitEntry_spec (h : splitEntry H currency split = .ok entry) :
    entry.val.kind = .stockSplit ∧ entry.val.referenceId = split.val.splitId ∧
      entry.val.HasCurrency currency := by
  simp only [splitEntry, eq_ok] at h
  obtain ⟨_, -, _, -, units, hunits, hentry⟩ := h
  obtain ⟨hkind, hreference, -⟩ := ledgerEntry_spec hentry
  refine ⟨hkind, hreference, ledgerEntry_hasCurrency (fun p hp => ?_) hentry⟩
  rw [List.mem_singleton.1 hp, corporatePosting_key hunits]

theorem accrualEntry_spec (h : accrualEntry H currency dividend = .ok entry) :
    entry.val.kind = .cashDividendAccrual ∧ entry.val.referenceId = dividend.val.dividendId ∧
      entry.val.HasCurrency currency := by
  simp only [accrualEntry, eq_ok] at h
  obtain ⟨_, -, _, -, receivable, hreceivable, income, hincome, hentry⟩ := h
  obtain ⟨hkind, hreference, -⟩ := ledgerEntry_spec hentry
  refine ⟨hkind, hreference, ledgerEntry_hasCurrency ?_ hentry⟩
  simp [corporatePosting_key hreceivable, corporatePosting_key hincome]

theorem paymentEntry_spec (h : paymentEntry H currency dividend payment = .ok entry) :
    entry.val.kind = .cashDividendPayment ∧ entry.val.referenceId = payment.val.paymentId ∧
      entry.val.HasCurrency currency := by
  simp only [paymentEntry, eq_ok] at h
  obtain ⟨_, -, cash, hcash, receivable, hreceivable, hentry⟩ := h
  obtain ⟨hkind, hreference, -⟩ := ledgerEntry_spec hentry
  refine ⟨hkind, hreference, ledgerEntry_hasCurrency ?_ hentry⟩
  simp [corporatePosting_key hcash, corporatePosting_key hreceivable]

/-- The entries of a dividend: its accrual and at most one payment of it. -/
theorem dividendEntries_spec (h : dividendEntries H currency index dividend = .ok entries) :
    entries.Nodup ∧ ∀ e ∈ entries, e.val.HasCurrency currency ∧
      ((e.val.kind = .cashDividendAccrual ∧ e.val.referenceId = dividend.val.dividendId) ∨
        ∃ p, index.get? dividend.val.dividendId = some p ∧ e.val.kind = .cashDividendPayment ∧
          e.val.referenceId = p.val.paymentId) := by
  simp only [dividendEntries, eq_ok] at h
  obtain ⟨accrual, haccrual, paid, hpaid, rfl⟩ := h
  obtain ⟨hkind, hreference, hcurrency⟩ := accrualEntry_spec haccrual
  cases hp : index.get? dividend.val.dividendId with
  | none =>
    rw [hp, Option.toList_none, mapM_nil_eq_ok] at hpaid
    subst hpaid
    refine ⟨List.nodup_singleton _, fun e he => ?_⟩
    rw [List.mem_singleton.1 he]
    exact ⟨hcurrency, .inl ⟨hkind, hreference⟩⟩
  | some p =>
    rw [hp, Option.toList_some, mapM_cons_eq_ok] at hpaid
    obtain ⟨entry, hentry, rest, hrest, rfl⟩ := hpaid
    rw [mapM_nil_eq_ok] at hrest
    subst hrest
    obtain ⟨hpaymentKind, hpayment, hpaymentCurrency⟩ := paymentEntry_spec hentry
    refine ⟨?_, fun e he => ?_⟩
    · rw [List.nodup_cons, List.mem_singleton]
      refine ⟨fun heq => ?_, List.nodup_singleton _⟩
      rw [heq, hpaymentKind] at hkind
      contradiction
    · rcases List.mem_cons.1 he with rfl | he
      · exact ⟨hcurrency, .inl ⟨hkind, hreference⟩⟩
      · rw [List.mem_singleton.1 he]
        exact ⟨hpaymentCurrency, .inr ⟨p, rfl, hpaymentKind, hpayment⟩⟩

/-- The entries of different dividends are different. -/
theorem nodup_dividendEntries {entries : List (List CanonicalLedgerEntry)}
    (hdividends : (dividends.map (·.val.dividendId)).Nodup)
    (hpayments : (payments.map (·.val.paymentId)).Nodup)
    (hindex : Dict.unique (·.val.dividendId) () payments = .ok index)
    (h : dividends.mapM (dividendEntries H currency index) = .ok entries) :
    entries.flatten.Nodup := by
  refine List.nodup_flatten.2 ⟨fun es hes => ?_, ?_⟩
  · obtain ⟨_, -, hentries⟩ := exists_of_mem_mapM h hes
    exact (dividendEntries_spec hentries).1
  · rw [List.Nodup, List.pairwise_map] at hdividends
    refine pairwise_of_mapM (fun d d' es es' hne hes hes' e he he' => ?_) hdividends h
    rcases ((dividendEntries_spec hes).2 e he).2 with ⟨hkind, href⟩ | ⟨p, hp, hkind, href⟩ <;>
      rcases ((dividendEntries_spec hes').2 e he').2 with ⟨hkind', href'⟩ | ⟨q, hq, hkind', href'⟩
    · exact hne (href.symm.trans href')
    · rw [hkind] at hkind'
      contradiction
    · rw [hkind] at hkind'
      contradiction
    · obtain ⟨hpmem, hpid⟩ := (Dict.get?_of_unique hindex _ _).1 hp
      obtain ⟨hqmem, hqid⟩ := (Dict.get?_of_unique hindex _ _).1 hq
      have hpq : p = q :=
        List.inj_on_of_nodup_map hpayments hpmem hqmem (href.symm.trans href')
      exact hne (hpid.symm.trans (hpq ▸ hqid))

/-- **The entries of the corporate-action ledger**: the base's, and entries of one currency that are
none of the base's and differ from one another. -/
theorem corporateActionEntries_spec {ledger : CorporateActionLedgerState}
    (h : reduceCorporateActionLedger H base splits dividends payments currency = .ok ledger) :
    (base.entries ++ ledger.corporateActionEntries).Nodup ∧
      projectBalances (sortOn (·.val.order) (base.entries ++ ledger.corporateActionEntries)) =
        .ok ledger.balances ∧
      projectBalances base.entries = .ok base.balances ∧
      ∀ e ∈ ledger.corporateActionEntries, e.val.HasCurrency currency := by
  simp only [reduceCorporateActionLedger, validateBaseLedger, Py.eq_ok, not_exists, not_and,
    not_or] at h
  obtain ⟨_, -, _, ⟨_, -, _, hbaseIds, _, hbaseKinds, _, -, baseBalances, hbaseBalances, rfl, -⟩,
    splits', hsplits, dividends', hdividends, payments', hpayments, _, -, _, -, _, -, index, hindex,
    splitEntries, hsplitEntries, dividendEntries, hdividendEntries, balances, hbalances, _, -,
    rfl⟩ := h
  have hsplit (e) (he : e ∈ splitEntries) :
      e.val.kind = .stockSplit ∧ e.val.HasCurrency currency := by
    obtain ⟨_, -, hentry⟩ := exists_of_mem_mapM hsplitEntries he
    exact ⟨(splitEntry_spec hentry).1, (splitEntry_spec hentry).2.2⟩
  have hdividend (e) (he : e ∈ dividendEntries.flatten) :
      (e.val.kind = .cashDividendAccrual ∨ e.val.kind = .cashDividendPayment) ∧
        e.val.HasCurrency currency := by
    obtain ⟨es, hes, he⟩ := List.mem_flatten.1 he
    obtain ⟨_, -, hentries⟩ := exists_of_mem_mapM hdividendEntries hes
    obtain ⟨hcurrency, ⟨hkind, -⟩ | ⟨_, -, hkind, -⟩⟩ := (dividendEntries_spec hentries).2 e he
    · exact ⟨.inl hkind, hcurrency⟩
    · exact ⟨.inr hkind, hcurrency⟩
  have hsplitNodup : splitEntries.Nodup := by
    have hrefs : splitEntries.map (·.val.referenceId) = splits'.map (·.val.splitId) :=
      map_of_mapM (fun _ _ he => (splitEntry_spec he).2.1) hsplitEntries
    exact List.Nodup.of_map _ (hrefs ▸ (uniqueFacts_spec hsplits).2)
  have hcorporate : (splitEntries ++ dividendEntries.flatten).Nodup := by
    refine List.nodup_append.2 ⟨hsplitNodup, nodup_dividendEntries (uniqueFacts_spec hdividends).2
      (uniqueFacts_spec hpayments).2 (matchPayments_spec hindex) hdividendEntries, ?_⟩
    rintro a ha b hb rfl
    have hkind := (hsplit a ha).1
    rcases (hdividend a hb).1 with hkind' | hkind' <;> simp [hkind] at hkind'
  refine ⟨List.nodup_append.2 ⟨hbaseIds.of_map, nodup_sortOn.2 hcorporate, ?_⟩, hbalances,
    hbaseBalances, fun e he => ?_⟩
  · -- a base entry is of a kind no corporate action has
    rintro a ha b hb rfl
    have hkind := hbaseKinds a ha
    rcases List.mem_append.1 (mem_sortOn.1 hb) with hb | hb
    · simp [(hsplit a hb).1] at hkind
    · rcases (hdividend a hb).1 with hkind' | hkind' <;> simp [hkind'] at hkind
  · rcases List.mem_append.1 (mem_sortOn.1 he) with he | he
    · exact (hsplit e he).2
    · exact (hdividend e he).2

end corporate

/-! ## The ledgers balance -/

/-- The balances of a ledger are what its entries post, each entry once. -/
structure PostedOnce (entries : List CanonicalLedgerEntry) (balances : List LedgerBalance) :
    Prop where
  /-- There is one balance for each key, and none is empty. -/
  projection : IsProjection balances
  /-- A balance is what the entries post to it, debits less credits. -/
  posted : ∀ k, balanceAt balances k = entriesEffect entries k
  /-- No entry is posted twice. -/
  once : entries.Nodup

/-- The balances of every currency add up to nothing, and are what the entries post. -/
structure Balanced (entries : List CanonicalLedgerEntry) (balances : List LedgerBalance) : Prop
    extends PostedOnce entries balances where
  zero : ∀ currency, currencyTotal balances currency = 0

/-- Projected balances count every entry once. -/
theorem postedOnce_of_projectBalances (hordered : ordered.Perm entries)
    (h : projectBalances ordered = .ok balances) (honce : entries.Nodup) :
    PostedOnce entries balances := by
  obtain ⟨hprojection, hposted⟩ := projectBalances_spec h
  exact ⟨hprojection, fun k => by rw [hposted, entriesEffect_perm hordered], honce⟩

/-- Entries of one currency each add up to nothing. -/
theorem sum_amountIn_eq_zero (h : ∀ e ∈ entries, ∃ c, e.val.HasCurrency c) (currency : Str) :
    (entries.map (·.val.amountIn currency)).sum = 0 := by
  have hzero : ∀ e ∈ entries, e.val.amountIn currency = 0 := fun e he =>
    (h e he).elim fun _ hc => amountIn_eq_zero hc currency
  rw [List.map_congr_left hzero, List.sum_map_zero]

/-- Entries of one currency each balance. -/
theorem balanced_of_projectBalances (hordered : ordered.Perm entries)
    (h : projectBalances ordered = .ok balances)
    (hcurrency : ∀ e ∈ entries, ∃ c, e.val.HasCurrency c) (honce : entries.Nodup) :
    Balanced entries balances := by
  refine ⟨postedOnce_of_projectBalances hordered h honce, fun currency => ?_⟩
  rw [currencyTotal_of_projectBalances h, (hordered.map _).sum_eq, sum_amountIn_eq_zero hcurrency]

theorem balanced_of_reduceExecutionLedger {H : LedgerHashes}
    (h : reduceExecutionLedger H orders flows currency = .ok ledger) :
    Balanced ledger.entries ledger.balances := by
  have hledger := isTradeDateLedger_of_reduce h
  exact balanced_of_projectBalances (.refl _) hledger.balances
    (fun e he => (hledger.entries e he).currency) hledger.ids.of_map

theorem balanced_of_reduceSettlementLedger
    (h : reduceSettlementLedger H accountId orders flows instructions confirmations
      currency = .ok s) :
    Balanced (s.tradeDateLedger.entries ++ s.settlementEntries) s.balances := by
  simp only [reduceSettlementLedger, unsealedSettlementLedger, deriveSettlementAggregate,
    Py.eq_ok] at h
  obtain ⟨_, ⟨_, -, _, -, ledger, hledger, deltas, -, _, -, _, -, _, -, _, -, _, -,
    settled, hsettled,
    derived, ⟨_, hids, balances, hbalances, _, -, _, -, rfl⟩, rfl⟩, _, -, rfl⟩ := h
  refine balanced_of_projectBalances (sortOn_perm _ _) hbalances (fun e he => ?_)
    (nodup_sortOn.1 hids.of_map)
  rcases List.mem_append.1 he with he | he
  · exact ((isTradeDateLedger_of_reduce hledger).entries e he).currency
  · obtain ⟨item, hitem, he⟩ := List.mem_flatMap.1 (mem_sortOn.1 he)
    obtain ⟨_, -, hdelta⟩ := exists_of_mem_mapM hsettled hitem
    exact ⟨currency, settleDelta_hasCurrency hdelta e he⟩

/-- Corporate actions leave the total of every currency as it is in the base. -/
theorem currencyTotal_of_reduceCorporateActionLedger {H : CorporateHashes}
    {ledger : CorporateActionLedgerState}
    (h : reduceCorporateActionLedger H base splits dividends payments currency = .ok ledger)
    (c : Str) : currencyTotal ledger.balances c = currencyTotal base.balances c := by
  obtain ⟨-, hbalances, hbase, hcurrency⟩ := corporateActionEntries_spec h
  rw [currencyTotal_of_projectBalances hbalances, sum_map_sortOn, List.map_append, List.sum_append,
    sum_amountIn_eq_zero fun e he => ⟨currency, hcurrency e he⟩, add_zero,
    currencyTotal_of_projectBalances hbase]

/-- **Every ledger balances in every currency.**  The corporate-action ledger does where the base it
is laid over does. -/
theorem ledgers_balance :
    (∀ (H : LedgerHashes) orders flows currency ledger,
      reduceExecutionLedger H orders flows currency = .ok ledger →
        Balanced ledger.entries ledger.balances) ∧
    (∀ (H : SettlementHashes) accountId orders flows instructions confirmations currency s,
      reduceSettlementLedger H accountId orders flows instructions confirmations currency = .ok s →
        Balanced (s.tradeDateLedger.entries ++ s.settlementEntries) s.balances) ∧
    ∀ (H : CorporateHashes) base splits dividends payments currency ledger,
      reduceCorporateActionLedger H base splits dividends payments currency = .ok ledger →
        PostedOnce (base.entries ++ ledger.corporateActionEntries) ledger.balances ∧
          ∀ c, currencyTotal base.balances c = 0 → currencyTotal ledger.balances c = 0 := by
  refine ⟨fun _ _ _ _ _ h => balanced_of_reduceExecutionLedger h,
    fun _ _ _ _ _ _ _ _ h => balanced_of_reduceSettlementLedger h,
    fun H base splits dividends payments currency ledger h => ?_⟩
  obtain ⟨honce, hbalances, -, -⟩ := corporateActionEntries_spec h
  refine ⟨postedOnce_of_projectBalances (sortOn_perm _ _) hbalances honce, fun c hbase => ?_⟩
  rw [currencyTotal_of_reduceCorporateActionLedger h, hbase]

/-- A base ledger with one entry that debits one currency and credits another. -/
def crossCurrencyBase : Py (CanonicalLedgerState × CorporateActionLedgerState) := do
  let debit ← corporatePosting ⟨.cash "USD", "USD", none⟩ 100 0
  let credit ← corporatePosting ⟨.contributions, "EUR", none⟩ (-100) 0
  let entry ← ledgerEntry plainId "ledger-entry" .cashFlow "flow" "source" 0 0 [debit, credit]
  let balances ← projectBalances [entry]
  let base : CanonicalLedgerState := { entries := [entry], balances, asOf := some 0 }
  let ledger ← reduceCorporateActionLedger .plain base [] [] [] "USD"
  return (base, ledger)

/-- The corporate-action reducer accepts a base that balances only over two currencies. -/
theorem cross_currency_base : ∃ base ledger,
    reduceCorporateActionLedger .plain base [] [] [] "USD" = .ok ledger ∧
      currencyTotal ledger.balances "USD" = 100 := by
  have h : (fun x => currencyTotal x.2.balances "USD") <$> crossCurrencyBase = .ok 100 := by
    decide +kernel
  simp only [crossCurrencyBase, eq_ok] at h
  obtain ⟨_, ⟨_, -, _, -, _, -, _, -, ledger, hledger, rfl⟩, htotal⟩ := h
  exact ⟨_, ledger, hledger, htotal⟩

/-- The revised purchase in its three ledgers, with one of its three events settled. -/
def revisedLedgers : Py (CanonicalLedgerState × CanonicalSettlementLedgerState ×
    CorporateActionLedgerState) := do
  let (order, flow, ledger) ← revisedPurchase
  let instructions ← order.brokerEvents.mapM fun event =>
    createSettlementInstruction .plain event 40 40 event.val.eventId
  let confirmations ← (instructions.take 1).mapM fun instruction =>
    createSettlementConfirmation .plain instruction 50 50 instruction.val.instructionId
  let settlement ← reduceSettlementLedger .plain "account" [order] [flow] instructions confirmations
    "USD"
  let corporate ← reduceCorporateActionLedger .plain ledger [] [] [] "USD"
  return (ledger, settlement, corporate)

theorem revised_ledgers_balance :
    ∃ orders flows ledger accountId instructions confirmations settlement corporate,
      reduceExecutionLedger .plain orders flows "USD" = .ok ledger ∧
      Balanced ledger.entries ledger.balances ∧
      reduceSettlementLedger .plain accountId orders flows instructions confirmations "USD" =
        .ok settlement ∧
      Balanced (settlement.tradeDateLedger.entries ++ settlement.settlementEntries)
        settlement.balances ∧
      reduceCorporateActionLedger .plain ledger [] [] [] "USD" = .ok corporate ∧
      (∀ c, currencyTotal corporate.balances c = 0) ∧
      PostedOnce (ledger.entries ++ corporate.corporateActionEntries) corporate.balances := by
  have h : (fun _ => ()) <$> revisedLedgers = .ok () := by
    decide +kernel
  simp only [revisedLedgers, revisedPurchase, eq_ok] at h
  obtain ⟨_, ⟨_, ⟨_, -, _, -, _, -, _, -, order, -, flow, -, ledger, hledger, rfl⟩, instructions, -,
    confirmations, -, settlement, hsettlement, corporate, hcorporate, rfl⟩, -⟩ := h
  have hbalanced := ledgers_balance.1 .plain _ _ _ _ hledger
  obtain ⟨hposted, hzero⟩ := ledgers_balance.2.2 .plain _ _ _ _ _ _ hcorporate
  exact ⟨[order], [flow], ledger, "account", instructions, confirmations, settlement, corporate,
    hledger, hbalanced, hsettlement, ledgers_balance.2.1 .plain _ _ _ _ _ _ _ hsettlement,
    hcorporate, fun c => hzero c (hbalanced.zero c), hposted⟩

end AutoQuantTrader
