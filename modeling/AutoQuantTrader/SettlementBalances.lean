import Mathlib.Tactic.Linarith
import AutoQuantTrader.AccountBalances
import AutoQuantTrader.Settlement

/-!
# What the settlement ledger adds up to

An execution that has not settled is worth nothing in settled cash, and what it takes from cash is
owed.  `reduceSettlementLedger_spec` states this for every ledger the reducer returns.
-/

namespace AutoQuantTrader

open Result Sorting

/-! ## Entries -/

variable {account : LedgerAccount} {currency : Str} {orders : List CanonicalOrderState}

theorem settlementPosting_effect (h : settlementPosting account currency amount = .ok posting)
    (k : BalanceKey) : posting.val.effect k = change ⟨account, currency, none⟩ amount 0 k := by
  simp only [settlementPosting, Py.eq_ok, canonicalPersistedDecimal_eq_ok] at h
  obtain ⟨a, ⟨-, rfl⟩, _, -, hp⟩ := h
  rw [hp, postingFields_effect]

/-- Cash that moves in or out of the settlement account. -/
def transfer (currency : Str) (account : LedgerAccount) (intoCash : ℚ) (k : BalanceKey) : ℚ × ℚ :=
  change ⟨.cash currency, currency, none⟩ intoCash 0 k +
    change ⟨account, currency, none⟩ (-intoCash) 0 k

theorem settlementEntry_effect
    (h : settlementEntry H kind referenceId sourceSha256 effectiveAt recordedAt currency account
      intoCash = .ok entry) (k : BalanceKey) :
    postingsEffect entry.val.postings k = transfer currency account intoCash k := by
  simp only [settlementEntry, Py.eq_ok] at h
  obtain ⟨cash, hcash, settlement, hsettlement, hentry⟩ := h
  rw [hentry, postingsEffect, sum_map_sortOn, transfer, ← settlementPosting_effect hcash k,
    ← settlementPosting_effect hsettlement k]
  simp

/-- What an execution's cash comes to in the settlement ledger. -/
def deltaEffect (currency : Str) (settled : Prop) [Decidable settled] (cashDelta : ℚ)
    (k : BalanceKey) : ℚ × ℚ :=
  if settled then 0 else transfer currency (settlementAccount cashDelta) (-cashDelta) k

/-- The execution event has been confirmed to have settled. -/
def isSettled (instructions : List ExecutionSettlementInstruction)
    (confirmations : List ExecutionSettlementConfirmation) (eventId : Str) : Prop :=
  ∃ i ∈ instructions, i.val.executionEventId = eventId ∧
    ∃ c ∈ confirmations, c.val.instructionId = i.val.instructionId

instance (instructions : List ExecutionSettlementInstruction)
    (confirmations : List ExecutionSettlementConfirmation) (eventId : Str) :
    Decidable (isSettled instructions confirmations eventId) :=
  inferInstanceAs (Decidable (∃ _ ∈ _, _))

section settle

/-- An event has settled when the one instruction for it is confirmed. -/
theorem isSettled_iff (hevents : Dict.unique (·.val.executionEventId) () instructions = .ok byEvent)
    (hconfirmations : Dict.unique (·.val.instructionId) () confirmations = .ok byInstruction)
    (hinstruction : byEvent.get? eventId = some instruction) :
    isSettled instructions confirmations eventId ↔
      (byInstruction.get? instruction.val.instructionId).isSome = true := by
  obtain ⟨hmem, hid⟩ := (Dict.get?_of_unique hevents _ _).1 hinstruction
  rw [Option.isSome_iff_exists]
  constructor
  · rintro ⟨i, hi, hievent, c, hc, hcid⟩
    obtain rfl : i = instruction := Dict.eq_of_unique hevents hi hmem (hievent.trans hid.symm)
    exact ⟨c, (Dict.get?_of_unique hconfirmations _ _).2 ⟨hc, hcid⟩⟩
  · rintro ⟨c, hc⟩
    exact ⟨instruction, hmem, hid, c, (Dict.get?_of_unique hconfirmations _ _).1 hc⟩

/-- Settling one execution reclassifies its cash and, once it is confirmed, brings it back. -/
theorem settleDelta_effect
    (hevents : Dict.unique (·.val.executionEventId) () instructions = .ok byEvent)
    (hconfirmations : Dict.unique (·.val.instructionId) () confirmations = .ok byInstruction)
    (h : settleDelta H currency byEvent byInstruction delta = .ok settled) (k : BalanceKey) :
    entriesEffect settled.1 k =
      deltaEffect currency (isSettled instructions confirmations delta.event.val.eventId)
        delta.cashDelta k := by
  simp only [settleDelta, eq_ok] at h
  obtain ⟨instruction, hinstruction, _, -, _, -, _, -, entry, hentry, confirmed, hconfirmed,
    obligation, -, rfl⟩ := h
  have hsettled := isSettled_iff hevents hconfirmations hinstruction
  rw [← List.singleton_append, entriesEffect_append, entriesEffect_singleton,
    settlementEntry_effect hentry, deltaEffect]
  cases hc : byInstruction.get? instruction.val.instructionId with
  | none =>
    rw [hc, Option.toList_none, mapM_nil_eq_ok] at hconfirmed
    rw [if_neg (by simp [hsettled, hc]), ← hconfirmed, entriesEffect_nil, add_zero]
  | some c =>
    rw [hc, Option.toList_some, mapM_cons_eq_ok] at hconfirmed
    obtain ⟨back, hback, rest, hrest, rfl⟩ := hconfirmed
    rw [mapM_nil_eq_ok] at hrest
    simp only [eq_ok] at hback
    obtain ⟨_, -, _, -, hback⟩ := hback
    rw [if_pos (by simp [hsettled, hc]), ← hrest, entriesEffect_singleton,
      settlementEntry_effect hback, transfer, transfer]
    simp only [change]
    ext <;> split <;> split <;> simp

end settle

/-! ## The aggregate -/

section aggregate

variable {settled : Prop} [Decidable settled]

/-- What is not settled is taken out of cash, into what is receivable or payable. -/
theorem deltaEffect_open :
    (deltaEffect currency settled cashDelta ⟨.cash currency, currency, none⟩).1 =
        -(if settled then 0 else cashDelta) ∧
      (deltaEffect currency settled cashDelta ⟨.tradeReceivables, currency, none⟩).1 =
        (if settled then 0 else max cashDelta 0) ∧
      (deltaEffect currency settled cashDelta ⟨.tradePayables, currency, none⟩).1 =
        -(if settled then 0 else max (-cashDelta) 0) := by
  unfold deltaEffect
  split
  · simp
  · unfold transfer settlementAccount
    split
    · next hpos => simp [change, hpos.le]
    · next hpos => simp [change, not_lt.1 hpos]

end aggregate

/-- The execution ledger leaves the settlement accounts alone. -/
theorem balanceAt_settlementAccount {H : LedgerHashes}
    (h : reduceExecutionLedger H orders flows currency = .ok ledger)
    (ha : account = .tradeReceivables ∨ account = .tradePayables) :
    balanceAt ledger.balances ⟨account, currency, none⟩ = 0 := by
  obtain ⟨-, hbalance, heffect⟩ := reduceExecutionLedger_spec h
  have hflow (f : LedgerCashFlow) : f.val.effect ⟨account, currency, none⟩ = 0 := by
    rcases ha with rfl | rfl <;> cases hkind : f.val.kind <;>
      simp [LedgerCashFlowFields.effect, change, hkind]
  have horder (state : CanonicalOrderState) :
      state.effect currency ⟨account, currency, none⟩ = 0 := by
    rcases ha with rfl | rfl <;>
      simp [CanonicalOrderState.effect, ExecutionProjection.effect,
        ExecutionEconomics.effect, change]
  rw [hbalance, heffect]
  simp only [hflow, horder, List.sum_map_zero, add_zero]

section spec

variable {instructions : List ExecutionSettlementInstruction}
  {confirmations : List ExecutionSettlementConfirmation} {currency : Str}

/-- What the deltas that are still open add to a balance. -/
def openEffect (instructions : List ExecutionSettlementInstruction)
    (confirmations : List ExecutionSettlementConfirmation) (currency : Str)
    (deltas : List ExecutionCashDelta) (k : BalanceKey) : ℚ × ℚ :=
  (deltas.map fun d => deltaEffect currency
    (isSettled instructions confirmations d.event.val.eventId) d.cashDelta k).sum

/-- **The settlement ledger in closed form.** -/
theorem reduceSettlementLedger_spec
    (h : reduceSettlementLedger H accountId orders flows instructions confirmations currency =
      .ok s) :
    ∃ deltas, executionCashDeltas orders = .ok deltas ∧
      reduceExecutionLedger H.toLedgerHashes orders flows currency = .ok s.tradeDateLedger ∧
      s.tradeDateCash =
        (balanceAt s.tradeDateLedger.balances ⟨.cash currency, currency, none⟩).1 ∧
      s.settledCash = s.tradeDateCash - (deltas.map fun d =>
        if isSettled instructions confirmations d.event.val.eventId then 0 else d.cashDelta).sum ∧
      s.payables = (deltas.map fun d =>
        if isSettled instructions confirmations d.event.val.eventId then 0
        else max (-d.cashDelta) 0).sum ∧
      0 ≤ s.payables ∧
      s.receivables = (deltas.map fun d =>
        if isSettled instructions confirmations d.event.val.eventId then 0
        else max d.cashDelta 0).sum := by
  simp only [reduceSettlementLedger, unsealedSettlementLedger, eq_ok] at h
  obtain ⟨_, ⟨_, -, _, -, ledger, hledger, deltas, hdeltas, ⟨byId, byEvent⟩, hinstructions,
    ⟨byConfirmation, byInstruction⟩, hconfirmations, _, -, _, -, _, -, settled, hsettled,
    derived, hderived, rfl⟩, _, -, rfl⟩ := h
  obtain ⟨-, hevents⟩ := Dict.unique_of_unique₃ hinstructions
  obtain ⟨-, hconfirmed⟩ := Dict.unique_of_unique₃ hconfirmations
  simp only [deriveSettlementAggregate, Py.eq_ok, not_or, not_lt]
    at hderived
  obtain ⟨_, -, balances, hbalances, _, ⟨-, horientation⟩, available, -, rfl⟩ := hderived
  -- settlement reclassifies what has not settled
  have hbalance (k : BalanceKey) : balanceAt balances k = balanceAt ledger.balances k +
      openEffect instructions confirmations currency deltas k := by
    have hentries : entriesEffect (settled.flatMap (·.1)) k =
        openEffect instructions confirmations currency deltas k := by
      rw [List.flatMap_def, entriesEffect_flatten, List.map_map]
      exact sum_map_of_mapM (fun d s hs => settleDelta_effect hevents hconfirmed hs k) hsettled
    rw [(projectBalances_spec hbalances).2, entriesEffect_perm (sortOn_perm _ _),
      entriesEffect_append, entriesEffect_perm (sortOn_perm _ _), hentries,
      (reduceExecutionLedger_spec hledger).2.1]
  refine ⟨deltas, hdeltas, hledger, rfl, ?_, ?_, by simpa using horientation, ?_⟩
  · change (balanceAt balances _).1 = (balanceAt ledger.balances _).1 - _
    rw [hbalance, Prod.fst_add, openEffect, fst_sum_map]
    simp only [deltaEffect_open, sum_map_neg, sub_eq_add_neg]
  · change -(balanceAt balances _).1 = _
    rw [hbalance, balanceAt_settlementAccount hledger (.inr rfl), zero_add, openEffect,
      fst_sum_map]
    simp only [deltaEffect_open, sum_map_neg, neg_neg]
  · change (balanceAt balances _).1 = _
    rw [hbalance, balanceAt_settlementAccount hledger (.inl rfl), zero_add, openEffect,
      fst_sum_map]
    simp only [deltaEffect_open]

end spec

/-! ## Executions without corrections -/

theorem eventCash_eq (h : eventCash report side = .ok cash) :
    cash = (report.economics side).cash := by
  simp only [eventCash, eq_ok] at h
  obtain ⟨notional, hnotional, h⟩ := h
  have hn := exactDecimalMultiply_eq hnotional
  cases side with
  | buy =>
    simp only [eq_ok] at h
    obtain ⟨total, htotal, rfl⟩ := h
    rw [exactDecimalAdd_eq htotal, hn, ExecutionReport.economics, Side.sign]
    ring
  | sell =>
    rw [exactDecimalSubtract_eq h, hn, ExecutionReport.economics, Side.sign]
    ring

/-- The cash of an execution event on its own. -/
def executionCash (side : Side) (event : BrokerOrderEvent) : ℚ :=
  onReport (fun report => (report.economics side).cash) event

/-- While nothing is corrected, every execution event moves its own cash. -/
theorem collectCashDelta_sum {event : BrokerOrderEvent} (hinitial : event.val.kind.IsInitial)
    (h : collectCashDelta state acc event = .ok acc') (f : Str → ℚ → ℚ) (hf : ∀ id, f id 0 = 0) :
    (acc'.deltas.map fun d => f d.event.val.eventId d.cashDelta).sum =
      (acc.deltas.map fun d => f d.event.val.eventId d.cashDelta).sum +
        f event.val.eventId (executionCash state.submission.val.intent.val.side event) := by
  unfold collectCashDelta at h
  cases hreport : event.val.kind.report? with
  | none =>
    rw [hreport, pure_eq_ok] at h
    rw [← h, executionCash, onReport, hreport, Option.map_none, Option.getD_none, hf, add_zero]
  | some report =>
    rw [hreport] at h
    simp only [eq_ok] at h
    obtain ⟨_, -, _, -, current, hcurrent, previous, hprevious, delta, hdelta, rfl⟩ := h
    have hzero : previous = 0 := by
      unfold previousCash at hprevious
      split at hprevious
      · next hkind =>
        rw [hkind] at hinitial
        contradiction
      · rw [pure_eq_ok] at hprevious
        exact hprevious.symm
    have hcash : executionCash state.submission.val.intent.val.side event = delta := by
      rw [exactDecimalSubtract_eq hdelta, hzero, sub_zero, eventCash_eq hcurrent, executionCash,
        onReport, hreport]
      rfl
    rw [hcash]
    split
    · next hd => rw [hd, hf, add_zero]
    · simp

/-- The deltas collected add up over the order's events. -/
theorem collectOrderDeltas_sum (hinitial : ∀ e ∈ state.brokerEvents, e.val.kind.IsInitial)
    (h : collectOrderDeltas acc state = .ok acc') (f : Str → ℚ → ℚ) (hf : ∀ id, f id 0 = 0) :
    (acc'.deltas.map fun d => f d.event.val.eventId d.cashDelta).sum =
      (acc.deltas.map fun d => f d.event.val.eventId d.cashDelta).sum +
        (state.brokerEvents.map fun e =>
          f e.val.eventId (executionCash state.submission.val.intent.val.side e)).sum := by
  refine foldlM_invariant_done (fun done acc' =>
    (acc'.deltas.map fun d => f d.event.val.eventId d.cashDelta).sum =
      (acc.deltas.map fun d => f d.event.val.eventId d.cashDelta).sum +
        (done.map fun e =>
          f e.val.eventId (executionCash state.submission.val.intent.val.side e)).sum)
    ?_ (by simp) h
  intro done e s s' hmem hdone hstep
  rw [collectCashDelta_sum (hinitial e hmem) hstep f hf, hdone, sum_map_snoc, add_assoc]

/-- **Without corrections the deltas are the executions**: any total over the deltas is the total
over the events of the distinct orders. -/
theorem executionCashDeltas_sum
    (hinitial : ∀ state ∈ orders, ∀ e ∈ state.brokerEvents, e.val.kind.IsInitial)
    (h : executionCashDeltas orders = .ok deltas) (f : Str → ℚ → ℚ) (hf : ∀ id, f id 0 = 0) :
    (deltas.map fun d => f d.event.val.eventId d.cashDelta).sum =
      (orders.dedup.map fun state => (state.brokerEvents.map fun e =>
        f e.val.eventId (executionCash state.submission.val.intent.val.side e)).sum).sum := by
  simp only [executionCashDeltas, eq_ok] at h
  obtain ⟨unique, hunique, acc, hacc, rfl⟩ := h
  rw [sum_map_sortOn, ← ((Dict.values_perm_dedup hunique).map _).sum_eq,
    ← sum_map_sortOn (fun state : CanonicalOrderState => state.submission.val.orderId)]
  refine foldlM_invariant_done (fun done acc =>
    (acc.deltas.map fun d => f d.event.val.eventId d.cashDelta).sum =
      (done.map fun state => (state.brokerEvents.map fun e =>
        f e.val.eventId (executionCash state.submission.val.intent.val.side e)).sum).sum)
    ?_ (by simp) hacc
  intro done state s s' hmem hdone hstep
  have hstate : state ∈ orders := (Dict.mem_values_of_unique hunique).1 (mem_sortOn.1 hmem)
  rw [collectOrderDeltas_sum (hinitial state hstate) hstep f hf, hdone, sum_map_snoc]

end AutoQuantTrader
