import AutoQuantTrader.DecimalBounds
import AutoQuantTrader.LedgerLaws

/-!
# Positions and the replay of units

The corporate-action reducer replays the unit changes of the base ledger and the splits in the order
of their times, whatever currency they were posted in.  A position is read off two balances of the
reducer's own currency.  The two agree for an instrument exactly when the executions were posted in
that currency or cancel out (`positionQuantity_eq_replay_iff`).
-/

namespace AutoQuantTrader

open Result Sorting

variable {H : CorporateHashes} {base : CanonicalLedgerState} {executionCurrency : Str} {i : Str}
  {orders : List CanonicalOrderState}

/-! ## The replay -/

/-- The quantities after all unit changes and splits, in the order of their times. -/
def replayUnits (ledger : CanonicalLedgerState) (splits : List StockSplitAction)
    (dividends : List CashDividendAccrual) : Py (Dict Str ℚ) :=
  (sortOn EntitlementEvent.order (unitDeltas ledger ++ splits.map .split ++
    dividends.map .dividend)).foldlM entitle .empty

/-- What an event adds to the quantity of an instrument. -/
def EntitlementEvent.moves (i : Str) : EntitlementEvent → ℚ
  | .unitDelta _ j units _ => if j = i then units else 0
  | .split s => if s.val.instrumentId = i then s.val.units else 0
  | .dividend _ => 0

/-- One event moves the quantity of its own instrument. -/
theorem entitle_moves (h : entitle quantities event = .ok quantities') :
    quantities'.getD i 0 = quantities.getD i 0 + event.moves i := by
  have hset (j : Str) (units : ℚ) : (quantities.set j (quantities.getD j 0 + units)).getD i 0 =
      quantities.getD i 0 + if j = i then units else 0 := by
    by_cases hj : j = i
    · simp [Dict.getD, hj]
    · simp [Dict.getD, hj, Ne.symm hj]
  cases event with
  | unitDelta entryId j units effectiveAt =>
    simp only [entitle, eq_ok] at h
    obtain ⟨quantity, hquantity, rfl⟩ := h
    rw [exactDecimalAdd_eq hquantity]
    exact hset j units
  | split s =>
    simp only [entitle, eq_ok] at h
    obtain ⟨_, -, units, hunits, quantity, hquantity, rfl⟩ := h
    have hdelta : s.val.units = units := by
      rw [StockSplitFields.units, hunits]
    rw [exactDecimalAdd_eq hquantity, hset, EntitlementEvent.moves, hdelta]
  | dividend d =>
    simp only [entitle, eq_ok] at h
    obtain ⟨_, -, rfl⟩ := h
    exact (add_zero _).symm

/-- Replaying the events adds up what each moves. -/
theorem foldlM_entitle {events : List EntitlementEvent}
    (h : events.foldlM entitle .empty = .ok quantities) :
    quantities.getD i 0 = (events.map (·.moves i)).sum := by
  refine foldlM_invariant_done (fun done quantities =>
    quantities.getD i 0 = (done.map (·.moves i)).sum) ?_ rfl h
  intro done event quantities quantities' _ hsum hstep
  rw [entitle_moves hstep, hsum, sum_map_snoc]

/-! ## The units of an execution ledger -/

/-- Units are posted to the clearing account of their instrument, in the currency of the
executions. -/
theorem clearing_of_units
    (h : reduceExecutionLedger H.toLedgerHashes orders flows executionCurrency = .ok base) :
    ∀ e ∈ base.entries, ∀ p ∈ e.val.postings, p.val.unitsDelta ≠ 0 →
      ∃ i, p.val.key = ⟨.clearing i, executionCurrency, some i⟩ := by
  refine forall_entries_of_reduce (fun flow entry hentry p hp hunits => ?_) ?_ h
  · simp only [cashFlowEntry, eq_ok] at hentry
    obtain ⟨_, -, cash, hcash, equity, hequity, hentry⟩ := hentry
    rcases List.mem_append.1 ((ledgerEntry_spec hentry).2.2.mem_iff.1 hp) with hp | hp
    · exact absurd (postingFromDelta_key hcash p hp).2 hunits
    · exact absurd (postingFromDelta_key hequity p hp).2 hunits
  · intro event instrumentId delta postings entry hpostings hentry p hp hunits
    simp only [executionPostings, eq_ok] at hpostings
    obtain ⟨cash, hcash, clearing, hclearing, fees, hfees, rfl⟩ := hpostings
    rcases List.mem_append.1 ((ledgerEntry_spec hentry).2.2.mem_iff.1 hp) with hp | hp
    · rcases List.mem_append.1 hp with hp | hp
      · exact absurd (postingFromDelta_key hcash p hp).2 hunits
      · exact ⟨instrumentId, (postingFromDelta_key hclearing p hp).1⟩
    · exact absurd (postingFromDelta_key hfees p hp).2 hunits

/-- The units posted under a key. -/
theorem units_entriesEffect (entries : List CanonicalLedgerEntry) (k : BalanceKey) :
    (entriesEffect entries k).2 = ((entries.flatMap (·.val.postings)).map fun p =>
      if p.val.key = k then p.val.unitsDelta else 0).sum := by
  rw [entriesEffect_eq_flatMap, postingsEffect, snd_sum_map]
  congr 1
  refine List.map_congr_left fun p _ => ?_
  rw [CanonicalLedgerPostingFields.effect, change]
  split <;> rfl

/-- The units replayed for an instrument. -/
theorem sum_unitDeltas (ledger : CanonicalLedgerState) :
    ((unitDeltas ledger).map (·.moves i)).sum =
    ((ledger.entries.flatMap (·.val.postings)).map fun p =>
      if p.val.key.instrumentId.getD "None" = i then p.val.unitsDelta else 0).sum := by
  rw [unitDeltas]
  induction ledger.entries with
  | nil => rfl
  | cons e entries ih =>
    rw [List.flatMap_cons, List.flatMap_cons, List.map_append, List.map_append, List.sum_append,
      List.sum_append, ih, List.map_map, sum_map_filter]
    congr 2
    refine List.map_congr_left fun p _ => ?_
    by_cases hunits : p.val.unitsDelta = 0
    · simp [hunits]
    · simp [hunits, EntitlementEvent.moves]

/-- **The replayed units of an instrument are the executed ones**, and the balances that hold them
are those of its clearing account in the currency of the executions. -/
theorem units_of_reduce (h : ∀ e ∈ base.entries, ∀ p ∈ e.val.postings, p.val.unitsDelta ≠ 0 →
      ∃ i, p.val.key = ⟨.clearing i, executionCurrency, some i⟩) (currency : Str) :
    (entriesEffect base.entries ⟨.clearing i, currency, some i⟩).2 =
        (if currency = executionCurrency then ((unitDeltas base).map (·.moves i)).sum else 0) ∧
      (entriesEffect base.entries ⟨.splits i, currency, some i⟩).2 = 0 := by
  have hposting (p : CanonicalLedgerPosting) (hp : p ∈ base.entries.flatMap (·.val.postings)) :
      (if p.val.key = ⟨.clearing i, currency, some i⟩ then p.val.unitsDelta else 0) =
        (if currency = executionCurrency then
          if p.val.key.instrumentId.getD "None" = i then p.val.unitsDelta else 0 else 0) ∧
      (if p.val.key = ⟨.splits i, currency, some i⟩ then p.val.unitsDelta else 0) = 0 := by
    by_cases hunits : p.val.unitsDelta = 0
    · simp [hunits]
    · obtain ⟨e, he, hmem⟩ := List.mem_flatMap.1 hp
      obtain ⟨j, hkey⟩ := h e he p hmem hunits
      simp only [hkey, BalanceKey.mk.injEq, LedgerAccount.clearing.injEq, reduceCtorEq, false_and,
        if_false, Option.some.injEq, Option.getD_some, and_true, ← ite_and]
      refine if_congr ?_ rfl rfl
      constructor
      · rintro ⟨hj, hcurrency, -⟩
        exact ⟨hcurrency.symm, hj⟩
      · rintro ⟨hcurrency, hj⟩
        exact ⟨hj, hcurrency.symm, hj⟩
  rw [units_entriesEffect, units_entriesEffect, sum_unitDeltas]
  constructor
  · rw [List.map_congr_left fun p hp => (hposting p hp).1]
    split <;> simp
  · rw [List.map_congr_left fun p hp => (hposting p hp).2]
    simp

/-! ## Positions -/

theorem isPersisted_units (balances : List LedgerBalance) (k : BalanceKey) :
    isPersisted (balanceAt balances k).2 := by
  unfold balanceAt
  split
  · next balance _ =>
    have hpasses := balance.passes
    simp only [LedgerBalanceFields.postInit, eq_ok, canonicalPersistedDecimal_eq_ok] at hpasses
    obtain ⟨_, -, _, -, _, -, _, -, _, ⟨hunits, -⟩, -⟩ := hpasses
    exact hunits
  · exact Fits.zero

/-- A position can always be read: it is the sum of its two balances. -/
theorem positionQuantity_eq_add (ledger : CorporateActionLedgerState) (i : Str) :
    ledger.positionQuantity i =
      .ok ((balanceAt ledger.balances ⟨.clearing i, ledger.currency, some i⟩).2 +
        (balanceAt ledger.balances ⟨.splits i, ledger.currency, some i⟩).2) :=
  exactDecimalAdd_of_fits (Fits.mono (isPersisted_units _ _) (by decide))
    (Fits.mono (isPersisted_units _ _) (by decide))

/-- **A position is what the replay of the units ends with** exactly if the executions were posted
in the currency it is read in, or cancel out. -/
theorem positionQuantity_eq_replay_iff {orders : List CanonicalOrderState}
    {flows : List LedgerCashFlow}
    {splits : List StockSplitAction} {dividends : List CashDividendAccrual}
    {payments : List CashDividendPayment} {currency : Str} {ledger : CorporateActionLedgerState}
    (hbase : reduceExecutionLedger H.toLedgerHashes orders flows executionCurrency = .ok base)
    (h : reduceCorporateActionLedger H base splits dividends payments currency = .ok ledger) :
    ∃ splits' dividends' quantities, splits'.Perm splits.dedup ∧ dividends'.Perm dividends.dedup ∧
      replayUnits base splits' dividends' = .ok quantities ∧
      ∀ i, ledger.positionQuantity i = .ok (quantities.getD i 0) ↔ currency = executionCurrency ∨
        executionTotal orders (fun intent x =>
          if intent.instrumentId = i then intent.side.sign * x.quantity else 0) = 0 := by
  obtain ⟨-, hcurrency, -, -, -, hbalance, -⟩ := reduceCorporateActionLedger_spec h
  simp only [reduceCorporateActionLedger, validateCausalEntitlements, eq_ok] at h
  obtain ⟨_, -, _, -, splits', hsplits, dividends', hdividends, _, -, _, -, _, -, _,
    ⟨_, -, _, -, quantities, hreplay, -⟩, -⟩ := h
  refine ⟨splits', dividends', quantities, (uniqueFacts_spec hsplits).1,
    (uniqueFacts_spec hdividends).1, hreplay, fun i => ?_⟩
  have hunits := units_of_reduce (i := i) (clearing_of_units hbase)
  have hexecuted : ((unitDeltas base).map (·.moves i)).sum = executionTotal orders fun intent x =>
      if intent.instrumentId = i then intent.side.sign * x.quantity else 0 := by
    rw [← positionQuantity_of_reduce hbase, CanonicalLedgerState.positionQuantity,
      (reduceExecutionLedger_spec hbase).2.1, (hunits executionCurrency).1, if_pos rfl]
  have hquantity : quantities.getD i 0 = ((unitDeltas base).map (·.moves i)).sum +
      (splits.dedup.map fun s => if s.val.instrumentId = i then s.val.units else 0).sum := by
    rw [foldlM_entitle hreplay, sum_map_sortOn, ← ((uniqueFacts_spec hsplits).1.map _).sum_eq]
    simp [EntitlementEvent.moves, Function.comp_def]
  rw [positionQuantity_eq_add, hcurrency, hbalance, hbalance, hquantity, ← hexecuted]
  simp only [Prod.snd_add, snd_sum_map, dividendEffect_some, StockSplitFields.effect_clearing,
    StockSplitFields.effect_splits, List.sum_map_zero, add_zero, (hunits currency).1,
    (hunits currency).2, zero_add, Except.ok.injEq, add_left_inj]
  by_cases hsame : currency = executionCurrency
  · simp [hsame]
  · simp only [hsame, if_false, false_or]
    exact eq_comm

/-- The corporate-action ledger of the revised purchase, in a currency. -/
def revisedPosition (currency : Str) : Py (CanonicalLedgerState × CorporateActionLedgerState) := do
  let (_, _, base) ← revisedPurchase
  let ledger ← reduceCorporateActionLedger .plain base [] [] [] currency
  return (base, ledger)

/-- Three shares were bought in dollars.  In euros the replay counts them, and the position is
empty. -/
theorem position_of_other_currency : ∃ orders flows base ledger quantities,
    reduceExecutionLedger .plain orders flows "USD" = .ok base ∧
      reduceCorporateActionLedger .plain base [] [] [] "EUR" = .ok ledger ∧
      replayUnits base [] [] = .ok quantities ∧ quantities.getD "i1" 0 = 3 ∧
      ledger.positionQuantity "i1" = .ok 0 := by
  have h : (fun t => decide (t.2.positionQuantity "i1" = .ok 0 ∧
      (·.getD "i1" 0) <$> replayUnits t.1 [] [] = .ok 3)) <$> revisedPosition "EUR" = .ok true := by
    decide +kernel
  simp only [revisedPosition, revisedPurchase, eq_ok] at h
  obtain ⟨_, ⟨_, ⟨_, -, _, -, _, -, _, -, order, -, flow, -, base, hbase, rfl⟩,
    ledger, hledger, rfl⟩, hvalues⟩ := h
  obtain ⟨hposition, hreplay⟩ := of_decide_eq_true hvalues
  simp only [map_eq_ok] at hreplay
  obtain ⟨quantities, hreplay, hthree⟩ := hreplay
  exact ⟨[order], [flow], base, ledger, quantities, hbase, hledger, hreplay, hthree, hposition⟩

/-- In dollars they agree. -/
theorem position_of_same_currency : ∃ orders flows base ledger,
    reduceExecutionLedger .plain orders flows "USD" = .ok base ∧
      reduceCorporateActionLedger .plain base [] [] [] "USD" = .ok ledger ∧
      ledger.positionQuantity "i1" = .ok 3 ∧ ∃ splits dividends quantities,
        replayUnits base splits dividends = .ok quantities ∧
        ledger.positionQuantity "i1" = .ok (quantities.getD "i1" 0) := by
  have h : (revisedPosition "USD" >>= fun t => t.2.positionQuantity "i1") = .ok 3 := by
    decide +kernel
  simp only [revisedPosition, revisedPurchase, eq_ok] at h
  obtain ⟨_, ⟨_, ⟨_, -, _, -, _, -, _, -, order, -, flow, -, base, hbase, rfl⟩,
    ledger, hledger, rfl⟩, hthree⟩ := h
  obtain ⟨splits, dividends, quantities, -, -, hreplay, hiff⟩ :=
    positionQuantity_eq_replay_iff (H := .plain) hbase hledger
  exact ⟨[order], [flow], base, ledger, hbase, hledger, hthree, splits, dividends,
    quantities, hreplay, (hiff "i1").2 (.inl rfl)⟩

end AutoQuantTrader
