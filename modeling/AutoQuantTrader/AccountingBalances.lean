import Mathlib.Algebra.Order.Group.MinMax
import AutoQuantTrader.Lib.Keyed
import AutoQuantTrader.SettlementBalances
import AutoQuantTrader.AccountingAdvance

/-!
# The capacity of an account

`capacity` says in one formula what an account can still spend: the money put in, the dividends
paid, what the executions have brought once they have settled and what they have cost at once, less
what the commitments reserve.  `project_available` says that this is the available cash the
projection reports, and `project_held` does the same for the shares held.

The formulas are stated for accounts in which no execution has been corrected.
-/

namespace AutoQuantTrader

open Result Sorting

namespace AccountingState

variable (s : AccountingState)

def submissionOf (orderId : Str) : Option OrderSubmission :=
  s.submissions.find? (·.val.orderId = orderId)

/-- The cash an event moves. -/
def eventCash (e : BrokerOrderEvent) : ℚ :=
  ((s.submissionOf e.val.orderId).map fun submission =>
    executionCash submission.val.intent.val.side e).getD 0

/-- The cash flows in dollars. -/
def usdFlows : ℚ :=
  (s.cashFlows.map fun f => if f.val.currency = Str.of "USD" then f.val.signedAmount else 0).sum

def paidDividends : ℚ :=
  (s.cashDividends.map fun d => if isPaid s.dividendPayments d then d.val.total else 0).sum

/-- The part of an event's cash that can be spent: its costs at once, its proceeds when they have
settled. -/
def spendable (e : BrokerOrderEvent) : ℚ :=
  if isSettled s.settlementInstructions s.settlementConfirmations e.val.eventId then s.eventCash e
  else min (s.eventCash e) 0

/-- The cash reserved by all commitments. -/
def reserved : ℚ := (s.commitments.map (·.val.reservedCash)).sum

/-- What the account can still spend. -/
def capacity : ℚ :=
  s.usdFlows + s.paidDividends + (s.brokerEvents.map s.spendable).sum - s.reserved

/-- The shares an event moves of an instrument. -/
def eventUnits (instrumentId : Str) (e : BrokerOrderEvent) : ℚ :=
  ((s.submissionOf e.val.orderId).map fun submission =>
    if submission.val.intent.val.instrumentId = instrumentId then
      submission.val.intent.val.side.sign * onReport (·.quantity) e else 0).getD 0

/-- The shares held of an instrument. -/
def units (instrumentId : Str) : ℚ :=
  (s.brokerEvents.map (s.eventUnits instrumentId)).sum +
    (s.stockSplits.map fun x => if x.val.instrumentId = instrumentId then x.val.units else 0).sum

/-- The shares of an instrument that commitments reserve. -/
def reservedShares (instrumentId : Str) : ℚ :=
  ((s.commitments.filter (·.val.instrumentId = instrumentId)).map (·.val.reservedSellQuantity)).sum

/-- No fact is held twice, and no execution has been corrected. -/
structure Plain : Prop where
  events : (s.brokerEvents.map (·.val.eventId)).Nodup
  flows : (s.cashFlows.map (·.val.cashFlowId)).Nodup
  dividends : (s.cashDividends.map (·.val.dividendId)).Nodup
  splits : (s.stockSplits.map (·.val.splitId)).Nodup
  initial : ∀ e ∈ s.brokerEvents, e.val.kind.IsInitial

end AccountingState

/-! ## The orders of an account -/

theorem AccountingState.Plain.nodup_filter {s : AccountingState} (hplain : s.Plain)
    (p : BrokerOrderEvent → Bool) : ((s.brokerEvents.filter p).map (·.val.eventId)).Nodup :=
  hplain.events.sublist (List.filter_sublist.map _)

section orders

variable (hplain : s.Plain) (h : orders H s = .ok orderStates)

/-- The events of an order are the events that name it. -/
theorem brokerEvents_perm {events : List BrokerOrderEvent}
    (hevents : (events.map (·.val.eventId)).Nodup)
    (h : reduceOrderLifecycle H.toOrderHashes submission events cancelRequest = .ok order) :
    order.brokerEvents.Perm events := by
  obtain ⟨-, -, hmem, hnodup, -⟩ := reduceOrderLifecycle_spec h
  exact (List.perm_ext_iff_of_nodup (hnodup.of_map _) (hevents.of_map _)).2 hmem

theorem facts_flows (orderStates : List CanonicalOrderState) (hplain : s.Plain) :
    (s.facts orderStates).contributions - (s.facts orderStates).withdrawals = s.usdFlows := by
  rw [← sum_signedAmount]
  change ((s.cashFlows.dedup).map _).sum = _
  rw [(hplain.flows.of_map _).dedup]
  rfl

theorem facts_dividends (orderStates : List CanonicalOrderState) (hplain : s.Plain) :
    (s.facts orderStates).dividendsPaid = s.paidDividends := by
  rw [AccountFacts.dividendsPaid, sum_map_filter]
  change ((s.cashDividends.dedup).map _).sum = _
  rw [(hplain.dividends.of_map _).dedup]
  rfl

/-- An observed execution has settled when one of the observed instructions is confirmed. -/
theorem isSettled_liveInstructions (he : e ∈ s.brokerEvents) :
    isSettled s.liveInstructions s.settlementConfirmations e.val.eventId ↔
      isSettled s.settlementInstructions s.settlementConfirmations e.val.eventId := by
  constructor
  · rintro ⟨i, hi, hsettled⟩
    exact ⟨i, (List.mem_filter.1 hi).1, hsettled⟩
  · rintro ⟨i, hi, hevent, hconfirmed⟩
    have hlive : i.val.executionEventId ∈ s.brokerEvents.map (·.val.eventId) := by
      rw [hevent]
      exact List.mem_map_of_mem he
    exact ⟨i, List.mem_filter.2 ⟨hi, by simpa using hlive⟩, hevent, hconfirmed⟩

include h

/-- Each order is rebuilt from the events that name it. -/
theorem orders_spec : (s.submissions.map (·.val.orderId)).Nodup ∧
      (∀ e ∈ s.brokerEvents, e.val.orderId ∈ s.submissions.map (·.val.orderId)) ∧
      List.Forall₂ (fun submission order => reduceOrderLifecycle H.toOrderHashes submission
          (s.brokerEvents.filter (·.val.orderId = submission.val.orderId))
          (s.cancelRequests.find? (·.val.orderId = submission.val.orderId)) = .ok order)
        (sortOn (·.val.orderId) s.submissions) orderStates := by
  simp only [orders, Py.eq_ok, not_exists, not_and] at h
  obtain ⟨_, hnodup, _, hevents, _, -, hmap⟩ := h
  exact ⟨hnodup, hevents, mapM_eq_ok.1 hmap⟩

/-- Every order state is the reduction of a submission of the state. -/
theorem exists_submission_of_orders (horder : order ∈ orderStates) :
    ∃ submission ∈ s.submissions, reduceOrderLifecycle H.toOrderHashes submission
      (s.brokerEvents.filter (·.val.orderId = submission.val.orderId))
      (s.cancelRequests.find? (·.val.orderId = submission.val.orderId)) = .ok order := by
  simp only [orders, eq_ok] at h
  obtain ⟨_, -, _, -, _, -, hmap⟩ := h
  obtain ⟨submission, hmem, hreduce⟩ := exists_of_mem_mapM hmap horder
  exact ⟨submission, mem_sortOn.1 hmem, hreduce⟩

/-- The submissions of the orders are those of the account. -/
theorem map_submission_of_orders :
    orderStates.map (·.submission) = sortOn (·.val.orderId) s.submissions := by
  obtain ⟨-, -, hforall⟩ := orders_spec h
  generalize sortOn (·.val.orderId) s.submissions = submissions at hforall
  clear h
  induction hforall with
  | nil => rfl
  | cons hhead _ ih => rw [List.map_cons, ih, (reduceOrderLifecycle_spec hhead).1]

theorem nodup_of_orders : orderStates.Nodup := by
  obtain ⟨hnodup, -, -⟩ := orders_spec h
  have hsubmissions : (orderStates.map (·.submission)).Nodup := by
    rw [map_submission_of_orders h, nodup_sortOn]
    exact hnodup.of_map _
  exact hsubmissions.of_map _

/-- An event of an order is an event of the account. -/
theorem mem_brokerEvents_of_orders (horder : order ∈ orderStates) (he : e ∈ order.brokerEvents) :
    e ∈ s.brokerEvents := by
  obtain ⟨submission, -, hreduce⟩ := exists_submission_of_orders h horder
  exact (List.mem_filter.1 (((reduceOrderLifecycle_spec hreduce).2.2.1 e).1 he)).1

/-! ## The facts of an account -/

include hplain

/-- Adding up over the orders' events is adding up over the account's events. -/
theorem sum_orders_events (f : OrderSubmission → BrokerOrderEvent → ℚ) :
    (orderStates.map fun order => (order.brokerEvents.map (f order.submission)).sum).sum =
      (s.brokerEvents.map fun e =>
        ((s.submissionOf e.val.orderId).map (f · e)).getD 0).sum := by
  obtain ⟨hnodup, -, hforall⟩ := orders_spec h
  have hsorted : (orderStates.map fun order => (order.brokerEvents.map (f order.submission)).sum) =
      (sortOn (·.val.orderId) s.submissions).map fun submission =>
        ((s.brokerEvents.filter (·.val.orderId = submission.val.orderId)).map
          (f submission)).sum := by
    generalize sortOn (·.val.orderId) s.submissions = submissions at hforall
    clear h
    induction hforall with
    | nil => rfl
    | cons hhead _ ih =>
      rw [List.map_cons, List.map_cons, ih, (reduceOrderLifecycle_spec hhead).1]
      rw [((brokerEvents_perm (hplain.nodup_filter _) hhead).map _).sum_eq]
  rw [hsorted, sum_map_sortOn]
  exact Keyed.sum_groups hnodup s.brokerEvents f

/-- The current executions of the orders are the executions the events report. -/
theorem sum_executions_events {g : OrderSubmission → ExecutionReport → ℚ}
    (hfg : ∀ order id event report, event.val.kind.report? = some report →
      ∀ x ∈ executionProjection id event, f (order, x) = g order.submission report) :
    ((s.facts orderStates).executions.map f).sum =
      (s.brokerEvents.map fun e =>
        ((s.submissionOf e.val.orderId).map fun submission => onReport (g submission) e).getD
          0).sum := by
  rw [AccountFacts.executions, sum_ownedExecutions, ← sum_orders_events hplain h]
  change ((orderStates.dedup).map _).sum = _
  rw [(nodup_of_orders h).dedup]
  refine congrArg List.sum (List.map_congr_left fun order horder => ?_)
  obtain ⟨submission, -, hreduce⟩ := exists_submission_of_orders h horder
  refine sum_executions_of_initial hreduce (fun e he => ?_) (hfg order)
  exact hplain.initial e (mem_brokerEvents_of_orders h horder he)

/-- What has been paid and earned in trading is what the events have moved. -/
theorem facts_trading :
    -(s.facts orderStates).notional - (s.facts orderStates).fees =
      (s.brokerEvents.map s.eventCash).sum := by
  have hsum := sum_executions_events hplain h
    (f := fun item => -(signedNotional item) + -item.2.fee)
    (g := fun submission report => (report.economics submission.val.intent.val.side).cash) ?_
  · rw [List.sum_map_add, sum_map_neg, sum_map_neg] at hsum
    rw [AccountFacts.notional, AccountFacts.fees, sub_eq_add_neg]
    exact hsum
  · intro order id event report hreport x hx
    simp only [executionProjection, hreport, Option.map_some, Option.mem_some_iff] at hx
    subst hx
    simp only [signedNotional, ExecutionReport.economics]
    ring

/-- The shares held are those the events and the splits have moved. -/
theorem facts_units (instrumentId : Str) :
    (s.facts orderStates).units instrumentId = s.units instrumentId := by
  rw [AccountFacts.units, AccountingState.units, sum_map_filter, sum_map_filter]
  congr 1
  · rw [sum_executions_events hplain h (g := fun submission report =>
      if submission.val.intent.val.instrumentId = instrumentId then
        submission.val.intent.val.side.sign * report.quantity else 0)]
    · refine congrArg List.sum (List.map_congr_left fun e _ => ?_)
      rw [AccountingState.eventUnits]
      congr 2
      funext submission
      simp only [onReport]
      cases e.val.kind.report? <;> simp
    · intro order id event report hreport x hx
      simp only [executionProjection, hreport, Option.map_some, Option.mem_some_iff] at hx
      subst hx
      rfl
  · change ((s.stockSplits.dedup).map _).sum = _
    rw [(hplain.splits.of_map _).dedup]

/-- Any total over the cash deltas is a total over the events. -/
theorem sum_cashDeltas (hdeltas : executionCashDeltas orderStates = .ok deltas) (f : ℚ → ℚ)
    (hf : f 0 = 0) :
    (deltas.map fun d => if isSettled s.liveInstructions s.settlementConfirmations
        d.event.val.eventId then 0 else f d.cashDelta).sum =
      (s.brokerEvents.map fun e => if isSettled s.settlementInstructions s.settlementConfirmations
        e.val.eventId then 0 else f (s.eventCash e)).sum := by
  have hinitial (order : CanonicalOrderState) (horder : order ∈ orderStates) :
      ∀ e ∈ order.brokerEvents, e.val.kind.IsInitial := fun e he =>
    hplain.initial e (mem_brokerEvents_of_orders h horder he)
  rw [executionCashDeltas_sum hinitial hdeltas
    (fun id cash => if isSettled s.liveInstructions s.settlementConfirmations id then 0 else f cash)
    (by simp [hf]), (nodup_of_orders h).dedup,
    sum_orders_events hplain h (fun submission e =>
      if isSettled s.liveInstructions s.settlementConfirmations e.val.eventId then 0
      else f (executionCash submission.val.intent.val.side e))]
  refine congrArg List.sum (List.map_congr_left fun e he => ?_)
  simp only [AccountingState.eventCash, isSettled_liveInstructions he]
  cases s.submissionOf e.val.orderId <;> simp [hf]

end orders

/-! ## What a projection reports -/

section project

/-- What a successful projection rests on. -/
theorem project_spec (h : project H s context policy = .ok t) :
    t.state = s ∧ t.disposition = .applied ∧ t.dueEvents = [] ∧ t.reasons = [] ∧
      (s.commitments.map (·.val.commitmentId)).Nodup ∧
      (s.commitments.map (·.val.orderId)).Nodup ∧
      ∃ orderStates facts settlement entries,
        orders H s = .ok orderStates ∧
        (∀ c ∈ s.commitments, checkCommitment orderStates c = .ok ()) ∧
        ledgers H s context.point.knowledgeAt orderStates = .ok (facts, settlement) ∧
        accountSnapshot H s context orderStates facts settlement entries = .ok t.snapshot := by
  simp only [project, checkedOrders, eq_ok, forM_eq_ok] at h
  obtain ⟨_, hvalid, _, -, orderStates, ⟨orderStates', horders, _, -, _, hcommitments, rfl⟩,
    ⟨facts, settlement⟩, hledgers, entries, -, snapshot, hsnapshot, _, -, _, -, rfl⟩ := h
  simp only [validateContext, Py.eq_ok, not_or] at hvalid
  obtain ⟨_, -, _, -, _, -, _, -, _, -, _, -, _, ⟨hids, horderIds⟩, -⟩ := hvalid
  exact ⟨rfl, rfl, rfl, rfl, hids, horderIds, orderStates', facts, settlement, entries, horders,
    hcommitments, hledgers, hsnapshot⟩

/-- The two ledgers read the same order states and cash flows. -/
theorem ledgers_spec (h : ledgers H s now orderStates = .ok (facts, settlement)) :
    projectUnvaluedFifoAccount H.toCorporateHashes (s.facts orderStates) now = .ok facts ∧
      reduceSettlementLedger H.toSettlementHashes s.accountId orderStates s.cashFlows
        s.liveInstructions s.settlementConfirmations "USD" = .ok settlement := by
  simp only [ledgers, eq_ok, Prod.mk.injEq] at h
  obtain ⟨facts', hfacts, settlement', hsettlement, _, -, rfl, rfl⟩ := h
  exact ⟨hfacts, hsettlement⟩

/-- Trade-date cash: the money put in, the dividends paid and what trading has moved. -/
theorem ledgers_cash (hplain : s.Plain) (horders : orders H s = .ok orderStates)
    (h : ledgers H s now orderStates = .ok (facts, settlement)) :
    facts.cash = s.usdFlows + s.paidDividends + (s.brokerEvents.map s.eventCash).sum := by
  obtain ⟨hfacts, -⟩ := ledgers_spec h
  simp only [projectUnvaluedFifoAccount, eq_ok] at hfacts
  obtain ⟨evidence, hevidence, hreduce⟩ := hfacts
  obtain ⟨-, hcanonical, -⟩ := prepareFifoEvidence_spec hevidence
  obtain ⟨hcorporate, -⟩ := reduceUnvaluedFifo_spec hcanonical hreduce
  rw [UnvaluedFifoAccountProjection.cash, hcorporate, cashBalance_eq hevidence,
    ← facts_trading hplain horders, ← facts_flows orderStates hplain,
    ← facts_dividends orderStates hplain]
  ring

/-- The two reserves of a snapshot are everything the commitments reserve. -/
theorem reservedCash_sum (hbuy : reservedCash s .buy = .ok buyReserve)
    (hsell : reservedCash s .sell = .ok sellReserve) : buyReserve + sellReserve = s.reserved := by
  rw [exactDecimalSum_eq hbuy, exactDecimalSum_eq hsell, AccountingState.reserved, sum_map_filter,
    sum_map_filter, ← List.sum_map_add]
  refine congrArg List.sum (List.map_congr_left fun c _ => ?_)
  cases hside : c.val.side <;> simp

/-- **The available cash is the capacity**, and settled cash exceeds it by what is owed and what is
reserved. -/
theorem project_available (hplain : s.Plain) (h : project H s context policy = .ok t) :
    t.snapshot.availableCash = s.capacity ∧ 0 ≤ t.snapshot.tradePayable ∧
      t.snapshot.settledCash = s.capacity + t.snapshot.tradePayable + s.reserved := by
  obtain ⟨-, -, -, -, -, -, orderStates, facts, settlement, entries, horders, -, hledgers,
    hsnapshot⟩ := project_spec h
  have hcash := ledgers_cash hplain horders hledgers
  obtain ⟨-, hsettlement⟩ := ledgers_spec hledgers
  obtain ⟨deltas, hdeltas, -, -, hsettled, hpayables, hnonneg, -⟩ :=
    reduceSettlementLedger_spec hsettlement
  rw [sum_cashDeltas hplain horders hdeltas (fun cash => cash) rfl] at hsettled
  rw [sum_cashDeltas hplain horders hdeltas (fun cash => max (-cash) 0) (by simp)] at hpayables
  simp only [accountSnapshot, eq_ok] at hsnapshot
  obtain ⟨positions, -, unsettled, hunsettled, settled, hsettledSum, buyReserve, hbuy, sellReserve,
    hsell, unowed, hunowed, unbought, hunbought, available, havailable, v, -, nav, -, lastKnownNav,
    -, gross, -, fees, -, unrealizedPnl, -, netFlow, -, hsnapshot⟩ := hsnapshot
  have hreserved := reservedCash_sum hbuy hsell
  -- an event that has not settled is worth its costs: what it brings is not there yet
  have hspendable : (s.brokerEvents.map s.spendable).sum =
      (s.brokerEvents.map s.eventCash).sum -
        (s.brokerEvents.map fun e => if isSettled s.settlementInstructions
          s.settlementConfirmations e.val.eventId then 0 else s.eventCash e).sum -
        (s.brokerEvents.map fun e => if isSettled s.settlementInstructions
          s.settlementConfirmations e.val.eventId then 0 else max (-(s.eventCash e)) 0).sum := by
    rw [sub_eq_add_neg, sub_eq_add_neg, ← sum_map_neg, ← sum_map_neg, ← List.sum_map_add,
      ← List.sum_map_add]
    refine congrArg List.sum (List.map_congr_left fun e _ => ?_)
    rw [AccountingState.spendable]
    split
    · simp
    · have hmin := max_neg_neg (s.eventCash e) 0
      rw [neg_zero] at hmin
      rw [add_neg_cancel, zero_add, hmin, neg_neg]
  have hcapacity : s.capacity = unowed - s.reserved := by
    rw [AccountingState.capacity, hspendable, ← hpayables, exactDecimalSubtract_eq hunowed,
      exactDecimalAdd_eq hsettledSum, exactDecimalSubtract_eq hunsettled, hsettled, hcash]
    ring
  rw [← hsnapshot]
  refine ⟨?_, hnonneg, ?_⟩
  · rw [hcapacity, ← hreserved, exactDecimalSubtract_eq havailable,
      exactDecimalSubtract_eq hunbought]
    ring
  · rw [hcapacity, exactDecimalSubtract_eq hunowed]
    ring

/-- The shares of an instrument in the lot book are what the facts say. -/
theorem sum_positions_units (h : ledgers H s now orderStates = .ok (facts, settlement))
    (instrumentId : Str) :
    (facts.positions.map fun p => if p.instrumentId = instrumentId then p.units else 0).sum =
      (s.facts orderStates).units instrumentId := by
  obtain ⟨hfacts, -⟩ := ledgers_spec h
  simp only [projectUnvaluedFifoAccount, eq_ok] at hfacts
  obtain ⟨evidence, hevidence, hreduce⟩ := hfacts
  obtain ⟨hperm, hcanonical, -, -, -, -, -, -, hsplits⟩ := prepareFifoEvidence_spec hevidence
  obtain ⟨-, -, -, hreconciled, hnodup, hexecutions, hsplit⟩ :=
    reduceUnvaluedFifo_spec hcanonical hreduce
  rw [Keyed.sum_map_find? hnodup]
  cases hfind : facts.positions.find? (·.instrumentId = instrumentId) with
  | some p =>
    have hid : p.instrumentId = instrumentId := by simpa using List.find?_some hfind
    rw [Option.map_some, Option.getD_some, ← hid]
    exact positionQuantity_eq hevidence (hreconciled p (List.mem_of_find?_eq_some hfind))
  | none =>
    -- an instrument without a position has neither been traded nor split
    have habsent : instrumentId ∉ facts.positions.map (·.instrumentId) := by
      intro hmem
      obtain ⟨p, hp, hid⟩ := List.mem_map.1 hmem
      simpa [hid] using List.find?_eq_none.1 hfind p hp
    have hnone : (s.facts orderStates).executions.filter
        (·.1.submission.val.intent.val.instrumentId = instrumentId) = [] := by
      rw [List.filter_eq_nil_iff]
      intro item hitem hid
      refine habsent (of_decide_eq_true hid ▸ hexecutions item ?_)
      simp only [AccountFacts.executions, ownedExecutions, List.mem_flatMap] at hitem ⊢
      obtain ⟨order, horder, hmem⟩ := hitem
      exact ⟨order, hperm.mem_iff.2 horder, hmem⟩
    have hunsplit : (s.facts orderStates).stockSplits.dedup.filter
        (·.val.instrumentId = instrumentId) = [] := by
      rw [List.filter_eq_nil_iff]
      intro split hmem hid
      exact habsent (of_decide_eq_true hid ▸ hsplit split ((hsplits split).2
        (List.mem_dedup.1 hmem)))
    simp [AccountFacts.units, hnone, hunsplit]

/-- **The shares of a snapshot**: no position is short, and the positions of an instrument hold what
the events and splits have moved. -/
theorem project_held (hplain : s.Plain) (h : project H s context policy = .ok t) :
    (∀ p ∈ t.snapshot.positions, 0 ≤ p.quantity) ∧
      ∀ instrumentId, ((t.snapshot.positions.filter (·.instrumentId = instrumentId)).map
        (·.quantity)).sum = s.units instrumentId := by
  obtain ⟨-, -, -, -, -, -, orderStates, facts, settlement, entries, horders, -, hledgers,
    hsnapshot⟩ := project_spec h
  simp only [accountSnapshot, eq_ok] at hsnapshot
  obtain ⟨positions, hpositions, _, -, _, -, _, -, _, -, _, -, _, -, _, -, _, -, _, -, _, -, _, -,
    _, -, _, -, _, -, hsnapshot⟩ := hsnapshot
  have hstate (p : UnvaluedFifoPosition) (q : PositionState) (hq : positionState s p = .ok q) :
      q.instrumentId = p.instrumentId ∧ q.quantity = p.units := by
    simp only [positionState, eq_ok] at hq
    obtain ⟨quantity, hquantity, _, -, _, -, rfl⟩ := hq
    exact ⟨rfl, exactDecimalSum_eq hquantity⟩
  rw [← hsnapshot]
  refine ⟨fun q hq => ?_, fun instrumentId => ?_⟩
  · obtain ⟨p, -, hp⟩ := exists_of_mem_mapM hpositions hq
    rw [(hstate p q hp).2]
    exact p.units_nonneg
  · rw [sum_map_filter, ← facts_units hplain horders, ← sum_positions_units hledgers]
    refine sum_map_of_mapM (fun p q hq => ?_) hpositions
    rw [(hstate p q hq).1, (hstate p q hq).2]

end project

end AutoQuantTrader
