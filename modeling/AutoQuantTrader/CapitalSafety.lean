import Mathlib.Algebra.Order.BigOperators.Group.List
import AutoQuantTrader.AccountHistory

/-!
# An account never spends what it does not have

Without facts from an outside broker, every cost of an account is reserved before it arises: a
commitment reserves the price and the fees it was approved for, and a modeled fill costs at most
what it releases.  `Safe` states the invariant, `apply_safe` that no command breaks it, and the
results at the end read it off the snapshots of whole runs.
-/

namespace AutoQuantTrader

open Result Sorting

variable {H : AccountingHashes} {Z : EasternTime}

/-- What is reserved is there: cash for every reserve and shares for every sale. -/
structure AccountingState.Safe (s : AccountingState) : Prop where
  plain : s.Plain
  capacity : 0 ≤ s.capacity
  shares : ∀ instrumentId, s.reservedShares instrumentId ≤ s.units instrumentId

/-- A step that frees at least as much as it uses. -/
structure AccountingState.Covers (s s' : AccountingState) : Prop where
  capacity : s.capacity ≤ s'.capacity
  shares : ∀ instrumentId, s'.reservedShares instrumentId - s'.units instrumentId ≤
    s.reservedShares instrumentId - s.units instrumentId

variable {s s' : AccountingState}

/-- A step that frees what it uses keeps the state safe. -/
theorem AccountingState.Safe.of_covers (hsafe : s.Safe) (hcovers : s.Covers s')
    (hplain : s'.Plain) : s'.Safe := by
  refine ⟨hplain, hsafe.capacity.trans hcovers.capacity, fun instrumentId => ?_⟩
  have hshares := hsafe.shares instrumentId
  have hstep := hcovers.shares instrumentId
  linarith

/-- The two states agree in everything capacity and shares are read off. -/
structure AccountingState.SameBooks (s s' : AccountingState) : Prop where
  submissions : s'.submissions = s.submissions
  brokerEvents : s'.brokerEvents = s.brokerEvents
  cashFlows : s'.cashFlows = s.cashFlows
  stockSplits : s'.stockSplits = s.stockSplits
  cashDividends : s'.cashDividends = s.cashDividends
  dividendPayments : s'.dividendPayments = s.dividendPayments
  instructions : s'.settlementInstructions = s.settlementInstructions
  confirmations : s'.settlementConfirmations = s.settlementConfirmations
  commitments : s'.commitments = s.commitments

theorem AccountingState.SameBooks.totals (h : s.SameBooks s') :
    (s.Plain → s'.Plain) ∧ s'.capacity = s.capacity ∧ s'.units = s.units ∧
      s'.reservedShares = s.reservedShares := by
  cases s
  cases s'
  obtain ⟨rfl, rfl, rfl, rfl, rfl, rfl, rfl, rfl, rfl⟩ := h
  refine ⟨fun hplain => ?_, rfl, rfl, rfl⟩
  exact ⟨hplain.events, hplain.flows, hplain.dividends, hplain.splits, hplain.initial⟩

theorem AccountingState.Safe.of_sameBooks (hsafe : s.Safe) (h : s.SameBooks s') : s'.Safe := by
  obtain ⟨hplain, hcapacity, hunits, hshares⟩ := h.totals
  exact ⟨hplain hsafe.plain, hcapacity ▸ hsafe.capacity, hunits ▸ hshares ▸ hsafe.shares⟩

/-! ## The totals of an order -/

section orders

/-- An order without corrections has filled and paid what its events report. -/
theorem find_order_totals (hplain : s.Plain) (h : orders H s = .ok orderStates)
    (hfind : orderStates.find? (·.submission.val.orderId = orderId) = some order) :
    s.submissionOf orderId = some order.submission ∧
      order.filledQuantity = ((s.brokerEvents.filter (·.val.orderId = orderId)).map
        (onReport (·.quantity))).sum ∧
      order.totalFees = ((s.brokerEvents.filter (·.val.orderId = orderId)).map
        (onReport (·.fee))).sum := by
  have hmem := List.mem_of_find?_eq_some hfind
  have hid : order.submission.val.orderId = orderId := by simpa using List.find?_some hfind
  obtain ⟨hnodup, -, -⟩ := orders_spec h
  obtain ⟨submission, hsubmission, hreduce⟩ := exists_submission_of_orders h hmem
  obtain ⟨rfl, -, -, -, final, -, -, hfilled, hfees⟩ := reduceOrderLifecycle_spec hreduce
  have hinitial : ∀ e ∈ order.brokerEvents, e.val.kind.IsInitial := fun e he =>
    hplain.initial e (mem_brokerEvents_of_orders h hmem he)
  have hperm := brokerEvents_perm (hplain.nodup_filter _) hreduce
  rw [hid] at hperm
  refine ⟨(Keyed.find?_eq_some_iff hnodup).2 ⟨hsubmission, hid⟩, ?_, ?_⟩
  · rw [hfilled, sum_executions_of_initial hreduce hinitial (g := (·.quantity)),
      (hperm.map _).sum_eq]
    intro id event report hreport x hx
    simp only [executionProjection, hreport, Option.map_some, Option.mem_some_iff] at hx
    rw [← hx]
  · rw [hfees, sum_executions_of_initial hreduce hinitial (g := (·.fee)), (hperm.map _).sum_eq]
    intro id event report hreport x hx
    simp only [executionProjection, hreport, Option.map_some, Option.mem_some_iff] at hx
    rw [← hx]

end orders

/-! ## Events within an approval -/

section events

variable {event : BrokerOrderEvent} {c : Commitment}

/-- An event stays within what a commitment was approved for. -/
structure Within (c : Commitment) (event : BrokerOrderEvent) : Prop where
  initial : event.val.kind.IsInitial
  quantity : onReport (·.quantity) event ≤ c.val.remainingQuantity
  fee : onReport (·.fee) event ≤ c.val.remainingFeeBudget
  price : c.val.side = .buy → ∀ report, event.val.kind.report? = some report →
    report.price ≤ c.val.approvedPrice

theorem Fills.within (h : Fills c event report) : Within c event := by
  have hreport : event.val.kind.report? = some report := by
    rw [h.kind]
    rfl
  refine ⟨by rw [h.kind]; rfl, ?_, ?_, fun hbuy r hr => ?_⟩
  · simpa [onReport, hreport] using h.quantity
  · simpa [onReport, hreport] using h.fee
  · rw [hreport, Option.some.injEq] at hr
    exact hr ▸ h.price hbuy

theorem within_of_accepted (h : event.val.kind = .accepted) : Within c event := by
  have hreport : event.val.kind.report? = none := by
    rw [h]
    rfl
  obtain ⟨hremaining, -, -, -, hbudget, -⟩ := c.bounds
  refine ⟨by rw [h]; rfl, ?_, ?_, fun _ r hr => ?_⟩
  · simpa [onReport, hreport] using hremaining
  · simpa [onReport, hreport] using hbudget
  · rw [hreport] at hr
    contradiction

/-- The cash and the shares an event within an approval can take. -/
theorem Within.cost (h : Within c event) :
    0 ≤ onReport (·.quantity) event ∧ 0 ≤ onReport (·.fee) event ∧
      max (-executionCash c.val.side event) 0 ≤
        reserveOf c.val.side (onReport (·.quantity) event) c.val.approvedPrice
          (onReport (·.fee) event) := by
  obtain ⟨-, -, -, hprice, -⟩ := c.bounds
  cases hreport : event.val.kind.report? with
  | none =>
    cases hside : c.val.side <;> simp [onReport, executionCash, hreport, reserveOf]
  | some report =>
    obtain ⟨hquantity, hpositive, hfee, -⟩ := report_bounds hreport
    simp only [onReport, executionCash, hreport, Option.map_some, Option.getD_some]
    refine ⟨hquantity, hfee, ?_⟩
    cases hside : c.val.side with
    | buy =>
      have hle := mul_le_mul_of_nonneg_left (h.price hside report hreport) hquantity
      have hcost := mul_nonneg hquantity hprice
      simp only [ExecutionReport.economics, Side.sign, reserveOf]
      refine max_le ?_ ?_ <;> linarith
    | sell =>
      have hproceeds := mul_nonneg hquantity hpositive.le
      simp only [ExecutionReport.economics, Side.sign, reserveOf]
      refine max_le ?_ hfee
      linarith

/-- **A fill costs at most what it releases**, in cash and in shares. -/
theorem commitmentAfter_releases (hwithin : Within c event) (hbacked : Backed c before)
    (hlive : c.val.state ≠ .terminal)
    (hfilled : after.filledQuantity = before.filledQuantity + onReport (·.quantity) event)
    (hfees : after.totalFees = before.totalFees + onReport (·.fee) event)
    (h : commitmentAfter policy event c before after = .ok updated) :
    updated.val.reservedCash + max (-executionCash c.val.side event) 0 ≤ c.val.reservedCash ∧
      updated.val.reservedSellQuantity + sellQuantity c.val.side (onReport (·.quantity) event) ≤
        c.val.reservedSellQuantity := by
  obtain ⟨hquantity, hfee, hcost⟩ := hwithin.cost
  obtain ⟨-, -, -, hprice, -, -⟩ := c.bounds
  have hwithinQuantity := hwithin.quantity
  have hwithinFee := hwithin.fee
  have hremaining := hbacked.remaining hlive
  rw [hbacked.cash, hbacked.shares]
  obtain ⟨-, ⟨hcash, hshares⟩ | ⟨hcash, hshares⟩⟩ := commitmentAfter_spec hwithin.initial h
  · -- nothing is reserved any more, and the fill is no larger than the remainder
    rw [hcash, hshares, zero_add, zero_add]
    refine ⟨hcost.trans ?_, ?_⟩
    · cases hside : c.val.side with
      | buy =>
        have := mul_le_mul_of_nonneg_right hwithinQuantity hprice
        simp only [reserveOf]
        linarith
      | sell => exact hwithinFee
    · cases hside : c.val.side with
      | buy => exact le_rfl
      | sell => exact hwithinQuantity
  · -- the reserve shrinks by what the fill was approved for
    have hleft : max 0 (c.val.remainingFeeBudget - (after.totalFees - before.totalFees)) =
        c.val.remainingFeeBudget - onReport (·.fee) event := by
      rw [hfees, add_sub_cancel_left]
      exact max_eq_right (sub_nonneg.2 hwithinFee)
    have hrest : c.val.originalQuantity - after.filledQuantity =
        c.val.remainingQuantity - onReport (·.quantity) event := by
      rw [hfilled, hbacked.filled, hremaining]
      ring
    rw [hcash, hshares, hleft, hrest]
    refine ⟨(add_le_add_right hcost _).trans_eq ?_, le_of_eq ?_⟩
    · cases hside : c.val.side with
      | buy =>
        simp only [reserveOf]
        ring
      | sell => simp [reserveOf]
    · cases hside : c.val.side with
      | buy => simp [sellQuantity]
      | sell => simp [sellQuantity]

/-- Settling more can only free cash. -/
theorem spendable_mono (hsubmissions : s'.submissions = s.submissions)
    (hsettled : ∀ id, isSettled s.settlementInstructions s.settlementConfirmations id →
      isSettled s'.settlementInstructions s'.settlementConfirmations id) (e : BrokerOrderEvent) :
    s.spendable e ≤ s'.spendable e := by
  have hcash : s'.eventCash e = s.eventCash e := by
    rw [AccountingState.eventCash, AccountingState.eventCash, AccountingState.submissionOf,
      AccountingState.submissionOf, hsubmissions]
  rw [AccountingState.spendable, AccountingState.spendable, hcash]
  split
  · next hs => rw [if_pos (hsettled _ hs)]
  · split
    · exact min_le_left _ _
    · exact le_rfl

theorem min_le_spendable (e : BrokerOrderEvent) : min (s.eventCash e) 0 ≤ s.spendable e := by
  rw [AccountingState.spendable]
  split
  · exact min_le_left _ _
  · exact le_rfl

theorem reservedShares_eq (instrumentId : Str) :
    s.reservedShares instrumentId = (s.commitments.map fun c =>
      if c.val.instrumentId = instrumentId then c.val.reservedSellQuantity else 0).sum :=
  sum_map_filter _ _ _

/-- What replacing a commitment does to the two reserves. -/
theorem reserved_replaceCommitment (hids : (s.commitments.map (·.val.commitmentId)).Nodup)
    (hc : c ∈ s.commitments) (hid : updated.val.commitmentId = c.val.commitmentId)
    (hinstrument : updated.val.instrumentId = c.val.instrumentId) :
    (replaceCommitment s updated).reserved =
        s.reserved - c.val.reservedCash + updated.val.reservedCash ∧
      ∀ instrumentId, (replaceCommitment s updated).reservedShares instrumentId =
        s.reservedShares instrumentId + if c.val.instrumentId = instrumentId then
          updated.val.reservedSellQuantity - c.val.reservedSellQuantity else 0 := by
  refine ⟨Keyed.sum_replace hids hc hid _, fun instrumentId => ?_⟩
  rw [reservedShares_eq, reservedShares_eq]
  have hsum := Keyed.sum_replace hids hc hid fun c : Commitment =>
    if c.val.instrumentId = instrumentId then c.val.reservedSellQuantity else 0
  refine hsum.trans ?_
  rw [hinstrument]
  split <;> ring

theorem AccountingState.Plain.withEvent (hplain : s.Plain) (updated : Commitment)
    (hinitial : event.val.kind.IsInitial)
    (hnew : ∀ e ∈ s.brokerEvents, e.val.eventId ≠ event.val.eventId)
    (points : List (Str × ReductionPoint)) (instructions : List ExecutionSettlementInstruction) :
    (s.withEvent event updated points instructions).Plain := by
  refine ⟨nodup_sortOn_append hplain.events hnew, hplain.flows, hplain.dividends, hplain.splits,
    fun e he => ?_⟩
  rcases mem_snoc.1 (mem_sortOn.1 he) with he | rfl
  · exact hplain.initial e he
  · exact hinitial

/-- What a new event adds to the totals of its order. -/
theorem totals_withEvent (hplain : s.Plain)
    (hplain' : (s.withEvent event updated points instructions).Plain)
    (hbefore : orders H s = .ok ordersBefore)
    (hfindBefore : ordersBefore.find? (·.submission.val.orderId = event.val.orderId) = some before)
    (hafter : orders H (s.withEvent event updated points instructions) = .ok ordersAfter)
    (hfindAfter : ordersAfter.find? (·.submission.val.orderId = event.val.orderId) = some after) :
    after.filledQuantity = before.filledQuantity + onReport (·.quantity) event ∧
      after.totalFees = before.totalFees + onReport (·.fee) event := by
  obtain ⟨-, hfilledBefore, hfeesBefore⟩ := find_order_totals hplain hbefore hfindBefore
  obtain ⟨-, hfilledAfter, hfeesAfter⟩ := find_order_totals hplain' hafter hfindAfter
  have hsum (f : BrokerOrderEvent → ℚ) :
      (((s.withEvent event updated points instructions).brokerEvents.filter
          (·.val.orderId = event.val.orderId)).map f).sum =
        ((s.brokerEvents.filter (·.val.orderId = event.val.orderId)).map f).sum + f event := by
    rw [AccountingState.withEvent_brokerEvents,
      (((sortOn_perm _ (s.brokerEvents ++ [event])).filter _).map f).sum_eq, List.filter_append]
    simp
  rw [hfilledAfter, hfeesAfter, hsum, hsum, ← hfilledBefore, ← hfeesBefore]
  exact ⟨rfl, rfl⟩

/-- A new event costs at most what its commitment releases. -/
theorem capacity_withEvent (hinstructions : ∀ i ∈ s.settlementInstructions, i ∈ instructions)
    (hreserved : (replaceCommitment s updated).reserved + max (-s.eventCash event) 0 ≤ s.reserved) :
    s.capacity ≤ (s.withEvent event updated points instructions).capacity := by
  have hold : (s.brokerEvents.map s.spendable).sum ≤
      (s.brokerEvents.map (s.withEvent event updated points instructions).spendable).sum := by
    have hsubmissions : (s.withEvent event updated points instructions).submissions =
        s.submissions :=
      rfl
    refine List.sum_le_sum fun e _ => spendable_mono hsubmissions ?_ e
    rintro id ⟨i, hi, hsettled⟩
    exact ⟨i, hinstructions i hi, hsettled⟩
  have hnew : -max (-s.eventCash event) 0 ≤
      (s.withEvent event updated points instructions).spendable event := by
    have hmin := min_le_spendable (s := s.withEvent event updated points instructions) event
    have hmax := max_neg_neg (s.eventCash event) 0
    rw [neg_zero] at hmax
    rw [hmax, neg_neg]
    exact hmin
  have hcapacity : (s.withEvent event updated points instructions).capacity =
      s.usdFlows + s.paidDividends +
        ((s.brokerEvents.map (s.withEvent event updated points instructions).spendable).sum +
          (s.withEvent event updated points instructions).spendable event) -
        (replaceCommitment s updated).reserved := by
    rw [AccountingState.capacity, AccountingState.withEvent_brokerEvents, sum_appendFact]
    rfl
  rw [hcapacity, AccountingState.capacity]
  linarith

theorem units_withEvent (instrumentId : Str) :
    (s.withEvent event updated points instructions).units instrumentId =
      s.units instrumentId + s.eventUnits instrumentId event := by
  rw [AccountingState.units, AccountingState.withEvent_brokerEvents, sum_appendFact,
    AccountingState.units, add_right_comm]
  rfl

/-- **An event within its commitment's approval is covered.** -/
theorem applyEvent_covers (hplain : s.Plain) (hids : (s.commitments.map (·.val.commitmentId)).Nodup)
    (horders : orders H s = .ok orderStates)
    (hfind : orderStates.find? (·.submission.val.orderId = event.val.orderId) = some before)
    (hc : s.commitments.find? (·.val.orderId = event.val.orderId) = some c)
    (hbacked : Backed c before) (hlive : c.val.state ≠ .terminal) (hwithin : Within c event)
    (h : applyEvent H Z context policy event s = .ok (s', due)) : s'.Plain ∧ s.Covers s' := by
  rcases applyEvent_cases h with ⟨-, rfl, -⟩ | ⟨hnew, ordersBefore, before', c', ordersAfter, after,
    updated, points, instructions, hordersBefore, hfindBefore, hc', hordersAfter, hfindAfter,
    hupdated, hinstructions, rfl⟩
  · exact ⟨hplain, le_rfl, fun _ => le_rfl⟩
  obtain rfl : orderStates = ordersBefore := Except.ok.inj (horders.symm.trans hordersBefore)
  obtain rfl : before = before' := Option.some.inj (hfind.symm.trans hfindBefore)
  obtain rfl : c = c' := Option.some.inj (hc.symm.trans hc')
  have hplain' := hplain.withEvent updated hwithin.initial hnew points instructions
  obtain ⟨hfilled, hfees⟩ := totals_withEvent hplain hplain' horders hfind hordersAfter hfindAfter
  obtain ⟨hcash, hshares⟩ := commitmentAfter_releases hwithin hbacked hlive hfilled hfees hupdated
  obtain ⟨⟨hid, -, hinstrument⟩, -⟩ := commitmentAfter_spec hwithin.initial hupdated
  obtain ⟨hreserved, hreservedShares⟩ := reserved_replaceCommitment hids
    (List.mem_of_find?_eq_some hc) hid hinstrument
  obtain ⟨hsubmission, -, -⟩ := find_order_totals hplain horders hfind
  have heventCash : s.eventCash event = executionCash c.val.side event := by
    rw [AccountingState.eventCash, hsubmission, Option.map_some, Option.getD_some, hbacked.side]
  have heventUnits (instrumentId : Str) : s.eventUnits instrumentId event =
      if c.val.instrumentId = instrumentId then
        c.val.side.sign * onReport (·.quantity) event else 0 := by
    rw [AccountingState.eventUnits, hsubmission, Option.map_some, Option.getD_some,
      hbacked.instrument, hbacked.side]
  refine ⟨hplain', capacity_withEvent hinstructions ?_, fun instrumentId => ?_⟩
  · rw [heventCash, hreserved]
    linarith
  · have hquantity := hwithin.cost.1
    have hsold : -(c.val.side.sign * onReport (·.quantity) event) ≤
        sellQuantity c.val.side (onReport (·.quantity) event) := by
      cases c.val.side <;> simp [Side.sign, sellQuantity, hquantity]
    have hreserved' : (s.withEvent event updated points instructions).reservedShares instrumentId =
        (replaceCommitment s updated).reservedShares instrumentId := rfl
    rw [hreserved', hreservedShares, units_withEvent, heventUnits]
    split <;> linarith

/-- In an account that projects, every commitment is backed by its order. -/
theorem backed_of_project (h : project H s context policy = .ok t) (hc : c ∈ s.commitments) :
    ∃ orderStates order, orders H s = .ok orderStates ∧
      orderStates.find? (·.submission.val.orderId = c.val.orderId) = some order ∧
      s.commitments.find? (·.val.orderId = c.val.orderId) = some c ∧ Backed c order := by
  obtain ⟨-, -, -, -, -, horderIds, orderStates, -, -, -, horders, hcommitments, -, -⟩ :=
    project_spec h
  obtain ⟨order, hfind, hbacked⟩ := checkCommitment_spec (hcommitments c hc)
  exact ⟨orderStates, order, horders, hfind,
    (Keyed.find?_eq_some_iff horderIds).2 ⟨hc, rfl⟩, hbacked⟩

end events

/-! ## Observations -/

section observations

/-- What holds while the commitments have their turns: those still waiting are as they were. -/
structure Waiting (rest : List Commitment) (st : ObservationState) : Prop where
  safe : st.state.Safe
  waiting : ∀ c ∈ rest, c ∈ st.state.commitments
  nodup : (rest.map (·.val.commitmentId)).Nodup

theorem observeCommitment_waiting (hwaiting : Waiting (c :: rest) st)
    (h : observeCommitment H Z context policy o st c = .ok st') : Waiting rest st' := by
  have hrest : ∀ c' ∈ rest, c' ∈ st.state.commitments := fun c' hc' =>
    hwaiting.waiting c' (List.mem_cons_of_mem c hc')
  have hnodup := hwaiting.nodup
  rw [List.map_cons, List.nodup_cons] at hnodup
  obtain ⟨hstate | ⟨hfillable, current, hcurrent, -, hstate | ⟨event, report, due, hfills, happly⟩⟩,
    -⟩ := observeCommitment_cases h
  · exact ⟨hstate ▸ hwaiting.safe, by rw [hstate]; exact hrest, hnodup.2⟩
  · refine ⟨?_, by rw [hstate]; exact hrest, hnodup.2⟩
    rw [hstate]
    exact hwaiting.safe.of_sameBooks (by constructor <;> rfl)
  · obtain ⟨orderStates, order, horders, hfind, hc, hbacked⟩ :=
      backed_of_project hcurrent (hwaiting.waiting c List.mem_cons_self)
    rw [← hfills.order] at hfind hc
    have hlive : c.val.state ≠ .terminal := by
      intro hterminal
      have := hfillable.2.2.1
      simp [hterminal] at this
    obtain ⟨-, -, -, -, hids, -⟩ := project_spec hcurrent
    obtain ⟨hplain, hcovers⟩ := applyEvent_covers hwaiting.safe.plain hids horders hfind hc hbacked
      hlive hfills.within happly
    refine ⟨hwaiting.safe.of_covers hcovers hplain, fun c' hc' => ?_, hnodup.2⟩
    -- the fill replaces only its own commitment, whose turn is over
    rcases applyEvent_cases happly with ⟨-, hsame, -⟩ | ⟨-, _, _, c'', _, _, updated, points,
      instructions, -, -, hc'', -, -, hupdated, -, hadmitted⟩
    · rw [hsame]
      exact hrest c' hc'
    · obtain rfl : c = c'' := Option.some.inj (hc.symm.trans hc'')
      obtain ⟨⟨hid, -, -⟩, -⟩ := commitmentAfter_spec hfills.within.initial hupdated
      rw [hadmitted]
      refine Keyed.mem_replace_of_ne (hrest c' hc') ?_
      rw [hid]
      intro heq
      exact hnodup.1 (List.mem_map.2 ⟨c', hc', heq⟩)

/-- An observation, however many commitments it fills, keeps the state safe. -/
theorem observe_safe (hsafe : s.Safe) (hids : (s.commitments.map (·.val.commitmentId)).Nodup)
    (h : (sortOn fillOrder s.commitments).foldlM (observeCommitment H Z context policy o)
      ⟨{ s with observations }, [], [], o.val.quantityBudget, false⟩ = .ok st) :
    st.state.Safe := by
  have hinit : Waiting (sortOn fillOrder s.commitments)
      ⟨{ s with observations }, [], [], o.val.quantityBudget, false⟩ :=
    ⟨hsafe.of_sameBooks (by constructor <;> rfl), fun c hc => mem_sortOn.1 hc,
      (((sortOn_perm _ _).map _).nodup_iff).2 hids⟩
  exact (foldlM_invariant_rest Waiting
    (fun c rest st st' hwaiting hstep => observeCommitment_waiting hwaiting hstep) hinit h).safe

end observations

/-! ## Commitments -/

section commitments

/-- A commitment may be replaced by one that reserves no more. -/
theorem AccountingState.Safe.replaceCommitment (hsafe : s.Safe)
    (hids : (s.commitments.map (·.val.commitmentId)).Nodup) (hc : c ∈ s.commitments)
    (hid : updated.val.commitmentId = c.val.commitmentId)
    (hinstrument : updated.val.instrumentId = c.val.instrumentId)
    (hcash : updated.val.reservedCash ≤ c.val.reservedCash)
    (hsell : updated.val.reservedSellQuantity ≤ c.val.reservedSellQuantity) :
    (replaceCommitment s updated).Safe := by
  obtain ⟨hreserved, hshares⟩ := reserved_replaceCommitment hids hc hid hinstrument
  refine hsafe.of_covers ⟨?_, fun instrumentId => ?_⟩ ⟨hsafe.plain.events, hsafe.plain.flows,
    hsafe.plain.dividends, hsafe.plain.splits, hsafe.plain.initial⟩
  · have hcapacity : (AutoQuantTrader.replaceCommitment s updated).capacity =
        s.capacity + s.reserved - (AutoQuantTrader.replaceCommitment s updated).reserved := by
      rw [AccountingState.capacity, AccountingState.capacity, sub_add_cancel]
      rfl
    rw [hcapacity, hreserved]
    linarith
  · have hunits : (AutoQuantTrader.replaceCommitment s updated).units instrumentId =
        s.units instrumentId := rfl
    rw [hunits, hshares]
    split <;> linarith

/-- Installing an order leaves the earlier events to the orders they have. -/
theorem submissionOf_install (hnodup : (s.submissions.map (·.val.orderId)).Nodup)
    (hnew : ∀ x ∈ s.submissions, x.val.orderId ≠ submission.val.orderId)
    (hknown : orderId ∈ s.submissions.map (·.val.orderId)) :
    (s.install submission c).submissionOf orderId = s.submissionOf orderId := by
  obtain ⟨x, hx, hid⟩ := List.mem_map.1 hknown
  have hbefore : s.submissionOf orderId = some x :=
    (Keyed.find?_eq_some_iff hnodup).2 ⟨hx, hid⟩
  rw [hbefore]
  refine (Keyed.find?_eq_some_iff (nodup_sortOn_append hnodup hnew)).2 ⟨?_, hid⟩
  exact mem_sortOn.2 (List.mem_append_left _ hx)

/-- What an install reserves, and nothing else. -/
theorem install_totals (horders : orders H s = .ok orderStates)
    (hnew : ∀ x ∈ s.submissions, x.val.orderId ≠ submission.val.orderId) :
    (s.install submission c).capacity = s.capacity - c.val.reservedCash ∧
      ∀ instrumentId, (s.install submission c).units instrumentId = s.units instrumentId ∧
        (s.install submission c).reservedShares instrumentId = s.reservedShares instrumentId +
          if c.val.instrumentId = instrumentId then c.val.reservedSellQuantity else 0 := by
  obtain ⟨hnodup, hevents, -⟩ := orders_spec horders
  have hsubmission : ∀ e ∈ s.brokerEvents,
      (s.install submission c).submissionOf e.val.orderId = s.submissionOf e.val.orderId :=
    fun e he => submissionOf_install hnodup hnew (hevents e he)
  refine ⟨?_, fun instrumentId => ⟨?_, ?_⟩⟩
  · have hspendable : (s.brokerEvents.map (s.install submission c).spendable).sum =
        (s.brokerEvents.map s.spendable).sum := by
      refine congrArg List.sum (List.map_congr_left fun e he => ?_)
      rw [AccountingState.spendable, AccountingState.spendable, AccountingState.eventCash,
        AccountingState.eventCash, hsubmission e he]
      rfl
    have hreserved : (s.install submission c).reserved = s.reserved + c.val.reservedCash :=
      sum_appendFact _
    rw [AccountingState.capacity, AccountingState.capacity, hreserved, ← hspendable,
      ← sub_sub]
    rfl
  · have hevent : (s.brokerEvents.map ((s.install submission c).eventUnits instrumentId)).sum =
        (s.brokerEvents.map (s.eventUnits instrumentId)).sum := by
      refine congrArg List.sum (List.map_congr_left fun e he => ?_)
      rw [AccountingState.eventUnits, AccountingState.eventUnits, hsubmission e he]
    rw [AccountingState.units, AccountingState.units, ← hevent]
    rfl
  · rw [reservedShares_eq, reservedShares_eq]
    exact sum_appendFact _

/-- A commitment within the available cash and shares keeps the state safe. -/
theorem install_safe (hsafe : s.Safe) (hbefore : project H s context policy = .ok before)
    (hcash : c.val.reservedCash ≤ before.snapshot.availableCash)
    (hsell : c.val.reservedSellQuantity = sellQuantity c.val.side c.val.remainingQuantity)
    (hlong : c.val.side = .sell → s.reservedShares c.val.instrumentId + c.val.remainingQuantity ≤
      ((before.snapshot.positions.filter (·.instrumentId = c.val.instrumentId)).map
        (·.quantity)).sum)
    (hnew : ∀ x ∈ s.submissions, x.val.orderId ≠ submission.val.orderId) :
    (s.install submission c).Safe := by
  obtain ⟨-, -, -, -, -, -, orderStates, _, _, _, horders, -⟩ := project_spec hbefore
  obtain ⟨havailable, -⟩ := project_available hsafe.plain hbefore
  obtain ⟨-, hheld⟩ := project_held hsafe.plain hbefore
  obtain ⟨hcapacity, htotals⟩ := install_totals (c := c) horders hnew
  refine ⟨⟨hsafe.plain.events, hsafe.plain.flows, hsafe.plain.dividends, hsafe.plain.splits,
    hsafe.plain.initial⟩, ?_, fun instrumentId => ?_⟩
  · rw [hcapacity, ← havailable]
    exact sub_nonneg.2 hcash
  · obtain ⟨hunits, hreserved⟩ := htotals instrumentId
    have hshares := hsafe.shares instrumentId
    rw [hunits, hreserved]
    split
    · next hinstrument =>
      subst hinstrument
      rw [hsell]
      cases hside : c.val.side with
      | buy =>
        rw [sellQuantity, add_zero]
        exact hshares
      | sell =>
        rw [sellQuantity, ← hheld]
        exact hlong hside
    · rw [add_zero]
      exact hshares

/-- Activating a commitment reserves nothing new, and its acceptance moves nothing. -/
theorem activate_safe {active : Commitment} {accepted : BrokerOrderEvent} (hsafe : s.Safe)
    (hbefore : project H s context policy = .ok before) (hmem : c ∈ s.commitments)
    (hstate : c.val.state = .approvedUnsent) (hactive : active.val = { c.val with
      state := .active
      activatedAt := some context.point.knowledgeAt
      activationSequence := some context.point.reductionSequence
      activationFrontier := some context.point.frontierSequence })
    (hkind : accepted.val.kind = .accepted) (horder : accepted.val.orderId = c.val.orderId)
    (happly : applyEvent H Z context policy accepted (replaceCommitment s active) =
      .ok (s', due)) : s'.Safe := by
  obtain ⟨-, -, -, -, hids, horderIds, -⟩ := project_spec hbefore
  obtain ⟨orderStates, order, horders, hfind, -, hbacked⟩ := backed_of_project hbefore hmem
  have hid : active.val.commitmentId = c.val.commitmentId := by rw [hactive]
  have hsafe' : (replaceCommitment s active).Safe := by
    refine hsafe.replaceCommitment hids hmem hid ?_ ?_ ?_ <;> rw [hactive]
  have hkeep {γ : Type} {f : Commitment → γ} (hf : f active = f c) :
      (replaceCommitment s active).commitments.map f = s.commitments.map f := by
    refine Keyed.map_replace fun b hb hbid => ?_
    rw [List.inj_on_of_nodup_map hids hb hmem (hbid.trans hid), hf]
  have hc : (replaceCommitment s active).commitments.find?
      (·.val.orderId = accepted.val.orderId) = some active := by
    refine (Keyed.find?_eq_some_iff ?_).2 ⟨Keyed.mem_replace_self hmem hid, ?_⟩
    · rw [hkeep (by rw [hactive])]
      exact horderIds
    · rw [hactive, horder]
  have hbacked' : Backed active order := by
    refine ⟨?_, ?_, ?_, fun _ => ?_, ?_, ?_⟩ <;> rw [hactive]
    · exact hbacked.instrument
    · exact hbacked.side
    · exact hbacked.filled
    · exact hbacked.remaining (by simp [hstate])
    · exact hbacked.cash
    · exact hbacked.shares
  rw [← horder] at hfind
  obtain ⟨hplain, hcovers⟩ := applyEvent_covers hsafe'.plain (by rw [hkeep hid]; exact hids)
    horders hfind hc hbacked' (by simp [hactive]) (within_of_accepted hkind) happly
  exact hsafe'.of_covers hcovers hplain

end commitments

/-! ## Cash, corporate actions and settlement -/

section facts

/-- A withdrawal within the available cash keeps the state safe. -/
theorem cashFlow_safe {flow : LedgerCashFlow} (hsafe : s.Safe)
    (hbefore : project H s context policy = .ok before)
    (hnew : ∀ f ∈ s.cashFlows, f.val.cashFlowId ≠ flow.val.cashFlowId)
    (hcurrency : flow.val.currency = Str.of "USD")
    (hcovered : flow.val.kind = .withdrawal → flow.val.amount ≤ before.snapshot.availableCash) :
    ({ s with cashFlows := sortOn (·.val.cashFlowId) (s.cashFlows ++ [flow]) } :
      AccountingState).Safe := by
  obtain ⟨havailable, -⟩ := project_available hsafe.plain hbefore
  have hsigned : 0 ≤ s.capacity + flow.val.signedAmount := by
    have hcapacity := hsafe.capacity
    have hpositive := flow.passes
    simp only [LedgerCashFlowFields.postInit, Py.eq_ok, canonicalPersistedDecimal_eq_ok,
      not_le] at hpositive
    obtain ⟨_, -, _, -, _, -, _, ⟨-, rfl⟩, _, hpositive, -⟩ := hpositive
    rw [LedgerCashFlowFields.signedAmount]
    cases hkind : flow.val.kind with
    | contribution =>
      rw [if_pos rfl]
      linarith
    | withdrawal =>
      have hle := hcovered hkind
      rw [havailable] at hle
      rw [if_neg (by simp)]
      linarith
  have hflows : ({ s with cashFlows := sortOn (·.val.cashFlowId) (s.cashFlows ++ [flow]) } :
      AccountingState).usdFlows = s.usdFlows + flow.val.signedAmount := by
    rw [AccountingState.usdFlows, sum_appendFact, if_pos hcurrency]
    rfl
  refine ⟨⟨hsafe.plain.events, nodup_sortOn_append hsafe.plain.flows hnew, hsafe.plain.dividends,
    hsafe.plain.splits, hsafe.plain.initial⟩, ?_, hsafe.shares⟩
  rw [AccountingState.capacity] at hsigned
  rw [AccountingState.capacity, hflows]
  change 0 ≤ s.usdFlows + flow.val.signedAmount + s.paidDividends +
    (s.brokerEvents.map s.spendable).sum - s.reserved
  linarith

/-- A split leaves its instrument without reserves, and no projected position is short. -/
theorem split_safe {split : StockSplitAction} (hsafe : s.Safe)
    (hnew : ∀ x ∈ s.stockSplits, x.val.splitId ≠ split.val.splitId)
    (hterminal : ∀ c ∈ s.commitments, c.val.instrumentId = split.val.instrumentId →
      c.val.state = .terminal)
    (hs' : s' = { s with stockSplits := sortOn (·.val.splitId) (s.stockSplits ++ [split]) })
    (hunits : s'.Plain → ∀ instrumentId, 0 ≤ s'.units instrumentId) : s'.Safe := by
  have hplain : s'.Plain := by
    rw [hs']
    exact ⟨hsafe.plain.events, hsafe.plain.flows, hsafe.plain.dividends,
      nodup_sortOn_append hsafe.plain.splits hnew, hsafe.plain.initial⟩
  have hreserved : s'.reservedShares = s.reservedShares := by
    rw [hs']
    rfl
  refine ⟨hplain, by rw [hs']; exact hsafe.capacity, fun instrumentId => ?_⟩
  rw [hreserved]
  by_cases hinstrument : instrumentId = split.val.instrumentId
  · have hzero : s.reservedShares instrumentId = 0 := by
      refine List.sum_eq_zero fun q hq => ?_
      obtain ⟨c, hc, rfl⟩ := List.mem_map.1 hq
      obtain ⟨hmem, hid⟩ := List.mem_filter.1 hc
      obtain ⟨-, -, -, -, -, hreleased⟩ := c.bounds
      exact (hreleased (hterminal c hmem ((of_decide_eq_true hid).trans hinstrument))).2
    rw [hzero]
    exact hunits hplain instrumentId
  · have hsame : s'.units instrumentId = s.units instrumentId := by
      rw [hs', AccountingState.units, sum_appendFact, if_neg (Ne.symm hinstrument), add_zero]
      rfl
    rw [hsame]
    exact hsafe.shares instrumentId

theorem CashDividendAccrual.total_nonneg (d : CashDividendAccrual) : 0 ≤ d.val.total := by
  have hpasses := d.passes
  simp only [CashDividendFields.postInit, Py.eq_ok, canonicalPersistedDecimal_eq_ok, not_le, not_or,
    wholeShares] at hpasses
  obtain ⟨_, -, _, -, _, -, _, -, _, -, _, -, _, -, _, ⟨-, rfl⟩, _, hamount, _,
    ⟨_, -, hentitled, -⟩, -⟩ := hpasses
  exact mul_nonneg hentitled.le hamount.le

/-- Facts that only add cash or settle more keep an account safe. -/
theorem AccountingState.Safe.of_receipts (hsafe : s.Safe) (hplain : s'.Plain)
    (hsubmissions : s'.submissions = s.submissions) (hevents : s'.brokerEvents = s.brokerEvents)
    (hflows : s'.cashFlows = s.cashFlows) (hsplits : s'.stockSplits = s.stockSplits)
    (hcommitments : s'.commitments = s.commitments)
    (hdividends : s.paidDividends ≤ s'.paidDividends)
    (hsettled : ∀ id, isSettled s.settlementInstructions s.settlementConfirmations id →
      isSettled s'.settlementInstructions s'.settlementConfirmations id) : s'.Safe := by
  have hspendable : (s.brokerEvents.map s.spendable).sum ≤ (s.brokerEvents.map s'.spendable).sum :=
    List.sum_le_sum fun e _ => spendable_mono hsubmissions hsettled e
  have hunits (instrumentId : Str) : s'.eventUnits instrumentId = s.eventUnits instrumentId := by
    funext e
    rw [AccountingState.eventUnits, AccountingState.eventUnits, AccountingState.submissionOf,
      AccountingState.submissionOf, hsubmissions]
  refine hsafe.of_covers ⟨?_, fun instrumentId => le_of_eq ?_⟩ hplain
  · rw [AccountingState.capacity, AccountingState.capacity, AccountingState.usdFlows,
      AccountingState.usdFlows, AccountingState.reserved, AccountingState.reserved, hflows,
      hcommitments, hevents]
    linarith
  · simp only [AccountingState.units, AccountingState.reservedShares, hunits, hevents, hsplits,
      hcommitments]

/-- A new dividend accrual keeps the state safe. -/
theorem dividend_safe {dividend : CashDividendAccrual} (hsafe : s.Safe)
    (hnew : ∀ d ∈ s.cashDividends, d.val.dividendId ≠ dividend.val.dividendId) :
    ({ s with cashDividends := sortOn (·.val.dividendId) (s.cashDividends ++ [dividend]) } :
      AccountingState).Safe := by
  refine hsafe.of_receipts ⟨hsafe.plain.events, hsafe.plain.flows,
    nodup_sortOn_append hsafe.plain.dividends hnew, hsafe.plain.splits, hsafe.plain.initial⟩
    rfl rfl rfl rfl rfl ?_ fun _ hsettled => hsettled
  rw [AccountingState.paidDividends, AccountingState.paidDividends, sum_appendFact]
  refine le_add_of_nonneg_right ?_
  split
  · exact dividend.total_nonneg
  · exact le_rfl

/-- A paid dividend keeps the state safe. -/
theorem payment_safe (hsafe : s.Safe) :
    ({ s with dividendPayments := sortOn (·.val.paymentId) (s.dividendPayments ++ [payment]) } :
      AccountingState).Safe := by
  refine hsafe.of_receipts ⟨hsafe.plain.events, hsafe.plain.flows, hsafe.plain.dividends,
    hsafe.plain.splits, hsafe.plain.initial⟩ rfl rfl rfl rfl rfl ?_ fun _ hsettled => hsettled
  refine List.sum_le_sum fun d _ => ?_
  by_cases hpaid : isPaid s.dividendPayments d
  · obtain ⟨p, hp, hpd⟩ := hpaid
    rw [if_pos ⟨p, hp, hpd⟩, if_pos ⟨p, mem_sortOn.2 (List.mem_append_left _ hp), hpd⟩]
  · rw [if_neg hpaid]
    split
    · exact d.total_nonneg
    · exact le_rfl

/-- Settling more keeps an account safe. -/
theorem settlement_safe (hsafe : s.Safe)
    (hinstructions : ∀ i ∈ s.settlementInstructions, i ∈ instructions)
    (hconfirmations : ∀ c ∈ s.settlementConfirmations, c ∈ confirmations) : ({ s with
      settlementInstructions := instructions
      settlementConfirmations := confirmations } : AccountingState).Safe := by
  refine hsafe.of_receipts ⟨hsafe.plain.events, hsafe.plain.flows, hsafe.plain.dividends,
    hsafe.plain.splits, hsafe.plain.initial⟩ rfl rfl rfl rfl rfl le_rfl ?_
  rintro id ⟨i, hi, hevent, c, hc, hid⟩
  exact ⟨i, hinstructions i hi, hevent, c, hconfirmations c hc, hid⟩

end facts

/-! ## Whole runs -/

section runs

variable {context : AccountingContext} {policy : ExecutionPolicy} {command : AccountingCommand}
  {t : AccountingTransition} {s : AccountingState}

/-- **No command but an outside broker's fact makes an account unsafe.** -/
theorem apply_safe (hsafe : s.Safe) (hbefore : project H s context policy = .ok before)
    (hown : ∀ event, payload ≠ .brokerOrderEvent event)
    (hunits : s'.Plain → ∀ instrumentId, 0 ≤ s'.units instrumentId)
    (h : Applies H Z context policy before.snapshot s payload s' due reasons) : s'.Safe := by
  obtain ⟨-, -, -, -, hids, -⟩ := project_spec hbefore
  cases h with
  | repeated => exact hsafe
  | installed _ _ _ hcash hsell hlong hnew _ =>
    exact install_safe hsafe hbefore hcash hsell hlong hnew
  | activated hmem _ hstate _ hactive hkind horder happly =>
    exact activate_safe hsafe hbefore hmem hstate hactive hkind horder happly
  | observed _ hturns => exact observe_safe hsafe hids hturns
  | @received event _ _ _ => exact absurd rfl (hown event)
  | @canceling request pending c _ hc _ hpending =>
    have hsafe' : ({ s with
        cancelRequests := sortOn (·.val.cancelRequestId) (s.cancelRequests ++ [request]) } :
        AccountingState).Safe := hsafe.of_sameBooks (by constructor <;> rfl)
    refine hsafe'.replaceCommitment hids (List.mem_of_find?_eq_some hc) ?_ ?_ ?_ ?_ <;>
      rw [hpending]
  | moved hnew hcurrency hcovered => exact cashFlow_safe hsafe hbefore hnew hcurrency hcovered
  | split hnew hterminal => exact split_safe hsafe hnew hterminal rfl hunits
  | accrued hnew => exact dividend_safe hsafe hnew
  | paid => exact payment_safe hsafe
  | instructed => exact settlement_safe hsafe subset_sortOn_append fun _ hc => hc
  | confirmed => exact settlement_safe hsafe (fun _ hi => hi) subset_sortOn_append
  | marked => exact hsafe.of_sameBooks (by constructor <;> rfl)
  | unresolved hmem _ _ hunknown =>
    refine hsafe.replaceCommitment hids hmem ?_ ?_ ?_ ?_ <;> rw [hunknown]
  | @released _ _ _ _ c _ hmem _ _ _ hreleased =>
    obtain ⟨-, hsell, hcash, -⟩ := c.bounds
    refine hsafe.replaceCommitment hids hmem ?_ ?_ ?_ ?_ <;>
      rw [hreleased, CommitmentFields.release]
    · exact hcash
    · exact hsell
  | controlled => exact hsafe.of_sameBooks (by constructor <;> rfl)

/-- What a projection of a safe account shows. -/
theorem project_safe (hsafe : s.Safe) (h : project H s context policy = .ok t) :
    0 ≤ t.snapshot.availableCash ∧ 0 ≤ t.snapshot.settledCash := by
  obtain ⟨havailable, hpayable, hsettled⟩ := project_available hsafe.plain h
  have hreserved : 0 ≤ s.reserved := by
    refine List.sum_nonneg fun q hq => ?_
    obtain ⟨c, -, rfl⟩ := List.mem_map.1 hq
    exact c.bounds.2.2.1
  have hcapacity := hsafe.capacity
  refine ⟨by rw [havailable]; exact hcapacity, ?_⟩
  rw [hsettled]
  linarith

/-- Every answer leaves a safe account, shows it as it is, and never reports that capacity has run
out. -/
theorem advance_safe (hsafe : s.Safe) (hown : ∀ event, command.payload ≠ .brokerOrderEvent event)
    (h : advance H Z s command context policy = .ok t) :
    t.state.Safe ∧ (∃ shown, project H t.state context policy = .ok shown ∧
      t.snapshot = shown.snapshot) ∧
      (t.disposition ≠ .rejected → Str.of "NEGATIVE_CASH_CAPACITY" ∉ t.reasons) := by
  obtain ⟨before, hbefore, hanswer⟩ := advance_cases h
  obtain ⟨hstate, -, -, hreasons, -⟩ := project_spec hbefore
  have hkept : before.state.Safe := hstate ▸ hsafe
  have hshown : ∃ shown, project H before.state context policy = .ok shown ∧
      before.snapshot = shown.snapshot := ⟨before, by rw [hstate]; exact hbefore, rfl⟩
  cases hanswer with
  | conflict => exact ⟨hkept, hshown, fun hne => absurd rfl hne⟩
  | known => exact ⟨hkept, hshown, fun _ => by simp [hreasons]⟩
  | rejected => exact ⟨hkept, hshown, fun hne => absurd rfl hne⟩
  | unchanged _ happly =>
    exact ⟨hkept, hshown, fun _ hmem => by
      simpa [observationReasons, Str.of] using (apply_applies happly).reason_mem _ hmem⟩
  | @applied updated due reasons after reasons' _ happly _ hafter =>
    obtain ⟨first, hfirst, hcases⟩ := projectUpdated_cases hafter
    have hsame : updated.SameBooks (recordCommand H policy command s updated) := by
      constructor <;> rfl
    obtain ⟨hplain, -, hunits, -⟩ := hsame.totals
    have hupdated : updated.Safe := by
      refine apply_safe hsafe hbefore hown (fun hp instrumentId => ?_) (apply_applies happly)
      obtain ⟨hpositions, hheld⟩ := project_held (hplain hp) hfirst
      rw [← hunits, ← hheld]
      refine List.sum_nonneg fun q hq => ?_
      obtain ⟨p, hp, rfl⟩ := List.mem_map.1 hq
      exact hpositions p (List.mem_filter.1 hp).1
    have hrecorded := hupdated.of_sameBooks hsame
    obtain ⟨havailable, hsettled⟩ := project_safe hrecorded hfirst
    rcases hcases with ⟨-, -, rfl, rfl⟩ | ⟨hnegative, -, -⟩
    · obtain ⟨hafterState, -⟩ := project_spec hfirst
      refine ⟨by rw [hafterState]; exact hrecorded, ⟨after, by rw [hafterState]; exact hfirst,
        rfl⟩, fun _ hmem => ?_⟩
      simpa [observationReasons, Str.of] using (apply_applies happly).reason_mem _ hmem
    · rcases hnegative with hnegative | hnegative
      · exact absurd havailable (not_le.2 hnegative)
      · exact absurd hsettled (not_le.2 hnegative)

theorem AccountingState.Safe.initial (accountId : Str) :
    (AccountingState.initial accountId).Safe := by
  refine ⟨⟨List.nodup_nil, List.nodup_nil, List.nodup_nil, List.nodup_nil, ?_⟩, ?_, fun _ => ?_⟩
  · intro e he
    simp [AccountingState.initial] at he
  · simp [AccountingState.capacity, AccountingState.usdFlows, AccountingState.paidDividends,
      AccountingState.reserved, AccountingState.initial]
  · simp [AccountingState.reservedShares, AccountingState.units, AccountingState.initial]

/-- Every state reached from the empty account by its own commands is safe. -/
theorem Run.safe (hrun : Run H Z IsOwn (.initial accountId) s) : s.Safe := by
  induction hrun with
  | refl => exact .initial accountId
  | tail _ hstep ih =>
    obtain ⟨command, context, policy, t, hown, hadvance, rfl⟩ := hstep
    exact (advance_safe ih hown hadvance).1

/-- The sample account is the result of own commands, the purchase is filled. -/
theorem Sample.offered_run : ∃ s command context policy t,
    Run .plain .standard IsOwn (.initial "account") s ∧ IsOwn s command ∧
      advance .plain .standard s command context policy = .ok t ∧ t.disposition = .applied ∧
      t.state.reservedShares "i1" = 4 ∧ ∃ c ∈ s.commitments, c.val.state = .terminal := by
  have h : (fun t => (t.disposition, t.state.reservedShares "i1")) <$> Sample.offered =
      .ok (.applied, 4) := by
    decide +kernel
  have hfilled : (fun t => decide (∃ c ∈ t.state.commitments, c.val.state = .terminal)) <$>
      Sample.bought = .ok true := by
    decide +kernel
  simp only [Sample.offered, Sample.send, eq_ok, Prod.mk.injEq] at h
  obtain ⟨t, ⟨bought, hbought, ⟨submission, commitment⟩, -, _, -, hoffered⟩, hdisposition,
    hshares⟩ := h
  rw [hbought] at hfilled
  replace hfilled := of_decide_eq_true (Except.ok.inj hfilled)
  simp only [Sample.bought, Sample.send, Sample.observation, eq_ok] at hbought
  obtain ⟨⟨activated, _⟩, hactivated, _, ⟨observation, -, rfl⟩, _, -, hbought⟩ := hbought
  have hrun : Run .plain .standard IsOwn (.initial "account") bought.state := by
    refine .tail (activated_run hactivated) ⟨_, _, _, _, ?_, hbought, rfl⟩
    intro event heq
    contradiction
  refine ⟨_, _, _, _, t, hrun, ?_, hoffered, hdisposition, hshares, hfilled⟩
  intro event heq
  contradiction

/-- **Cash is never overdrawn.**  After any run of own commands from the empty account, every answer
shows non-negative settled and available cash, and none reports that the capacity has run out. -/
theorem cash_nonneg_of_run {accountId : Str} (hrun : Run H Z IsOwn (.initial accountId) s)
    (hown : IsOwn s command) (h : advance H Z s command context policy = .ok t) :
    0 ≤ t.snapshot.settledCash ∧ 0 ≤ t.snapshot.availableCash ∧
      (t.disposition ≠ .rejected → Str.of "NEGATIVE_CASH_CAPACITY" ∉ t.reasons) := by
  obtain ⟨hsafe, ⟨shown, hshown, hsnapshot⟩, hreasons⟩ := advance_safe hrun.safe hown h
  obtain ⟨havailable, hsettled⟩ := project_safe hsafe hshown
  rw [hsnapshot]
  exact ⟨hsettled, havailable, hreasons⟩

theorem sample_cash_nonneg : ∃ s command context policy t,
    Run .plain .standard IsOwn (.initial "account") s ∧ IsOwn s command ∧
      advance .plain .standard s command context policy = .ok t ∧ t.disposition = .applied ∧
      0 ≤ t.snapshot.settledCash ∧ 0 ≤ t.snapshot.availableCash ∧
      Str.of "NEGATIVE_CASH_CAPACITY" ∉ t.reasons := by
  obtain ⟨s, command, context, policy, t, hrun, hown, h, happlied, -⟩ := Sample.offered_run
  obtain ⟨hsettled, havailable, hreasons⟩ := cash_nonneg_of_run hrun hown h
  exact ⟨s, command, context, policy, t, hrun, hown, h, happlied, hsettled, havailable,
    hreasons (by simp [happlied])⟩

/-- **Shares are never sold twice.**  After any run of own commands from the empty account, the
commitments of an instrument reserve no more shares than its positions hold, and no position is
short. -/
theorem shares_covered_of_run {accountId : Str} (hrun : Run H Z IsOwn (.initial accountId) s)
    (hown : IsOwn s command) (h : advance H Z s command context policy = .ok t) :
    (∀ instrumentId, ((t.state.commitments.filter (·.val.instrumentId = instrumentId)).map
        (·.val.reservedSellQuantity)).sum ≤
      ((t.snapshot.positions.filter (·.instrumentId = instrumentId)).map (·.quantity)).sum) ∧
      ∀ p ∈ t.snapshot.positions, 0 ≤ p.quantity := by
  obtain ⟨hsafe, ⟨shown, hshown, hsnapshot⟩, -⟩ := advance_safe hrun.safe hown h
  obtain ⟨hpositions, hheld⟩ := project_held hsafe.plain hshown
  rw [hsnapshot]
  refine ⟨fun instrumentId => ?_, hpositions⟩
  rw [hheld]
  exact hsafe.shares instrumentId

theorem sample_shares_covered : ∃ s command context policy t,
    Run .plain .standard IsOwn (.initial "account") s ∧ IsOwn s command ∧
      advance .plain .standard s command context policy = .ok t ∧ t.disposition = .applied ∧
      4 ≤ ((t.snapshot.positions.filter (·.instrumentId = Str.of "i1")).map (·.quantity)).sum := by
  obtain ⟨s, command, context, policy, t, hrun, hown, h, happlied, hreserved, -⟩ :=
    Sample.offered_run
  obtain ⟨hshares, -⟩ := shares_covered_of_run hrun hown h
  refine ⟨s, command, context, policy, t, hrun, hown, h, happlied, ?_⟩
  rw [← hreserved]
  exact hshares "i1"

/-- **What is over stays over.**  No run loses a recorded fact, and an order that is terminal at
some point of it is still there later, terminal and without a reserve. -/
theorem terminal_stays_released_of_run {allowed : AccountingState → AccountingCommand → Prop}
    (hrun : Run H Z allowed s s') :
    s.Grows False s' ∧ ∀ c ∈ s.commitments, c.val.state = .terminal →
      ∃ c' ∈ s'.commitments, c'.val.commitmentId = c.val.commitmentId ∧ c'.val.state = .terminal ∧
        c'.val.reservedCash = 0 ∧ c'.val.reservedSellQuantity = 0 := by
  have hgrows : s.Grows False s' := hrun.grows False.elim
  refine ⟨hgrows, fun c hc hterminal => ?_⟩
  obtain ⟨c', hc', hid, hholds, -⟩ := hgrows.commitments c hc
  have hstate := hholds hterminal
  obtain ⟨-, -, -, -, -, hreleased⟩ := c'.bounds
  exact ⟨c', hc', hid, hstate, hreleased hstate⟩

/-- The filled purchase of the sample keeps nothing while its shares are offered. -/
theorem sample_terminal_stays_released : ∃ s s' c, Run .plain .standard IsOwn s s' ∧
    c ∈ s.commitments ∧ c.val.state = .terminal ∧ s'.reservedShares "i1" = 4 ∧
    ∃ c' ∈ s'.commitments, c'.val.commitmentId = c.val.commitmentId ∧ c'.val.state = .terminal ∧
      c'.val.reservedCash = 0 ∧ c'.val.reservedSellQuantity = 0 := by
  obtain ⟨s, command, context, policy, t, -, hown, h, -, hreserved, c, hc, hterminal⟩ :=
    Sample.offered_run
  have hrun : Run .plain .standard IsOwn s t.state := .single ⟨_, _, _, _, hown, h, rfl⟩
  exact ⟨s, t.state, c, hrun, hc, hterminal, hreserved,
    (terminal_stays_released_of_run hrun).2 c hc hterminal⟩

end runs

end AutoQuantTrader
