import Mathlib.Logic.Relation
import AutoQuantTrader.AccountingBalances

/-!
# What a command can do

One inversion lemma for each function that moves an account: what must have held before, and which
parts of the state are other than they were.  Every invariant of an account is read off these.
-/

namespace AutoQuantTrader

open Result Sorting

variable {H : AccountingHashes} {Z : EasternTime}

/-! ## Facts -/

section appendFact

variable {α : Type} {identity : α → Str}

/-- A new fact adds its own share to every total. -/
theorem sum_appendFact {M : Type} [AddCommMonoid M] (f : α → M) :
    ((sortOn identity (values ++ [value])).map f).sum = (values.map f).sum + f value := by
  rw [sum_map_sortOn, sum_map_snoc]

theorem sortOn_append_ne : sortOn identity (values ++ [value]) ≠ values := by
  intro heq
  have hlength := congrArg List.length heq
  rw [(sortOn_perm identity _).length_eq, List.length_append, List.length_singleton] at hlength
  omega

theorem subset_sortOn_append : values ⊆ sortOn identity (values ++ [value]) := fun _ hv =>
  mem_sortOn.2 (List.mem_append_left _ hv)

theorem mem_sortOn_append : value ∈ sortOn identity (values ++ [value]) :=
  mem_sortOn.2 (List.mem_append_right _ (List.mem_singleton_self _))

theorem nodup_sortOn_append {key : α → Str} (hnodup : (values.map identity).Nodup)
    (hnew : ∀ v ∈ values, identity v ≠ identity value) :
    ((sortOn key (values ++ [value])).map identity).Nodup := by
  rw [((sortOn_perm key (values ++ [value])).map identity).nodup_iff, List.map_append,
    List.map_singleton, List.nodup_append]
  refine ⟨hnodup, List.nodup_singleton _, ?_⟩
  intro a ha b hb
  obtain ⟨v, hv, rfl⟩ := List.mem_map.1 ha
  rw [List.mem_singleton.1 hb]
  exact hnew v hv

variable [DecidableEq α]

/-- A fact is either there already or new. -/
theorem appendFact_cases (h : appendFact identity identityName values value = .ok values') :
    (value ∈ values ∧ values' = values) ∨
      ((∀ v ∈ values, identity v ≠ identity value) ∧
        values' = sortOn identity (values ++ [value])) := by
  unfold appendFact at h
  split at h
  · next previous hfind =>
    simp only [Py.eq_ok] at h
    obtain ⟨_, rfl, rfl⟩ := h
    exact .inl ⟨List.mem_of_find?_eq_some hfind, rfl⟩
  · next hfind =>
    rw [pure_eq_ok] at h
    refine .inr ⟨fun v hv => ?_, h.symm⟩
    simpa using List.find?_eq_none.1 hfind v hv

/-- An accepted fact joins those before it. -/
theorem mem_appendFact (h : appendFact identity identityName values value = .ok values') (v : α) :
    v ∈ values' ↔ v = value ∨ v ∈ values := by
  rcases appendFact_cases h with ⟨hmem, rfl⟩ | ⟨-, rfl⟩
  · exact ⟨.inr, fun hv => hv.elim (fun heq => heq ▸ hmem) id⟩
  · rw [mem_sortOn, List.mem_append, List.mem_singleton, or_comm]

end appendFact

/-! ## Commitments and their orders -/

/-- The cash a remainder reserves. -/
def reserveOf (side : Side) (quantity price feeBudget : ℚ) : ℚ :=
  match side with
  | .buy => quantity * price + feeBudget
  | .sell => feeBudget

variable {price quantity : ℚ}

theorem reserve_eq (h : reserve side quantity price feeBudget = .ok reserved) :
    reserved = reserveOf side quantity price feeBudget := by
  cases side with
  | buy =>
    simp only [reserve, eq_ok] at h
    obtain ⟨notional, hnotional, htotal⟩ := h
    rw [exactDecimalAdd_eq htotal, exactDecimalMultiply_eq hnotional, reserveOf]
  | sell =>
    rw [reserve, pure_eq_ok] at h
    exact h.symm

@[simp] theorem sellQuantity_zero (side : Side) : sellQuantity side 0 = 0 := by
  cases side <;> rfl

/-- A commitment agrees with its order and reserves what its remainder needs. -/
structure Backed (c : Commitment) (order : CanonicalOrderState) : Prop where
  instrument : order.submission.val.intent.val.instrumentId = c.val.instrumentId
  side : order.submission.val.intent.val.side = c.val.side
  filled : order.filledQuantity = c.val.filledQuantity
  remaining : c.val.state ≠ .terminal →
    c.val.remainingQuantity = c.val.originalQuantity - c.val.filledQuantity
  cash : c.val.reservedCash =
    reserveOf c.val.side c.val.remainingQuantity c.val.approvedPrice c.val.remainingFeeBudget
  shares : c.val.reservedSellQuantity = sellQuantity c.val.side c.val.remainingQuantity

variable {c : Commitment}

/-- A commitment that passes is backed by the state of its order. -/
theorem checkCommitment_spec (h : checkCommitment orderStates c = .ok ()) :
    ∃ order, orderStates.find? (·.submission.val.orderId = c.val.orderId) = some order ∧
      Backed c order := by
  simp only [checkCommitment, Py.eq_ok, not_or, Prod.mk.injEq] at h
  obtain ⟨order, hfind, _, ⟨-, hinstrument, -, hside, -, hfilled⟩, remaining, hremaining, reserved,
    hreserved, _, ⟨rfl, rfl, hshares⟩, -⟩ := h
  refine ⟨order, hfind, hinstrument.symm, hside.symm, hfilled.symm, fun hlive => ?_,
    reserve_eq hreserved, hshares⟩
  rw [remainder, if_neg (by simpa using hlive)] at hremaining
  exact exactDecimalSubtract_eq hremaining

/-! ## Broker events -/

variable {instruction : ExecutionSettlementInstruction}

section events

variable {event : BrokerOrderEvent} {s : AccountingState}

/-- Making an instruction keeps those that are there. -/
theorem instructionFor_spec (h : instructionFor H Z policy event s = .ok (s', instruction)) :
    ∃ instructions, s' = { s with settlementInstructions := instructions } ∧
      ∀ i ∈ s.settlementInstructions, i ∈ instructions := by
  unfold instructionFor at h
  split at h
  · rw [pure_eq_ok, Prod.mk.injEq] at h
    exact ⟨s.settlementInstructions, h.1.symm, fun i hi => hi⟩
  · simp only [eq_ok, Prod.mk.injEq] at h
    obtain ⟨_, -, _, -, instructions, hinstructions, rfl, -⟩ := h
    exact ⟨instructions, rfl, fun i hi => (mem_appendFact hinstructions i).2 (.inr hi)⟩

/-- Scheduling a settlement changes nothing but the instructions. -/
theorem scheduleSettlement_spec
    (h : scheduleSettlement H Z context policy event delta s = .ok (s', due)) :
    ∃ instructions, s' = { s with settlementInstructions := instructions } ∧
      ∀ i ∈ s.settlementInstructions, i ∈ instructions := by
  unfold scheduleSettlement at h
  split at h
  · rw [pure_eq_ok, Prod.mk.injEq] at h
    exact ⟨s.settlementInstructions, h.1.symm, fun i hi => hi⟩
  · simp only [eq_ok, Prod.mk.injEq] at h
    obtain ⟨⟨s₁, instruction⟩, hinstruction, _, -, _, -, rfl, -⟩ := h
    exact instructionFor_spec hinstruction

/-- The state after a new event: the event is there, its commitment has moved, and its settlement
may have been instructed. -/
def AccountingState.withEvent (s : AccountingState) (event : BrokerOrderEvent)
    (updated : Commitment)
    (points : List (Str × ReductionPoint)) (instructions : List ExecutionSettlementInstruction) :
    AccountingState :=
  { replaceCommitment s updated with
    brokerEvents := sortOn (·.val.eventId) (s.brokerEvents ++ [event])
    eventPoints := points
    settlementInstructions := instructions }

@[simp] theorem AccountingState.withEvent_brokerEvents (updated : Commitment)
    (points : List (Str × ReductionPoint)) (instructions : List ExecutionSettlementInstruction) :
    (s.withEvent event updated points instructions).brokerEvents =
      sortOn (·.val.eventId) (s.brokerEvents ++ [event]) := rfl

/-- **What a broker event does.**  It is known already, or it is new and moves its order and the
commitment of its order. -/
theorem applyEvent_cases (h : applyEvent H Z context policy event s = .ok (s', due)) :
    (event ∈ s.brokerEvents ∧ s' = s ∧ due = []) ∨
      ((∀ e ∈ s.brokerEvents, e.val.eventId ≠ event.val.eventId) ∧
        ∃ ordersBefore before c ordersAfter after updated points instructions,
          orders H s = .ok ordersBefore ∧
          ordersBefore.find? (·.submission.val.orderId = event.val.orderId) = some before ∧
          s.commitments.find? (·.val.orderId = event.val.orderId) = some c ∧
          orders H s' = .ok ordersAfter ∧
          ordersAfter.find? (·.submission.val.orderId = event.val.orderId) = some after ∧
          commitmentAfter policy event c before after = .ok updated ∧
          (∀ i ∈ s.settlementInstructions, i ∈ instructions) ∧
          s' = s.withEvent event updated points instructions) := by
  simp only [applyEvent, eq_ok] at h
  obtain ⟨_, -, events, hevents, h⟩ := h
  rcases appendFact_cases hevents with ⟨hmem, rfl⟩ | ⟨hnew, rfl⟩
  · rw [if_pos rfl, pure_eq_ok, Prod.mk.injEq] at h
    exact .inl ⟨hmem, h.1.symm, h.2.symm⟩
  · rw [if_neg sortOn_append_ne] at h
    simp only [admitEvent, eq_ok] at h
    obtain ⟨ordersBefore, hbefore, before, hfindBefore, c, hc, ordersAfter, hafter, after,
      hfindAfter, updated, hupdated, delta, -, hschedule⟩ := h
    obtain ⟨instructions, rfl, hinstructions⟩ := scheduleSettlement_spec hschedule
    exact .inr ⟨hnew, ordersBefore, before, c, ordersAfter, after, updated, _, instructions,
      hbefore, hfindBefore, hc, hafter, hfindAfter, hupdated, hinstructions, rfl⟩

/-- What an event that corrects nothing leaves of a commitment. -/
theorem commitmentAfter_spec (hinitial : event.val.kind.IsInitial)
    (h : commitmentAfter policy event c before after = .ok updated) :
    (updated.val.commitmentId = c.val.commitmentId ∧ updated.val.orderId = c.val.orderId ∧
      updated.val.instrumentId = c.val.instrumentId) ∧
    ((updated.val.reservedCash = 0 ∧ updated.val.reservedSellQuantity = 0) ∨
      (updated.val.reservedCash = reserveOf c.val.side
          (c.val.originalQuantity - after.filledQuantity) c.val.approvedPrice
          (max 0 (c.val.remainingFeeBudget - (after.totalFees - before.totalFees))) ∧
        updated.val.reservedSellQuantity =
          sellQuantity c.val.side (c.val.originalQuantity - after.filledQuantity))) := by
  simp only [commitmentAfter, updateCommitment, Py.eq_ok] at h
  obtain ⟨remaining, hremaining, feeBudget, hfeeBudget, reopened, hreopened, reserved, hreserved,
    hupdated⟩ := h
  have hsame : feeBudget = reopened := by
    rw [BrokerOrderEventKind.IsInitial] at hinitial
    rw [reopenedBudget, if_neg (by simp [hinitial]), pure_eq_ok] at hreopened
    exact hreopened
  subst hsame
  rw [hupdated]
  refine ⟨⟨rfl, rfl, rfl⟩, ?_⟩
  by_cases hterminal : c.val.state = .terminal ∨ after.status.isTerminal = true
  · rw [remainder, if_pos (by simpa using hterminal), pure_eq_ok] at hremaining
    rw [reserveAfter, if_pos (by simpa using hterminal), pure_eq_ok] at hreserved
    left
    rw [← hremaining, ← hreserved]
    exact ⟨rfl, sellQuantity_zero _⟩
  · rw [remainder, if_neg (by simpa using hterminal)] at hremaining
    rw [reserveAfter, if_neg (by simpa using hterminal)] at hreserved
    rw [feeBudgetAfter, if_neg (by simpa using hterminal)] at hfeeBudget
    simp only [eq_ok] at hfeeBudget
    obtain ⟨spent, hspent, left, hleft, rfl⟩ := hfeeBudget
    right
    rw [reserve_eq hreserved, exactDecimalSubtract_eq hremaining, exactDecimalSubtract_eq hleft,
      exactDecimalSubtract_eq hspent]
    exact ⟨rfl, rfl⟩

end events

/-! ## Observations -/

section observations

variable {c : Commitment}

/-- An event that fills a commitment within what was approved for it. -/
structure Fills (c : Commitment) (event : BrokerOrderEvent) (report : ExecutionReport) : Prop where
  order : event.val.orderId = c.val.orderId
  kind : event.val.kind = .execution report
  quantity : report.quantity ≤ c.val.remainingQuantity
  fee : report.fee ≤ c.val.remainingFeeBudget
  price : c.val.side = .buy → report.price ≤ c.val.approvedPrice

/-- The reasons an observation can give. -/
def observationReasons : List Str :=
  ["EXECUTION_HALTED", "EXECUTION_PRICE_OR_CASH_CAPACITY_BLOCKED",
    "EXECUTION_LONG_SHARE_CAPACITY_BLOCKED"]

/-- A modeled fill reports the quantity, price and fee it was given. -/
theorem modeledFill_spec (h : modeledFill H o c order quantity price fee = .ok event) :
    event.val.orderId = c.val.orderId ∧ ∃ report, event.val.kind = .execution report ∧
      report.quantity = quantity ∧ report.price = price ∧ report.fee = fee := by
  simp only [modeledFill, Py.eq_ok] at h
  obtain ⟨_, -, hevent⟩ := h
  rw [hevent]
  exact ⟨rfl, _, rfl, rfl, rfl, rfl⟩

/-- A fill is an event within the approval, or the account is halted. -/
theorem tryFill_cases (h : tryFill H Z context policy o st c snapshot = .ok st') :
    (st'.state = { st.state with halted := true } ∧
      ∃ reason ∈ observationReasons, st'.reasons = st.reasons ++ [reason]) ∨
    (st'.reasons = st.reasons ∧ ∃ event report due, Fills c event report ∧
      applyEvent H Z context policy event st.state = .ok (st'.state, due)) := by
  simp only [tryFill, eq_ok] at h
  obtain ⟨price, -, fee, -, released, -, required, -, overCash, hoverCash, h⟩ := h
  split at h
  · rw [pure_eq_ok] at h
    exact .inl ⟨by rw [← h]; rfl, "EXECUTION_PRICE_OR_CASH_CAPACITY_BLOCKED",
      by simp [observationReasons], by rw [← h]; rfl⟩
  · next hcash =>
    rw [bind_eq_ok] at h
    obtain ⟨overShares, -, h⟩ := h
    split at h
    · rw [pure_eq_ok] at h
      exact .inl ⟨by rw [← h]; rfl, "EXECUTION_LONG_SHARE_CAPACITY_BLOCKED",
        by simp [observationReasons], by rw [← h]; rfl⟩
    · simp only [fill, eq_ok] at h
      obtain ⟨orderStates, -, order, -, event, hevent, ⟨s, due⟩, happly, budget, -, rfl⟩ := h
      obtain ⟨horder, report, hkind, hquantity, hprice, hfee⟩ := modeledFill_spec hevent
      have hwithin : ¬ (c.val.remainingFeeBudget < fee ∨
          (c.val.side = .buy ∧ c.val.approvedPrice < price)) := by
        intro hover
        rw [exceedsCash, if_pos hover, pure_eq_ok] at hoverCash
        exact hcash hoverCash.symm
      simp only [not_or, not_and, not_lt] at hwithin
      refine .inr ⟨rfl, event, report, due, ⟨horder, hkind, ?_, ?_, ?_⟩, happly⟩
      · rw [hquantity]
        cases st.budget with
        | none => exact le_rfl
        | some left => exact min_le_left _ _
      · rw [hfee]
        exact hwithin.1
      · rw [hprice]
        exact hwithin.2

/-- **What one commitment's turn at an observation does**: nothing, or a fill within the approval of
an account that is not halted, or a halt. -/
theorem observeCommitment_cases (h : observeCommitment H Z context policy o st c = .ok st') :
    (st'.state = st.state ∨
      (isFillable context o st.budget c ∧ ∃ current,
        project H st.state context policy = .ok current ∧ current.snapshot.halted = false ∧
        (st'.state = { st.state with halted := true } ∨
          ∃ event report due, Fills c event report ∧
            applyEvent H Z context policy event st.state = .ok (st'.state, due)))) ∧
    ∀ reason ∈ st'.reasons, reason ∈ st.reasons ∨ reason ∈ observationReasons := by
  unfold observeCommitment at h
  split at h
  · rw [pure_eq_ok] at h
    subst h
    exact ⟨.inl rfl, fun reason hreason => .inl hreason⟩
  · next hfillable =>
    simp only [not_or, not_not] at hfillable
    rw [bind_eq_ok] at h
    obtain ⟨current, hcurrent, h⟩ := h
    split at h
    · rw [pure_eq_ok] at h
      subst h
      refine ⟨.inl rfl, fun reason hreason => ?_⟩
      rcases mem_snoc.1 hreason with hreason | rfl
      · exact .inl hreason
      · exact .inr (by simp [observationReasons])
    · next hhalted =>
      have hopen : current.snapshot.halted = false := by simpa using hhalted
      rcases tryFill_cases h with ⟨hstate, reason, hmem, hreasons⟩ | ⟨hreasons, hfill⟩
      · refine ⟨.inr ⟨hfillable.2, current, hcurrent, hopen, .inl hstate⟩, fun r hr => ?_⟩
        rw [hreasons] at hr
        rcases mem_snoc.1 hr with hr | rfl
        · exact .inl hr
        · exact .inr hmem
      · refine ⟨.inr ⟨hfillable.2, current, hcurrent, hopen, .inr hfill⟩, fun r hr => ?_⟩
        rw [hreasons] at hr
        exact .inl hr

end observations

/-! ## Any command -/

section apply

/-- The state after a new order has been installed. -/
def AccountingState.install (s : AccountingState) (submission : OrderSubmission) (c : Commitment) :
    AccountingState :=
  { s with
    submissions := sortOn (·.val.orderId) (s.submissions ++ [submission])
    commitments := sortOn (·.val.commitmentId) (s.commitments ++ [c]) }

/-- What a payload asks for is there already. -/
def Recorded (s : AccountingState) : AccountingPayload → Prop
  | .installCommitment submission _ => submission ∈ s.submissions
  | .activateCommitment _ => False
  | .executionObservation o => o ∈ s.observations
  | .brokerOrderEvent event => event ∈ s.brokerEvents
  | .orderCancelRequest request => request ∈ s.cancelRequests
  | .ledgerCashFlow flow => flow ∈ s.cashFlows
  | .stockSplitAction split => split ∈ s.stockSplits
  | .cashDividendAccrual dividend => dividend ∈ s.cashDividends
  | .cashDividendPayment payment => payment ∈ s.dividendPayments
  | .settlementInstruction instruction => instruction ∈ s.settlementInstructions
  | .settlementConfirmation confirmation => confirmation ∈ s.settlementConfirmations
  | .causalMark mark => mark ∈ s.marks
  | .modelDisposition commitmentId kind _ => kind ≠ .unknown ∧
      ∃ c ∈ s.commitments, c.val.commitmentId = commitmentId ∧ c.val.state = .terminal
  | .controlCommand _ _ => False

variable (H Z) (context : AccountingContext) (policy : ExecutionPolicy) (before : AccountSnapshot)
  (s : AccountingState)

/-- The ways a payload is applied to a state whose snapshot is `before`. -/
inductive Applies :
    AccountingPayload → AccountingState → List DueAccountingEvent → List Str → Prop
  | repeated (hrecorded : Recorded s payload) : Applies payload s [] []
  | installed {c : Commitment} (hopen : before.halted = false)
      (hstate : c.val.state = .approvedUnsent) (horder : c.val.orderId = submission.val.orderId)
      (hcash : c.val.reservedCash ≤ before.availableCash)
      (hsell : c.val.reservedSellQuantity = sellQuantity c.val.side c.val.remainingQuantity)
      (hlong : c.val.side = .sell →
        s.reservedShares c.val.instrumentId + c.val.remainingQuantity ≤
          ((before.positions.filter (·.instrumentId = c.val.instrumentId)).map (·.quantity)).sum)
      (hnew : ∀ x ∈ s.submissions, x.val.orderId ≠ submission.val.orderId)
      (hfresh : ∀ p ∈ s.commitments, p.val.commitmentId ≠ c.val.commitmentId) :
      Applies (.installCommitment submission c) (s.install submission c) [] []
  | activated {c : Commitment} (hmem : c ∈ s.commitments)
      (hid : c.val.commitmentId = commitmentId) (hstate : c.val.state = .approvedUnsent)
      (hopen : before.halted = false) (hactive : active.val = { c.val with
        state := .active
        activatedAt := some context.point.knowledgeAt
        activationSequence := some context.point.reductionSequence
        activationFrontier := some context.point.frontierSequence })
      (hkind : accepted.val.kind = .accepted) (horder : accepted.val.orderId = c.val.orderId)
      (happly : applyEvent H Z context policy accepted (replaceCommitment s active) =
        .ok (s', due)) : Applies (.activateCommitment commitmentId) s' due []
  | observed (hnew : ∀ x ∈ s.observations, x.val.observationId ≠ o.val.observationId)
      (hturns : (sortOn fillOrder s.commitments).foldlM (observeCommitment H Z context policy o)
        ⟨{ s with observations := sortOn (·.val.observationId) (s.observations ++ [o]) }, [], [],
          o.val.quantityBudget, false⟩ = .ok st) :
      Applies (.executionObservation o) st.state st.due st.reasons
  | received (happly : applyEvent H Z context policy event s = .ok (s', due)) :
      Applies (.brokerOrderEvent event) s' due []
  | canceling {c : Commitment}
      (hnew : ∀ r ∈ s.cancelRequests, r.val.cancelRequestId ≠ request.val.cancelRequestId)
      (hc : s.commitments.find? (·.val.orderId = request.val.orderId) = some c)
      (hlive : c.val.state ≠ .terminal)
      (hpending : pending.val = { c.val with state := .pendingCancel }) :
      Applies (.orderCancelRequest request) (replaceCommitment { s with
          cancelRequests := sortOn (·.val.cancelRequestId) (s.cancelRequests ++ [request]) }
          pending) [] []
  | moved (hnew : ∀ f ∈ s.cashFlows, f.val.cashFlowId ≠ flow.val.cashFlowId)
      (hcurrency : flow.val.currency = Str.of "USD")
      (hcovered : flow.val.kind = .withdrawal → flow.val.amount ≤ before.availableCash) :
      Applies (.ledgerCashFlow flow)
        { s with cashFlows := sortOn (·.val.cashFlowId) (s.cashFlows ++ [flow]) } [] []
  | split (hnew : ∀ x ∈ s.stockSplits, x.val.splitId ≠ split.val.splitId)
      (hterminal : ∀ c ∈ s.commitments, c.val.instrumentId = split.val.instrumentId →
        c.val.state = .terminal) : Applies (.stockSplitAction split)
        { s with stockSplits := sortOn (·.val.splitId) (s.stockSplits ++ [split]) } [] []
  | accrued (hnew : ∀ d ∈ s.cashDividends, d.val.dividendId ≠ dividend.val.dividendId) :
      Applies (.cashDividendAccrual dividend)
        { s with cashDividends := sortOn (·.val.dividendId) (s.cashDividends ++ [dividend]) } [] []
  | paid (hnew : ∀ p ∈ s.dividendPayments, p.val.paymentId ≠ payment.val.paymentId) :
      Applies (.cashDividendPayment payment)
        { s with dividendPayments := sortOn (·.val.paymentId) (s.dividendPayments ++ [payment]) }
        [] []
  | instructed {instruction : ExecutionSettlementInstruction}
      (hnew : ∀ i ∈ s.settlementInstructions,
        i.val.instructionId ≠ instruction.val.instructionId) :
      Applies (.settlementInstruction instruction) { s with
          settlementInstructions :=
            sortOn (·.val.instructionId) (s.settlementInstructions ++ [instruction]) } [] []
  | confirmed (hnew : ∀ c ∈ s.settlementConfirmations,
        c.val.confirmationId ≠ confirmation.val.confirmationId) :
      Applies (.settlementConfirmation confirmation) { s with
          settlementConfirmations :=
            sortOn (·.val.confirmationId) (s.settlementConfirmations ++ [confirmation]) } [] []
  | marked (hnew : ∀ m ∈ s.marks, m.val.markId ≠ mark.val.markId) :
      Applies (.causalMark mark) { s with marks := sortOn (·.val.markId) (s.marks ++ [mark]) } [] []
  | unresolved {c : Commitment} (hmem : c ∈ s.commitments)
      (hid : c.val.commitmentId = commitmentId) (hlive : c.val.state ≠ .terminal)
      (hunknown : unknown.val = { c.val with state := .unknown }) :
      Applies (.modelDisposition commitmentId .unknown evidenceId)
        (replaceCommitment s unknown) [] []
  | released {c : Commitment} (hkind : kind ≠ .unknown) (hmem : c ∈ s.commitments)
      (hid : c.val.commitmentId = commitmentId) (hlive : c.val.state ≠ .terminal)
      (hexpired : kind = .dayExpired → c.val.state ≠ .unknown)
      (hreleased : released.val = c.val.release (kind.value ++ ":" ++ evidenceId)) :
      Applies (.modelDisposition commitmentId kind evidenceId) (replaceCommitment s released) [] []
  | controlled : Applies (.controlCommand halted reason) { s with halted } [] []

variable {H Z context policy before s} {s' : AccountingState} {due : List DueAccountingEvent}

theorem findCommitment_spec (h : findCommitment s commitmentId = .ok c) :
    c ∈ s.commitments ∧ c.val.commitmentId = commitmentId := by
  rw [findCommitment, getOrThrow_eq_ok] at h
  exact ⟨List.mem_of_find?_eq_some h, by simpa using List.find?_some h⟩

/-- The shares a new sale needs are held and not reserved. -/
theorem checkLongShares_spec (h : checkLongShares s before c = .ok ()) :
    c.val.side = .sell → s.reservedShares c.val.instrumentId + c.val.remainingQuantity ≤
      ((before.positions.filter (·.instrumentId = c.val.instrumentId)).map (·.quantity)).sum := by
  intro hside
  simp only [checkLongShares, hside, heldQuantity, Py.eq_ok, not_lt] at h
  obtain ⟨held, hheld, reserved, hreserved, free, hfree, hle⟩ := h
  rw [← exactDecimalSum_eq hheld]
  rw [exactDecimalSubtract_eq hfree, exactDecimalSum_eq hreserved] at hle
  rw [AccountingState.reservedShares]
  linarith

theorem applyInstall_applies
    (h : applyInstall H context policy before s submission c = .ok (s', due, reasons)) :
    Applies H Z context policy before s (.installCommitment submission c) s' due reasons := by
  unfold applyInstall at h
  split at h
  · next existing hfind =>
    split at h
    · next heq =>
      simp only [eq_ok, Prod.mk.injEq] at h
      obtain ⟨_, -, _, -, rfl, rfl, rfl⟩ := h
      subst heq
      exact .repeated (List.mem_of_find?_eq_some hfind)
    · simp at h
  · next hfind =>
    simp only [installNew, Py.eq_ok, not_or, not_exists, not_and, not_lt, Bool.not_eq_true,
      Prod.mk.injEq] at h
    obtain ⟨source, -, risk, -, _, -, _, hbinds, _, hopen, expected, -, _, ⟨-, hshares⟩, fees, -,
      _, -, _, hcash, _, hlong, _, hfresh, submissions, hsubmissions, commitments, hcommitments,
      rfl, rfl, rfl⟩ := h
    have hnew : ∀ x ∈ s.submissions, x.val.orderId ≠ submission.val.orderId := fun x hx => by
      simpa using List.find?_eq_none.1 hfind x hx
    have hnewCommitment : ∀ p ∈ s.commitments, p.val.commitmentId ≠ c.val.commitmentId :=
      fun p hp => (hfresh p hp).2
    rcases appendFact_cases hsubmissions with ⟨hmem, -⟩ | ⟨-, rfl⟩
    · exact absurd rfl (hnew submission hmem)
    rcases appendFact_cases hcommitments with ⟨hmem, -⟩ | ⟨-, rfl⟩
    · exact absurd rfl (hnewCommitment c hmem)
    obtain ⟨hsubmission, hstate, -⟩ := hbinds
    simp only [Prod.mk.injEq] at hsubmission
    exact .installed hopen hstate hsubmission.1 hcash hshares (checkLongShares_spec hlong) hnew
      hnewCommitment

theorem applyActivate_applies
    (h : applyActivate H Z context policy before s commitmentId = .ok (s', due, reasons)) :
    Applies H Z context policy before s (.activateCommitment commitmentId) s' due reasons := by
  simp only [applyActivate, updateCommitment, Py.eq_ok, not_or, Bool.not_eq_true,
    Prod.mk.injEq] at h
  obtain ⟨c, hc, _, ⟨hstate, hopen, -⟩, _, -, active, hactive, accepted, haccepted, ⟨s'', due'⟩,
    happly, rfl, rfl, rfl⟩ := h
  obtain ⟨hmem, hid⟩ := findCommitment_spec hc
  exact .activated hmem hid hstate hopen hactive (by rw [haccepted]) (by rw [haccepted]) happly

theorem observe_applies (h : observe H Z context policy s o = .ok (s', due, reasons)) :
    Applies H Z context policy before s (.executionObservation o) s' due reasons := by
  simp only [observe, eq_ok] at h
  obtain ⟨_, -, observations, hobservations, h⟩ := h
  rcases appendFact_cases hobservations with ⟨hknown, rfl⟩ | ⟨hnew, rfl⟩
  · rw [if_pos rfl, pure_eq_ok] at h
    cases h
    exact .repeated hknown
  · rw [if_neg sortOn_append_ne] at h
    simp only [eq_ok, Prod.mk.injEq] at h
    obtain ⟨st, hst, rfl, rfl, rfl⟩ := h
    exact .observed hnew hst

theorem applyCancel_applies (h : applyCancel context s request = .ok (s', due, reasons)) :
    Applies H Z context policy before s (.orderCancelRequest request) s' due reasons := by
  simp only [applyCancel, eq_ok] at h
  obtain ⟨_, -, requests, hrequests, h⟩ := h
  rcases appendFact_cases hrequests with ⟨hmem, rfl⟩ | ⟨hnew, rfl⟩
  · rw [if_pos rfl, pure_eq_ok] at h
    cases h
    exact .repeated hmem
  · rw [if_neg sortOn_append_ne] at h
    simp only [updateCommitment, Py.eq_ok, Prod.mk.injEq] at h
    obtain ⟨c, hc, _, hlive, pending, hpending, rfl, rfl, rfl⟩ := h
    exact .canceling hnew hc hlive hpending

theorem applyDisposition_applies
    (h : applyDisposition context s commitmentId kind evidenceId = .ok (s', due, reasons)) :
    Applies H Z context policy before s (.modelDisposition commitmentId kind evidenceId) s' due
      reasons := by
  simp only [applyDisposition, updateCommitment, eq_ok] at h
  obtain ⟨_, -, c, hc, h⟩ := h
  obtain ⟨hmem, hid⟩ := findCommitment_spec hc
  split at h
  · next hkind =>
    simp only [Py.eq_ok, Prod.mk.injEq] at h
    obtain ⟨_, hlive, unknown, hunknown, rfl, rfl, rfl⟩ := h
    subst hkind
    exact .unresolved hmem hid hlive hunknown
  · next hkind =>
    simp only [Py.eq_ok, not_and, not_or] at h
    obtain ⟨_, hexpired, h⟩ := h
    split at h
    · next hterminal =>
      rw [pure_eq_ok] at h
      cases h
      exact .repeated ⟨hkind, c, hmem, hid, hterminal⟩
    · next hlive =>
      simp only [Py.eq_ok, Prod.mk.injEq] at h
      obtain ⟨released, hreleased, rfl, rfl, rfl⟩ := h
      exact .released hkind hmem hid hlive (fun hday => (hexpired hday).2.1) hreleased

theorem applyCashFlow_applies (h : applyCashFlow context before s flow = .ok (s', due, reasons)) :
    Applies H Z context policy before s (.ledgerCashFlow flow) s' due reasons := by
  simp only [applyCashFlow, eq_ok] at h
  obtain ⟨_, -, flows, hflows, h⟩ := h
  rcases appendFact_cases hflows with ⟨hmem, rfl⟩ | ⟨hnew, rfl⟩
  · rw [if_pos rfl, pure_eq_ok] at h
    cases h
    exact .repeated hmem
  · rw [if_neg sortOn_append_ne] at h
    simp only [Py.eq_ok, not_and, not_lt, Prod.mk.injEq] at h
    obtain ⟨_, hcurrency, _, hcovered, rfl, rfl, rfl⟩ := h
    exact .moved hnew hcurrency hcovered

theorem applyInstruction_applies
    (h : applyInstruction context s instruction = .ok (s', due, reasons)) :
    Applies H Z context policy before s (.settlementInstruction instruction) s' due reasons := by
  simp only [applyInstruction, eq_ok] at h
  obtain ⟨_, -, h⟩ := h
  split at h
  · next prior hfind =>
    simp only [Py.eq_ok, Prod.mk.injEq] at h
    obtain ⟨_, rfl, rfl, rfl, rfl⟩ := h
    exact .repeated (List.mem_of_find?_eq_some hfind)
  · simp only [eq_ok, Prod.mk.injEq] at h
    obtain ⟨instructions, hinstructions, rfl, rfl, rfl⟩ := h
    rcases appendFact_cases hinstructions with ⟨hmem, rfl⟩ | ⟨hnew, rfl⟩
    · exact .repeated hmem
    · exact .instructed hnew

/-- **Every successful command is one of these.** -/
theorem apply_applies (h : apply H Z context policy before s payload = .ok (s', due, reasons)) :
    Applies H Z context policy before s payload s' due reasons := by
  cases payload with
  | installCommitment submission c => exact applyInstall_applies h
  | activateCommitment commitmentId => exact applyActivate_applies h
  | executionObservation o => exact observe_applies h
  | brokerOrderEvent event =>
    simp only [apply, eq_ok, Prod.mk.injEq] at h
    obtain ⟨⟨s'', due'⟩, happly, rfl, rfl, rfl⟩ := h
    exact .received happly
  | orderCancelRequest request => exact applyCancel_applies h
  | ledgerCashFlow flow => exact applyCashFlow_applies h
  | stockSplitAction split =>
    simp only [apply, applySplitAction, Py.eq_ok, not_exists, not_and, Prod.mk.injEq] at h
    obtain ⟨_, -, _, hterminal, stockSplits, hsplits, rfl, rfl, rfl⟩ := h
    rcases appendFact_cases hsplits with ⟨hmem, rfl⟩ | ⟨hnew, rfl⟩
    · exact .repeated hmem
    · exact .split hnew hterminal
  | cashDividendAccrual dividend =>
    simp only [apply, applyDividendAccrual, eq_ok, Prod.mk.injEq] at h
    obtain ⟨_, -, cashDividends, hdividends, rfl, rfl, rfl⟩ := h
    rcases appendFact_cases hdividends with ⟨hmem, rfl⟩ | ⟨hnew, rfl⟩
    · exact .repeated hmem
    · exact .accrued hnew
  | cashDividendPayment payment =>
    simp only [apply, applyDividendPayment, eq_ok, Prod.mk.injEq] at h
    obtain ⟨_, -, dividendPayments, hpayments, rfl, rfl, rfl⟩ := h
    rcases appendFact_cases hpayments with ⟨hmem, rfl⟩ | ⟨hnew, rfl⟩
    · exact .repeated hmem
    · exact .paid hnew
  | settlementInstruction instruction => exact applyInstruction_applies h
  | settlementConfirmation confirmation =>
    simp only [apply, applyConfirmation, eq_ok, Prod.mk.injEq] at h
    obtain ⟨_, -, confirmations, hconfirmations, rfl, rfl, rfl⟩ := h
    rcases appendFact_cases hconfirmations with ⟨hmem, rfl⟩ | ⟨hnew, rfl⟩
    · exact .repeated hmem
    · exact .confirmed hnew
  | causalMark mark =>
    simp only [apply, applyMark, eq_ok, Prod.mk.injEq] at h
    obtain ⟨_, -, marks, hmarks, rfl, rfl, rfl⟩ := h
    rcases appendFact_cases hmarks with ⟨hmem, rfl⟩ | ⟨hnew, rfl⟩
    · exact .repeated hmem
    · exact .marked hnew
  | modelDisposition commitmentId kind evidenceId => exact applyDisposition_applies h
  | controlCommand halted reason =>
    simp only [apply, applyControl, eq_ok, Prod.mk.injEq] at h
    obtain ⟨_, -, rfl, rfl, rfl⟩ := h
    exact .controlled

/-- Only observations give reasons. -/
theorem Applies.reason_mem (h : Applies H Z context policy before s payload s' due reasons) :
    ∀ reason ∈ reasons, reason ∈ observationReasons := by
  cases h with
  | observed _ hturns =>
    refine foldlM_invariant (fun st => ∀ reason ∈ st.reasons, reason ∈ observationReasons) ?_
      (by simp) hturns
    intro c st st' _ hreasons hstep reason hmem
    exact ((observeCommitment_cases hstep).2 reason hmem).elim (hreasons reason) id
  | _ => simp

end apply

/-! ## Answers -/

variable {t : AccountingTransition}

section advance

variable (H Z) (s : AccountingState) (command : AccountingCommand) (context : AccountingContext)
  (policy : ExecutionPolicy) (before : AccountingTransition)

/-- The ways a command is answered by an account that projects to `before`. -/
inductive Answer : AccountingTransition → Prop
  | conflict (hknown : lookup s.commands command.commandId = some known)
      (hdiffers : known ≠ H.command command) : Answer { before with
          disposition := .rejected, journalEntries := []
          reasons := [Str.of "COMMAND_ID_CONFLICT"] }
  | known (hknown : lookup s.commands command.commandId = some (H.command command)) :
      Answer { before with disposition := .duplicate, journalEntries := [] }
  | rejected (hunknown : lookup s.commands command.commandId = none)
      (hraises : applyCommand H Z context policy before s command = .error (.valueError message)) :
      Answer { before with disposition := .rejected, journalEntries := [], reasons := [message] }
  | unchanged (hunknown : lookup s.commands command.commandId = none)
      (happly : apply H Z context policy before.snapshot s command.payload =
        .ok (s, due, reasons)) :
      Answer { before with disposition := .duplicate, journalEntries := [], reasons }
  | applied (hunknown : lookup s.commands command.commandId = none)
      (happly : apply H Z context policy before.snapshot s command.payload =
        .ok (updated, due, reasons)) (hchanged : updated ≠ s)
      (hafter : projectUpdated H context policy (recordCommand H policy command s updated) reasons =
        .ok (after, reasons')) : Answer { after with
          journalEntries := after.journalEntries.filter fun e =>
            e.val.entryId ∉ before.journalEntries.map (·.val.entryId)
          dueEvents := due
          reasons := reasons' }

variable {H Z s command context policy}

/-- **Every answer is one of these.** -/
theorem advance_cases (h : advance H Z s command context policy = .ok t) :
    ∃ before, project H s context policy = .ok before ∧
      Answer H Z s command context policy before t := by
  simp only [advance, eq_ok] at h
  obtain ⟨before, hbefore, _, -, h⟩ := h
  refine ⟨before, hbefore, ?_⟩
  unfold answerCommand at h
  split at h
  · next known hknown =>
    split at h
    · next hdiffers =>
      rw [pure_eq_ok] at h
      exact h ▸ .conflict hknown hdiffers
    · next hsame =>
      rw [pure_eq_ok] at h
      exact h ▸ .known (not_not.1 hsame ▸ hknown)
  · next hunknown =>
    rcases catchValueError_eq_ok.1 h with happlied | ⟨message, hraises, hrejected⟩
    · simp only [applyCommand, eq_ok] at happlied
      obtain ⟨⟨updated, due, reasons⟩, happly, happlied⟩ := happlied
      split at happlied
      · next hsame =>
        rw [pure_eq_ok] at happlied
        replace hsame : updated = s := hsame
        subst hsame
        exact happlied ▸ .unchanged hunknown happly
      · next hchanged =>
        simp only [eq_ok] at happlied
        obtain ⟨⟨after, reasons'⟩, hafter, rfl⟩ := happlied
        exact .applied hunknown happly hchanged hafter
    · exact hrejected ▸ .rejected hunknown hraises

/-- The updated account is projected, and halted if it has no capacity left. -/
theorem projectUpdated_cases
    (h : projectUpdated H context policy updated reasons = .ok (after, reasons')) :
    ∃ first, project H updated context policy = .ok first ∧
      ((0 ≤ first.snapshot.availableCash ∧ 0 ≤ first.snapshot.settledCash ∧ after = first ∧
          reasons' = reasons) ∨
        ((first.snapshot.availableCash < 0 ∨ first.snapshot.settledCash < 0) ∧
          project H { updated with halted := true } context policy = .ok after ∧
          reasons' = reasons ++ [Str.of "NEGATIVE_CASH_CAPACITY"])) := by
  simp only [projectUpdated, eq_ok] at h
  obtain ⟨first, hfirst, h⟩ := h
  refine ⟨first, hfirst, ?_⟩
  split at h
  · next hnegative =>
    simp only [eq_ok, Prod.mk.injEq] at h
    obtain ⟨halted, hhalted, rfl, rfl⟩ := h
    exact .inr ⟨hnegative, hhalted, rfl⟩
  · next hnonneg =>
    simp only [not_or, not_lt] at hnonneg
    rw [pure_eq_ok, Prod.mk.injEq] at h
    exact .inl ⟨hnonneg.1, hnonneg.2, h.1.symm, h.2.symm⟩

end advance

/-! ## Runs -/

/-- One answered command, of those a caller may send in a state. -/
def Step (H : AccountingHashes) (Z : EasternTime)
    (allowed : AccountingState → AccountingCommand → Prop) (s s' : AccountingState) : Prop :=
  ∃ command context policy t, allowed s command ∧
    advance H Z s command context policy = .ok t ∧ t.state = s'

/-- Any number of answered commands. -/
def Run (H : AccountingHashes) (Z : EasternTime)
    (allowed : AccountingState → AccountingCommand → Prop) :
    AccountingState → AccountingState → Prop :=
  Relation.ReflTransGen (Step H Z allowed)

/-- A caller that may send more has the runs of one that may send less. -/
theorem Run.mono {allowed allowed' : AccountingState → AccountingCommand → Prop}
    (hallowed : ∀ s command, allowed s command → allowed' s command) (h : Run H Z allowed s s') :
    Run H Z allowed' s s' := by
  refine Relation.ReflTransGen.mono ?_ _ _ h
  rintro s _ ⟨command, context, policy, t, hsent, hanswered⟩
  exact ⟨command, context, policy, t, hallowed s command hsent, hanswered⟩

/-- A command that is not a raw broker event. -/
def IsOwn (_ : AccountingState) (command : AccountingCommand) : Prop :=
  ∀ event, command.payload ≠ .brokerOrderEvent event

/-! ## A small account -/

namespace Sample

/-- Synthetic prices, no slippage and a cent a share. -/
def policy : Py ExecutionPolicy := do
  let calendar ← construct
    ⟨"calendar", "v1", [719162, 719163, 719164, 719165, 719166, 719167]⟩
  construct ⟨calendar, .syntheticEvents, 0, 1 / 100⟩

def context (now : Instant) (approved : Option AccountSnapshot) : AccountingContext :=
  { runId := "run"
    point := ⟨now.toNat, now.toNat, now, 0⟩
    economicAt := now
    eventId := "event"
    expectedMarkSession := 719162
    instruments := [("i1", "ABC")]
    approvedSnapshot := approved
    riskPolicySha256 := some "risk" }

/-- Send a command to an account at an instant. -/
def send (s : AccountingState) (now : Instant) (approved : Option AccountSnapshot)
    (commandId : Str) (payload : AccountingPayload) : Py AccountingTransition := do
  let policy ← policy
  advance .plain .standard s ⟨commandId, payload⟩ (context now approved) policy

def contribution : Py AccountingPayload := do
  let flow ← createCashFlow .plain .contribution "USD" 1000 0 0 "wire"
  return .ledgerCashFlow flow

def intent (name : Str) (side : Side) : Py OrderIntent :=
  plainIntent (plainId "intent" [.text name]) side 4

/-- An order for four shares with the commitment a snapshot approves for it. -/
def order (name : Str) (side : Side) (approved : AccountSnapshot) :
    Py (OrderSubmission × Commitment) := do
  let intent ← intent name side
  let submission ← createOrderSubmission .plain intent "risk" "attempt" 0
  let commitment ← construct {
    commitmentId := plainId "commitment" [.text name]
    intentId := intent.val.intentId
    orderId := submission.val.orderId
    instrumentId := "i1"
    symbol := "ABC"
    side
    originalQuantity := 4
    filledQuantity := 0
    remainingQuantity := 4
    reservedCash := reserveOf side 4 25 1
    reservedSellQuantity := sellQuantity side 4
    approvedPrice := 25
    remainingFeeBudget := 1
    sourceSession := 719162
    executionSession := 719162
    createdSequence := approved.point.reductionSequence
    notBefore := 0
    expiresAt := 90
    policySha256 := "risk"
    snapshotSha256 := AccountingHashes.plain.snapshot approved
    state := .approvedUnsent
    activatedAt := none
    activationSequence := none
    activationFrontier := none
    terminalReason := none }
  return (submission, commitment)

def observation (now : Instant) (budget : Option ℚ) : Py AccountingPayload := do
  let o ← construct {
    observationId := plainId "observation" [.integer now]
    instrumentId := "i1"
    symbol := "ABC"
    session := 719162
    price := 24
    economicAt := now
    knowledgeAt := now
    modelId := ExecutionModel.syntheticEvents.value
    sourceSha256 := "s"
    quantityBudget := budget
    basis := .syntheticPrice }
  return .executionObservation o

/-- Fund the account, install a purchase of four shares and activate it. -/
def activated : Py (AccountingTransition × Commitment) := do
  let contribution ← contribution
  let funded ← send (.initial "account") 1 none "fund" contribution
  let (submission, commitment) ← order "purchase" .buy funded.snapshot
  let installed ← send funded.state 2 (some funded.snapshot) "install"
    (.installCommitment submission commitment)
  let activated ← send installed.state 3 none "activate"
    (.activateCommitment commitment.val.commitmentId)
  return (activated, commitment)

/-- The sample's activated state is reached from the empty account. -/
theorem activated_run (h : activated = .ok (t, c)) :
    Run .plain .standard IsOwn (.initial "account") t.state := by
  simp only [activated, send, contribution, eq_ok, Prod.mk.injEq] at h
  obtain ⟨_, ⟨flow, -, rfl⟩, funded, ⟨_, -, hfunded⟩, ⟨submission, commitment⟩, -, installed,
    ⟨_, -, hinstalled⟩, activated, ⟨_, -, hactivated⟩, rfl, -⟩ := h
  refine .tail (.tail (.tail .refl ⟨_, _, _, _, ?_, hfunded, rfl⟩)
    ⟨_, _, _, _, ?_, hinstalled, rfl⟩) ⟨_, _, _, _, ?_, hactivated, rfl⟩
  all_goals
    intro event heq
    contradiction

/-- Buy the four shares. -/
def bought : Py AccountingTransition := do
  let (activated, _) ← activated
  let observation ← observation 4 none
  send activated.state 4 none "fill" observation

/-- Offer the four shares for sale. -/
def offered : Py AccountingTransition := do
  let bought ← bought
  let (submission, commitment) ← order "sale" .sell bought.snapshot
  send bought.state 5 (some bought.snapshot) "offer" (.installCommitment submission commitment)

end Sample

end AutoQuantTrader
