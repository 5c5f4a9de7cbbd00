import AutoQuantTrader.FactOrder
import AutoQuantTrader.AccountingSteps

/-!
# Orders that nothing has happened to

An order that has only been submitted has no events, so no ledger, lot book or settlement posts
anything for it: the books of an account with one more such order are the books it had.
-/

namespace AutoQuantTrader

open Result Sorting

/-! ## The order itself -/

/-- An order that has only been submitted. -/
def unsentOrder (submission : OrderSubmission) : CanonicalOrderState :=
  { submission
    cancelRequest := none
    brokerOrderId := none
    status := .submitted
    brokerEvents := []
    executions := []
    filledQuantity := 0
    totalFees := 0
    lastBrokerSequence := 0
    asOf := submission.val.submittedAt }

/-- An order without events is unsent. -/
theorem reduceOrderLifecycle_unsent (H : OrderHashes) (submission : OrderSubmission) :
    reduceOrderLifecycle H submission [] none = .ok (unsentOrder submission) := by
  have hpositive := submission.val.intent.quantity_bounds.1
  have hstatus : lifecycleStatus .initial submission.val.intent.val.quantity 0 = .submitted := by
    simp [lifecycleStatus, LifecycleState.initial, hpositive.ne]
  have hempty : uniqueBrokerEvents [] = .ok [] := rfl
  have hreduced : reduceOrdered submission none [] = .ok (unsentOrder submission) := by
    rw [unsentOrder, ← hstatus]
    rfl
  simp only [reduceOrderLifecycle, eq_ok]
  exact ⟨(), rfl, [], hempty, (), rfl, hreduced⟩

/-! ## The books -/

/-- The orders of an account and those of the account with one more, that has only been
submitted. -/
structure AddsUnsent (submission : OrderSubmission) (states states' : List CanonicalOrderState) :
    Prop where
  perm : states'.Perm (unsentOrder submission :: states)
  nodup : (states'.map (·.submission.val.orderId)).Nodup

section books

variable {submission : OrderSubmission} {states states' : List CanonicalOrderState}

theorem AddsUnsent.nodup_old (h : AddsUnsent submission states states') :
    (states.map (·.submission.val.orderId)).Nodup := by
  have hnodup := (h.perm.map (·.submission.val.orderId)).nodup_iff.1 h.nodup
  exact (List.nodup_cons.1 hnodup).2

/-- Orders with identities of their own can be indexed. -/
theorem exists_unique_orders {ε : Type} (e : ε)
    (hnodup : (states.map (·.submission.val.orderId)).Nodup) :
    ∃ index, Dict.unique (·.submission.val.orderId) e states = .ok index :=
  Dict.exists_unique_iff.2 fun _ ha _ hb hab => List.inj_on_of_nodup_map hnodup ha hb hab

theorem executionEntries_unsent (H : LedgerHashes) (submission : OrderSubmission) (currency : Str) :
    executionEntries H (unsentOrder submission) currency = .ok [] :=
  rfl

/-- Posting an order without events changes nothing. -/
theorem postOrder_unsent (H : LedgerHashes) (submission : OrderSubmission) (currency : Str)
    (acc : Dict Str BrokerOrderEvent × List CanonicalLedgerEntry) :
    postOrder H currency acc (unsentOrder submission) = .ok acc := by
  simp only [postOrder, eq_ok]
  exact ⟨acc.1, rfl, [], executionEntries_unsent H submission currency, by rw [List.append_nil]⟩

/-- An unsent order leaves the execution ledger as it is. -/
theorem reduceExecutionLedger_unsent (hadds : AddsUnsent submission states states')
    (h : reduceExecutionLedger H states flows currency = .ok ledger) :
    reduceExecutionLedger H states' flows currency = .ok ledger := by
  simp only [reduceExecutionLedger, eq_ok] at h ⊢
  obtain ⟨_, hcurrency, index, hindex, flowIndex, hflowIndex, flowEntries, hflowEntries, posted,
    hposted, entryIds, hentryIds, balances, hbalances, rfl⟩ := h
  obtain ⟨hcanonical, hunique⟩ := admitOrders_eq_ok.1 hindex
  obtain ⟨index', hunique'⟩ := exists_unique_orders _ hadds.nodup
  rw [Dict.values_eq_of_unique hunique hadds.nodup_old.of_map] at hposted
  obtain ⟨l₁, l₂, hsorted, hsorted'⟩ := exists_sortOn_cons hadds.perm hadds.nodup
  refine ⟨(), hcurrency, index', admitOrders_eq_ok.2 ⟨fun state hstate => ?_, hunique'⟩, flowIndex,
    hflowIndex, flowEntries, hflowEntries, posted, ?_, entryIds, hentryIds, balances,
      hbalances, rfl⟩
  · rcases List.mem_cons.1 (hadds.perm.mem_iff.1 hstate) with rfl | hold
    · simp only [requireCanonicalOrder, Py.eq_ok]
      exact ⟨_, reduceOrderLifecycle_unsent H.toOrderHashes submission, rfl⟩
    · exact hcanonical state hold
  · rw [Dict.values_eq_of_unique hunique' hadds.nodup.of_map, hsorted',
      foldlM_of_neutral (postOrder_unsent H submission currency), ← hsorted]
    exact hposted

/-- Collecting the cash of an order starts without predecessors. -/
theorem collectOrderDeltas_predecessors (acc : CashDeltaState) (p : Dict Str BrokerOrderEvent)
    (state : CanonicalOrderState) :
    collectOrderDeltas { acc with predecessors := p } state = collectOrderDeltas acc state :=
  rfl

/-- An order without events collects nothing; it only forgets the predecessors, as the next order
would. -/
theorem foldlM_collectOrderDeltas_unsent (h : (l₁ ++ l₂).foldlM collectOrderDeltas acc = .ok acc') :
    ∃ acc'', (l₁ ++ unsentOrder submission :: l₂).foldlM collectOrderDeltas acc = .ok acc'' ∧
      acc''.deltas = acc'.deltas := by
  rw [List.foldlM_append, bind_eq_ok] at h
  obtain ⟨middle, hmiddle, hrest⟩ := h
  have hskip : collectOrderDeltas middle (unsentOrder submission) =
      .ok { middle with predecessors := .empty } := rfl
  cases l₂ with
  | nil =>
    rw [foldlM_nil_eq_ok] at hrest
    refine ⟨{ middle with predecessors := .empty }, ?_, by rw [hrest]⟩
    rw [List.foldlM_append, bind_eq_ok]
    exact ⟨middle, hmiddle, foldlM_cons_eq_ok.2 ⟨_, hskip, foldlM_nil_eq_ok.2 rfl⟩⟩
  | cons state l₂ =>
    obtain ⟨next, hnext, hlast⟩ := foldlM_cons_eq_ok.1 hrest
    refine ⟨acc', ?_, rfl⟩
    rw [List.foldlM_append, bind_eq_ok]
    refine ⟨middle, hmiddle, foldlM_cons_eq_ok.2 ⟨_, hskip, foldlM_cons_eq_ok.2 ⟨next, ?_, hlast⟩⟩⟩
    rw [collectOrderDeltas_predecessors, hnext]

theorem executionCashDeltas_unsent (hadds : AddsUnsent submission states states')
    (h : executionCashDeltas states = .ok deltas) : executionCashDeltas states' = .ok deltas := by
  simp only [executionCashDeltas, eq_ok] at h ⊢
  obtain ⟨index, hindex, acc, hacc, rfl⟩ := h
  obtain ⟨index', hindex'⟩ := exists_unique_orders _ hadds.nodup
  obtain ⟨l₁, l₂, hsorted, hsorted'⟩ := exists_sortOn_cons hadds.perm hadds.nodup
  rw [Dict.values_eq_of_unique hindex hadds.nodup_old.of_map, hsorted] at hacc
  obtain ⟨acc', hacc', hdeltas⟩ := foldlM_collectOrderDeltas_unsent hacc
  refine ⟨index', hindex', acc', ?_, by rw [hdeltas]⟩
  rw [Dict.values_eq_of_unique hindex' hadds.nodup.of_map, hsorted']
  exact hacc'

/-- It leaves the settlement ledger as it is. -/
theorem reduceSettlementLedger_unsent (hadds : AddsUnsent submission states states')
    (h : reduceSettlementLedger H accountId states flows instructions confirmations currency =
      .ok settlement) :
    reduceSettlementLedger H accountId states' flows instructions confirmations currency =
      .ok settlement := by
  simp only [reduceSettlementLedger, unsealedSettlementLedger, eq_ok] at h ⊢
  obtain ⟨s, ⟨_, haccount, _, hcurrency, ledger, hledger, deltas, hdeltas, hrest⟩, hsealed⟩ := h
  exact ⟨s, ⟨(), haccount, (), hcurrency, ledger, reduceExecutionLedger_unsent hadds hledger,
    deltas, executionCashDeltas_unsent hadds hdeltas, hrest⟩, hsealed⟩

/-- The orders in the order of their identities, as the lot book goes through them. -/
theorem canonicalStates_eq (hnodup : (states.map (·.submission.val.orderId)).Nodup) :
    (sortOn Prod.fst (states.foldl (fun d state => d.set state.submission.val.orderId state)
        (Dict.empty : Dict Str CanonicalOrderState)).entries).map Prod.snd =
      sortOn (·.submission.val.orderId) states := by
  obtain ⟨index, hindex⟩ := exists_unique_orders () hnodup
  have hentries : (sortOn (·.submission.val.orderId) states).map
      (fun state => (state.submission.val.orderId, state)) =
        sortOn Prod.fst (states.map fun state => (state.submission.val.orderId, state)) := by
    refine map_sortOn ?_ states
    intro state
    rfl
  rw [Dict.foldl_set_of_unique hindex, Dict.entries_eq_of_unique hindex hnodup.of_map, ← hentries,
    List.map_map]
  exact List.map_id _

/-- An order without executions owns none. -/
theorem ownedExecutions_unsent (hadds : AddsUnsent submission states states') :
    ownedExecutions (sortOn (·.submission.val.orderId) states') =
      ownedExecutions (sortOn (·.submission.val.orderId) states) := by
  obtain ⟨l₁, l₂, hsorted, hsorted'⟩ := exists_sortOn_cons hadds.perm hadds.nodup
  rw [hsorted, hsorted', ownedExecutions, ownedExecutions, List.flatMap_append, List.flatMap_append,
    List.flatMap_cons]
  rfl

/-- It leaves the lots as they are. -/
theorem projectUnvaluedFifoAccount_unsent (facts : AccountFacts)
    (hadds : AddsUnsent submission facts.orderStates states')
    (h : projectUnvaluedFifoAccount H facts now = .ok account) :
    projectUnvaluedFifoAccount H { facts with orderStates := states' } now = .ok account := by
  simp only [projectUnvaluedFifoAccount, prepareFifoEvidence, eq_ok] at h ⊢
  obtain ⟨_, ⟨_, haccount, _, hcurrency, ledger, hledger, corporate, hcorporate, _, htime, rfl⟩,
    hbook⟩ := h
  refine ⟨_, ⟨(), haccount, (), hcurrency, ledger, reduceExecutionLedger_unsent hadds hledger,
    corporate, hcorporate, (), htime, rfl⟩, ?_⟩
  simp only [reduceUnvaluedFifo, currentExecutions, canonicalStates_eq hadds.nodup_old,
    canonicalStates_eq hadds.nodup, ownedExecutions_unsent hadds] at hbook ⊢
  exact hbook

end books

end AutoQuantTrader
