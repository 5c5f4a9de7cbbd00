import AutoQuantTrader.DecimalBounds
import AutoQuantTrader.SettlementSealing
import AutoQuantTrader.UnsentOrder

/-!
# The account after an installation

Installing an order that is new reserves its cash and its shares and changes nothing else that a
snapshot shows: the account can be projected again, with the cash of the commitment taken off what
is available.  Projecting an account again later, before anything has become known, shows the same.
-/

namespace AutoQuantTrader

open Result Sorting

variable {H : AccountingHashes} {s : AccountingState} {context context' : AccountingContext}
  {policy : ExecutionPolicy}

/-! ## The same account, later in a frontier -/

/-- The second context is for another event, not before the first, of the same frontier of
knowledge. -/
structure AccountingContext.Continues (context context' : AccountingContext) : Prop where
  runId : context'.runId = context.runId
  knowledgeAt : context'.point.knowledgeAt = context.point.knowledgeAt
  sequence : context.point.reductionSequence ≤ context'.point.reductionSequence
  frontier : context.point.frontierSequence ≤ context'.point.frontierSequence
  economicAt : context'.economicAt = context.economicAt
  markSession : context'.expectedMarkSession = context.expectedMarkSession
  instruments : context'.instruments = context.instruments
  eventId : requireBoundedText context'.eventId "event ID" = .ok ()

theorem checkEventPoint_continues (hlater : context.Continues context')
    (h : checkEventPoint s context.point event = .ok u) :
    checkEventPoint s context'.point event = .ok u := by
  simp only [checkEventPoint, Py.eq_ok] at h ⊢
  obtain ⟨point, hpoint, hreceived, hknown, hsequence, hfrontier⟩ := h
  exact ⟨point, hpoint, hreceived, hlater.knowledgeAt ▸ hknown, hsequence.trans hlater.sequence,
    hfrontier.trans hlater.frontier⟩

/-- A context stays valid at a later point. -/
theorem validateContext_continues (hlater : context.Continues context')
    (h : validateContext s context = .ok u) : validateContext s context' = .ok u := by
  simp only [validateContext, eq_ok, forM_eq_ok] at h ⊢
  obtain ⟨_, haccount, _, hrun, _, -, _, heconomic, _, hscope, _, hfacts, _, hcommitments, _,
    hreceipts, _, hpoints, _, hcausal, hrest⟩ := h
  rw [hlater.runId, hlater.knowledgeAt, hlater.economicAt, hlater.instruments]
  exact ⟨(), haccount, (), hrun, (), hlater.eventId, (), heconomic, (), hscope, (), hfacts, (),
    hcommitments, (), hreceipts, (), hpoints, (),
    fun event hevent => checkEventPoint_continues hlater (hcausal event hevent), hrest⟩

theorem valuePositionMarks_continues (hlater : context.Continues context') :
    valuePositionMarks context' = valuePositionMarks context := by
  funext marks v position
  simp only [valuePositionMarks, valueAtMark, hlater.markSession]

variable {orderStates : List CanonicalOrderState}

/-- The snapshot of a later point shows the same account. -/
theorem accountSnapshot_continues (hlater : context.Continues context')
    (h : accountSnapshot H s context orderStates facts settlement entries = .ok snapshot) :
    accountSnapshot H s context' orderStates facts settlement entries =
      .ok { snapshot with point := context'.point } := by
  have hmap : accountSnapshot H s context' orderStates facts settlement entries =
      (fun shown => { shown with point := context'.point }) <$>
        accountSnapshot H s context orderStates facts settlement entries := by
    simp only [accountSnapshot, valuePositionMarks_continues hlater, map_bind, map_pure]
  rw [hmap, h]
  rfl

/-- **An account can be projected again** before anything else has become known. -/
theorem project_continues (hlater : context.Continues context')
    (h : project H s context policy = .ok t) :
    project H s context' policy =
      .ok { t with snapshot := { t.snapshot with point := context'.point } } := by
  simp only [project, eq_ok] at h ⊢
  obtain ⟨_, hvalid, _, hpolicy, orderStates, horders, books, hledgers, entries, hentries, snapshot,
    hsnapshot, executions, hexecutions, fifoMatches, hmatches, rfl⟩ := h
  exact ⟨(), validateContext_continues hlater hvalid, (), hpolicy, orderStates, horders, books,
    hlater.knowledgeAt ▸ hledgers, entries, hentries, _, accountSnapshot_continues hlater hsnapshot,
    executions, hexecutions, fifoMatches, hmatches, rfl⟩

/-! ## Amounts -/

/-- The cash figures of both ledgers fit their columns. -/
theorem ledgers_persisted (h : ledgers H s now orderStates = .ok (facts, settlement)) :
    isPersisted facts.cash ∧ isPersisted settlement.tradeDateCash ∧
      isPersisted settlement.settledCash ∧ isPersisted settlement.payables := by
  obtain ⟨hfacts, hsettlement⟩ := ledgers_spec h
  simp only [projectUnvaluedFifoAccount, reduceUnvaluedFifo, eq_ok,
    UnvaluedFifoAccountProjection.checkPersisted, canonicalPersistedDecimal_eq_ok] at hfacts
  obtain ⟨evidence, -, _, -, _, -, _, -, _, -, _, -, _, -, _, -, _, -, _, ⟨_, ⟨hcash, -⟩, -⟩,
    rfl⟩ := hfacts
  simp only [reduceSettlementLedger, unsealedSettlementLedger, eq_ok] at hsettlement
  obtain ⟨_, ⟨_, -, _, -, _, -, _, -, _, -, _, -, _, -, _, -, _, -, _, -, derived, hderived, rfl⟩,
    _, -, rfl⟩ := hsettlement
  obtain ⟨htradeDate, hsettled, -, hpayables⟩ := isPersisted_of_derived hderived
  exact ⟨hcash, htradeDate, hsettled, hpayables⟩

theorem isPersisted_of_requireAmount
    (h : requireAmount value name nonnegative positive whole = .ok u) : isPersisted value := by
  simp only [requireAmount, eq_ok, canonicalPersistedDecimal_eq_ok] at h
  obtain ⟨_, ⟨hpersisted, -⟩, -⟩ := h
  exact hpersisted

theorem Commitment.persisted (c : Commitment) :
    isPersisted c.val.reservedCash ∧ isPersisted c.val.reservedSellQuantity := by
  have hpasses := c.passes
  simp only [CommitmentFields.postInit, eq_ok] at hpasses
  obtain ⟨_, -, _, -, _, -, _, -, _, -, _, -, _, -, _, -, _, hshares, _, hcash, -⟩ := hpasses
  exact ⟨isPersisted_of_requireAmount hcash, isPersisted_of_requireAmount hshares⟩

/-! ## One more order -/

section install

variable {submission : OrderSubmission} {c : Commitment} {command : AccountingCommand}

/-- The orders of the account after an installation. -/
theorem orders_install (s' : AccountingState)
    (hnew : ∀ x ∈ s.submissions, x.val.orderId ≠ submission.val.orderId)
    (hsubmissions : s'.submissions = sortOn (·.val.orderId) (s.submissions ++ [submission]))
    (hevents : s'.brokerEvents = s.brokerEvents) (hcancels : s'.cancelRequests = s.cancelRequests)
    (h : orders H s = .ok orderStates) : ∃ orderStates', orders H s' = .ok orderStates' ∧
      AddsUnsent submission orderStates orderStates' := by
  simp only [orders, Py.eq_ok, not_or, not_exists, not_and] at h
  obtain ⟨_, hnodup, _, hknown, _, ⟨honce, hinstalled⟩, hmap⟩ := h
  have hnodup' : (s'.submissions.map (·.val.orderId)).Nodup :=
    hsubmissions ▸ nodup_sortOn_append hnodup hnew
  have hold : s.submissions.map (·.val.orderId) ⊆ s'.submissions.map (·.val.orderId) :=
    hsubmissions ▸ List.map_subset _ subset_sortOn_append
  have hperm : s'.submissions.Perm (submission :: s.submissions) :=
    hsubmissions ▸ (sortOn_perm _ _).trans (List.perm_append_singleton _ _)
  have hfresh : submission.val.orderId ∉ s.submissions.map (·.val.orderId) := by
    simpa using hnew
  -- nothing in the account names the new order
  have hnoEvents : s.brokerEvents.filter (·.val.orderId = submission.val.orderId) = [] := by
    rw [List.filter_eq_nil_iff]
    intro e he
    simpa using fun heq : e.val.orderId = submission.val.orderId => hfresh (heq ▸ hknown e he)
  have hnoCancel : s.cancelRequests.find? (·.val.orderId = submission.val.orderId) = none := by
    rw [List.find?_eq_none]
    intro r hr
    simpa using fun heq : r.val.orderId = submission.val.orderId =>
      hfresh (heq ▸ hinstalled r hr)
  obtain ⟨l₁, l₂, hsorted, hsorted'⟩ := exists_sortOn_cons hperm hnodup'
  rw [hsorted, mapM_append_eq_ok] at hmap
  obtain ⟨states₁, hstates₁, states₂, hstates₂, rfl⟩ := hmap
  have horders : orders H s' = .ok (states₁ ++ unsentOrder submission :: states₂) := by
    simp only [orders, Py.eq_ok, not_or, not_exists, not_and, hevents, hcancels, hsorted',
      mapM_append_eq_ok, mapM_cons_eq_ok, hnoEvents, hnoCancel]
    exact ⟨(), hnodup', (), fun e he => hold (hknown e he), (),
      ⟨honce, fun r hr => hold (hinstalled r hr)⟩, states₁, hstates₁, _,
      ⟨_, reduceOrderLifecycle_unsent H.toOrderHashes submission, states₂, hstates₂, rfl⟩, rfl⟩
  refine ⟨_, horders, List.perm_middle, ?_⟩
  have hids : (states₁ ++ unsentOrder submission :: states₂).map (·.submission.val.orderId) =
      (sortOn (·.val.orderId) s'.submissions).map (·.val.orderId) := by
    rw [← map_submission_of_orders horders, List.map_map]
    rfl
  rw [hids, ((sortOn_perm _ _).map _).nodup_iff]
  exact hnodup'

/-- The order and its commitment are new to the account and fit each other. -/
structure NewOrder (s : AccountingState) (context : AccountingContext)
    (submission : OrderSubmission) (c : Commitment) : Prop where
  orderId : c.val.orderId = submission.val.orderId
  intentId : c.val.intentId = submission.val.intent.val.intentId
  instrument : c.val.instrumentId = submission.val.intent.val.instrumentId
  symbol : c.val.symbol = submission.val.intent.val.symbol
  side : c.val.side = submission.val.intent.val.side
  original : c.val.originalQuantity = submission.val.intent.val.quantity
  unsent : c.val.state = .approvedUnsent
  unfilled : c.val.filledQuantity = 0
  remaining : c.val.remainingQuantity = c.val.originalQuantity
  cash : reserve c.val.side c.val.remainingQuantity c.val.approvedPrice c.val.remainingFeeBudget =
    .ok c.val.reservedCash
  shares : c.val.reservedSellQuantity = sellQuantity c.val.side c.val.remainingQuantity
  scope : lookup context.instruments c.val.instrumentId = some c.val.symbol
  newOrder : ∀ x ∈ s.submissions, x.val.orderId ≠ submission.val.orderId
  newCommitment : ∀ p ∈ s.commitments, p.val.commitmentId ≠ c.val.commitmentId

/-- The account after an installation has been recorded. -/
abbrev installed (H : AccountingHashes) (policy : ExecutionPolicy) (command : AccountingCommand)
    (s : AccountingState) (submission : OrderSubmission) (c : Commitment) : AccountingState :=
  recordCommand H policy command s (s.install submission c)

/-- The commitments of an account name its orders and no others. -/
def Covers (orderStates : List CanonicalOrderState) (commitments : List Commitment) : Prop :=
  orderStates.map (·.submission.val.orderId) ⊆ commitments.map (·.val.orderId) ∧
    commitments.map (·.val.orderId) ⊆ orderStates.map (·.submission.val.orderId)

theorem Covers.orderId_ne (hcovers : Covers orderStates s.commitments)
    (horders : orders H s = .ok orderStates) (hnew : NewOrder s context submission c) :
    ∀ p ∈ s.commitments, p.val.orderId ≠ c.val.orderId := by
  intro p hp heq
  have hmem := hcovers.2 (List.mem_map_of_mem hp)
  obtain ⟨order, horder, hid⟩ := List.mem_map.1 hmem
  have hsubmission : order.submission ∈ s.submissions := by
    have hmap : order.submission ∈ orderStates.map (·.submission) := List.mem_map_of_mem horder
    rw [map_submission_of_orders horders] at hmap
    exact mem_sortOn.1 hmap
  exact hnew.newOrder _ hsubmission (hid.trans (heq.trans hnew.orderId))

theorem mem_scoped_install (h : fact ∈ (installed H policy command s submission c).scoped) :
    fact ∈ s.scoped ∨ fact = (c.val.instrumentId, c.val.symbol) := by
  simp only [AccountingState.scoped, recordCommand, AccountingState.install, List.mem_append] at h ⊢
  rcases h with ((hcommitment | hmark) | hsplit) | hdividend
  · obtain ⟨p, hp, rfl⟩ := List.mem_map.1 hcommitment
    rw [mem_sortOn, List.mem_append, List.mem_singleton] at hp
    rcases hp with hold | rfl
    · exact .inl (.inl (.inl (.inl (List.mem_map.2 ⟨p, hold, rfl⟩))))
    · exact .inr rfl
  · exact .inl (.inl (.inl (.inr hmark)))
  · exact .inl (.inl (.inr hsplit))
  · exact .inl (.inr hdividend)

/-- A context stays valid once a new order is installed. -/
theorem validateContext_install (hnew : NewOrder s context submission c)
    (hne : ∀ p ∈ s.commitments, p.val.orderId ≠ c.val.orderId)
    (h : validateContext s context = .ok u) :
    validateContext (installed H policy command s submission c) context = .ok u := by
  simp only [validateContext, Py.eq_ok, not_or, not_exists, not_and, forM_eq_ok] at h ⊢
  obtain ⟨_, haccount, _, hrun, _, hevent, _, heconomic, _, hscope, _, hfacts, _,
    ⟨hids, horderIds⟩, hrest⟩ := h
  refine ⟨(), haccount, (), hrun, (), hevent, (), heconomic, (), hscope, (),
    fun fact hfact => ?_, (),
    ⟨nodup_sortOn_append hids hnew.newCommitment, nodup_sortOn_append horderIds hne⟩, hrest⟩
  rcases mem_scoped_install hfact with hold | rfl
  · exact hfacts fact hold
  · exact hnew.scope

/-- A commitment that agrees with its order still does. -/
theorem checkCommitment_mono (hsubset : orderStates ⊆ orderStates')
    (hnodup : (orderStates'.map (·.submission.val.orderId)).Nodup)
    (h : checkCommitment orderStates p = .ok u) : checkCommitment orderStates' p = .ok u := by
  simp only [checkCommitment, eq_ok] at h ⊢
  obtain ⟨order, hfind, hrest⟩ := h
  exact ⟨order, Keyed.find?_of_subset hsubset hnodup hfind, hrest⟩

/-- The new commitment agrees with its order. -/
theorem checkCommitment_new (hnew : NewOrder s context submission c)
    (hmem : unsentOrder submission ∈ orderStates)
    (hnodup : (orderStates.map (·.submission.val.orderId)).Nodup) :
    checkCommitment orderStates c = .ok () := by
  have hfind : orderStates.find? (·.submission.val.orderId = c.val.orderId) =
      some (unsentOrder submission) :=
    (Keyed.find?_eq_some_iff hnodup).2 ⟨hmem, hnew.orderId.symm⟩
  have hquantity : Fits 40 c.val.originalQuantity := by
    rw [hnew.original]
    exact (isPersisted_iff.1 submission.val.intent.quantity_bounds.2.2.1).mono (by decide)
  have hremainder : remainder (c.val.state = .terminal) c.val.originalQuantity
      c.val.filledQuantity = .ok c.val.remainingQuantity := by
    rw [hnew.unsent, hnew.unfilled, hnew.remaining, remainder, if_neg (by decide),
      exactDecimalSubtract_of_fits hquantity Fits.zero, sub_zero]
  simp only [checkCommitment, Py.eq_ok, not_or, not_and]
  refine ⟨_, hfind, (), ?_, _, hremainder, _, hnew.cash, (), ⟨rfl, rfl, hnew.shares⟩, ?_⟩
  · rw [hnew.intentId, hnew.instrument, hnew.symbol, hnew.side, hnew.original, hnew.unfilled]
    rfl
  · intro hterminal
    rw [hnew.unsent] at hterminal
    exact absurd hterminal (by decide)

/-- An installation adds its unsent order to the checked ones. -/
theorem checkedOrders_install (hnew : NewOrder s context submission c)
    (h : checkedOrders H s = .ok orderStates) :
    ∃ orderStates', checkedOrders H (installed H policy command s submission c) = .ok orderStates' ∧
      AddsUnsent submission orderStates orderStates' := by
  simp only [checkedOrders, Py.eq_ok, forM_eq_ok] at h
  obtain ⟨states, horders, _, hcovers, _, hcommitments, rfl⟩ := h
  obtain ⟨states', horders', hadds⟩ := orders_install (installed H policy command s submission c)
    hnew.newOrder rfl rfl rfl horders
  refine ⟨states', ?_, hadds⟩
  have hmem (order : CanonicalOrderState) :
      order ∈ states' ↔ order = unsentOrder submission ∨ order ∈ states :=
    hadds.perm.mem_iff.trans List.mem_cons
  have hids (id : Str) : id ∈ states'.map (·.submission.val.orderId) ↔
      id = submission.val.orderId ∨ id ∈ states.map (·.submission.val.orderId) := by
    rw [(hadds.perm.map _).mem_iff, List.map_cons, List.mem_cons]
    rfl
  have hcommitted (id : Str) :
      id ∈ (installed H policy command s submission c).commitments.map (·.val.orderId) ↔
        id = submission.val.orderId ∨ id ∈ s.commitments.map (·.val.orderId) := by
    have hperm := (sortOn_perm (·.val.commitmentId) (s.commitments ++ [c])).map (·.val.orderId)
    rw [← hnew.orderId, or_comm]
    refine hperm.mem_iff.trans ?_
    rw [List.map_append, List.mem_append, List.map_singleton, List.mem_singleton]
  simp only [checkedOrders, Py.eq_ok, forM_eq_ok]
  refine ⟨states', horders', (), ⟨fun id hid => ?_, fun id hid => ?_⟩, (), fun p hp => ?_, rfl⟩
  · exact (hcommitted id).2 (((hids id).1 hid).imp_right fun hold => hcovers.1 hold)
  · exact (hids id).2 (((hcommitted id).1 hid).imp_right fun hold => hcovers.2 hold)
  · rcases mem_snoc.1 (mem_sortOn.1 hp) with hold | rfl
    · exact checkCommitment_mono (fun order horder => (hmem order).2 (.inr horder)) hadds.nodup
        (hcommitments p hold)
    · exact checkCommitment_new hnew ((hmem _).2 (.inl rfl)) hadds.nodup

/-! ## The books and the rows -/

/-- An unsent order changes no ledger. -/
theorem ledgers_install (hadds : AddsUnsent submission orderStates orderStates')
    (h : ledgers H s now orderStates = .ok books) :
    ledgers H (installed H policy command s submission c) now orderStates' = .ok books := by
  simp only [ledgers, eq_ok] at h ⊢
  obtain ⟨facts, hfacts, settlement, hsettlement, hrest⟩ := h
  exact ⟨facts, projectUnvaluedFifoAccount_unsent (s.facts orderStates) hadds hfacts,
    settlement, reduceSettlementLedger_unsent hadds hsettlement, hrest⟩

theorem executionRow_install (hadds : AddsUnsent submission orderStates orderStates')
    (h : executionRow s policy orderStates e = .ok row) :
    executionRow (installed H policy command s submission c) policy orderStates' e = .ok row := by
  simp only [executionRow, eq_ok] at h ⊢
  obtain ⟨order, hfind, hrest⟩ := h
  have hsubset : orderStates ⊆ orderStates' := fun o ho =>
    hadds.perm.mem_iff.2 (List.mem_cons_of_mem _ ho)
  exact ⟨order, Keyed.find?_of_subset hsubset hadds.nodup hfind, hrest⟩

theorem fifoMatchRow_install (hnodup : (s.commitments.map (·.val.orderId)).Nodup)
    (hne : ∀ p ∈ s.commitments, p.val.orderId ≠ c.val.orderId) (h : fifoMatchRow H s m = .ok row) :
    fifoMatchRow H (installed H policy command s submission c) m = .ok row := by
  simp only [fifoMatchRow, eq_ok] at h ⊢
  obtain ⟨openingFee, hopening, closingFee, hclosing, commitment, hfind, hrest⟩ := h
  exact ⟨openingFee, hopening, closingFee, hclosing, commitment, Keyed.find?_of_subset
    subset_sortOn_append (nodup_sortOn_append hnodup hne) hfind, hrest⟩

/-! ## The snapshot -/

/-- The cash that the commitments of a side reserve, with one more commitment. -/
theorem reservedCash_install (h : reservedCash s side = .ok reserved)
    (hbound : reserved + c.val.reservedCash < pow10 40) :
    reservedCash (installed H policy command s submission c) side =
      .ok (reserved + if c.val.side = side then c.val.reservedCash else 0) := by
  have hsum : (((sortOn (·.val.commitmentId) (s.commitments ++ [c])).filter
      (·.val.side = side)).map (·.val.reservedCash)).sum =
        reserved + if c.val.side = side then c.val.reservedCash else 0 := by
    rw [exactDecimalSum_eq h, sum_map_filter, sum_map_filter, sum_appendFact]
  have hle : (if c.val.side = side then c.val.reservedCash else 0) ≤ c.val.reservedCash := by
    split
    · exact le_rfl
    · exact c.bounds.2.2.1
  have hvalues : ∀ v ∈ ((sortOn (·.val.commitmentId) (s.commitments ++ [c])).filter
      (·.val.side = side)).map (·.val.reservedCash), 0 ≤ v ∧ Fits 40 v := by
    intro v hv
    obtain ⟨p, -, rfl⟩ := List.mem_map.1 hv
    exact ⟨p.bounds.2.2.1, (isPersisted_iff.1 p.persisted.1).mono (by decide)⟩
  have htotal := exactDecimalSum_of_fits hvalues (by linarith)
  rw [hsum] at htotal
  exact htotal

theorem reservedCash_nonneg (h : reservedCash s side = .ok reserved) : 0 ≤ reserved := by
  rw [exactDecimalSum_eq h]
  refine List.sum_nonneg fun v hv => ?_
  obtain ⟨p, -, rfl⟩ := List.mem_map.1 hv
  exact p.bounds.2.2.1

theorem reservedCash_fits (h : reservedCash s side = .ok reserved) (hbound : reserved < pow10 d) :
    Fits d reserved := by
  have hnonneg := reservedCash_nonneg h
  rw [exactDecimalSum_eq h] at hbound hnonneg ⊢
  refine Fits.sum (d := 18) (fun v hv => ?_) (by rwa [abs_of_nonneg hnonneg])
  obtain ⟨p, -, rfl⟩ := List.mem_map.1 hv
  exact p.persisted.1

/-- The snapshot after a commitment has reserved its cash. -/
structure AccountSnapshot.Reserves (c : Commitment) (before after : AccountSnapshot) : Prop where
  available : after.availableCash = before.availableCash - c.val.reservedCash
  settled : after.settledCash = before.settledCash
  positions : after.positions = before.positions
  halted : after.halted = false

/-- The reserves are taken off exactly, with one more commitment as without it. -/
theorem available_install (hunowed : Fits 21 unowed) (hbuy : reservedCash s .buy = .ok buyReserve)
    (hsell : reservedCash s .sell = .ok sellReserve)
    (hcash : c.val.reservedCash ≤ unowed - buyReserve - sellReserve) :
    ∃ buyReserve' sellReserve',
      reservedCash (installed H policy command s submission c) .buy = .ok buyReserve' ∧
      reservedCash (installed H policy command s submission c) .sell = .ok sellReserve' ∧
      exactDecimalSubtract unowed buyReserve' = .ok (unowed - buyReserve') ∧
      exactDecimalSubtract (unowed - buyReserve') sellReserve' =
        .ok (unowed - buyReserve - sellReserve - c.val.reservedCash) := by
  have hhold := c.bounds.2.2.1
  have hbuy₀ := reservedCash_nonneg hbuy
  have hsell₀ := reservedCash_nonneg hsell
  have hlimit : unowed < pow10 21 := (abs_lt.1 hunowed.2).2
  have hwide : pow10 21 < pow10 40 := by norm_num [pow10]
  have hbuy' : reservedCash (installed H policy command s submission c) .buy = _ :=
    reservedCash_install hbuy (by linarith)
  have hsell' : reservedCash (installed H policy command s submission c) .sell = _ :=
    reservedCash_install hsell (by linarith)
  refine ⟨_, _, hbuy', hsell', ?_⟩
  have hsplit : (if c.val.side = .buy then c.val.reservedCash else 0) +
      (if c.val.side = .sell then c.val.reservedCash else 0) = c.val.reservedCash := by
    cases c.val.side <;> simp
  have hbuyFits := reservedCash_fits (d := 21) hbuy' (by
    have := reservedCash_nonneg hsell'
    linarith)
  have hsellFits := reservedCash_fits (d := 21) hsell' (by
    have := reservedCash_nonneg hbuy'
    linarith)
  refine ⟨exactDecimalSubtract_of_fits (hunowed.mono (by decide)) (hbuyFits.mono (by decide)), ?_⟩
  rw [exactDecimalSubtract_of_fits ((hunowed.sub hbuyFits).mono (by decide))
    (hsellFits.mono (by decide))]
  congr 1
  linarith

/-- The snapshot after an installation reserves the commitment. -/
theorem accountSnapshot_install (hunsent : c.val.state = .approvedUnsent)
    (hledgers : ledgers H s now orderStates = .ok (facts, settlement))
    (h : accountSnapshot H s context orderStates facts settlement entries = .ok snapshot)
    (hopen : snapshot.halted = false) (hcash : c.val.reservedCash ≤ snapshot.availableCash) :
    ∃ snapshot', accountSnapshot H (installed H policy command s submission c) context orderStates'
        facts settlement entries = .ok snapshot' ∧ snapshot.Reserves c snapshot' := by
  simp only [accountSnapshot, eq_ok] at h
  obtain ⟨positions, hpositions, unsettled, hunsettled, settled, hsettled, buyReserve, hbuy,
    sellReserve, hsell, unowed, hunowed, unbought, hunbought, available, havailable,
    v, hv, nav, hnav,
    lastKnown, hlastKnown, gross, hgross, fees, hfees, unrealizedPnl, hunrealized, flow, hflow,
    rfl⟩ := h
  simp only [decide_eq_false_iff_not, not_or, not_exists, not_and, not_lt] at hopen
  obtain ⟨hhalted, havailable₀, hsettled₀, hknown⟩ := hopen
  obtain ⟨hfactsCash, htradeDate, hsettledCash, hpayables⟩ := ledgers_persisted hledgers
  -- what is not owed is a sum of four amounts of the ledgers, and the reserves stay below it
  have hunowedFits : Fits 21 unowed := by
    rw [exactDecimalSubtract_eq hunowed, exactDecimalAdd_eq hsettled,
      exactDecimalSubtract_eq hunsettled]
    exact (((isPersisted_iff.1 hsettledCash).mono (by decide)).add
      ((isPersisted_iff.1 hfactsCash).sub (isPersisted_iff.1 htradeDate))).sub
        ((isPersisted_iff.1 hpayables).mono (by decide))
  have hsum : available = unowed - buyReserve - sellReserve := by
    rw [exactDecimalSubtract_eq havailable, exactDecimalSubtract_eq hunbought]
  subst hsum
  obtain ⟨buyReserve', sellReserve', hbuy', hsell', hunbought', havailable'⟩ :=
    available_install (H := H) hunowedFits hbuy hsell hcash
  simp only [accountSnapshot, eq_ok]
  refine ⟨_, ⟨positions, hpositions, unsettled, hunsettled, settled, hsettled, buyReserve', hbuy',
    sellReserve', hsell', unowed, hunowed, _, hunbought', _, havailable', v, hv, nav, hnav,
    lastKnown, hlastKnown, gross, hgross, fees, hfees, unrealizedPnl, hunrealized,
    flow, hflow, rfl⟩, rfl, rfl, rfl, ?_⟩
  simp only [decide_eq_false_iff_not, not_or, not_exists, not_and, not_lt]
  refine ⟨hhalted, sub_nonneg.2 hcash, hsettled₀, fun p hp => ?_⟩
  rcases List.mem_append.1 (mem_sortOn.1 hp) with hold | hown
  · exact hknown p hold
  · rw [List.mem_singleton.1 hown, hunsent]
    decide

/-- **An installation only reserves**: the account with a new order can be projected, and its
snapshot differs by the reserve. -/
theorem project_install (hnew : NewOrder s context submission c)
    (h : project H s context policy = .ok t) (hopen : t.snapshot.halted = false)
    (hcash : c.val.reservedCash ≤ t.snapshot.availableCash) :
    ∃ t', project H (installed H policy command s submission c) context policy = .ok t' ∧
      t.snapshot.Reserves c t'.snapshot := by
  obtain ⟨-, -, -, -, -, horderIds, -⟩ := project_spec h
  simp only [project, eq_ok] at h
  obtain ⟨_, hvalid, _, -, orderStates, horders, ⟨facts, settlement⟩, hledgers, entries, hentries,
    snapshot, hsnapshot, executions, hexecutions, fifoMatches, hmatches, rfl⟩ := h
  have hne : ∀ p ∈ s.commitments, p.val.orderId ≠ c.val.orderId := by
    simp only [checkedOrders, Py.eq_ok] at horders
    obtain ⟨states, hstates, _, hcovers, -⟩ := horders
    exact Covers.orderId_ne hcovers hstates hnew
  obtain ⟨orderStates', horders', hadds⟩ := checkedOrders_install hnew horders
  obtain ⟨snapshot', hsnapshot', hreserves⟩ := accountSnapshot_install hnew.unsent
    hledgers hsnapshot hopen hcash
  have hbound : ¬ ∃ bound ∈ some (H.policy policy), bound ≠ H.policy policy := by simp
  simp only [project, Py.eq_ok]
  exact ⟨_, ⟨(), validateContext_install hnew hne hvalid, (), hbound, orderStates', horders',
    (facts, settlement), ledgers_install hadds hledgers, entries, hentries, snapshot', hsnapshot',
    executions, mapM_of_mapM (fun _ _ _ => executionRow_install hadds) hexecutions, fifoMatches,
    mapM_of_mapM (fun _ _ _ => fifoMatchRow_install horderIds hne) hmatches, rfl⟩, hreserves⟩

end install

/-! ## What a snapshot shows -/

/-- A selected mark is one of the marks of the account. -/
theorem mem_of_selectMarks (h : (selectMarks marks).selected.get? k = some mark) :
    mark ∈ marks := by
  refine List.foldlRecOn (motive := fun acc : SelectedMarks =>
    ∀ m, acc.selected.get? k = some m → m ∈ marks) _ selectCausalMark (by simp) ?_ mark h
  intro acc hacc m hm m' hget
  simp only [selectCausalMark, Dict.get?_set] at hget
  split at hget
  · rw [← Option.some.inj hget]
    exact mem_sortOn.1 hm
  · exact hacc m' hget

/-- The marks of a snapshot are in the scope that the account was checked against. -/
theorem project_marks (h : project H s context policy = .ok t) (hmark : mark ∈ t.snapshot.marks) :
    lookup context.instruments mark.val.instrumentId = some mark.val.symbol := by
  simp only [project, accountSnapshot, eq_ok] at h
  obtain ⟨_, hvalid, _, -, _, -, _, -, _, -, snapshot, ⟨_, -, _, -, _, -, _, -, _, -, _, -, _, -, _,
    -, _, -, _, -, _, -, _, -, _, -, _, -, _, -, rfl⟩, _, -, _, -, rfl⟩ := h
  simp only [validateContext, Py.eq_ok, not_exists, not_and] at hvalid
  obtain ⟨_, -, _, -, _, -, _, -, _, -, _, hscope, -⟩ := hvalid
  obtain ⟨⟨k, m⟩, hentry, rfl⟩ := List.mem_map.1 hmark
  have hmem : m ∈ s.marks := mem_of_selectMarks (Dict.get?_eq_some.2 (mem_sortOn.1 hentry))
  refine hscope (m.val.instrumentId, m.val.symbol) ?_
  simp only [AccountingState.scoped, List.mem_append, List.mem_map]
  exact .inl (.inl (.inr ⟨m, hmem, rfl⟩))

/-- The positions of a snapshot are amounts that fit, of different instruments. -/
theorem project_positions (h : project H s context policy = .ok t) :
    (t.snapshot.positions.map (·.instrumentId)).Nodup ∧
      ∀ p ∈ t.snapshot.positions, isPersisted p.quantity := by
  obtain ⟨-, -, -, -, -, -, orderStates, facts, settlement, entries, -, -, hledgers, hsnapshot⟩ :=
    project_spec h
  obtain ⟨hfacts, -⟩ := ledgers_spec hledgers
  simp only [projectUnvaluedFifoAccount, reduceUnvaluedFifo, eq_ok, forM_eq_ok] at hfacts
  obtain ⟨evidence, -, _, -, book, -, positions, hpositions, _, -, _, -, _, hreconciled, _, -, _, -,
    _, -, rfl⟩ := hfacts
  simp only [accountSnapshot, eq_ok] at hsnapshot
  obtain ⟨shown, hshown, _, -, _, -, _, -, _, -, _, -, _, -, _, -, _, -, _, -, _, -,
    _, -, _, -, _, -, _, -, hsnapshot⟩ := hsnapshot
  have hstate {p : UnvaluedFifoPosition} {q : PositionState} (hq : positionState s p = .ok q) :
      q.instrumentId = p.instrumentId ∧ p.quantity = .ok q.quantity := by
    simp only [positionState, eq_ok] at hq
    obtain ⟨quantity, hquantity, _, -, _, -, rfl⟩ := hq
    exact ⟨rfl, hquantity⟩
  rw [← hsnapshot]
  refine ⟨?_, fun q hq => ?_⟩
  · change (shown.map (·.instrumentId)).Nodup
    rw [map_of_mapM (fun _ _ hq => (hstate hq).1) hshown]
    exact (positions_instruments hpositions).nodup_iff.2 book.symbols.nodup
  · obtain ⟨p, hp, hpq⟩ := exists_of_mem_mapM hshown hq
    have hchecked := hreconciled p hp
    simp only [reconcilePosition, eq_ok, canonicalPersistedDecimal_eq_ok] at hchecked
    obtain ⟨quantity, hquantity, _, ⟨hpersisted, -⟩, -⟩ := hchecked
    rw [(hstate hpq).2] at hquantity
    exact Except.ok.inj hquantity ▸ hpersisted

/-- A snapshot is of its account at the point of the context, and an account that is not halted has
no negative capacity. -/
theorem project_shows (h : project H s context policy = .ok t) :
    t.snapshot.accountId = s.accountId ∧ t.snapshot.point = context.point ∧
      t.snapshot.commitments = s.commitments ∧
      (t.snapshot.halted = false → 0 ≤ t.snapshot.availableCash ∧ 0 ≤ t.snapshot.settledCash) := by
  obtain ⟨-, -, -, -, -, -, orderStates, facts, settlement, entries, -, -, -, hsnapshot⟩ :=
    project_spec h
  simp only [accountSnapshot, eq_ok] at hsnapshot
  obtain ⟨_, -, _, -, _, -, _, -, _, -, _, -, _, -, _, -, _, -, _, -, _, -, _, -, _, -, _, -, _, -,
    hsnapshot⟩ := hsnapshot
  rw [← hsnapshot]
  refine ⟨rfl, rfl, rfl, fun hopen => ?_⟩
  simp only [decide_eq_false_iff_not, not_or, not_lt] at hopen
  exact ⟨hopen.2.1, hopen.2.2.1⟩

/-! ## The command -/

/-- The command that installs an order with its commitment. -/
def installCommand (submission : OrderSubmission) (c : Commitment) : AccountingCommand :=
  ⟨c.val.commitmentId, .installCommitment submission c⟩

section command

/-- An installation that is applied was new in every respect. -/
theorem applyInstall_changes
    (h : applyInstall H context policy snapshot s submission c = .ok (updated, due, reasons))
    (hchanged : updated ≠ s) : updated = s.install submission c ∧
      (∀ x ∈ s.submissions, x.val.orderId ≠ submission.val.orderId) ∧
      ∀ p ∈ s.commitments, p.val.intentId ≠ c.val.intentId ∧
        p.val.commitmentId ≠ c.val.commitmentId := by
  unfold applyInstall at h
  split at h
  · split at h
    · simp only [eq_ok, Prod.mk.injEq] at h
      obtain ⟨_, -, _, -, rfl, -⟩ := h
      exact absurd rfl hchanged
    · cases h
  · next hfind =>
    have hnew : ∀ x ∈ s.submissions, x.val.orderId ≠ submission.val.orderId := fun x hx => by
      simpa using List.find?_eq_none.1 hfind x hx
    simp only [installNew, Py.eq_ok, not_exists, not_and, not_or, Prod.mk.injEq] at h
    obtain ⟨_, -, _, -, _, -, _, -, _, -, _, -, _, -, _, -, _, -, _, -, _, -, _, hfresh,
      submissions, hsubmissions, commitments, hcommitments, rfl, -⟩ := h
    refine ⟨?_, hnew, hfresh⟩
    rcases appendFact_cases hsubmissions with ⟨hmem, -⟩ | ⟨-, rfl⟩
    · exact absurd rfl (hnew _ hmem)
    · rcases appendFact_cases hcommitments with ⟨hmem, -⟩ | ⟨-, rfl⟩
      · exact absurd rfl (hfresh _ hmem).2
      · rfl

/-- An applied installation was of new identities. -/
theorem advance_install_applied
    (h : advance H Z s (installCommand submission c) context policy = .ok result)
    (happlied : result.disposition = .applied) :
    c.val.commitmentId ∉ s.commands.map (·.1) ∧
      (∀ x ∈ s.submissions, x.val.orderId ≠ submission.val.orderId) ∧
      (∀ p ∈ s.commitments, p.val.intentId ≠ c.val.intentId ∧
        p.val.commitmentId ≠ c.val.commitmentId) ∧
      ∃ halted, result.state =
        { installed H policy (installCommand submission c) s submission c with halted } := by
  obtain ⟨before, -, hanswer⟩ := advance_cases h
  cases hanswer with
  | conflict => cases happlied
  | known => cases happlied
  | rejected => cases happlied
  | unchanged => cases happlied
  | applied hunknown happly hchanged hafter =>
    obtain ⟨rfl, hnew, hfresh⟩ := applyInstall_changes happly hchanged
    refine ⟨lookup_eq_none.1 hunknown, hnew, hfresh, ?_⟩
    obtain ⟨first, hfirst, hcases⟩ := projectUpdated_cases hafter
    rcases hcases with ⟨-, -, rfl, -⟩ | ⟨-, hhalted, -⟩
    · exact ⟨_, (project_spec hfirst).1⟩
    · exact ⟨true, (project_spec hhalted).1⟩

theorem install_ne (s : AccountingState) (submission : OrderSubmission) (c : Commitment) :
    s.install submission c ≠ s := by
  intro heq
  have hlength := congrArg (·.submissions.length) heq
  simp only [AccountingState.install, (sortOn_perm _ _).length_eq, List.length_append,
    List.length_singleton] at hlength
  omega

/-- The account after a new installation is projected as it is, with the capacity it has left. -/
theorem projectUpdated_install
    (h : project H (installed H policy (installCommand submission c) s submission c)
      context policy = .ok t') (hopen : t'.snapshot.halted = false) :
    projectUpdated H context policy
      (installed H policy (installCommand submission c) s submission c) [] = .ok (t', []) := by
  obtain ⟨havailable, hsettled⟩ := (project_shows h).2.2.2 hopen
  simp only [projectUpdated, eq_ok]
  refine ⟨t', h, ?_⟩
  rw [if_neg (by rw [not_or, not_lt, not_lt]; exact ⟨havailable, hsettled⟩)]
  rfl

/-- A new installation that passes its checks is applied. -/
theorem advance_of_install (hproject : project H s context policy = .ok t)
    (hnew : NewOrder s context submission c) (hid : isBoundedText c.val.commitmentId)
    (hcommand : c.val.commitmentId ∉ s.commands.map (·.1))
    (happly : applyInstall H context policy t.snapshot s submission c =
      .ok (s.install submission c, [], [])) (hopen : t.snapshot.halted = false)
    (hcash : c.val.reservedCash ≤ t.snapshot.availableCash) :
    ∃ result t', advance H Z s (installCommand submission c) context policy = .ok result ∧
      result.disposition = .applied ∧
      result.state = installed H policy (installCommand submission c) s submission c ∧
      project H result.state context policy = .ok t' ∧ t.snapshot.Reserves c t'.snapshot := by
  obtain ⟨t', hafter, hreserves⟩ : ∃ t', project H
      (installed H policy (installCommand submission c) s submission c) context policy = .ok t' ∧
        t.snapshot.Reserves c t'.snapshot := project_install hnew hproject hopen hcash
  obtain ⟨hstate, hdisposition, -⟩ := project_spec hafter
  obtain ⟨result, happlied, hkind, hresult⟩ : ∃ result, applyCommand H Z context policy t s
      (installCommand submission c) = .ok result ∧ result.disposition = t'.disposition ∧
        result.state = t'.state := by
    have hpayload : apply H Z context policy t.snapshot s (installCommand submission c).payload =
        .ok (s.install submission c, [], []) := happly
    simp only [applyCommand, eq_ok]
    refine ⟨{ t' with
      journalEntries := t'.journalEntries.filter fun e =>
        e.val.entryId ∉ t.journalEntries.map (·.val.entryId)
      dueEvents := []
      reasons := [] }, ⟨_, hpayload, ?_⟩, rfl, rfl⟩
    rw [if_neg (install_ne s submission c), bind_eq_ok]
    exact ⟨_, projectUpdated_install hafter hreserves.halted, rfl⟩
  have hunknown : lookup s.commands (installCommand submission c).commandId = none :=
    lookup_eq_none.2 hcommand
  refine ⟨result, t', ?_, hkind.trans hdisposition, hresult.trans hstate, ?_, hreserves⟩
  · simp only [advance, eq_ok, requireBoundedText_eq_ok]
    refine ⟨t, hproject, (), hid, ?_⟩
    rw [answerCommand, hunknown]
    exact catchValueError_eq_ok.2 (.inl happlied)
  · rw [hresult, hstate]
    exact hafter

end command

end AutoQuantTrader
