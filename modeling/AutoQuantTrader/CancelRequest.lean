import AutoQuantTrader.OrderLifecycle

/-!
# Cancel requests

A cancel request carries the digest of the order as it was observed.  The reducer finds that order
again among all the events it is given, by the time of their receipt, and compares the digests: what
was received before the request must have been observed, and what came later does not matter.
-/

namespace AutoQuantTrader

open Result Sorting

variable {H : OrderHashes} {submission : OrderSubmission} {state : CanonicalOrderState}
  {requestedAt : Instant} {reason : Str} {request : OrderCancelRequest}

/-- Bind a cancel command to the exact order projection that was observed. -/
def createCancelRequest (H : OrderHashes) (state : CanonicalOrderState) (requestedAt : Instant)
    (reason : Str) : Py OrderCancelRequest := do
  let canonicalState ← reduceOrderLifecycle H state.submission state.brokerEvents
    state.cancelRequest
  raiseIf (canonicalState ≠ state) "cancel requires a canonical reducer-produced order state"
  raiseIf state.cancelRequest.isSome "order already has a cancel request"
  raiseIf state.status.isTerminal "terminal order cannot be canceled"
  raiseIf (requestedAt ≤ state.asOf) "cancel request must follow the observed order state"
  construct {
    cancelRequestId := H.canonicalId "cancel-request"
      [.text state.submission.val.orderId, .text (H.orderState state), .instant requestedAt,
        .text reason]
    orderId := state.submission.val.orderId
    priorOrderStateSha256 := H.orderState state
    requestedAt
    reason }

/-! ## The time of an order -/

variable {events : List BrokerOrderEvent}

/-- An order without a cancel request is reduced from its events alone. -/
theorem reduceOrderLifecycle_none : reduceOrderLifecycle H submission events none = .ok state ↔
      uniqueBrokerEvents events = .ok state.brokerEvents ∧
        reduceOrdered submission none state.brokerEvents = .ok state := by
  simp only [reduceOrderLifecycle, checkCancelRequest, checkCancelBinding, eq_ok]
  constructor
  · rintro ⟨_, -, ordered, hordered, _, -, hreduce⟩
    have hevents : ordered = state.brokerEvents := by
      simp only [reduceOrdered, eq_ok] at hreduce
      obtain ⟨_, -, _, -, _, -, rfl⟩ := hreduce
      rfl
    rw [← hevents]
    exact ⟨hordered, hreduce⟩
  · rintro ⟨hordered, hreduce⟩
    exact ⟨(), trivial, _, hordered, (), trivial, hreduce⟩

/-- Everything that was observed was received by the time of the order, which is not before its
submission. -/
theorem asOf_bounds (h : reduceOrdered submission none state.brokerEvents = .ok state) :
    submission.val.submittedAt ≤ state.asOf ∧
      ∀ e ∈ state.brokerEvents, e.val.receivedAt ≤ state.asOf := by
  simp only [reduceOrdered, eq_ok] at h
  obtain ⟨_, -, _, -, _, -, hstate⟩ := h
  have hasOf := congrArg CanonicalOrderState.asOf hstate
  rw [← hasOf]
  exact ⟨le_foldl_max_iff.2 (.inl le_rfl), fun e he => le_foldl_max_iff.2
    (.inr ⟨_, List.mem_append_left _ (List.mem_map_of_mem he), le_rfl⟩)⟩

/-! ## With the request -/

/-- What an order did without a cancel request it does with one. -/
theorem lifecycleStep_some (h : lifecycleStep submission none s event = .ok s')
    (request : OrderCancelRequest) : lifecycleStep submission (some request) s event = .ok s' := by
  have hkind {t t' : LifecycleState} (hkind : applyEventKind none t event = .ok t') :
      applyEventKind (some request) t event = .ok t' := by
    unfold applyEventKind at hkind ⊢
    cases hk : event.val.kind with
    | canceled =>
      -- without a request a cancellation is refused
      simp only [hk, requireCancelRequest, eq_ok, throw_eq_ok] at hkind
      obtain ⟨_, -, _, hthrow, -⟩ := hkind
      exact hthrow.elim
    | _ => simpa only [hk] using hkind
  simp only [lifecycleStep, eq_ok] at h ⊢
  obtain ⟨_, horder, _, hsubmitted, _, hbroker, next, hnext, hrest⟩ := h
  exact ⟨(), horder, (), hsubmitted, (), hbroker, next, hkind hnext, hrest⟩

/-- A live order is still the same with a request that follows it. -/
theorem reduceOrdered_some (h : reduceOrdered submission none state.brokerEvents = .ok state)
    (hlater : state.asOf < request.val.requestedAt) :
    reduceOrdered submission (some request) state.brokerEvents =
      .ok { state with cancelRequest := some request, asOf := request.val.requestedAt } := by
  obtain ⟨hsubmitted, hreceived⟩ := asOf_bounds h
  have hasOf : (state.brokerEvents.map (·.val.receivedAt) ++ [request.val.requestedAt]).foldl max
      submission.val.submittedAt = request.val.requestedAt := by
    rw [List.foldl_append, List.foldl_cons, List.foldl_nil, max_eq_right]
    refine le_trans ?_ hlater.le
    simp only [reduceOrdered, eq_ok] at h
    obtain ⟨_, -, _, -, _, -, hstate⟩ := h
    have hstateAsOf := congrArg CanonicalOrderState.asOf hstate
    rw [← hstateAsOf]
    simp
  simp only [reduceOrdered, eq_ok] at h ⊢
  obtain ⟨final, hfinal, filled, hfilled, fees, hfees, hstate⟩ := h
  have hrun : state.brokerEvents.foldlM (lifecycleStep submission (some request)) .initial =
      .ok final :=
    foldlM_simulation id (fun _ _ _ _ hstep => lifecycleStep_some hstep request) hfinal
  refine ⟨final, hrun, filled, hfilled, fees, hfees, ?_⟩
  rw [← hstate]
  simp only [Option.map_some, Option.toList_some, hasOf]

/-! ## The binding -/

/-- The request is bound to a live order as it was observed. -/
structure OrderCancelRequest.Binds (H : OrderHashes) (request : OrderCancelRequest)
    (state : CanonicalOrderState) : Prop where
  orderId : request.val.orderId = state.submission.val.orderId
  digest : request.val.priorOrderStateSha256 = H.orderState state
  later : state.asOf < request.val.requestedAt
  live : state.status.isTerminal = false

/-- The events make a history of the order that goes with the request, apart from what the request
is bound to. -/
def AcceptableWith (submission : OrderSubmission) (request : OrderCancelRequest)
    (events : List BrokerOrderEvent) (result : CanonicalOrderState) : Prop :=
  ∃ ordered, uniqueBrokerEvents events = .ok ordered ∧
    reduceOrdered submission (some request) ordered = .ok result

/-- The digest tells the order that the events received before an instant make from an observed one,
as a digest without collisions does. -/
def Distinguishes (H : OrderHashes) (submission : OrderSubmission) (events : List BrokerOrderEvent)
    (before : Instant) (state : CanonicalOrderState) : Prop :=
  ∀ prior, reduceOrderLifecycle H submission (events.filter (·.val.receivedAt < before)) none =
    .ok prior → H.orderState prior = H.orderState state → prior = state

section binding

variable (h : reduceOrderLifecycle H submission observed none = .ok state)

include h

/-- A live order that was reduced without a request gets a request that is bound to it. -/
theorem exists_createCancelRequest (hlive : state.status.isTerminal = false)
    (hlater : state.asOf < requestedAt)
    (hid : isText (H.canonicalId "cancel-request" [.text state.submission.val.orderId,
      .text (H.orderState state), .instant requestedAt, .text reason])) (hreason : isText reason) :
    ∃ request, createCancelRequest H state requestedAt reason = .ok request ∧
      request.Binds H state ∧ request.val.requestedAt = requestedAt := by
  obtain ⟨hsubmission, hnone, hmem, -⟩ := reduceOrderLifecycle_spec h
  have hcanonical : reduceOrderLifecycle H state.submission state.brokerEvents state.cancelRequest =
      .ok state := by
    rw [hsubmission, hnone]
    exact (reduceOrderLifecycle_congr hmem state).2 h
  have hpasses : OrderCancelRequestFields.postInit {
      cancelRequestId := H.canonicalId "cancel-request" [.text state.submission.val.orderId,
        .text (H.orderState state), .instant requestedAt, .text reason]
      orderId := state.submission.val.orderId
      priorOrderStateSha256 := H.orderState state
      requestedAt
      reason } = .ok () := by
    have horder := state.submission.passes
    simp only [OrderSubmissionFields.postInit, eq_ok, requireText_eq_ok] at horder
    obtain ⟨_, horder, -⟩ := horder
    simp only [OrderCancelRequestFields.postInit, eq_ok, requireText_eq_ok]
    exact ⟨(), hid, (), horder, hreason⟩
  refine ⟨⟨_, hpasses⟩, ?_, ⟨rfl, rfl, hlater, hlive⟩, rfl⟩
  simp only [createCancelRequest, eq_ok, raiseIf_eq_ok, construct_eq_ok]
  exact ⟨state, hcanonical, (), not_not.2 rfl, (), by simp [hnone], (), by simp [hlive], (),
    not_le.2 hlater, trivial⟩

/-- The events received before a request are the observed ones, if the others came later: the order
that the request is bound to is found again. -/
theorem checkCancelBinding_of_later (hbinds : request.Binds H state)
    (hfurther : ∀ e ∈ further, request.val.requestedAt ≤ e.val.receivedAt)
    (hmem : ∀ e, e ∈ ordered ↔ e ∈ observed ++ further) :
    checkCancelBinding H submission ordered (some request) = .ok () := by
  obtain ⟨hunique, hreduce⟩ := reduceOrderLifecycle_none.1 h
  obtain ⟨hobserved, -⟩ := uniqueBrokerEvents_spec hunique
  have hprior : ∀ e, e ∈ ordered.filter (·.val.receivedAt < request.val.requestedAt) ↔
      e ∈ observed := by
    intro e
    rw [List.mem_filter, hmem, List.mem_append, decide_eq_true_eq]
    constructor
    · rintro ⟨hold | hnew, hbefore⟩
      · exact hold
      · exact absurd hbefore (not_lt.2 (hfurther e hnew))
    · intro hold
      have hreceived := (asOf_bounds hreduce).2 e ((hobserved e).2 hold)
      exact ⟨.inl hold, hreceived.trans_lt hbinds.later⟩
  simp only [checkCancelBinding, Py.eq_ok, not_le]
  exact ⟨_, (uniqueBrokerEvents_congr hprior).2 hunique, state, hreduce, (), hbinds.digest.symm, (),
    hbinds.later, by simp [hbinds.live]⟩

/-- With the observed events and later ones, the request is no obstacle. -/
theorem reduceOrderLifecycle_later (hbinds : request.Binds H state)
    (hfurther : ∀ e ∈ further, request.val.requestedAt ≤ e.val.receivedAt) :
    reduceOrderLifecycle H submission (observed ++ further) (some request) = .ok result ↔
      AcceptableWith submission request (observed ++ further) result := by
  obtain ⟨hsubmission, -⟩ := reduceOrderLifecycle_spec h
  have hsubmitted := (asOf_bounds (reduceOrderLifecycle_none.1 h).2).1
  have hrequest : checkCancelRequest submission (some request) = .ok () := by
    simp only [checkCancelRequest, Py.eq_ok, not_lt]
    exact ⟨(), hsubmission ▸ hbinds.orderId, hsubmitted.trans hbinds.later.le⟩
  simp only [reduceOrderLifecycle, eq_ok, AcceptableWith]
  constructor
  · rintro ⟨_, -, ordered, hordered, _, -, hreduce⟩
    exact ⟨ordered, hordered, hreduce⟩
  · rintro ⟨ordered, hordered, hreduce⟩
    exact ⟨(), hrequest, ordered, hordered, (), checkCancelBinding_of_later h hbinds hfurther
      (uniqueBrokerEvents_spec hordered).1, hreduce⟩

/-- A request that was accepted was bound to exactly the events received before it. -/
theorem observed_of_accepted (hbinds : request.Binds H state)
    (hdigest : Distinguishes H submission events request.val.requestedAt state)
    (haccepted : reduceOrderLifecycle H submission events (some request) = .ok result) :
    ∀ e ∈ events, e.val.receivedAt < request.val.requestedAt → e ∈ observed := by
  simp only [reduceOrderLifecycle, checkCancelBinding, Py.eq_ok] at haccepted
  obtain ⟨_, -, ordered, hordered, _, ⟨prior, hprior, priorState, hreduce, _, hsame, -⟩, -⟩ :=
    haccepted
  have hevents : priorState.brokerEvents = prior := by
    simp only [reduceOrdered, eq_ok] at hreduce
    obtain ⟨_, -, _, -, _, -, rfl⟩ := hreduce
    rfl
  have hmem := (uniqueBrokerEvents_spec hordered).1
  have hfilter : ∀ e, e ∈ ordered.filter (·.val.receivedAt < request.val.requestedAt) ↔
      e ∈ events.filter (·.val.receivedAt < request.val.requestedAt) := by
    intro e
    rw [List.mem_filter, List.mem_filter, hmem]
  have hagain := (uniqueBrokerEvents_congr hfilter).1 hprior
  subst hevents
  obtain rfl : priorState = state := hdigest priorState
    (reduceOrderLifecycle_none.2 ⟨hagain, hreduce⟩) (hsame.trans hbinds.digest)
  intro e he hbefore
  have hobserved := (uniqueBrokerEvents_spec (reduceOrderLifecycle_none.1 h).1).1
  rw [← hobserved, (uniqueBrokerEvents_spec hagain).1, List.mem_filter, decide_eq_true_eq]
  exact ⟨he, hbefore⟩

end binding

/-- **A cancel request binds exactly what was observed.**  It can be made of every live order that
was reduced without one; it is accepted with the observed events, which it changes nothing else
about, and with whatever acceptable events were received later; and it is refused with any event
that was received before it and not observed. -/
theorem createCancelRequest_binds {observed : List BrokerOrderEvent}
    (h : reduceOrderLifecycle H submission observed none = .ok state)
    (hlive : state.status.isTerminal = false) (hlater : state.asOf < requestedAt)
    (hid : isText (H.canonicalId "cancel-request" [.text state.submission.val.orderId,
      .text (H.orderState state), .instant requestedAt, .text reason])) (hreason : isText reason) :
    ∃ request, createCancelRequest H state requestedAt reason = .ok request ∧
      reduceOrderLifecycle H submission observed (some request) =
        .ok { state with cancelRequest := some request, asOf := requestedAt } ∧
      (∀ further : List BrokerOrderEvent, (∀ e ∈ further, requestedAt ≤ e.val.receivedAt) →
        ∀ result, reduceOrderLifecycle H submission (observed ++ further)
        (some request) = .ok result ↔
          AcceptableWith submission request (observed ++ further) result) ∧
      ∀ events : List BrokerOrderEvent, Distinguishes H submission events requestedAt state →
        (∃ e ∈ events, e.val.receivedAt < requestedAt ∧ e ∉ observed) →
        ∀ result, reduceOrderLifecycle H submission events (some request) ≠ .ok result := by
  obtain ⟨request, hcreated, hbinds, hat⟩ := exists_createCancelRequest h hlive hlater hid hreason
  obtain ⟨hunique, hreduce⟩ := reduceOrderLifecycle_none.1 h
  subst hat
  refine ⟨request, hcreated, ?_, fun further hfurther result =>
    reduceOrderLifecycle_later h hbinds hfurther, fun events hdigest hmissing result haccepted =>
      ?_⟩
  · have haccepts : AcceptableWith submission request (observed ++ []) { state with
        cancelRequest := some request, asOf := request.val.requestedAt } := by
      rw [List.append_nil]
      exact ⟨_, hunique, reduceOrdered_some hreduce hlater⟩
    have haccepted := (reduceOrderLifecycle_later h hbinds (by simp)).2 haccepts
    rwa [List.append_nil] at haccepted
  · obtain ⟨e, he, hbefore, hnew⟩ := hmissing
    exact hnew (observed_of_accepted h hbinds hdigest haccepted e he hbefore)

/-- An order whose owner wants it canceled, with what is needed to see how the request fares. -/
structure Crossing.Cancel where
  submission : OrderSubmission
  (acceptance early late : BrokerOrderEvent)
  state : CanonicalOrderState
  ordered : List BrokerOrderEvent
  prior : CanonicalOrderState

/-- A fill is the second event of the order, received before or after the request. -/
def Crossing.cancel : Py Crossing.Cancel := do
  let submission ← purchase
  let acceptance ← report submission 1 .accepted
  let early ← report submission 2 (fill "x1" 2)
  let late ← construct { early.val with eventId := "late", receivedAt := 30 }
  let state ← reduceOrderLifecycle .plain submission [acceptance] none
  let request ← createCancelRequest .plain state 25 "owner"
  let ordered ← uniqueBrokerEvents [acceptance, late]
  let _ ← reduceOrdered submission (some request) ordered
  let prior ← reduceOrderLifecycle .plain submission [acceptance, early] none
  return { submission, acceptance, early, late, state, ordered, prior }

/-- A request after the acceptance goes with a fill received later and not with one received
before. -/
theorem cancel_request_crosses_fill : ∃ (submission : OrderSubmission)
    (acceptance early late : BrokerOrderEvent) (state : CanonicalOrderState)
    (request : OrderCancelRequest), createCancelRequest .plain state 25 "owner" = .ok request ∧
      (∃ result, reduceOrderLifecycle .plain submission [acceptance, late] (some request) =
        .ok result) ∧
      ∀ result, reduceOrderLifecycle .plain submission [acceptance, early] (some request) ≠
        .ok result := by
  have h :
      (fun x : Crossing.Cancel => decide (x.state.status.isTerminal = false ∧ x.state.asOf < 25 ∧
      isText (OrderHashes.plain.canonicalId "cancel-request"
        [.text x.state.submission.val.orderId, .text (OrderHashes.plain.orderState x.state),
          .instant 25, .text "owner"]) ∧ isText "owner" ∧ 25 ≤ x.late.val.receivedAt ∧
      x.early.val.receivedAt < 25 ∧ x.early ∉ [x.acceptance] ∧
      [x.acceptance, x.early].filter (·.val.receivedAt < 25) = [x.acceptance, x.early] ∧
      OrderHashes.plain.orderState x.prior ≠ OrderHashes.plain.orderState x.state)) <$>
        Crossing.cancel = .ok true := by
    decide +kernel
  simp only [Crossing.cancel, eq_ok, decide_eq_true_eq] at h
  obtain ⟨_, ⟨submission, -, acceptance, -, early, -, late, -, state, hstate, request, hrequest,
    ordered, hordered, result, hresult, prior, hprior, rfl⟩, hlive, hlater, hid, hreason, hlate,
    hearly, hmissing, hfilter, hdigest⟩ := h
  obtain ⟨request', hcreated, -, haccepts, hrefuses⟩ :=
    createCancelRequest_binds hstate hlive hlater hid hreason
  obtain rfl : request = request' := Except.ok.inj (hrequest.symm.trans hcreated)
  refine ⟨submission, acceptance, early, late, state, request, hcreated,
    ⟨result, (haccepts [late] (by simpa using hlate) result).2 ⟨ordered, hordered, hresult⟩⟩,
    hrefuses [acceptance, early] ?_ ⟨early, by simp, hearly, hmissing⟩⟩
  intro other hother hsame
  rw [hfilter, hprior] at hother
  exact absurd (Except.ok.inj hother ▸ hsame) hdigest

end AutoQuantTrader
