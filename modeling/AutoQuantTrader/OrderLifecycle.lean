import AutoQuantTrader.Order
import Mathlib.Algebra.Order.BigOperators.Group.List

/-!
# The history of an order

The reduction of an order depends only on which broker events there are: neither the order of their
delivery nor repeated delivery matters (`reduceOrderLifecycle_congr`).  Along the events in broker
sequence the filled quantity stays within the order, every execution is known by its latest
revision, and `LateEvent` lists what can still happen to an order that has reached a terminal
status: a cancellation does not undo a fill that was under way.
-/

namespace AutoQuantTrader

open Result Sorting

variable {H : OrderHashes} {submission : OrderSubmission}
  {cancelRequest : Option OrderCancelRequest} {s s' : LifecycleState} {event : BrokerOrderEvent}

/-! ## Delivery -/

/-- The index holds the events seen so far, under their identity and under their slot. -/
structure EventIndex.Holds (index : EventIndex) (done : List BrokerOrderEvent) : Prop where
  byId : index.byId.Indexes (fun e : BrokerOrderEvent => e.val.eventId) done
  bySequence : index.bySequence.Indexes (fun e : BrokerOrderEvent => e.val.brokerSequence) done

variable {done : List BrokerOrderEvent}

/-- An event enters the index exactly when neither its identity nor its slot is taken by another. -/
theorem indexBrokerEvent_eq_ok {index : EventIndex} (hindex : index.Holds done) :
    indexBrokerEvent index event = .ok index' ↔
      (∀ e ∈ done, e.val.eventId = event.val.eventId → e = event) ∧
      (∀ e ∈ done, e.val.brokerSequence = event.val.brokerSequence → e = event) ∧
      index' = if event ∈ done then index else
        { byId := index.byId.set event.val.eventId event
          bySequence := index.bySequence.set event.val.brokerSequence event } := by
  unfold indexBrokerEvent
  split
  · next existing hget =>
    obtain ⟨hmem, hid⟩ := (hindex.byId _ _).1 hget
    simp only [Py.eq_ok, exists_const]
    constructor
    · rintro ⟨rfl, rfl⟩
      refine ⟨fun e he heq => ?_, fun e he heq => ?_, by rw [if_pos hmem]⟩
      · exact Option.some.inj (((hindex.byId _ _).2 ⟨he, heq⟩).symm.trans hget)
      · have hslot := (hindex.bySequence _ _).2 ⟨hmem, rfl⟩
        exact Option.some.inj (((hindex.bySequence _ _).2 ⟨he, heq⟩).symm.trans hslot)
    · rintro ⟨hids, -, rfl⟩
      obtain rfl := hids existing hmem hid
      exact ⟨rfl, by rw [if_pos hmem]⟩
  · next hget =>
    have hnew : event ∉ done := fun hmem => by
      simpa [hget] using (hindex.byId _ _).2 ⟨hmem, rfl⟩
    simp only [Py.eq_ok, exists_const, Bool.not_eq_true, Option.isSome_eq_false_iff,
      Option.isNone_iff_eq_none, if_neg hnew]
    constructor
    · rintro ⟨hslot, rfl⟩
      refine ⟨fun e he heq => ?_, fun e he heq => ?_, rfl⟩
      · simpa [hget] using (hindex.byId _ _).2 ⟨he, heq⟩
      · simpa [hslot] using (hindex.bySequence _ _).2 ⟨he, heq⟩
    · rintro ⟨-, hslots, rfl⟩
      refine ⟨?_, rfl⟩
      cases hslot : index.bySequence.get? event.val.brokerSequence with
      | none => rfl
      | some e =>
        obtain ⟨he, heq⟩ := (hindex.bySequence _ _).1 hslot
        exact absurd (hslots e he heq ▸ he) hnew

/-- The index of events grows by the event it is given. -/
theorem EventIndex.Holds.step {index : EventIndex} (hindex : index.Holds done)
    (h : indexBrokerEvent index event = .ok index') : index'.Holds (done ++ [event]) := by
  obtain ⟨hids, hslots, rfl⟩ := (indexBrokerEvent_eq_ok hindex).1 h
  split
  · next hmem => exact ⟨hindex.byId.append_of_mem hmem, hindex.bySequence.append_of_mem hmem⟩
  · exact ⟨hindex.byId.insert hids, hindex.bySequence.insert hslots⟩

variable {events : List BrokerOrderEvent}

/-- **The events can be indexed exactly when no two share an identity or a slot.** -/
theorem exists_index_iff : (∃ index, events.foldlM indexBrokerEvent ⟨.empty, .empty⟩ = .ok index) ↔
      Set.InjOn (fun e : BrokerOrderEvent => e.val.eventId) {e | e ∈ events} ∧
      Set.InjOn (fun e : BrokerOrderEvent => e.val.brokerSequence) {e | e ∈ events} := by
  constructor
  · rintro ⟨index, h⟩
    have hindex : index.Holds events :=
      foldlM_invariant_done (fun done index => EventIndex.Holds index done)
        (fun _ _ _ _ _ hdone hstep => hdone.step hstep)
        ⟨Dict.indexes_empty, Dict.indexes_empty⟩ h
    refine ⟨fun a ha b hb hab => ?_, fun a ha b hb hab => ?_⟩
    · have hb' := (hindex.byId _ _).2 ⟨hb, rfl⟩
      exact Option.some.inj (((hindex.byId _ _).2 ⟨ha, hab⟩).symm.trans hb')
    · have hb' := (hindex.bySequence _ _).2 ⟨hb, rfl⟩
      exact Option.some.inj (((hindex.bySequence _ _).2 ⟨ha, hab⟩).symm.trans hb')
  · rintro ⟨hids, hslots⟩
    refine (foldlM_total (fun done index => EventIndex.Holds index done) ?_
      ⟨Dict.indexes_empty, Dict.indexes_empty⟩).imp fun _ hindex => hindex.1
    intro done event rest index hevents hindex
    have hevent : event ∈ events := by simp [← hevents]
    have hdone (e) (he : e ∈ done) : e ∈ events := by simp [← hevents, he]
    have hok := (indexBrokerEvent_eq_ok hindex).2
      ⟨fun e he heq => hids (hdone e he) hevent heq,
        fun e he heq => hslots (hdone e he) hevent heq, rfl⟩
    exact ⟨_, hok, hindex.step hok⟩

/-- The events in broker sequence, and when there are any. -/
theorem uniqueBrokerEvents_eq_ok :
    uniqueBrokerEvents events = .ok ordered ↔
      Set.InjOn (fun e : BrokerOrderEvent => e.val.eventId) {e | e ∈ events} ∧
      Set.InjOn (fun e : BrokerOrderEvent => e.val.brokerSequence) {e | e ∈ events} ∧
      ordered = sortOn (fun e => e.val.brokerSequence) events.dedup ∧
      ordered.map (·.val.brokerSequence) = List.range' 1 ordered.length ∧
      checkEventTimes ordered = .ok () := by
  have hsorted {index : EventIndex}
    (h : events.foldlM indexBrokerEvent ⟨.empty, .empty⟩ = .ok index) :
      sortOn (fun e => e.val.brokerSequence) index.byId.values =
        sortOn (fun e => e.val.brokerSequence) events.dedup := by
    have hunique : Dict.unique (fun e : BrokerOrderEvent => e.val.eventId) () events =
        .ok index.byId := foldlM_simulation EventIndex.byId (fun _ _ _ _ =>
          byId_of_indexBrokerEvent) h
    refine sortOn_eq_of_perm (Dict.values_perm_dedup hunique) fun a ha b hb hab => ?_
    rw [Dict.mem_values_of_unique hunique] at ha hb
    exact (exists_index_iff.1 ⟨index, h⟩).2 ha hb hab
  rw [← and_assoc, ← exists_index_iff]
  simp only [uniqueBrokerEvents, Py.eq_ok]
  constructor
  · rintro ⟨index, hindex, -, hslots, _, htimes, rfl⟩
    exact ⟨⟨index, hindex⟩, hsorted hindex, hslots, htimes⟩
  · rintro ⟨⟨index, hindex⟩, rfl, hslots, htimes⟩
    rw [← hsorted hindex] at hslots htimes ⊢
    exact ⟨index, hindex, (), hslots, (), htimes, rfl⟩

/-- Redelivered events give the same order of events. -/
theorem uniqueBrokerEvents_congr (h : ∀ e, e ∈ events ↔ e ∈ events') :
    uniqueBrokerEvents events = .ok ordered ↔ uniqueBrokerEvents events' = .ok ordered := by
  have hset : {e | e ∈ events} = {e | e ∈ events'} := Set.ext h
  have hperm : events.dedup.Perm events'.dedup :=
    (List.perm_ext_iff_of_nodup events.nodup_dedup events'.nodup_dedup).2 fun e => by
      rw [List.mem_dedup, List.mem_dedup, h]
  rw [uniqueBrokerEvents_eq_ok, uniqueBrokerEvents_eq_ok, hset]
  refine and_congr_right fun _ => and_congr_right fun hslots => ?_
  rw [sortOn_eq_of_perm hperm]
  intro a ha b hb hab
  rw [List.mem_dedup, h] at ha hb
  exact hslots ha hb hab

/-- **Only the set of events matters**: an order reduces to the same state, or is refused, in
whatever order its events come and however often they are repeated. -/
theorem reduceOrderLifecycle_congr (h : ∀ e, e ∈ events ↔ e ∈ events')
    (state : CanonicalOrderState) :
    reduceOrderLifecycle H submission events cancelRequest = .ok state ↔
      reduceOrderLifecycle H submission events' cancelRequest = .ok state := by
  simp only [reduceOrderLifecycle, eq_ok, uniqueBrokerEvents_congr h]

/-! ## Along the sequence -/

/-- The quantity filled by the current executions. -/
def LifecycleState.filledQuantity (s : LifecycleState) : ℚ := s.headQuantities.sum

/-- The status of an order at a point of its history. -/
def LifecycleState.status (s : LifecycleState) (quantity : ℚ) : CanonicalOrderStatus :=
  lifecycleStatus s quantity s.filledQuantity

theorem sum_filterMap_report (events : List BrokerOrderEvent) (g : ExecutionReport → ℚ) :
    (events.filterMap fun e => e.val.kind.report?.map g).sum = (events.map (onReport g)).sum := by
  induction events with
  | nil => rfl
  | cons e events ih =>
    rw [List.map_cons, List.sum_cons, ← ih, List.filterMap_cons, onReport]
    cases e.val.kind.report? <;> simp

theorem filledQuantity_eq (s : LifecycleState) :
    s.filledQuantity = s.executionHeads.sumBy fun _ e => onReport (·.quantity) e := by
  rw [LifecycleState.filledQuantity, LifecycleState.headQuantities, sum_filterMap_report,
    Dict.values, List.map_map]
  rfl

theorem filledQuantity_nonneg (s : LifecycleState) : 0 ≤ s.filledQuantity := by
  refine List.sum_nonneg fun q hq => ?_
  obtain ⟨e, -, hreport⟩ := List.mem_filterMap.1 hq
  obtain ⟨report, hr, rfl⟩ := Option.map_eq_some_iff.1 hreport
  exact (report_bounds hr).1

/-- A first revision fills something. -/
theorem execution_quantity_pos (h : event.val.kind = .execution report) : 0 < report.quantity := by
  have hpasses := event.passes
  simp only [BrokerOrderEventFields.postInit, BrokerOrderEventFields.checkKind, h,
    ExecutionReport.check, wholeQuantity, Py.eq_ok, not_or, not_lt] at hpasses
  obtain ⟨_, -, _, -, _, -, _, -, _, -, _, -, _, ⟨_, -, _, -, _, ⟨_, ⟨hnonneg, hne⟩, -⟩, -⟩, -⟩ :=
    hpasses
  refine lt_of_le_of_ne hnonneg fun hzero => ?_
  simp [hzero.symm] at hne

/-- What the lifecycle knows of the events it has seen. -/
structure LifecycleState.Reflects (s : LifecycleState) (done : List BrokerOrderEvent) : Prop where
  /-- A head is an event that was seen, under the execution it reports. -/
  head : ∀ id e, s.executionHeads.get? id = some e →
    e ∈ done ∧ ∃ report, e.val.kind.report? = some report ∧ report.executionId = id
  /-- Every execution that was reported has a head, and no later revision was seen. -/
  latest : ∀ e ∈ done, ∀ report, e.val.kind.report? = some report →
    ∃ head current, s.executionHeads.get? report.executionId = some head ∧
      head.val.kind.report? = some current ∧
      report.executionRevision ≤ current.executionRevision
  /-- A rejected order has no execution. -/
  rejected : s.rejected = true → s.executionHeads.entries = []

theorem get?_of_entries_nil {κ ν : Type} [DecidableEq κ] {d : Dict κ ν} (h : d.entries = [])
    (k : κ) : d.get? k = none := by
  rw [Dict.get?, h, Dict.find]

/-- An event without a report leaves the executions as they are. -/
theorem LifecycleState.Reflects.quiet (h : s.Reflects done)
    (hreport : event.val.kind.report? = none) (hheads : s'.executionHeads = s.executionHeads)
    (hrejected : s'.rejected = true → s.executionHeads.entries = []) :
    s'.Reflects (done ++ [event]) := by
  refine ⟨fun id e he => ?_, fun e he report hr => ?_, fun hr => hheads ▸ hrejected hr⟩
  · rw [hheads] at he
    exact ⟨List.mem_append_left _ (h.head id e he).1, (h.head id e he).2⟩
  · rw [hheads]
    rcases List.mem_append.1 he with he | he
    · exact h.latest e he report hr
    · rw [List.mem_singleton.1 he, hreport] at hr
      contradiction

/-- A report becomes the head of its execution, unless a later revision was seen. -/
theorem LifecycleState.Reflects.report {report : ExecutionReport} (h : s.Reflects done)
    (hreport : event.val.kind.report? = some report)
    (hlatest : ∀ head current, s.executionHeads.get? report.executionId = some head →
      head.val.kind.report? = some current → current.executionRevision ≤ report.executionRevision)
    (hheads : s'.executionHeads = s.executionHeads.set report.executionId event)
    (hrejected : s'.rejected = false) : s'.Reflects (done ++ [event]) := by
  refine ⟨fun id e he => ?_, fun e he r hr => ?_, fun hr => by simp [hrejected] at hr⟩
  · rw [hheads, Dict.get?_set] at he
    split at he
    · next hid =>
      obtain rfl := Option.some.inj he
      exact ⟨by simp, report, hreport, hid.symm⟩
    · exact ⟨List.mem_append_left _ (h.head id e he).1, (h.head id e he).2⟩
  · rw [hheads, Dict.get?_set]
    rcases List.mem_append.1 he with he | he
    · obtain ⟨head, current, hhead, hcurrent, hle⟩ := h.latest e he r hr
      by_cases hid : r.executionId = report.executionId
      · rw [if_pos hid]
        rw [hid] at hhead
        exact ⟨event, report, rfl, hreport, hle.trans (hlatest head current hhead hcurrent)⟩
      · rw [if_neg hid]
        exact ⟨head, current, hhead, hcurrent, hle⟩
    · rw [List.mem_singleton.1 he, hreport, Option.some.injEq] at hr
      subst hr
      exact ⟨event, report, by rw [if_pos rfl], hreport, le_rfl⟩

/-- **One event keeps the lifecycle in step with what was seen.** -/
theorem lifecycleStep_reflects (hs : s.Reflects done)
    (h : lifecycleStep submission cancelRequest s event = .ok s') :
    s'.Reflects (done ++ [event]) := by
  obtain ⟨-, hevent, -⟩ := lifecycleStep_event h
  cases hevent with
  | acceptance hkind => exact hs.quiet (by rw [hkind]; rfl) rfl hs.rejected
  | rejection hkind _ _ _ hheads => exact hs.quiet (by rw [hkind]; rfl) rfl fun _ => hheads
  | cancellation hkind => exact hs.quiet (by rw [hkind]; rfl) rfl hs.rejected
  | execution hkind hrejected hnew =>
    refine hs.report (by rw [hkind]; rfl) (fun head current hhead => ?_) rfl hrejected
    simp [hnew] at hhead
  | @correction report previous before hkind hprevious hbefore hrevision =>
    have hlive : s.rejected = false := by
      by_contra hrejected
      rw [Bool.not_eq_false] at hrejected
      rw [get?_of_entries_nil (hs.rejected hrejected)] at hprevious
      contradiction
    refine hs.report (by rw [hkind]; rfl) (fun head current hhead hcurrent => ?_) rfl hlive
    rw [hprevious, Option.some.injEq] at hhead
    rw [← hhead, hbefore, Option.some.injEq] at hcurrent
    rw [← hcurrent, hrevision]
    exact Nat.le_succ _

/-- **Along every run of the lifecycle** the heads are the latest revisions seen. -/
theorem reflects_of_foldlM
    (h : events.foldlM (lifecycleStep submission cancelRequest) .initial = .ok s) :
    s.Reflects events := by
  refine foldlM_invariant_done (fun done s => LifecycleState.Reflects s done)
    (fun _ _ _ _ _ hdone hstep => lifecycleStep_reflects hdone hstep) ?_ h
  exact ⟨by simp [LifecycleState.initial], by simp, fun _ => rfl⟩

/-- **The filled quantity never exceeds the order.** -/
theorem filledQuantity_le_of_foldlM
    (h : events.foldlM (lifecycleStep submission cancelRequest) .initial = .ok s) :
    s.filledQuantity ≤ submission.val.intent.val.quantity := by
  refine foldlM_invariant (fun s => LifecycleState.filledQuantity s ≤ _) ?_ ?_ h
  · intro s e s' _ _ hstep
    exact (lifecycleStep_event hstep).2.2
  · exact submission.val.intent.quantity_bounds.1.le

/-! ## After a terminal status -/

/-- What can still happen to an order whose status is terminal. -/
inductive LateEvent (s : LifecycleState) (status : CanonicalOrderStatus)
    (event : BrokerOrderEvent) : Prop where
  /-- A recorded execution is corrected. -/
  | correction {report : ExecutionReport} {previous : BrokerOrderEvent}
      (hkind : event.val.kind = .executionCorrection report previous.val.eventId)
      (hprevious : s.executionHeads.get? report.executionId = some previous)
  /-- A canceled order still receives a fill. -/
  | fill {report : ExecutionReport} (hkind : event.val.kind = .execution report)
      (hstatus : status = .canceled)
  /-- The acceptance of a filled order arrives after its fills. -/
  | acceptance (hkind : event.val.kind = .accepted) (hstatus : status = .filled)
  /-- A filled order answers the cancel request. -/
  | cancellation (hkind : event.val.kind = .canceled) (hstatus : status = .filled)

/-- A terminal status, and the flags it comes from. -/
theorem isTerminal_status (h : (s.status quantity).isTerminal = true) :
    s.rejected = true ∨ (s.rejected = false ∧
      ((s.filledQuantity = quantity ∧ s.status quantity = .filled) ∨
        (s.canceled = true ∧ s.status quantity = .canceled))) := by
  unfold LifecycleState.status lifecycleStatus at h ⊢
  split_ifs at h ⊢ <;> simp_all [CanonicalOrderStatus.isTerminal]

/-- A new execution adds its quantity. -/
theorem filledQuantity_set (brokerOrderId : Option Str) (hkind : event.val.kind = .execution report)
    (hnew : s.executionHeads.get? report.executionId = none) :
    LifecycleState.filledQuantity { s with
      brokerOrderId
      executionHeads := s.executionHeads.set report.executionId event } =
      s.filledQuantity + report.quantity := by
  rw [filledQuantity_eq, filledQuantity_eq, Dict.sumBy_set, hnew, Option.elim_none, sub_zero,
    onReport, hkind]
  rfl

/-- **What a step can do to an order with a terminal status.** -/
theorem lifecycleStep_late (hs : s.Reflects done)
    (hterminal : (s.status submission.val.intent.val.quantity).isTerminal = true)
    (h : lifecycleStep submission cancelRequest s event = .ok s') :
    LateEvent s (s.status submission.val.intent.val.quantity) event := by
  obtain ⟨-, hevent, hbound⟩ := lifecycleStep_event h
  have hpositive := submission.val.intent.quantity_bounds.1
  rcases isTerminal_status hterminal with
    hrejected | ⟨hlive, ⟨hfilled, hstatus⟩ | ⟨hcanceled, hstatus⟩⟩
  · -- a rejected order has no execution, so not even a correction passes
    cases hevent with
    | acceptance _ _ hr => simp [hrejected] at hr
    | rejection _ _ hr => simp [hrejected] at hr
    | cancellation _ hr => simp [hrejected] at hr
    | execution _ hr => simp [hrejected] at hr
    | correction _ hprevious => simp [get?_of_entries_nil (hs.rejected hrejected)] at hprevious
  · cases hevent with
    | acceptance hkind => exact .acceptance hkind hstatus
    | rejection _ _ _ _ hheads =>
      rw [filledQuantity_eq, Dict.sumBy, hheads, List.map_nil, List.sum_nil] at hfilled
      exact absurd hfilled hpositive.ne
    | cancellation hkind => exact .cancellation hkind hstatus
    | execution hkind _ hnew =>
      have hsum := filledQuantity_set (some event.val.brokerOrderId) hkind hnew
      have hmore := execution_quantity_pos hkind
      rw [LifecycleState.filledQuantity] at hsum
      rw [hsum, hfilled] at hbound
      exact absurd hbound (lt_add_of_pos_right _ hmore).not_ge
    | correction hkind hprevious => exact .correction hkind hprevious
  · cases hevent with
    | acceptance _ _ _ hc => simp [hcanceled] at hc
    | rejection _ _ _ hc => simp [hcanceled] at hc
    | cancellation _ _ hc => simp [hcanceled] at hc
    | execution hkind => exact .fill hkind hstatus
    | correction hkind hprevious => exact .correction hkind hprevious

/-! ## The history of a reduced order -/

/-- **The history of an order** as its reduced state tells it. -/
structure CanonicalOrderState.History (state : CanonicalOrderState) : Prop where
  /-- The events are in broker sequence, from one without a gap. -/
  sequence : state.brokerEvents.map (·.val.brokerSequence) =
    List.range' 1 state.brokerEvents.length
  /-- Every execution stands once. -/
  once : (state.executions.map (·.executionId)).Nodup
  /-- An execution is the report of an event, and no event reports a later revision of it. -/
  latest : ∀ x ∈ state.executions, (∃ e ∈ state.brokerEvents,
      executionProjection x.executionId e = some x ∧
        e.val.kind.report?.map (·.executionId) = some x.executionId) ∧
    ∀ e ∈ state.brokerEvents, ∀ report, e.val.kind.report? = some report →
      report.executionId = x.executionId → report.executionRevision ≤ x.revision
  /-- Every reported execution stands. -/
  complete : ∀ e ∈ state.brokerEvents, ∀ report, e.val.kind.report? = some report →
    report.executionId ∈ state.executions.map (·.executionId)
  filled : state.filledQuantity = (state.executions.map (·.quantity)).sum
  fees : state.totalFees = (state.executions.map (·.fee)).sum
  /-- After every event the filled quantity is within the order. -/
  within : ∀ done, done <+: state.brokerEvents →
    ∃ s, done.foldlM (lifecycleStep state.submission state.cancelRequest) .initial = .ok s ∧
      0 ≤ s.filledQuantity ∧ s.filledQuantity ≤ state.submission.val.intent.val.quantity
  /-- After a terminal status only late events are accepted. -/
  late : ∀ done event s, done ++ [event] <+: state.brokerEvents →
    done.foldlM (lifecycleStep state.submission state.cancelRequest) .initial = .ok s →
    (s.status state.submission.val.intent.val.quantity).isTerminal = true →
    LateEvent s (s.status state.submission.val.intent.val.quantity) event

/-- The projections are those of the heads. -/
theorem mem_executionProjections :
    x ∈ executionProjections heads ↔
      ∃ event, heads.get? x.executionId = some event ∧
        executionProjection x.executionId event = some x := by
  simp only [executionProjections, List.mem_filterMap, mem_sortOn, Prod.exists,
    ← Dict.get?_eq_some]
  constructor
  · rintro ⟨id, event, hget, hx⟩
    obtain ⟨report, -, rfl⟩ := Option.map_eq_some_iff.1 hx
    exact ⟨event, hget, hx⟩
  · rintro ⟨event, hget, hx⟩
    exact ⟨x.executionId, event, hget, hx⟩

/-- The executions keep the identities of their heads, each once. -/
theorem nodup_executionIds (heads : Dict Str BrokerOrderEvent) :
    ((executionProjections heads).map (·.executionId)).Nodup := by
  have hids (item : Str × BrokerOrderEvent) (x : ExecutionProjection)
      (hx : executionProjection item.1 item.2 = some x) : x.executionId = item.1 := by
    obtain ⟨report, -, rfl⟩ := Option.map_eq_some_iff.1 hx
    rfl
  have hkeys : ((sortOn Prod.fst heads.entries).map Prod.fst).Nodup :=
    ((sortOn_perm Prod.fst heads.entries).map Prod.fst).nodup_iff.2 heads.nodup
  refine List.Nodup.sublist ?_ hkeys
  rw [executionProjections]
  induction sortOn Prod.fst heads.entries with
  | nil => exact List.Sublist.slnil
  | cons item items ih =>
    rw [List.filterMap_cons]
    cases hitem : executionProjection item.1 item.2 with
    | none => exact ih.cons item.1
    | some x =>
      rw [List.map_cons, List.map_cons, hids item x hitem]
      exact ih.cons_cons item.1

/-- **What the reduction of an order guarantees about its history.** -/
theorem history_of_reduceOrderLifecycle
    (h : reduceOrderLifecycle H submission events cancelRequest = .ok state) : state.History := by
  have hsequence : state.brokerEvents.map (·.val.brokerSequence) =
      List.range' 1 state.brokerEvents.length := by
    simp only [reduceOrderLifecycle, reduceOrdered, eq_ok] at h
    obtain ⟨-, -, ordered, hordered, -, -, -, -, -, -, -, -, rfl⟩ := h
    exact (uniqueBrokerEvents_eq_ok.1 hordered).2.2.2.1
  obtain ⟨rfl, rfl, -, -, final, hfinal, hexecutions, hfilled, hfees⟩ :=
    reduceOrderLifecycle_spec h
  have hreflects := reflects_of_foldlM hfinal
  refine ⟨hsequence, hexecutions ▸ nodup_executionIds _, fun x hx => ?_, fun e he report hr => ?_,
    hfilled, hfees, fun done hdone => ?_, fun done event s hlate hrun hterminal => ?_⟩
  · rw [hexecutions] at hx
    obtain ⟨event, hget, hprojection⟩ := mem_executionProjections.1 hx
    obtain ⟨hmem, current, hcurrent, hid⟩ := hreflects.head _ _ hget
    refine ⟨⟨event, hmem, hprojection, by rw [hcurrent, Option.map_some, hid]⟩, ?_⟩
    intro e he report hreport heq
    obtain ⟨head, latest, hhead, hlatest, hle⟩ := hreflects.latest e he report hreport
    rw [heq, hget, Option.some.injEq] at hhead
    rw [← hhead] at hlatest
    rw [executionProjection, hlatest, Option.map_some, Option.some.injEq] at hprojection
    exact hprojection ▸ hle
  · obtain ⟨head, current, hhead, hcurrent, -⟩ := hreflects.latest e he report hr
    obtain ⟨x, hx, hid⟩ : ∃ x, executionProjection report.executionId head = some x ∧
        x.executionId = report.executionId := by
      rw [executionProjection, hcurrent]
      exact ⟨_, rfl, rfl⟩
    rw [hexecutions, ← hid]
    exact List.mem_map_of_mem (mem_executionProjections.2 ⟨head, hid ▸ hhead, hid ▸ hx⟩)
  · obtain ⟨s, hs⟩ := exists_foldlM_of_prefix hdone hfinal
    exact ⟨s, hs, filledQuantity_nonneg s, filledQuantity_le_of_foldlM hs⟩
  · obtain ⟨s', hs'⟩ := exists_foldlM_of_prefix hlate hfinal
    rw [List.foldlM_append, bind_eq_ok] at hs'
    obtain ⟨mid, hmid, hstep⟩ := hs'
    obtain rfl : s = mid := Except.ok.inj (hrun.symm.trans hmid)
    obtain ⟨_, hevent, -⟩ := foldlM_cons_eq_ok.1 hstep
    exact lifecycleStep_late (reflects_of_foldlM hrun) hterminal hevent

/-- **The reduction of an order**: neither the order of delivery nor redelivery matters, and what is
accepted has a history within the order, with every execution at its latest revision and nothing
but late events after a terminal status. -/
theorem reduceOrderLifecycle_invariant (H : OrderHashes) (submission : OrderSubmission)
    (cancelRequest : Option OrderCancelRequest) (events : List BrokerOrderEvent) :
    (∀ events', (∀ e, e ∈ events' ↔ e ∈ events) → ∀ state,
      reduceOrderLifecycle H submission events' cancelRequest = .ok state ↔
        reduceOrderLifecycle H submission events cancelRequest = .ok state) ∧
    ∀ state, reduceOrderLifecycle H submission events cancelRequest = .ok state →
      state.submission = submission ∧ (∀ e, e ∈ state.brokerEvents ↔ e ∈ events) ∧
        state.History := by
  refine ⟨fun events' h state => reduceOrderLifecycle_congr h state, fun state h => ?_⟩
  obtain ⟨hsubmission, -, hmem, -⟩ := reduceOrderLifecycle_spec h
  exact ⟨hsubmission, hmem, history_of_reduceOrderLifecycle h⟩

/-! ## Events that cross -/

namespace Crossing

def purchase : Py OrderSubmission := do
  let intent ← plainIntent "intent" .buy 4
  createOrderSubmission .plain intent "risk" "attempt" 0

def report (submission : OrderSubmission) (sequence : Nat) (kind : BrokerOrderEventKind) :
    Py BrokerOrderEvent :=
  plainEvent (plainId "event" [.integer sequence]) submission.val.orderId "broker" sequence
    (10 * sequence) kind

structure Order where
  submission : OrderSubmission
  request : OrderCancelRequest
  events : BrokerOrderEvent × BrokerOrderEvent × BrokerOrderEvent
  state : CanonicalOrderState
  before : LifecycleState

/-- Three events of an order that its owner wants canceled after the first. -/
def order (first second third : BrokerOrderEventKind) : Py Order := do
  let submission ← purchase
  let a ← report submission 1 first
  let b ← report submission 2 second
  let c ← report submission 3 third
  let prior ← reduceOrderLifecycle .plain submission [a] none
  let request ← construct
    ⟨"cancel", submission.val.orderId, OrderHashes.plain.orderState prior, 15, "owner"⟩
  let state ← reduceOrderLifecycle .plain submission [c, a, b] (some request)
  let before ← [a, b].foldlM (lifecycleStep submission (some request)) .initial
  return { submission, request, events := (a, b, c), state, before }

def fill (executionId : Str) (quantity : ℚ) : BrokerOrderEventKind :=
  .execution ⟨executionId, 1, quantity, 20, 0⟩

end Crossing

/-- An order of some status accepts an event of some kind. -/
def AcceptsAfter (status : CanonicalOrderStatus) (kind : BrokerOrderEventKind) : Prop :=
  ∃ (submission : OrderSubmission) (request : OrderCancelRequest)
    (events done : List BrokerOrderEvent) (event : BrokerOrderEvent) (s : LifecycleState)
    (state : CanonicalOrderState),
    reduceOrderLifecycle .plain submission events (some request) = .ok state ∧
    state.brokerEvents = done ++ [event] ∧
    done.foldlM (lifecycleStep submission (some request)) .initial = .ok s ∧
    s.status submission.val.intent.val.quantity = status ∧ event.val.kind = kind

theorem acceptsAfter_of_order (first second : BrokerOrderEventKind) (h : (fun x : Crossing.Order =>
      (decide (x.state.brokerEvents = [x.events.1, x.events.2.1] ++ [x.events.2.2]),
        x.before.status x.submission.val.intent.val.quantity, x.events.2.2.val.kind)) <$>
      Crossing.order first second third = .ok (true, status, third)) :
    AcceptsAfter status third := by
  simp only [Crossing.order, eq_ok, Prod.mk.injEq, decide_eq_true_eq] at h
  obtain ⟨_, ⟨submission, -, a, -, b, -, c, -, prior, -, request, -, state, hstate, before, hbefore,
    rfl⟩, hevents, hstatus, hkind⟩ := h
  exact ⟨submission, request, _, _, c, before, state, hstate, hevents, hbefore, hstatus, hkind⟩

/-- None of the late events is refused, and three of them correct nothing: a canceled order accepts
a fill, and a filled order its acceptance and its cancellation. -/
theorem late_events_accepted :
    AcceptsAfter .canceled (Crossing.fill "x1" 2) ∧ AcceptsAfter .filled .accepted ∧
      AcceptsAfter .filled .canceled := by
  refine ⟨acceptsAfter_of_order .accepted .canceled ?_,
    acceptsAfter_of_order (Crossing.fill "x1" 2) (Crossing.fill "x2" 2) ?_,
    acceptsAfter_of_order .accepted (Crossing.fill "x1" 4) ?_⟩
  all_goals decide +kernel

/-- A fill that crosses its cancellation, in another order of delivery and with a repetition. -/
theorem crossed_fill_invariant :
    ∃ (submission : OrderSubmission) (request : OrderCancelRequest) (a b c : BrokerOrderEvent)
      (state : CanonicalOrderState),
      reduceOrderLifecycle .plain submission [a, b, c] (some request) = .ok state ∧
      reduceOrderLifecycle .plain submission [c, b, a, b] (some request) = .ok state ∧
      state.History := by
  have h : (fun _ : Crossing.Order => ()) <$>
      Crossing.order .accepted .canceled (Crossing.fill "x1" 2) = .ok () := by
    decide +kernel
  simp only [Crossing.order, eq_ok] at h
  obtain ⟨_, ⟨submission, -, a, -, b, -, c, -, prior, -, request, -, state, hstate, -⟩, -⟩ := h
  obtain ⟨hcongr, hhistory⟩ := reduceOrderLifecycle_invariant .plain submission (some request)
    [c, a, b]
  have hsame : ∀ e, e ∈ [b, a, c, a] ↔ e ∈ [c, a, b] := by
    intro e
    simp only [List.mem_cons, List.not_mem_nil, or_false]
    tauto
  exact ⟨submission, request, c, a, b, state, hstate, (hcongr _ hsame state).2 hstate,
    (hhistory state hstate).2.2⟩

end AutoQuantTrader
