import AutoQuantTrader.ReplayTape

/-!
# What a replay does

The loop repeats the checks that were made in front of it.  On a tape that passed them none can
fail, and the loop comes down to handing over the batches of the watermarks one after another:
`deliver` is that abstract replay, and `each_replayItem` is the refinement.  The invariant `Buffers`
says that whatever is not sealed yet is buffered as far as it is available.

From the abstract replay the laws are read off: nothing happens before an error of the replay's own,
every event is delivered once and none too early (`Delivers`), and what comes after an instant
cannot be seen at it (`replay_no_lookahead`).
-/

namespace AutoQuantTrader

open Result Sorting

/-! ## The queue -/

def ReplayItem.event? : ReplayItem → Option MarketEvent
  | .event e => some e
  | .watermark _ => none

def ReplayItem.watermark? : ReplayItem → Option MarketWatermark
  | .event _ => none
  | .watermark w => some w

def eventsOf (items : List ReplayItem) : List MarketEvent := items.filterMap ReplayItem.event?

def watermarksOf (items : List ReplayItem) : List MarketWatermark :=
  items.filterMap ReplayItem.watermark?

theorem mem_eventsOf : e ∈ eventsOf items ↔ .event e ∈ items := by
  rw [eventsOf, List.mem_filterMap]
  constructor
  · rintro ⟨_ | _, hitem, heq⟩
    · obtain rfl := Option.some.inj heq
      exact hitem
    · cases heq
  · exact fun h => ⟨_, h, rfl⟩

theorem mem_watermarksOf : w ∈ watermarksOf items ↔ .watermark w ∈ items := by
  rw [watermarksOf, List.mem_filterMap]
  constructor
  · rintro ⟨_ | _, hitem, heq⟩
    · cases heq
    · obtain rfl := Option.some.inj heq
      exact hitem
  · exact fun h => ⟨_, h, rfl⟩

/-- An event that is available when a watermark closes comes before it. -/
theorem event_key_lt (h : e.val.availableAt ≤ w.val.closedAt) :
    (ReplayItem.event e).key < (ReplayItem.watermark w).key := by
  simp only [ReplayItem.key, Prod.Lex.toLex_lt_toLex]
  rcases h.lt_or_eq with hlt | heq
  · exact .inl hlt
  · exact .inr ⟨heq, .inl (by omega)⟩

theorem availableAt_le_of_key_le {a b : ReplayItem} (h : a.key ≤ b.key) :
    a.availableAt ≤ b.availableAt := by
  have hfst (c : ReplayItem) : (ofLex c.key).1 = c.availableAt := by cases c <;> rfl
  rw [← hfst, ← hfst]
  exact Prod.Lex.monotone_fst a.key b.key h

/-- Watermarks come in the order of their instants. -/
theorem order_le_of_key_le (h : (ReplayItem.watermark a).key ≤ (ReplayItem.watermark b).key) :
    a.val.order ≤ b.val.order := by
  simp only [ReplayItem.key, MarketWatermarkFields.order, Prod.Lex.toLex_le_toLex,
    lt_irrefl, true_and, false_or] at h ⊢
  rcases h with h | ⟨hclosed, h | ⟨hthrough, h⟩⟩
  · exact .inl h
  · exact .inr ⟨hclosed, .inl h⟩
  · have hid : a.val.watermarkId ≤ b.val.watermarkId := by
      rcases h with h | h
      · exact h.le
      · exact h.2
    exact .inr ⟨hclosed, .inr ⟨hthrough, hid⟩⟩

theorem eventsOf_replayQueue (es : List MarketEvent) (ws : List MarketWatermark) :
    (eventsOf (replayQueue es ws)).Perm es := by
  have hunsorted : eventsOf (es.map .event ++ ws.map .watermark) = es := by
    have hes : (es.map ReplayItem.event).filterMap ReplayItem.event? = es := by
      simp [List.filterMap_map, Function.comp_def, ReplayItem.event?]
    have hws : (ws.map ReplayItem.watermark).filterMap ReplayItem.event? = [] := by
      simp [List.filterMap_map, Function.comp_def, ReplayItem.event?]
    rw [eventsOf, List.filterMap_append, hes, hws, List.append_nil]
  have hsorted := (sortOn_perm ReplayItem.key (es.map .event ++ ws.map .watermark)).filterMap
    ReplayItem.event?
  rw [← eventsOf, ← eventsOf, hunsorted] at hsorted
  exact hsorted

theorem watermarks_pairwise (h : uniqueWatermarks watermarks = .ok ws) :
    ws.Pairwise fun a b => a.val.order ≤ b.val.order := by
  obtain ⟨d, -, -, -, -, -, rfl⟩ := uniqueWatermarks_eq_ok.1 h
  exact sortOn_pairwise _ _

theorem watermarkId_eq_of_order {a b : MarketWatermark} (hab : a.val.order ≤ b.val.order)
    (hba : b.val.order ≤ a.val.order) : a.val.watermarkId = b.val.watermarkId := by
  have horder := le_antisymm hab hba
  simp only [MarketWatermarkFields.order, EmbeddingLike.apply_eq_iff_eq, Prod.mk.injEq] at horder
  exact horder.2.2

/-- The watermarks take their turn in the order in which they were checked. -/
theorem watermarksOf_replayQueue (h : uniqueWatermarks watermarks = .ok ws)
    (es : List MarketEvent) :
    watermarksOf (replayQueue es ws) = ws := by
  have hunsorted : watermarksOf (es.map .event ++ ws.map .watermark) = ws := by
    have hes : (es.map ReplayItem.event).filterMap ReplayItem.watermark? = [] := by
      simp [List.filterMap_map, Function.comp_def, ReplayItem.watermark?]
    have hws : (ws.map ReplayItem.watermark).filterMap ReplayItem.watermark? = ws := by
      simp [List.filterMap_map, Function.comp_def, ReplayItem.watermark?]
    rw [watermarksOf, List.filterMap_append, hes, hws, List.nil_append]
  have hperm := (sortOn_perm ReplayItem.key (es.map .event ++ ws.map .watermark)).filterMap
    ReplayItem.watermark?
  rw [← watermarksOf, ← watermarksOf, hunsorted] at hperm
  have hqueue : (watermarksOf (replayQueue es ws)).Pairwise fun a b =>
      a.val.order ≤ b.val.order := by
    refine (sortOn_pairwise ReplayItem.key _).filterMap ReplayItem.watermark? ?_
    intro a b hab w hw w' hw'
    cases a <;> cases b <;>
      simp only [ReplayItem.watermark?, reduceCtorEq, Option.some.injEq] at hw hw'
    exact order_le_of_key_le (hw ▸ hw' ▸ hab)
  refine hperm.eq_of_pairwise (fun a b ha hb hab hba => ?_) hqueue (watermarks_pairwise h)
  exact List.inj_on_of_nodup_map (nodup_watermarkIds h) (hperm.mem_iff.1 ha) hb
    (watermarkId_eq_of_order hab hba)

/-! ## Facts of an accepted tape -/

variable {κ ε : Type} {H : ReplayHashes} {onCompleteBatch : Option (CompleteBatchCallback κ ε)}
  {events es : List MarketEvent} {watermarks ws : List MarketWatermark} {tape : ReplayTape}
  {w : MarketWatermark} {e : MarketEvent} {b : MarketBatch} {bs : List MarketBatch}
  {s : ReplayState κ} {o : Observed κ} {done rest : List ReplayItem}

theorem expectedWatermark_eq_ok :
    expectedWatermark index e = .ok w ↔ index.get? e.val.eventTime = some w ∧
      e.val.instrumentId ∈ w.val.expectedInstrumentIds := by
  simp only [expectedWatermark, Py.eq_ok]
  constructor
  · rintro ⟨_, hget, _, hexpected, rfl⟩
    exact ⟨hget, hexpected⟩
  · rintro ⟨hget, hexpected⟩
    exact ⟨w, hget, (), hexpected, rfl⟩

/-- The batch a watermark seals. -/
def sealOf (es : List MarketEvent) (w : MarketWatermark) : Py MarketBatch := do
  let selected ← selectEvents (slice es w) w
  construct ⟨w, selected⟩

/-- A batch is sealed from the events of its watermark's slice. -/
theorem sealOf_eq_ok : sealOf es w = .ok b ↔
    ∃ selected, selectEvents (slice es w) w = .ok selected ∧ b.val = ⟨w, selected⟩ := by
  simp only [sealOf, Py.eq_ok]

namespace IsTape

variable (h : IsTape H events watermarks es ws tape)

include h

theorem distinctIds : DistinctIds es :=
  distinctIds_of_uniqueMarketEvents h.events

/-- The frontiers increase strictly. -/
theorem frontiers : ws.Pairwise fun a b => a.val.eventTimeThrough < b.val.eventTimeThrough := by
  obtain ⟨d, -, -, -, -, hchain, -⟩ := uniqueWatermarks_eq_ok.1 h.watermarks
  exact List.pairwise_map.1 hchain.pairwise

theorem get?_index (t : Instant) :
    (watermarkIndex ws).get? t = some w ↔ w ∈ ws ∧ w.val.eventTimeThrough = t := by
  have hinj : Set.InjOn (fun w : MarketWatermark => w.val.eventTimeThrough) {w | w ∈ ws} := by
    have hnodup : (ws.map (·.val.eventTimeThrough)).Nodup :=
      List.pairwise_map.2 (h.frontiers.imp fun hlt => hlt.ne)
    exact fun a ha b hb hab => List.inj_on_of_nodup_map hnodup ha hb hab
  obtain ⟨d, hd⟩ := (Dict.exists_unique_iff (e := ())).2 hinj
  have hindex : watermarkIndex ws = d := Dict.foldl_set_of_unique hd
  rw [hindex]
  exact Dict.get?_of_unique hd t w

/-- Every event has a watermark that expects it and waits for it. -/
theorem exists_watermark (he : e ∈ es) :
    ∃ w ∈ ws, expectedWatermark (watermarkIndex ws) e = .ok w ∧
      w.val.eventTimeThrough = e.val.eventTime ∧ e.val.availableAt ≤ w.val.closedAt := by
  have harrival := h.arrival e he
  simp only [checkArrival, Py.eq_ok, not_lt] at harrival
  obtain ⟨w, hw, havailable⟩ := harrival
  have hget := (h.get?_index e.val.eventTime).1 (expectedWatermark_eq_ok.1 hw).1
  exact ⟨w, hget.1, hw, hget.2, havailable⟩

/-- The events of a slice are expected by its watermark, and there when it closes. -/
theorem mem_slice (hw : w ∈ ws) (he : e ∈ slice es w) :
    e ∈ es ∧ e.val.eventTime = w.val.eventTimeThrough ∧
      e.val.instrumentId ∈ w.val.expectedInstrumentIds ∧ e.val.availableAt ≤ w.val.closedAt := by
  have hes : e ∈ es ∧ e.val.eventTime = w.val.eventTimeThrough := by simpa [slice] using he
  obtain ⟨w', hw', hexpected, htime, havailable⟩ := h.exists_watermark hes.1
  have hget := expectedWatermark_eq_ok.1 hexpected
  have hsame : w' = w := by
    have hindex := (h.get?_index e.val.eventTime).2 ⟨hw, hes.2.symm⟩
    exact Option.some.inj (hget.1.symm.trans hindex)
  rw [hsame] at hget havailable
  exact ⟨hes.1, hes.2, hget.2, havailable⟩

/-- Every watermark of an accepted tape seals a valid batch. -/
theorem exists_sealOf (hw : w ∈ ws) : ∃ b, sealOf es w = .ok b := by
  obtain ⟨selected, hselected⟩ := h.selected w hw
  have hids : DistinctIds (slice es w) := h.distinctIds.mono (List.filter_subset_self _)
  obtain ⟨hmem, hinstruments, hsorted⟩ := selectEvents_spec hids hselected
  have hvalid : MarketBatchFields.validate ⟨w, selected⟩ = .ok () := by
    simp only [MarketBatchFields.validate, Py.eq_ok, forM_eq_ok, not_exists, not_and, not_lt]
    refine ⟨(), hsorted, (), hinstruments, (), fun e he => ?_, fun e he => ?_⟩
    · exact (h.mem_slice hw (hmem e he)).2.2.1
    · have hslice := h.mem_slice hw (hmem e he)
      exact ⟨(), hslice.2.1, hslice.2.2.2⟩
  exact ⟨⟨_, hvalid⟩, sealOf_eq_ok.2 ⟨selected, hselected, rfl⟩⟩

/-- The batches of an accepted tape. -/
theorem exists_batches : ∃ bs, ws.mapM (sealOf es) = .ok bs :=
  exists_mapM fun _ hw => h.exists_sealOf hw

end IsTape

/-! ## The abstract replay -/

section deliver

variable {κ ε : Type}

/-- Seal a batch when its watermark closes, and call back if it is complete. -/
def deliver (onCompleteBatch : Option (CompleteBatchCallback κ ε)) (batch : MarketBatch) :
    Machine (Observed κ) (ReplayFault ε) Unit := fun o =>
  let recorded := { o with sealedBatches := o.sealedBatches ++ [(batch, batch.val.asOf)] }
  match onCompleteBatch with
  | some callback =>
    if batch.val.complete then
      match callback batch batch.val.asOf o.world with
      | (r, world) => (r.mapError .callback,
          { recorded with world, calls := o.calls ++ [(batch, batch.val.asOf)] })
    else (.ok (), recorded)
  | none => (.ok (), recorded)

end deliver

/-! ## The loop -/

theorem own_of_ok {σ α : Type} {x : Py α} {a : α} (h : x = .ok a) (t : σ) :
    (own x : Machine σ (ReplayFault ε) α) t = (.ok a, t) := by
  rw [own, h]
  rfl

theorem advanceTo_of_le {instant : Instant} (h : s.clock ≤ instant) :
    (advanceTo instant : Machine (ReplayState κ) (ReplayFault ε) Unit) s =
      (.ok (), { s with clock := instant }) := by
  have hcheck : raiseIf (instant < s.clock) "simulated clock cannot move backwards" = .ok () :=
    raiseIf_eq_ok.2 (not_lt.2 h)
  have hread : (Machine.read : Machine (ReplayState κ) (ReplayFault ε) _) s = (.ok s, s) := rfl
  rw [advanceTo, Machine.bind_of_ok hread, Machine.bind_of_ok (own_of_ok hcheck s)]
  rfl

variable (onCompleteBatch) in
/-- Handing over a batch that has just been recorded. -/
theorem dispatchBatch_eq (hclock : s.clock = b.val.asOf)
    (ho : s.toObserved = { o with sealedBatches := o.sealedBatches ++ [(b, b.val.asOf)] }) :
    ∃ s', dispatchBatch H onCompleteBatch b s = ((deliver onCompleteBatch b o).1, s') ∧
      s'.toObserved = (deliver onCompleteBatch b o).2 ∧ s'.batches = s.batches ∧
      s'.clock = s.clock ∧ s'.buffered = s.buffered ∧ s'.closedEventTimes = s.closedEventTimes := by
  obtain ⟨observed, clock, buffered, closed, processed, batches, completeIds, skippedIds⟩ := s
  obtain rfl : clock = b.val.asOf := hclock
  obtain rfl : observed = _ := ho
  unfold dispatchBatch deliver
  by_cases hcomplete : b.val.complete
  · cases onCompleteBatch with
    | none =>
      rw [if_pos hcomplete]
      exact ⟨_, rfl, rfl, rfl, rfl, rfl, rfl⟩
    | some callback =>
      simp only [if_pos hcomplete]
      exact ⟨_, rfl, rfl, rfl, rfl, rfl, rfl⟩
  · cases onCompleteBatch with
    | none =>
      rw [if_neg hcomplete]
      exact ⟨_, rfl, rfl, rfl, rfl, rfl, rfl⟩
    | some callback =>
      simp only [if_neg hcomplete]
      exact ⟨_, rfl, rfl, rfl, rfl, rfl, rfl⟩

/-- What is buffered and what is closed after some items: a slice that is still open has the events
that came so far. -/
structure Buffers (done : List ReplayItem) (s : ReplayState κ) : Prop where
  closed : ∀ t, t ∈ s.closedEventTimes ↔ ∃ w ∈ watermarksOf done, w.val.eventTimeThrough = t
  buffered : ∀ t, t ∉ s.closedEventTimes →
    s.buffered.getD t [] = (eventsOf done).filter (·.val.eventTime = t)

namespace IsTape

variable (h : IsTape H events watermarks es ws tape)

include h

theorem queue_pairwise : tape.queue.Pairwise fun a b => a.key ≤ b.key := by
  rw [h.queue]
  exact sortOn_pairwise _ _

theorem event_mem_queue : .event e ∈ tape.queue ↔ e ∈ es := by
  rw [h.queue, ← mem_eventsOf, (eventsOf_replayQueue es ws).mem_iff]

theorem watermarksOf_queue : watermarksOf tape.queue = ws := by
  rw [h.queue, watermarksOf_replayQueue h.watermarks]

/-- The slice of an event is open when the event takes its turn. -/
theorem not_closed (hqueue : tape.queue = done ++ .event e :: rest) (hs : Buffers done s) :
    e.val.eventTime ∉ s.closedEventTimes := by
  intro hclosed
  obtain ⟨w, hw, htime⟩ := (hs.closed _).1 hclosed
  have he : e ∈ es := h.event_mem_queue.1 (by rw [hqueue]; simp)
  obtain ⟨w', hw', -, htime', havailable⟩ := h.exists_watermark he
  have hws : w ∈ ws := by
    have hmem : w ∈ watermarksOf tape.queue := by
      rw [hqueue, watermarksOf, List.filterMap_append]
      exact List.mem_append_left _ hw
    rwa [h.watermarksOf_queue] at hmem
  have hsame : w' = w := by
    have hget := (h.get?_index e.val.eventTime).2 ⟨hws, htime⟩
    have hget' := (h.get?_index e.val.eventTime).2 ⟨hw', htime'⟩
    exact Option.some.inj (hget'.symm.trans hget)
  -- the watermark waits for the event, so it cannot have come before it
  have hlt : (ReplayItem.event e).key < (ReplayItem.watermark w).key :=
    event_key_lt (hsame ▸ havailable)
  have hle : (ReplayItem.watermark w).key ≤ (ReplayItem.event e).key := by
    have hpairwise := h.queue_pairwise
    rw [hqueue] at hpairwise
    exact (List.pairwise_append.1 hpairwise).2.2 _ (mem_watermarksOf.1 hw) _ List.mem_cons_self
  exact absurd hle (not_le.2 hlt)

theorem mem_events : e ∈ es ↔ e ∈ events := by
  obtain ⟨d, hd, -, rfl⟩ := uniqueMarketEvents_eq_ok.1 h.events
  exact Dict.mem_values_of_unique hd

theorem events_perm : es.Perm events.dedup := by
  obtain ⟨d, hd, -, rfl⟩ := uniqueMarketEvents_eq_ok.1 h.events
  exact Dict.values_perm_dedup hd

theorem watermarks_perm : ws.Perm watermarks.dedup := by
  obtain ⟨d, -, hd, -, -, -, rfl⟩ := uniqueWatermarks_eq_ok.1 h.watermarks
  exact (sortOn_perm _ _).trans (Dict.values_perm_dedup hd)

/-- When a watermark takes its turn its slice is open, and all its events have come. -/
theorem buffered_perm (hqueue : tape.queue = done ++ .watermark w :: rest) (hs : Buffers done s) :
    w.val.eventTimeThrough ∉ s.closedEventTimes ∧
      (slice es w).Perm (s.buffered.getD w.val.eventTimeThrough []) := by
  have hws : ws = watermarksOf done ++ w :: watermarksOf rest := by
    rw [← h.watermarksOf_queue, hqueue, watermarksOf, List.filterMap_append]
    rfl
  have hopen : w.val.eventTimeThrough ∉ s.closedEventTimes := by
    intro hclosed
    obtain ⟨w', hw', htime⟩ := (hs.closed _).1 hclosed
    have hfrontiers := h.frontiers
    rw [hws] at hfrontiers
    have hlt := (List.pairwise_append.1 hfrontiers).2.2 w' hw' w List.mem_cons_self
    exact absurd htime hlt.ne
  have hrest : (eventsOf rest).filter (·.val.eventTime = w.val.eventTimeThrough) = [] := by
    rw [List.filter_eq_nil_iff]
    intro e he
    rw [decide_eq_true_eq]
    intro htime
    have hes : e ∈ es := by
      refine h.event_mem_queue.1 ?_
      rw [hqueue]
      simp [mem_eventsOf.1 he]
    have hslice : e ∈ slice es w := by simp [slice, hes, htime]
    have hw : w ∈ ws := by rw [hws]; simp
    have hlt := event_key_lt (h.mem_slice hw hslice).2.2.2
    have hle : (ReplayItem.watermark w).key ≤ (ReplayItem.event e).key := by
      have hpairwise := h.queue_pairwise
      rw [hqueue] at hpairwise
      exact (List.pairwise_cons.1 (List.pairwise_append.1 hpairwise).2.1).1 _ (mem_eventsOf.1 he)
    exact absurd hle (not_le.2 hlt)
  refine ⟨hopen, ?_⟩
  have hperm := (eventsOf_replayQueue es ws).filter (·.val.eventTime = w.val.eventTimeThrough)
  have hdone : eventsOf (replayQueue es ws) = eventsOf done ++ eventsOf rest := by
    rw [← h.queue, hqueue, eventsOf, List.filterMap_append]
    rfl
  rw [hdone, List.filter_append, hrest, List.append_nil] at hperm
  rw [hs.buffered _ hopen]
  exact hperm.symm

variable (onCompleteBatch) in
/-- An event takes its turn: it is buffered and nothing else can be seen. -/
theorem replayItem_event (hqueue : tape.queue = done ++ .event e :: rest) (hs : Buffers done s)
    (hclock : s.clock ≤ e.val.availableAt) :
    ∃ s', replayItem H onCompleteBatch tape.watermarkByEventTime (.event e) s = (.ok (), s') ∧
      s'.toObserved = s.toObserved ∧ s'.batches = s.batches ∧ s'.clock = e.val.availableAt ∧
      Buffers (done ++ [.event e]) s' := by
  have hopen := h.not_closed hqueue hs
  have he : e ∈ es := h.event_mem_queue.1 (by rw [hqueue]; simp)
  obtain ⟨w, -, hexpected, -, -⟩ := h.exists_watermark he
  rw [← h.index] at hexpected
  have hcheck : raiseIf (e.val.eventTime ∈ s.closedEventTimes) (lateEvent e) = .ok () :=
    raiseIf_eq_ok.2 hopen
  let now : ReplayState κ := { s with clock := e.val.availableAt }
  have hread : (Machine.read : Machine (ReplayState κ) (ReplayFault ε) _) now = (.ok now, now) :=
    rfl
  refine ⟨{ now with
    buffered := s.buffered.push e.val.eventTime e
    processedEventIds := s.processedEventIds ++ [e.val.eventId] }, ?_, rfl, rfl, rfl, ?_⟩
  · rw [replayItem, ReplayItem.availableAt, Machine.bind_of_ok (advanceTo_of_le hclock)]
    change bufferEvent tape.watermarkByEventTime e now = _
    rw [bufferEvent, Machine.bind_of_ok (own_of_ok hexpected now), Machine.bind_of_ok hread,
      Machine.bind_of_ok (own_of_ok hcheck now)]
    rfl
  · have hwatermarks : watermarksOf (done ++ [.event e]) = watermarksOf done := by
      simp [watermarksOf, ReplayItem.watermark?]
    have hevents : eventsOf (done ++ [.event e]) = eventsOf done ++ [e] := by
      simp [eventsOf, ReplayItem.event?]
    refine ⟨fun t => ?_, fun t ht => ?_⟩
    · rw [hwatermarks]
      exact hs.closed t
    · change (s.buffered.push e.val.eventTime e).getD t [] = _
      rw [Dict.getD_push, hevents, List.filter_append, ← hs.buffered t ht]
      by_cases htime : t = e.val.eventTime
      · simp [htime]
      · simp [htime, Ne.symm htime]

variable (onCompleteBatch) in
/-- A watermark takes its turn: its batch is delivered. -/
theorem replayItem_watermark (hqueue : tape.queue = done ++ .watermark w :: rest)
    (hs : Buffers done s) (hclock : s.clock ≤ w.val.closedAt) (hb : sealOf es w = .ok b) :
    ∃ s', replayItem H onCompleteBatch tape.watermarkByEventTime (.watermark w) s =
        ((deliver onCompleteBatch b s.toObserved).1, s') ∧
      s'.toObserved = (deliver onCompleteBatch b s.toObserved).2 ∧
      s'.batches = s.batches ++ [b] ∧ s'.clock = w.val.closedAt ∧
      Buffers (done ++ [.watermark w]) s' := by
  obtain ⟨hopen, hperm⟩ := h.buffered_perm hqueue hs
  obtain ⟨selected, hselected, hval⟩ := sealOf_eq_ok.1 hb
  have hids : DistinctIds (slice es w) := h.distinctIds.mono (List.filter_subset_self _)
  have hselect := selectEvents_of_perm hids hperm hselected
  have hconstruct : (construct ⟨w, selected⟩ : Py MarketBatch) = .ok b := construct_eq_ok.2 hval
  have hasOf : b.val.asOf = w.val.closedAt := by rw [hval]; rfl
  let now : ReplayState κ := { s with clock := w.val.closedAt }
  let closed : ReplayState κ := { now with
    buffered := now.buffered.erase w.val.eventTimeThrough
    batches := now.batches ++ [b]
    closedEventTimes := w.val.eventTimeThrough :: now.closedEventTimes
    sealedBatches := now.sealedBatches ++ [(b, now.clock)] }
  have hread : (Machine.read : Machine (ReplayState κ) (ReplayFault ε) _) now = (.ok now, now) :=
    rfl
  have hseal : replayItem H onCompleteBatch tape.watermarkByEventTime (.watermark w) s =
      dispatchBatch H onCompleteBatch b closed := by
    rw [replayItem, ReplayItem.availableAt, Machine.bind_of_ok (advanceTo_of_le hclock)]
    change sealWatermark H onCompleteBatch w now = _
    rw [sealWatermark, Machine.bind_of_ok hread, Machine.bind_of_ok (own_of_ok hselect now),
      Machine.bind_of_ok (own_of_ok hconstruct now)]
    rfl
  have hrecorded : closed.toObserved =
      { s.toObserved with sealedBatches := s.sealedBatches ++ [(b, b.val.asOf)] } := by
    rw [hasOf]
  obtain ⟨s', hrun, hobserved, hbatches, hclock', hbuffered, hclosed⟩ :=
    dispatchBatch_eq (H := H) onCompleteBatch hasOf.symm hrecorded
  refine ⟨s', hseal.trans hrun, hobserved, hbatches, hclock', ?_⟩
  have hwatermarks : watermarksOf (done ++ [.watermark w]) = watermarksOf done ++ [w] := by
    simp [watermarksOf, ReplayItem.watermark?]
  have hevents : eventsOf (done ++ [.watermark w]) = eventsOf done := by
    simp [eventsOf, ReplayItem.event?]
  refine ⟨fun t => ?_, fun t ht => ?_⟩
  · rw [hclosed, hwatermarks]
    change t ∈ w.val.eventTimeThrough :: s.closedEventTimes ↔ _
    rw [List.mem_cons, hs.closed t]
    constructor
    · rintro (rfl | ⟨w', hw', rfl⟩)
      · exact ⟨w, by simp, rfl⟩
      · exact ⟨w', by simp [hw'], rfl⟩
    · rintro ⟨w', hw', rfl⟩
      rcases List.mem_append.1 hw' with hw' | hw'
      · exact .inr ⟨w', hw', rfl⟩
      · exact .inl (by rw [List.mem_singleton.1 hw'])
  · rw [hclosed] at ht
    change t ∉ w.val.eventTimeThrough :: s.closedEventTimes at ht
    rw [List.mem_cons, not_or] at ht
    rw [hbuffered, hevents, ← hs.buffered t ht.2]
    change (s.buffered.erase w.val.eventTimeThrough).getD t [] = _
    rw [Dict.getD, Dict.get?_erase, if_neg ht.1, Dict.getD]

variable (onCompleteBatch) in
/-- **The loop delivers the batches of its watermarks** and does nothing else that can be seen. -/
theorem each_replayItem (hqueue : tape.queue = done ++ rest) (hs : Buffers done s)
    (hclock : ∀ item ∈ rest, s.clock ≤ item.availableAt)
    (hbs : (watermarksOf rest).mapM (sealOf es) = .ok bs) :
    ∃ s', Machine.each rest (replayItem H onCompleteBatch tape.watermarkByEventTime) s =
        ((Machine.each bs (deliver onCompleteBatch) s.toObserved).1, s') ∧
      s'.toObserved = (Machine.each bs (deliver onCompleteBatch) s.toObserved).2 ∧
      ((Machine.each bs (deliver onCompleteBatch) s.toObserved).1 = .ok () →
        s'.batches = s.batches ++ bs) := by
  induction rest generalizing done s bs with
  | nil =>
    obtain rfl : [] = bs := mapM_nil_eq_ok.1 hbs
    exact ⟨s, rfl, rfl, fun _ => (List.append_nil _).symm⟩
  | cons item rest ih =>
    have hlater (next : ReplayItem) (hnext : next ∈ rest) : item.availableAt ≤
        next.availableAt := by
      have hpairwise := h.queue_pairwise
      rw [hqueue] at hpairwise
      have hkey := (List.pairwise_cons.1 (List.pairwise_append.1 hpairwise).2.1).1 next hnext
      exact availableAt_le_of_key_le hkey
    have hqueue' : tape.queue = (done ++ [item]) ++ rest := by simpa using hqueue
    cases item with
    | event e =>
      obtain ⟨s₁, hrun, hobserved, hbatches, hnow, hs₁⟩ := replayItem_event
        onCompleteBatch h hqueue hs (hclock _ List.mem_cons_self)
      obtain ⟨s', hrest, hobserved', hbatches'⟩ := ih hqueue' hs₁
        (fun next hnext => hnow ▸ hlater next hnext) hbs
      rw [hobserved] at hrest hobserved' hbatches'
      rw [hbatches] at hbatches'
      exact ⟨s', (Machine.each_cons_of_ok hrun).trans hrest, hobserved', hbatches'⟩
    | watermark w =>
      obtain ⟨b, hb, bs, htail, rfl⟩ := mapM_cons_eq_ok.1 hbs
      obtain ⟨s₁, hrun, hobserved, hbatches, hnow, hs₁⟩ := replayItem_watermark
        onCompleteBatch h hqueue hs (hclock _ List.mem_cons_self) hb
      cases hdeliver : deliver onCompleteBatch b s.toObserved with
      | mk r o =>
        rw [hdeliver] at hrun hobserved
        cases r with
        | error fault =>
          rw [Machine.each_cons_of_error hdeliver]
          exact ⟨s₁, Machine.each_cons_of_error hrun, hobserved, fun hok => by cases hok⟩
        | ok u =>
          obtain ⟨s', hrest, hobserved', hbatches'⟩ := ih hqueue' hs₁
            (fun next hnext => hnow ▸ hlater next hnext) htail
          rw [hobserved] at hrest hobserved' hbatches'
          rw [hbatches] at hbatches'
          rw [Machine.each_cons_of_ok hdeliver]
          refine ⟨s', (Machine.each_cons_of_ok hrun).trans hrest, hobserved', fun hok => ?_⟩
          rw [hbatches' hok, List.append_assoc, List.singleton_append]

variable (onCompleteBatch) in
/-- **A replay is the delivery of its batches**: of an accepted tape nothing but a callback can stop
it, and a result that is returned has all the batches. -/
theorem replay_eq_deliver (hbs : ws.mapM (sealOf es) = .ok bs) (o : Observed κ) :
    (replayMarketEvents H onCompleteBatch events watermarks o).2 =
        (Machine.each bs (deliver onCompleteBatch) o).2 ∧
      (∀ fault, (replayMarketEvents H onCompleteBatch events watermarks o).1 = .error fault ↔
        (Machine.each bs (deliver onCompleteBatch) o).1 = .error fault) ∧
      ∀ result, (replayMarketEvents H onCompleteBatch events watermarks o).1 = .ok result →
        (Machine.each bs (deliver onCompleteBatch) o).1 = .ok () ∧ result.batches = bs := by
  have hprepare : prepareTape H events watermarks = .ok tape := prepareTape_eq_ok.2 ⟨es, ws, h⟩
  obtain ⟨first, hfirst, hstarted⟩ := h.started
  let start : ReplayState κ := ReplayState.initial tape.startedAt o
  have hstart : Buffers [] start := ⟨fun t => by simp [start, ReplayState.initial, watermarksOf],
    fun t _ => rfl⟩
  have hclock : ∀ item ∈ tape.queue, start.clock ≤ item.availableAt := by
    intro item hitem
    change tape.startedAt ≤ _
    rw [hstarted]
    obtain ⟨rest, hrest⟩ := List.head?_eq_some_iff.1 hfirst
    have hpairwise := h.queue_pairwise
    rw [hrest] at hpairwise hitem
    rcases List.mem_cons.1 hitem with rfl | hitem
    · exact le_refl _
    · exact availableAt_le_of_key_le ((List.pairwise_cons.1 hpairwise).1 item hitem)
  rw [← h.watermarksOf_queue] at hbs
  obtain ⟨s', hrun, hobserved, hbatches⟩ := each_replayItem
    onCompleteBatch h (List.nil_append _).symm hstart hclock hbs
  have hobserved₀ : start.toObserved = o := rfl
  rw [hobserved₀] at hrun hobserved hbatches
  have hreplay : replayMarketEvents H onCompleteBatch events watermarks o =
      Machine.within (ReplayState.initial tape.startedAt) ReplayState.toObserved _ o :=
    Machine.bind_of_ok (own_of_ok hprepare o)
  rw [hreplay]
  unfold Machine.within
  cases hdeliver : (Machine.each bs (deliver onCompleteBatch) o).1 with
  | error fault =>
    rw [hdeliver] at hrun
    rw [Machine.bind_of_error hrun]
    refine ⟨hobserved, fun fault' => ?_, fun _ hok => by cases hok⟩
    constructor
    · intro hfault
      cases hfault
      rfl
    · intro hfault
      cases hfault
      rfl
  | ok u =>
    rw [hdeliver] at hrun hbatches
    rw [Machine.bind_of_ok hrun]
    refine ⟨hobserved, fun fault => ?_, fun result hok => ?_⟩
    · constructor
      · intro hfault
        cases hfault
      · intro hfault
        cases hfault
    · obtain rfl := Except.ok.inj hok
      exact ⟨rfl, (hbatches rfl).trans (List.nil_append bs)⟩

end IsTape

/-! ## What is delivered -/

/-- A delivery that goes through is on record. -/
theorem deliver_eq_ok (h : deliver onCompleteBatch b o = (.ok u, o')) :
    o'.sealedBatches = o.sealedBatches ++ [(b, b.val.asOf)] := by
  unfold deliver at h
  split at h
  · split at h
    · obtain ⟨-, rfl⟩ := Prod.mk.inj h
      rfl
    · obtain ⟨-, rfl⟩ := Prod.mk.inj h
      rfl
  · obtain ⟨-, rfl⟩ := Prod.mk.inj h
    rfl

/-- Only a callback can raise. -/
theorem deliver_not_own : (deliver onCompleteBatch b o).1 ≠ .error (.own error) := by
  have hcallback (r : Except ε Unit) :
      r.mapError ReplayFault.callback ≠ .error (.own error) := by
    cases r <;> simp [Except.mapError]
  unfold deliver
  split
  · split
    · exact hcallback _
    · simp
  · simp

/-- Delivering never raises an error of the replay itself. -/
theorem each_deliver_not_own :
    (Machine.each bs (deliver onCompleteBatch) o).1 ≠ .error (.own error) := by
  induction bs generalizing o with
  | nil => simp [Machine.each, pure]
  | cons b bs ih =>
    cases hdeliver : deliver onCompleteBatch b o with
    | mk r o' =>
      cases r with
      | ok u =>
        rw [Machine.each_cons_of_ok hdeliver]
        exact ih
      | error fault =>
        have hown : (deliver onCompleteBatch b o).1 ≠ .error (.own error) := deliver_not_own
        rw [hdeliver] at hown
        rw [Machine.each_cons_of_error hdeliver]
        exact fun h => hown (by simpa using h)

/-- Delivered batches are sealed in order, each at its closing time. -/
theorem each_deliver_eq_ok (h : (Machine.each bs (deliver onCompleteBatch) o).1 = .ok ()) :
    (Machine.each bs (deliver onCompleteBatch) o).2.sealedBatches =
      o.sealedBatches ++ bs.map fun b => (b, b.val.asOf) := by
  induction bs generalizing o with
  | nil => simp [Machine.each, pure]
  | cons b bs ih =>
    cases hdeliver : deliver onCompleteBatch b o with
    | mk r o' =>
      cases r with
      | ok u =>
        rw [Machine.each_cons_of_ok hdeliver] at h ⊢
        rw [ih h, deliver_eq_ok hdeliver]
        simp
      | error fault =>
        rw [Machine.each_cons_of_error hdeliver] at h
        cases h

/-- A tape that is not rejected passed the checks. -/
theorem exists_isTape (h : ¬ Rejected (replayMarketEvents H onCompleteBatch events watermarks o)) :
    ∃ es ws tape, IsTape H events watermarks es ws tape := by
  cases hprepare : prepareTape H events watermarks with
  | error error =>
    rw [replay_of_prepareTape_error hprepare] at h
    exact absurd ⟨error, rfl⟩ h
  | ok tape =>
    obtain ⟨es, ws, htape⟩ := prepareTape_eq_ok.1 hprepare
    exact ⟨es, ws, tape, htape⟩

theorem map_watermark (hbs : ws.mapM (sealOf es) = .ok bs) : bs.map (·.val.watermark) = ws := by
  have hmap := map_of_mapM (f := id) (g := fun b : MarketBatch => b.val.watermark)
    (fun w b hb => ?_) hbs
  · rw [hmap, List.map_id]
  · obtain ⟨_, -, hval⟩ := sealOf_eq_ok.1 hb
    rw [hval]
    rfl

/-- What the check of a batch guarantees of its events. -/
theorem MarketBatch.spec (b : MarketBatch) : (b.val.events.map (·.val.instrumentId)).Nodup ∧
    ∀ e ∈ b.val.events, e.val.eventTime = b.val.watermark.val.eventTimeThrough ∧
      e.val.availableAt ≤ b.val.asOf := by
  have hpasses := b.passes
  simp only [MarketBatchFields.validate, Py.eq_ok, forM_eq_ok, not_lt] at hpasses
  obtain ⟨_, -, _, hinstruments, _, -, hevents⟩ := hpasses
  refine ⟨hinstruments, fun e he => ?_⟩
  obtain ⟨_, htime, havailable⟩ := hevents e he
  exact ⟨htime, havailable⟩

/-- What a replay that returns has done with its tape. -/
structure Delivers (events : List MarketEvent) (watermarks : List MarketWatermark)
    (batches : List MarketBatch) : Prop where
  /-- Every watermark is sealed once. -/
  sealed : (batches.map (·.val.watermark)).Perm watermarks.dedup
  /-- The frontiers increase. -/
  increasing : batches.Pairwise fun a b =>
    a.val.watermark.val.eventTimeThrough < b.val.watermark.val.eventTimeThrough
  /-- Every selected event is delivered in one batch, once. -/
  once : ∀ w ∈ watermarks, ∃ selected, selectEvents (slice events.dedup w) w = .ok selected ∧
    ∀ e ∈ selected, (batches.flatMap (·.val.events)).count e = 1
  /-- Everything a batch could select from is available when it is sealed. -/
  available : ∀ b ∈ batches, ∀ e ∈ events,
    e.val.eventTime = b.val.watermark.val.eventTimeThrough → e.val.availableAt ≤ b.val.asOf

/-- Every watermark of the tape delivers its batch. -/
theorem IsTape.delivers (h : IsTape H events watermarks es ws tape)
    (hbs : ws.mapM (sealOf es) = .ok bs) : Delivers events watermarks bs := by
  have hws := map_watermark hbs
  have hincreasing : bs.Pairwise fun a b =>
      a.val.watermark.val.eventTimeThrough < b.val.watermark.val.eventTimeThrough := by
    have hfrontiers := h.frontiers
    rw [← hws] at hfrontiers
    exact (List.pairwise_map (f := fun b : MarketBatch => b.val.watermark)).1 hfrontiers
  have hnodup : (bs.flatMap (·.val.events)).Nodup := by
    rw [List.nodup_flatMap]
    refine ⟨fun b _ => b.spec.1.of_map, hincreasing.imp fun {a b} hlt e he he' => ?_⟩
    have htime := (a.spec.2 e he).1
    have htime' := (b.spec.2 e he').1
    exact absurd (htime.symm.trans htime') hlt.ne
  have hmem (b : MarketBatch) (hb : b ∈ bs) : b.val.watermark ∈ ws := by
    rw [← hws]
    exact List.mem_map_of_mem hb
  refine ⟨hws ▸ h.watermarks_perm, hincreasing, fun w hw => ?_, fun b hb e he htime => ?_⟩
  · have hw : w ∈ ws := by simpa [h.watermarks_perm.mem_iff] using hw
    obtain ⟨b, hb, hsealed⟩ := exists_mem_of_mapM hbs hw
    obtain ⟨selected, hselected, hval⟩ := sealOf_eq_ok.1 hsealed
    have hids : DistinctIds (slice es w) := h.distinctIds.mono (List.filter_subset_self _)
    refine ⟨selected, selectEvents_of_perm hids (h.events_perm.filter _) hselected, fun e he => ?_⟩
    have hdelivered : e ∈ bs.flatMap (·.val.events) :=
      List.mem_flatMap.2 ⟨b, hb, by rw [hval]; exact he⟩
    exact List.count_eq_one_of_mem hnodup hdelivered
  · have hslice : e ∈ slice es b.val.watermark := by simp [slice, h.mem_events, he, htime]
    exact (h.mem_slice (hmem b hb) hslice).2.2.2

/-- **The replay fails before it does anything**, and a replay that returns has sealed every
watermark once, in order, with every selected event in one batch and none too early. -/
theorem replay_fails_before_any_effect (H : ReplayHashes)
    (onCompleteBatch : Option (CompleteBatchCallback κ ε)) (events : List MarketEvent)
    (watermarks : List MarketWatermark) (o : Observed κ) :
    (∀ error, (replayMarketEvents H onCompleteBatch events watermarks o).1 = .error (.own error) →
      (replayMarketEvents H onCompleteBatch events watermarks o).2 = o) ∧
    ∀ result, (replayMarketEvents H onCompleteBatch events watermarks o).1 = .ok result →
      Delivers events watermarks result.batches ∧
      (replayMarketEvents H onCompleteBatch events watermarks o).2.sealedBatches =
        o.sealedBatches ++ result.batches.map fun b => (b, b.val.asOf) := by
  cases hprepare : prepareTape H events watermarks with
  | error error =>
    rw [replay_of_prepareTape_error hprepare]
    exact ⟨fun _ _ => rfl, fun _ hok => by cases hok⟩
  | ok tape =>
    obtain ⟨es, ws, htape⟩ := prepareTape_eq_ok.1 hprepare
    obtain ⟨bs, hbs⟩ := htape.exists_batches
    obtain ⟨hobserved, hfault, hresult⟩ :=
      htape.replay_eq_deliver onCompleteBatch hbs o
    refine ⟨fun error herror => absurd ((hfault _).1 herror) each_deliver_not_own, ?_⟩
    intro result hok
    obtain ⟨hdelivered, rfl⟩ := hresult result hok
    rw [hobserved]
    exact ⟨htape.delivers hbs, each_deliver_eq_ok hdelivered⟩

/-! ## No lookahead -/

section causality

variable {κ ε : Type} {H : ReplayHashes} {onCompleteBatch : Option (CompleteBatchCallback κ ε)}
  {events events' es : List MarketEvent} {watermarks watermarks' ws : List MarketWatermark}
  {tape : ReplayTape} {o : Observed κ} {t : Instant}

/-- What had been sealed and called by an instant. -/
def Observed.through (o : Observed κ) (t : Instant) :
    List (MarketBatch × Instant) × List (MarketBatch × Instant) :=
  (o.sealedBatches.filter (·.1.val.asOf ≤ t), o.calls.filter (·.1.val.asOf ≤ t))

/-- A later batch changes nothing seen by an earlier instant. -/
theorem through_deliver (h : t < b.val.asOf) :
    (deliver onCompleteBatch b o).2.through t = o.through t := by
  have hlater : ¬ b.val.asOf ≤ t := not_le.2 h
  unfold deliver
  split
  · split
    · simp [Observed.through, hlater]
    · simp [Observed.through, hlater]
  · simp [Observed.through, hlater]

/-- Batches of a later time do not change what had been sealed by then. -/
theorem through_each_deliver (h : ∀ b ∈ bs, t < b.val.asOf) (o : Observed κ) :
    (Machine.each bs (deliver onCompleteBatch) o).2.through t = o.through t := by
  have hpath : Machine.IsPath fun o o' : Observed κ => o'.through t = o.through t :=
    ⟨fun _ => rfl, fun h h' => h'.trans h⟩
  have hmoves : Machine.Moves _ (Machine.each bs (deliver onCompleteBatch)) :=
    Machine.Moves.each hpath fun b hb => Machine.moves_of_state fun o => through_deliver (h b hb)
  exact Machine.of_wp (hmoves o)

/-- The watermarks that had closed by an instant are the same, and in the same order. -/
theorem IsTape.filter_watermarks_eq (h : IsTape H events watermarks es ws tape)
    (h' : IsTape H events' watermarks' es' ws' tape')
    (hwatermarks : ∀ w : MarketWatermark, w.val.closedAt ≤ t → (w ∈ watermarks ↔ w ∈ watermarks')) :
    ws.filter (·.val.closedAt ≤ t) = ws'.filter (·.val.closedAt ≤ t) := by
  have hnodup := (nodup_watermarkIds h.watermarks).of_map
  have hnodup' := (nodup_watermarkIds h'.watermarks).of_map
  have hperm : (ws.filter (·.val.closedAt ≤ t)).Perm (ws'.filter (·.val.closedAt ≤ t)) := by
    rw [List.perm_ext_iff_of_nodup (hnodup.filter _) (hnodup'.filter _)]
    intro w
    simp only [List.mem_filter, decide_eq_true_eq, h.watermarks_perm.mem_iff,
      h'.watermarks_perm.mem_iff, List.mem_dedup]
    exact and_congr_left fun hclosed => hwatermarks w hclosed
  refine hperm.eq_of_pairwise (fun a b ha hb hab hba => ?_)
    ((watermarks_pairwise h.watermarks).filter _) ((watermarks_pairwise h'.watermarks).filter _)
  exact List.inj_on_of_nodup_map (nodup_watermarkIds h.watermarks) (List.mem_of_mem_filter ha)
    (List.mem_of_mem_filter (hperm.mem_iff.2 hb)) (watermarkId_eq_of_order hab hba)

/-- A watermark that had closed by an instant seals the same batch. -/
theorem IsTape.sealOf_of_closed (h : IsTape H events watermarks es ws tape)
    (h' : IsTape H events' watermarks' es' ws' tape')
    (hevents : ∀ e : MarketEvent, e.val.availableAt ≤ t → (e ∈ events ↔ e ∈ events')) (hw : w ∈ ws)
    (hw' : w ∈ ws') (hclosed : w.val.closedAt ≤ t) (hb : sealOf es w = .ok b) :
    sealOf es' w = .ok b := by
  obtain ⟨selected, hselected, hval⟩ := sealOf_eq_ok.1 hb
  have hids : DistinctIds (slice es w) := h.distinctIds.mono (List.filter_subset_self _)
  have hperm : (slice es w).Perm (slice es' w) := by
    have hes : es.Nodup := h.events_perm.nodup_iff.2 events.nodup_dedup
    have hes' : es'.Nodup := h'.events_perm.nodup_iff.2 events'.nodup_dedup
    have hmem (e : MarketEvent) (hslice : e ∈ slice es w ∨ e ∈ slice es' w) : e ∈ es ↔ e ∈ es' := by
      have havailable : e.val.availableAt ≤ t := by
        rcases hslice with he | he
        · exact (h.mem_slice hw he).2.2.2.trans hclosed
        · exact (h'.mem_slice hw' he).2.2.2.trans hclosed
      rw [h.mem_events, h'.mem_events]
      exact hevents e havailable
    refine (List.perm_ext_iff_of_nodup (hes.filter _) (hes'.filter _)).2 fun e => ?_
    constructor
    · intro he
      have hslice := List.mem_filter.1 he
      exact List.mem_filter.2 ⟨(hmem e (.inl he)).1 hslice.1, hslice.2⟩
    · intro he
      have hslice := List.mem_filter.1 he
      exact List.mem_filter.2 ⟨(hmem e (.inr he)).2 hslice.1, hslice.2⟩
  exact sealOf_eq_ok.2 ⟨selected, selectEvents_of_perm hids hperm hselected, hval⟩

/-- The batches of a tape, split at an instant. -/
theorem IsTape.exists_split (h : IsTape H events watermarks es ws tape) (t : Instant) :
    ∃ past future, ws.mapM (sealOf es) = .ok (past ++ future) ∧
      (ws.filter (·.val.closedAt ≤ t)).mapM (sealOf es) = .ok past ∧
      ∀ b ∈ future, t < b.val.asOf := by
  obtain ⟨bs, hbs⟩ := h.exists_batches
  have hsorted : ws.Pairwise fun a b => a.val.closedAt ≤ b.val.closedAt := by
    obtain ⟨d, -, -, -, -, -, rfl⟩ := uniqueWatermarks_eq_ok.1 h.watermarks
    refine (sortOn_pairwise _ _).imp fun {a b} hle => ?_
    exact Prod.Lex.monotone_fst a.val.order b.val.order hle
  have hsplit := filter_append_filter hsorted t
  have hparts := hbs
  rw [← hsplit] at hparts
  obtain ⟨past, hpast, future, hfuture, rfl⟩ := mapM_append_eq_ok.1 hparts
  refine ⟨past, future, hbs, hpast, fun b hb => ?_⟩
  obtain ⟨w, hw, hsealed⟩ := exists_of_mem_mapM hfuture hb
  obtain ⟨_, -, hval⟩ := sealOf_eq_ok.1 hsealed
  have hlater : t < w.val.closedAt := by simpa using (List.mem_filter.1 hw).2
  rw [MarketBatchFields.asOf, hval]
  exact hlater

/-- What had been sealed and called by an instant is what the batches of that time do. -/
theorem IsTape.through_replay (h : IsTape H events watermarks es ws tape)
    (hpast : (ws.filter (·.val.closedAt ≤ t)).mapM (sealOf es) = .ok past) (o : Observed κ) :
    (replayMarketEvents H onCompleteBatch events watermarks o).2.through t =
      (Machine.each past (deliver onCompleteBatch) o).2.through t := by
  obtain ⟨past', future, hbs, hpast', hfuture⟩ := h.exists_split t
  obtain rfl : past = past' := Except.ok.inj (hpast.symm.trans hpast')
  rw [(replay_eq_deliver onCompleteBatch h hbs o).1, Machine.each_append]
  cases hrun : Machine.each past (deliver onCompleteBatch) o with
  | mk r o' =>
    cases r with
    | error fault => rw [Machine.bind_of_error hrun]
    | ok u =>
      rw [Machine.bind_of_ok hrun]
      exact through_each_deliver hfuture o'

/-- **No lookahead**: what was sealed and called by an instant depends on nothing that became
available later. -/
theorem replay_no_lookahead (t : Instant)
    (hevents : ∀ e : MarketEvent, e.val.availableAt ≤ t → (e ∈ events ↔ e ∈ events'))
    (hwatermarks : ∀ w : MarketWatermark, w.val.closedAt ≤ t → (w ∈ watermarks ↔ w ∈ watermarks'))
    (o : Observed κ)
    (haccepted : ¬ Rejected (replayMarketEvents H onCompleteBatch events watermarks o))
    (haccepted' : ¬ Rejected (replayMarketEvents H onCompleteBatch events' watermarks' o)) :
    (replayMarketEvents H onCompleteBatch events watermarks o).2.through t =
      (replayMarketEvents H onCompleteBatch events' watermarks' o).2.through t := by
  obtain ⟨es, ws, tape, h⟩ := exists_isTape haccepted
  obtain ⟨es', ws', tape', h'⟩ := exists_isTape haccepted'
  obtain ⟨past, -, -, hpast, -⟩ := h.exists_split t
  have hws := h.filter_watermarks_eq h' hwatermarks
  have hpast' : (ws'.filter (·.val.closedAt ≤ t)).mapM (sealOf es') = .ok past := by
    rw [← hws]
    refine mapM_of_mapM (fun w hw b hb => ?_) hpast
    have hw' : w ∈ ws' := List.mem_of_mem_filter (hws ▸ hw)
    have hclosed : w.val.closedAt ≤ t := by simpa using (List.mem_filter.1 hw).2
    exact h.sealOf_of_closed h' hevents (List.mem_of_mem_filter hw) hw' hclosed hb
  rw [h.through_replay hpast, h'.through_replay hpast']

end causality

/-- The first slice of the sample tape is sealed in the same way whether the second is there or
not. -/
theorem sample_tape_no_lookahead : ∃ events events' watermarks watermarks',
    events.length = 4 ∧ events'.length = 3 ∧ watermarks.length = 2 ∧ watermarks'.length = 1 ∧
    (replayMarketEvents .plain (some countCalls) events watermarks ⟨0, [], []⟩).2.through 20 =
      (replayMarketEvents .plain (some countCalls) events' watermarks' ⟨0, [], []⟩).2.through 20 ∧
    ((replayMarketEvents .plain (some countCalls) events watermarks ⟨0, [], []⟩).2.through
      20).2.length =
      1 := by
  have h : (fun t =>
      (replayMarketEvents .plain (some countCalls) t.1 t.2 ⟨0, [], []⟩).1.isOk &&
      (replayMarketEvents .plain (some countCalls) (t.1.take 3) (t.2.take 1) ⟨0, [], []⟩).1.isOk &&
      ((replayMarketEvents .plain (some countCalls) t.1 t.2 ⟨0, [], []⟩).2.through 20).2.length ==
        1) <$> sampleTape = .ok true := by
    decide +kernel
  simp only [sampleTape, sampleMarketEvent, map_eq_ok, Py.eq_ok] at h
  obtain ⟨_, ⟨first, -, corrected, -, other, -, later, hlater, morning, -, noon, hnoon, rfl⟩,
    hrun⟩ := h
  simp only [List.take, Bool.and_eq_true, beq_iff_eq] at hrun
  have haccepted {events : List MarketEvent} {watermarks : List MarketWatermark}
      (hok : (replayMarketEvents .plain (some countCalls) events watermarks ⟨0, [], []⟩).1.isOk) :
      ¬ Rejected (replayMarketEvents .plain (some countCalls) events watermarks ⟨0, [], []⟩) := by
    rintro ⟨error, herror⟩
    simp [herror, Except.isOk, Except.toBool] at hok
  refine ⟨[first, corrected, other, later], [first, corrected, other], [morning, noon],
    [morning], rfl,
    rfl, rfl, rfl, replay_no_lookahead 20 (fun e he => ?_) (fun w hw => ?_) _ (haccepted hrun.1.1)
      (haccepted hrun.1.2), hrun.2⟩
  · have hne : e ≠ later := by
      rintro rfl
      rw [hlater] at he
      contradiction
    simp [hne]
  · have hne : w ≠ noon := by
      rintro rfl
      rw [hnoon] at hw
      contradiction
    simp [hne]

end AutoQuantTrader
