import AutoQuantTrader.Replay

/-!
# The tape of a replay

What the checks in front of the loop establish, and that they look at nothing but the set of facts:
events and watermarks that come in another order, or more than once, make the same tape
(`prepareTape_of_mem_iff`), so the replay cannot tell them apart (`replay_order_irrelevant`).

Revisions of an instrument are selected from a group of events.  `selectEvents_of_perm` says that
the order within the group does not matter as long as identities tell the events apart, which is
what the loop, where the group comes in the order of the queue, relies on as well.
-/

namespace AutoQuantTrader

open Result Sorting

/-! ## Facts of a tape -/

variable {es events : List MarketEvent}

/-- The events of a tape have different identities, and an observation is of one thing. -/
theorem uniqueMarketEvents_eq_ok : uniqueMarketEvents events = .ok es ↔ ∃ d : Dict Str MarketEvent,
      Dict.unique (·.val.eventId) () events = .ok d ∧
      (∀ a ∈ events, ∀ b ∈ events, a.val.observationIdentity = b.val.observationIdentity →
        a.val.observationBinding = b.val.observationBinding) ∧ d.values = es := by
  simp only [uniqueMarketEvents, eq_ok]
  refine exists_congr fun d => ?_
  rw [Dict.foldlM_uniqueStep_eq_ok ()]
  refine and_congr_right fun hd => ?_
  have hmem (e : MarketEvent) : e ∈ d.values ↔ e ∈ events := Dict.mem_values_of_unique hd
  rw [exists_and_right, Dict.exists_bind_iff]
  simp only [hmem]

variable {events' : List MarketEvent}

theorem uniqueMarketEvents_of_mem_iff (hmem : ∀ e, e ∈ events ↔ e ∈ events')
    (h : uniqueMarketEvents events = .ok es) :
    ∃ es', uniqueMarketEvents events' = .ok es' ∧ es.Perm es' := by
  obtain ⟨d, hd, hbound, rfl⟩ := uniqueMarketEvents_eq_ok.1 h
  obtain ⟨d', hd', hperm, -⟩ := Dict.exists_unique_of_mem_iff hd hmem
  refine ⟨d'.values, uniqueMarketEvents_eq_ok.2 ⟨d', hd', fun a ha b hb => ?_, rfl⟩, hperm⟩
  exact hbound a ((hmem a).2 ha) b ((hmem b).2 hb)

variable {watermarks ws : List MarketWatermark}

/-- The watermarks of a tape have different identities and seal different slices, in order. -/
theorem uniqueWatermarks_eq_ok :
    uniqueWatermarks watermarks = .ok ws ↔ ∃ d d' : Dict _ MarketWatermark,
      Dict.unique (·.val.watermarkId) () watermarks = .ok d ∧
      Dict.unique (·.val.eventTimeThrough) () watermarks = .ok d' ∧ d.values ≠ [] ∧
      (ws.map (·.val.eventTimeThrough)).IsChain (· < ·) ∧ sortOn (·.val.order) d.values = ws := by
  simp only [uniqueWatermarks, Py.eq_ok, Prod.exists, Dict.foldlM_admitStep_eq_ok]
  refine exists_congr fun d => exists_congr fun d' => ?_
  constructor
  · rintro ⟨⟨hd, hd'⟩, _, hne, _, hchain, rfl⟩
    exact ⟨hd, hd', hne, hchain, rfl⟩
  · rintro ⟨hd, hd', hne, hchain, rfl⟩
    exact ⟨⟨hd, hd'⟩, (), hne, (), hchain, rfl⟩

variable {watermarks' : List MarketWatermark}

theorem uniqueWatermarks_of_mem_iff (hmem : ∀ w, w ∈ watermarks ↔ w ∈ watermarks')
    (h : uniqueWatermarks watermarks = .ok ws) : uniqueWatermarks watermarks' = .ok ws := by
  obtain ⟨d, d', hd, hd', hne, hchain, rfl⟩ := uniqueWatermarks_eq_ok.1 h
  obtain ⟨r, hr, hperm, -⟩ := Dict.exists_unique_of_mem_iff hd hmem
  obtain ⟨r', hr', -, -⟩ := Dict.exists_unique_of_mem_iff hd' hmem
  refine uniqueWatermarks_eq_ok.2 ⟨r, r', hr, hr', fun hnil => hne ?_, hchain, ?_⟩
  · exact (hnil ▸ hperm).eq_nil
  · refine (sortOn_eq_of_perm_of_nodup hperm (Dict.nodup_keys_of_unique hd) fun a b hab => ?_).symm
    simp only [MarketWatermarkFields.order, EmbeddingLike.apply_eq_iff_eq, Prod.mk.injEq] at hab
    exact hab.2.2

/-! ## Selecting revisions -/

variable {e : MarketEvent}

section selection

variable {instrumentId : Str} {xs : List MarketEvent}

/-- The identities of the events tell them apart. -/
def DistinctIds (xs : List MarketEvent) : Prop :=
  Set.InjOn (fun e : MarketEvent => e.val.eventId) {e | e ∈ xs}

theorem DistinctIds.mono (h : DistinctIds xs) (hsubset : ys ⊆ xs) : DistinctIds ys :=
  Set.InjOn.mono (fun _ he => hsubset he) h

theorem addRevision_eq_ok : addRevision instrumentId d e = .ok d' ↔
      (∀ y, d.get? e.val.revision = some y → y.val.eventId = e.val.eventId) ∧
        d.set e.val.revision e = d' := by
  simp [addRevision]

/-- Events with different identities are collected by their revision. -/
theorem addRevisions_eq_ok (hids : DistinctIds xs) :
    xs.foldlM (addRevision instrumentId) .empty = .ok r ↔
      Dict.unique (·.val.revision) () xs = .ok r := by
  have hsteps (rest done : List MarketEvent) (d : Dict Int MarketEvent) (hxs : done ++ rest ⊆ xs)
      (hd : d.Indexes (fun e : MarketEvent => e.val.revision) done) :
      rest.foldlM (addRevision instrumentId) d = .ok r ↔
        rest.foldlM (Dict.uniqueStep (·.val.revision) ()) d = .ok r := by
    induction rest generalizing done d with
    | nil => simp
    | cons e rest ih =>
      have hsame : (∀ y, d.get? e.val.revision = some y → y.val.eventId = e.val.eventId) ↔
          ∀ y, d.get? e.val.revision = some y → y = e := by
        refine forall_congr' fun y => imp_congr_right fun hy => ⟨fun hid => ?_, fun h => h ▸ rfl⟩
        have hy : y ∈ done := ((hd _ _).1 hy).1
        exact hids (hxs (by simp [hy])) (hxs (by simp)) hid
      simp only [foldlM_cons_eq_ok, addRevision_eq_ok, hsame, Dict.uniqueStep_eq_ok]
      refine exists_congr fun d' => and_congr_right fun hstep => ?_
      exact ih (done ++ [e]) d' (by simpa using hxs)
        (Dict.indexes_of_uniqueStep hd (Dict.uniqueStep_eq_ok (e := ()).2 hstep))
  exact hsteps xs [] _ (by simp) Dict.indexes_empty

/-- The revision selected does not depend on arrival order. -/
theorem selectRevision_of_perm (hids : DistinctIds xs) (hperm : xs.Perm ys)
    (h : selectRevision policy instrumentId xs = .ok e) :
    selectRevision policy instrumentId ys = .ok e := by
  simp only [selectRevision, Py.eq_ok] at h ⊢
  obtain ⟨_, hobservations, d, hd, _, hchain, ordered, hordered, hselected⟩ := h
  have hids' : DistinctIds ys := hids.mono fun _ he => hperm.mem_iff.2 he
  rw [addRevisions_eq_ok hids] at hd
  obtain ⟨d', hd', -, hget⟩ := Dict.exists_unique_of_mem_iff hd fun _ => hperm.mem_iff
  have hkeys : sortOn id d.keys = sortOn id d'.keys := by
    refine sortOn_eq_of_perm ?_ fun _ _ _ _ hab => hab
    exact (List.perm_ext_iff_of_nodup d.nodup_keys d'.nodup_keys).2 (Dict.mem_keys_congr hget)
  rw [hkeys] at hchain hordered
  simp only [hget] at hordered
  refine ⟨(), ?_, d', (addRevisions_eq_ok hids').2 hd', (), hchain, ordered, hordered, hselected⟩
  rwa [← ((hperm.map _).dedup).length_eq]

/-- The revision that is selected is one of the events. -/
theorem mem_of_selectRevision (hids : DistinctIds xs)
    (h : selectRevision policy instrumentId xs = .ok e) : e ∈ xs := by
  simp only [selectRevision, Py.eq_ok] at h
  obtain ⟨_, -, d, hd, _, -, ordered, hordered, _, -, hselected⟩ := h
  have hmem : e ∈ ordered := by
    cases policy with
    | firstSeen => exact List.mem_of_mem_head? (getOrThrow_eq_ok.1 hselected)
    | revisedAsOf => exact List.mem_of_mem_getLast? (getOrThrow_eq_ok.1 hselected)
  obtain ⟨k, -, hk⟩ := exists_of_mem_mapM hordered hmem
  exact ((Dict.get?_of_unique ((addRevisions_eq_ok hids).1 hd) k e).1 (getOrThrow_eq_ok.1 hk)).1

/-- The events of one instrument. -/
def ofInstrument (xs : List MarketEvent) (instrumentId : Str) : List MarketEvent :=
  xs.filter (·.val.instrumentId = instrumentId)

/-- One selection for each instrument, in the order in which the instruments first appear. -/
theorem selectEvents_eq_ok : selectEvents xs watermark = .ok sel ↔ ∃ selected,
      (Dict.group (·.val.instrumentId) xs).keys.mapM (fun k =>
        selectRevision watermark.val.revisionPolicy k (ofInstrument xs k)) = .ok selected ∧
      sortOn (·.val.batchKey) selected = sel := by
  simp only [selectEvents, eq_ok, Dict.entries_group, List.mapM_map]
  rfl

/-- The selected events are of different instruments. -/
theorem map_instrumentId_of_mapM {instruments : List Str} (hids : DistinctIds xs)
    (h : instruments.mapM (fun k => selectRevision policy k (ofInstrument xs k)) = .ok selected) :
    selected.map (·.val.instrumentId) = instruments := by
  have hselected := map_of_mapM (f := id) (g := fun e : MarketEvent => e.val.instrumentId)
    (fun k e he => ?_) h
  · rw [hselected, List.map_id]
  · have he := mem_of_selectRevision (hids.mono (List.filter_subset_self _)) he
    simpa [ofInstrument] using (List.mem_filter.1 he).2

/-- One event of each instrument is selected, in batch order. -/
theorem selectEvents_spec (hids : DistinctIds xs) (h : selectEvents xs watermark = .ok sel) :
    (∀ e ∈ sel, e ∈ xs) ∧ (sel.map (·.val.instrumentId)).Nodup ∧
      sel = sortOn (·.val.batchKey) sel := by
  obtain ⟨selected, hselected, rfl⟩ := selectEvents_eq_ok.1 h
  refine ⟨fun e he => ?_, ?_, (sortOn_eq_self (sortOn_pairwise _ _)).symm⟩
  · obtain ⟨k, -, hk⟩ := exists_of_mem_mapM hselected (mem_sortOn.1 he)
    exact List.mem_of_mem_filter (mem_of_selectRevision (hids.mono (List.filter_subset_self _)) hk)
  · rw [((sortOn_perm _ _).map _).nodup_iff, map_instrumentId_of_mapM hids hselected]
    exact Dict.nodup_keys _

/-- **The order of a group of events does not matter to what is selected from it.** -/
theorem selectEvents_of_perm (hids : DistinctIds xs) (hperm : xs.Perm ys)
    (h : selectEvents xs watermark = .ok sel) : selectEvents ys watermark = .ok sel := by
  obtain ⟨selected, hselected, rfl⟩ := selectEvents_eq_ok.1 h
  have hkeys : (Dict.group (·.val.instrumentId) xs).keys.Perm
      (Dict.group (·.val.instrumentId) ys).keys := by
    refine (List.perm_ext_iff_of_nodup (Dict.nodup_keys _) (Dict.nodup_keys _)).2 fun k => ?_
    simp only [Dict.mem_keys_group, hperm.mem_iff]
  have hsame : (Dict.group (·.val.instrumentId) xs).keys.mapM (fun k =>
      selectRevision watermark.val.revisionPolicy k (ofInstrument ys k)) = .ok selected := by
    refine mapM_of_mapM (fun k _ e he => ?_) hselected
    exact selectRevision_of_perm (hids.mono (List.filter_subset_self _)) (hperm.filter _) he
  obtain ⟨selected', hselected', hselectedPerm⟩ := exists_mapM_of_perm hkeys hsame
  refine selectEvents_eq_ok.2 ⟨selected', hselected', ?_⟩
  have hnodup : (selected.map (·.val.instrumentId)).Nodup := by
    rw [map_instrumentId_of_mapM hids hselected]
    exact Dict.nodup_keys _
  refine (sortOn_eq_of_perm_of_nodup hselectedPerm hnodup fun a b hab => ?_).symm
  simp only [MarketEventFields.batchKey, EmbeddingLike.apply_eq_iff_eq, Prod.mk.injEq] at hab
  exact hab.1

end selection

/-! ## The tape -/

/-- The events a watermark seals. -/
def slice (es : List MarketEvent) (w : MarketWatermark) : List MarketEvent :=
  es.filter (·.val.eventTime = w.val.eventTimeThrough)

/-- The watermark of each event time. -/
def watermarkIndex (ws : List MarketWatermark) : Dict Instant MarketWatermark :=
  ws.foldl (fun d w => d.set w.val.eventTimeThrough w) .empty

def replayQueue (es : List MarketEvent) (ws : List MarketWatermark) : List ReplayItem :=
  sortOn ReplayItem.key (es.map .event ++ ws.map .watermark)

/-- What the checks in front of the loop establish; `es` and `ws` are the distinct events and
watermarks. -/
structure IsTape (H : ReplayHashes) (events : List MarketEvent) (watermarks : List MarketWatermark)
    (es : List MarketEvent) (ws : List MarketWatermark) (tape : ReplayTape) : Prop where
  events : uniqueMarketEvents events = .ok es
  watermarks : uniqueWatermarks watermarks = .ok ws
  arrival : ∀ e ∈ es, checkArrival (watermarkIndex ws) e = .ok ()
  selected : ∀ w ∈ ws, ∃ sel, selectEvents (slice es w) w = .ok sel
  index : tape.watermarkByEventTime = watermarkIndex ws
  queue : tape.queue = replayQueue es ws
  digest : tape.tapeSha256 = H.tape (sortOn (ReplayItem.event · |>.key) es)
    (sortOn (ReplayItem.watermark · |>.key) ws)
  started : ∃ first, tape.queue.head? = some first ∧ tape.startedAt = first.availableAt

variable {tape : ReplayTape}

/-- The source prepares exactly the tapes of its inputs. -/
theorem prepareTape_eq_ok :
    prepareTape H events watermarks = .ok tape ↔ ∃ es ws, IsTape H events watermarks
    es ws tape := by
  simp only [prepareTape, eq_ok, forM_eq_ok, mem_sortOn, Dict.getD_group]
  refine exists_congr fun es => ?_
  constructor
  · rintro ⟨hes, ws, hws, -, harrival, -, hselected, first, hfirst, rfl⟩
    refine ⟨ws, hes, hws, harrival, fun w hw => ?_, rfl, rfl, rfl, first, hfirst, rfl⟩
    obtain ⟨sel, hsel, -⟩ := hselected w hw
    exact ⟨sel, hsel⟩
  · rintro ⟨ws, hes, hws, harrival, hselected, hindex, hqueue, hdigest, first, hfirst, hstarted⟩
    refine ⟨hes, ws, hws, (), harrival, (), fun w hw => ?_, first, ?_, ?_⟩
    · obtain ⟨sel, hsel⟩ := hselected w hw
      exact ⟨sel, hsel, trivial⟩
    · rw [hqueue] at hfirst
      exact hfirst
    · obtain ⟨index, queue, digest, started⟩ := tape
      obtain rfl : index = _ := hindex
      obtain rfl : queue = _ := hqueue
      obtain rfl : digest = _ := hdigest
      obtain rfl : started = _ := hstarted
      rfl

theorem distinctIds_of_uniqueMarketEvents (h : uniqueMarketEvents events = .ok es) :
    DistinctIds es := by
  obtain ⟨d, hd, -, rfl⟩ := uniqueMarketEvents_eq_ok.1 h
  intro a ha b hb hab
  exact List.inj_on_of_nodup_map (Dict.nodup_keys_of_unique hd) ha hb hab

/-- Events with one place in the queue have one identity. -/
theorem eventId_eq_of_key_eq (h : (ReplayItem.event a).key = (ReplayItem.event b).key) :
    a.val.eventId = b.val.eventId := by
  simp only [ReplayItem.key, EmbeddingLike.apply_eq_iff_eq, Prod.mk.injEq] at h
  exact h.2.2.2.2.2.2.2.2.2.2

theorem watermarkId_eq_of_key_eq (h : (ReplayItem.watermark a).key = (ReplayItem.watermark b).key) :
    a.val.watermarkId = b.val.watermarkId := by
  simp only [ReplayItem.key, EmbeddingLike.apply_eq_iff_eq, Prod.mk.injEq] at h
  exact h.2.2.2.2.2.2.2.2.2.2

theorem event_key_ne_watermark_key : (ReplayItem.event e).key ≠ (ReplayItem.watermark w).key := by
  intro h
  simp only [ReplayItem.key, EmbeddingLike.apply_eq_iff_eq, Prod.mk.injEq] at h
  omega

/-- The queue does not depend on the order of the events. -/
theorem replayQueue_of_perm (hids : DistinctIds es) (hws : (ws.map (·.val.watermarkId)).Nodup)
    (hperm : es.Perm es') : replayQueue es ws = replayQueue es' ws := by
  refine sortOn_eq_of_perm ((hperm.map _).append_right _) fun a ha b hb hab => ?_
  rw [List.mem_append, List.mem_map, List.mem_map] at ha hb
  rcases ha with ⟨e, he, rfl⟩ | ⟨w, hw, rfl⟩ <;> rcases hb with ⟨e', he', rfl⟩ | ⟨w', hw', rfl⟩
  · rw [hids he he' (eventId_eq_of_key_eq hab)]
  · exact absurd hab event_key_ne_watermark_key
  · exact absurd hab.symm event_key_ne_watermark_key
  · rw [List.inj_on_of_nodup_map hws hw hw' (watermarkId_eq_of_key_eq hab)]

theorem nodup_watermarkIds (h : uniqueWatermarks watermarks = .ok ws) :
    (ws.map (·.val.watermarkId)).Nodup := by
  obtain ⟨d, -, hd, -, -, -, rfl⟩ := uniqueWatermarks_eq_ok.1 h
  exact ((sortOn_perm _ _).map _).nodup_iff.2 (Dict.nodup_keys_of_unique hd)

/-- **A tape is made of its set of facts.** -/
theorem prepareTape_of_mem_iff (hevents : ∀ e, e ∈ events ↔ e ∈ events')
    (hwatermarks : ∀ w, w ∈ watermarks ↔ w ∈ watermarks')
    (h : prepareTape H events watermarks = .ok tape) :
    prepareTape H events' watermarks' = .ok tape := by
  obtain ⟨es, ws, htape⟩ := prepareTape_eq_ok.1 h
  obtain ⟨es', hes', hperm⟩ := uniqueMarketEvents_of_mem_iff hevents htape.events
  have hids := distinctIds_of_uniqueMarketEvents htape.events
  have hsorted : sortOn (ReplayItem.event · |>.key) es = sortOn (ReplayItem.event · |>.key) es' :=
    sortOn_eq_of_perm hperm fun a ha b hb hab => hids ha hb (eventId_eq_of_key_eq hab)
  refine prepareTape_eq_ok.2 ⟨es', ws, {
    events := hes'
    watermarks := uniqueWatermarks_of_mem_iff hwatermarks htape.watermarks
    arrival := fun e he => htape.arrival e (hperm.mem_iff.2 he)
    selected := fun w hw => ?_
    index := htape.index
    queue := htape.queue.trans
      (replayQueue_of_perm hids (nodup_watermarkIds htape.watermarks) hperm)
    digest := hsorted ▸ htape.digest
    started := htape.started }⟩
  obtain ⟨sel, hsel⟩ := htape.selected w hw
  exact ⟨sel, selectEvents_of_perm (hids.mono (List.filter_subset_self _)) (hperm.filter _) hsel⟩

/-! ## The order of delivery -/

section order

variable {κ ε : Type} {H : ReplayHashes} {onCompleteBatch : Option (CompleteBatchCallback κ ε)}

/-- A tape that fails the checks is refused before anything happens. -/
theorem replay_of_prepareTape_error (h : prepareTape H events watermarks = .error error)
    (o : Observed κ) :
    replayMarketEvents H onCompleteBatch events watermarks o = (.error (.own error), o) := by
  rw [replayMarketEvents, h]
  rfl

/-- The replay refused its tape: it raised an error of its own. -/
def Rejected {α : Type} (outcome : Except (ReplayFault ε) α × Observed κ) : Prop :=
  ∃ error, outcome.1 = .error (.own error)

/-- **Neither the order of delivery nor redelivery matters**: two deliveries of one tape are
accepted together, and make the same batches and the same calls and end in the same way. -/
theorem replay_order_irrelevant {events events' : List MarketEvent}
    {watermarks watermarks' : List MarketWatermark} (hevents : ∀ e, e ∈ events ↔ e ∈ events')
    (hwatermarks : ∀ w, w ∈ watermarks ↔ w ∈ watermarks') (o : Observed κ) :
    (Rejected (replayMarketEvents H onCompleteBatch events watermarks o) ↔
      Rejected (replayMarketEvents H onCompleteBatch events' watermarks' o)) ∧
    (¬ Rejected (replayMarketEvents H onCompleteBatch events watermarks o) →
      replayMarketEvents H onCompleteBatch events watermarks o =
        replayMarketEvents H onCompleteBatch events' watermarks' o) ∧
    (replayMarketEvents H onCompleteBatch events watermarks o).2 =
      (replayMarketEvents H onCompleteBatch events' watermarks' o).2 := by
  cases h : prepareTape H events watermarks with
  | ok tape =>
    have h' := prepareTape_of_mem_iff hevents hwatermarks h
    have hsame : replayMarketEvents H onCompleteBatch events watermarks =
        replayMarketEvents H onCompleteBatch events' watermarks' := by
      rw [replayMarketEvents, replayMarketEvents, h, h']
    rw [hsame]
    exact ⟨.rfl, fun _ => rfl, rfl⟩
  | error error =>
    cases h' : prepareTape H events' watermarks' with
    | ok tape =>
      have h'' := prepareTape_of_mem_iff (fun e => (hevents e).symm)
        (fun w => (hwatermarks w).symm) h'
      rw [h] at h''
      cases h''
    | error error' =>
      rw [replay_of_prepareTape_error h, replay_of_prepareTape_error h']
      exact ⟨⟨fun _ => ⟨error', rfl⟩, fun _ => ⟨error, rfl⟩⟩, fun hnot => absurd ⟨error, rfl⟩ hnot,
        rfl⟩

end order

/-! A tape with a corrected close and a second slice that stays incomplete. -/

def sampleMarketEvent (eventId instrumentId : Str) (eventTime availableAt : Instant)
    (revision : Int) (supersedes : Option Str) : Py MarketEvent :=
  construct {
    eventId, instrumentId, eventTime, availableAt, revision
    symbol := "ABC"
    closePrice := 20
    observationId := some (instrumentId ++ Str.ofInt eventTime)
    supersedesEventRevisionId := supersedes }

def sampleTape : Py (List MarketEvent × List MarketWatermark) := do
  let first ← sampleMarketEvent "a1" "i1" 10 11 1 none
  let corrected ← sampleMarketEvent "a2" "i1" 10 20 2 (some "a1")
  let other ← sampleMarketEvent "b1" "i2" 10 12 1 none
  let later ← sampleMarketEvent "c1" "i1" 30 35 1 none
  let morning ← construct ⟨"w1", 10, 20, ["i1", "i2"], .revisedAsOf⟩
  let noon ← construct ⟨"w2", 30, 40, ["i1", "i2"], .firstSeen⟩
  return ([first, corrected, other, later], [morning, noon])

/-- A callback that counts how often it is called. -/
def countCalls : CompleteBatchCallback Nat Empty := fun _ _ calls => (.ok (), calls + 1)

theorem sample_tape_redelivered : ∃ events watermarks,
    ¬ Rejected (replayMarketEvents .plain (some countCalls) events watermarks ⟨0, [], []⟩) ∧
    replayMarketEvents .plain (some countCalls) events watermarks ⟨0, [], []⟩ =
      replayMarketEvents .plain (some countCalls) (events.reverse ++ events)
        (watermarks.reverse ++ watermarks) ⟨0, [], []⟩ ∧
    (replayMarketEvents .plain (some countCalls) events watermarks ⟨0, [], []⟩).2.world = 1 := by
  have h : (fun t => (replayMarketEvents .plain (some countCalls) t.1 t.2 ⟨0, [], []⟩).1.isOk &&
      (replayMarketEvents .plain (some countCalls) t.1 t.2 ⟨0, [], []⟩).2.world == 1) <$>
        sampleTape = .ok true := by
    decide +kernel
  obtain ⟨⟨events, watermarks⟩, -, hrun⟩ := map_eq_ok.1 h
  rw [Bool.and_eq_true, beq_iff_eq] at hrun
  have haccepted : ¬ Rejected
      (replayMarketEvents .plain (some countCalls) events watermarks ⟨0, [], []⟩) := by
    rintro ⟨error, herror⟩
    simp [herror, Except.isOk, Except.toBool] at hrun
  obtain ⟨-, hsame, -⟩ := @replay_order_irrelevant Nat Empty .plain (some countCalls) events
    (events.reverse ++ events) watermarks (watermarks.reverse ++ watermarks) (by simp) (by simp)
    ⟨0, [], []⟩
  exact ⟨events, watermarks, haccepted, hsame haccepted, hrun.2⟩

end AutoQuantTrader
