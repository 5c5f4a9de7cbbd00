import AutoQuantTrader.BatchCapacity
import AutoQuantTrader.DecimalBounds
import AutoQuantTrader.RiskLimits

/-!
# What a conversion reaches

The moves of a conversion take every instrument it went through to the target, so filling them
leaves nothing to convert.  The conversion of a daily target counts live commitments as filled, and
issues nothing beside them.
-/

namespace AutoQuantTrader

open Result Sorting

/-! ## A complete portfolio -/

section portfolio

variable {H : IntentHashes} {target : TargetPortfolio} {snapshot : PortfolioSnapshot}

/-- The shares of an instrument in a snapshot. -/
def PortfolioSnapshotFields.quantity (s : PortfolioSnapshotFields) (instrumentId : Str) : ℚ :=
  ((s.position? instrumentId).map (·.val.quantity)).getD 0

/-- The shares a target wants of an instrument. -/
def TargetPortfolioFields.wants (t : TargetPortfolioFields) (instrumentId : Str) : ℚ :=
  ((lookup (t.targets.map fun p => (p.val.instrumentId, p)) instrumentId).map (·.val.quantity)).getD
    0

/-- Where a target takes an instrument: one that it does not name goes to zero if the target is a
full snapshot, and stays where it is otherwise. -/
def TargetPortfolioFields.goal (t : TargetPortfolioFields) (s : PortfolioSnapshotFields)
    (instrumentId : Str) : ℚ :=
  if instrumentId ∈ t.targets.map (·.val.instrumentId) ∨ t.fullSnapshot then t.wants instrumentId
  else s.quantity instrumentId

theorem convertTarget_cases {id : Str} (h : convertTarget H target snapshot id = .ok intent) :
    intent.toList.map OrderIntent.move =
      lacking (fun id => target.val.wants id - snapshot.val.quantity id) [id] := by
  simp only [convertTarget, eq_ok] at h
  obtain ⟨change, hchange, h⟩ := h
  have hchange : change = target.val.wants id - snapshot.val.quantity id :=
    exactDecimalSubtract_eq hchange
  simp only [lacking, List.flatMap_singleton, ← hchange]
  split at h
  · next hzero =>
    rw [if_pos hzero, ← pure_eq_ok.1 h]
    rfl
  · next hne =>
    rw [if_neg hne]
    simp only [Py.eq_ok, batchIntent] at h
    obtain ⟨_, -, _, -, _, -, _, -, made, hmade, rfl⟩ := h
    rw [Option.toList_some, List.map_singleton, OrderIntent.move, hmade]
    exact congrArg (fun q => [(id, q)]) (sign_mul_abs change)

/-- The instruments a target is compared with a snapshot on. -/
def convertedIds (t : TargetPortfolioFields) (s : PortfolioSnapshotFields) : List Str :=
  sortedUnique (t.targets.map (·.val.instrumentId) ++
    if t.fullSnapshot then s.positions.map (·.val.instrumentId) else [])

theorem mem_convertedIds {id : Str} :
    id ∈ convertedIds t s ↔ id ∈ t.targets.map (·.val.instrumentId) ∨
      t.fullSnapshot ∧ id ∈ s.positions.map (·.val.instrumentId) := by
  rw [convertedIds, sortedUnique, mem_sortOn, List.mem_dedup, List.mem_append]
  cases t.fullSnapshot <;> simp

/-- The intents are what the account lacks of its target. -/
theorem convertTargets_moves {converted : List (Option OrderIntent)}
    (h : instrumentIds.mapM (convertTarget H target snapshot) = .ok converted) :
    converted.reduceOption.map OrderIntent.move =
      lacking (fun id => target.val.wants id - snapshot.val.quantity id) instrumentIds := by
  induction instrumentIds generalizing converted with
  | nil => rw [← mapM_nil_eq_ok.1 h]; rfl
  | cons id ids ih =>
    obtain ⟨intent, hintent, rest, hrest, rfl⟩ := mapM_cons_eq_ok.1 h
    have hcons : (intent :: rest).reduceOption = intent.toList ++ rest.reduceOption := by
      cases intent <;> rfl
    rw [hcons, List.map_append, convertTarget_cases hintent, ih hrest]
    simp [lacking]

/-- **Filling a batch reaches the goal**, with at most one intent for an instrument. -/
theorem targetToIntentBatch_reaches {batch : OrderIntentBatch}
    (h : targetToIntentBatch H target snapshot = .ok batch) :
    (∀ id, snapshot.val.quantity id + moved batch.val.intents id =
        target.val.goal snapshot.val id) ∧ (batch.val.intents.map (·.val.instrumentId)).Nodup := by
  simp only [targetToIntentBatch, Py.eq_ok] at h
  obtain ⟨_, -, converted, hconverted, hbatch⟩ := h
  have hmoves := convertTargets_moves hconverted
  have hnodup : (convertedIds target.val snapshot.val).Nodup := nodup_sortOn.2 (List.nodup_dedup _)
  rw [hbatch]
  refine ⟨fun id => ?_, moved_nodup hnodup hmoves⟩
  rw [moved_eq hnodup hmoves, TargetPortfolioFields.goal]
  by_cases hid : id ∈ convertedIds target.val snapshot.val
  · rw [if_pos hid, if_pos ((mem_convertedIds.1 hid).imp_right And.left)]
    ring
  · rw [if_neg hid, add_zero]
    rw [mem_convertedIds, not_or, not_and] at hid
    split
    · next hgoal =>
      -- neither the target nor the snapshot knows the instrument
      have hfull := hgoal.resolve_left hid.1
      have hwants : target.val.wants id = 0 := by
        rw [TargetPortfolioFields.wants, lookup_eq_none.2 (by simpa using hid.1)]
        rfl
      rw [hwants, PortfolioSnapshotFields.quantity, PortfolioSnapshotFields.position?,
        lookup_eq_none.2 (by simpa using hid.2 hfull)]
      rfl
    · rfl

theorem fits_wants (target : TargetPortfolio) (id : Str) : Fits 40 (target.val.wants id) := by
  rw [TargetPortfolioFields.wants]
  cases lookup (target.val.targets.map fun p => (p.val.instrumentId, p)) id with
  | none => exact .zero
  | some p =>
    have hpasses := p.passes
    simp only [PositionTargetFields.postInit, eq_ok, canonicalPersistedDecimal_eq_ok] at hpasses
    obtain ⟨_, -, _, -, _, -, _, -, _, -, _, ⟨hpersisted, -⟩, -⟩ := hpasses
    exact (isPersisted_iff.1 hpersisted).mono (by decide)

/-- **A portfolio that is where it should be needs no intents.** -/
theorem targetToIntentBatch_settled (hasOf : target.val.asOf = snapshot.val.asOf)
    (hid : requireTrimmed (intentBatchId H target snapshot) "intent_batch_id" = .ok ())
    (hgoal : ∀ id ∈ convertedIds target.val snapshot.val,
      snapshot.val.quantity id = target.val.wants id) :
    ∃ batch, targetToIntentBatch H target snapshot = .ok batch ∧ batch.val.intents = [] := by
  have hstays : ∀ id ∈ convertedIds target.val snapshot.val,
      ∃ intent, convertTarget H target snapshot id = .ok intent := by
    intro id hmem
    have hzero : exactDecimalSubtract (target.val.wants id) (snapshot.val.quantity id) = .ok 0 := by
      rw [hgoal id hmem, exactDecimalSubtract_of_fits (fits_wants target id) (fits_wants target id),
        sub_self]
    exact ⟨none, bind_eq_ok.2 ⟨0, hzero, rfl⟩⟩
  obtain ⟨converted, hconverted⟩ := exists_mapM hstays
  have hnone : converted.reduceOption = [] := by
    refine List.map_eq_nil_iff.1 ((convertTargets_moves hconverted).trans ?_)
    exact List.flatMap_eq_nil_iff.2 fun id hmem => if_pos (sub_eq_zero.2 (hgoal id hmem).symm)
  have hchecks : OrderIntentBatchFields.postInit ⟨intentBatchId H target snapshot,
      target.val.targetId, H.targetPortfolio target, H.portfolioSnapshot snapshot,
      target.val.decisionTrigger, []⟩ = .ok () := by
    have hpasses := target.passes
    simp only [TargetPortfolioFields.postInit, bind_eq_ok] at hpasses
    obtain ⟨_, htarget, _, -, _, -, _, htrigger, -⟩ := hpasses
    simp only [OrderIntentBatchFields.postInit, bind_eq_ok]
    exact ⟨(), hid, (), htarget, (), htrigger, (), rfl, rfl⟩
  refine ⟨⟨_, hchecks⟩, ?_, rfl⟩
  simp only [targetToIntentBatch, eq_ok, construct_eq_ok]
  exact ⟨(), raiseIf_eq_ok.2 (not_not.2 hasOf), converted, hconverted, by rw [hnone]⟩

end portfolio

/-! ## A daily target -/

/-- **Fills, live commitments and new intents make up a daily target**, if it was converted without
reasons. -/
theorem dailyTargetToIntents_reaches {H : EngineHashes} {target : DailyTarget}
    {snapshot : AccountSnapshot} {strategyPin : VersionPin} {batch : DailyIntentBatch}
    (h : dailyTargetToIntents H target snapshot strategyPin = .ok batch)
    (hnil : batch.reasons = []) : (∀ id ∈ targetInstruments target snapshot,
        snapshot.held id + snapshot.committed id + moved batch.intents id = target.wants id) ∧
      (∀ i ∈ batch.intents, ∀ c ∈ snapshot.pending, c.val.instrumentId ≠ i.val.instrumentId) ∧
      (target.reduceOnlyScope → ∀ i ∈ batch.intents, i.val.side = .sell) := by
  simp only [dailyTargetToIntents, eq_ok] at h
  obtain ⟨_, -, _, -, _, -, trigger, -, c, hc, rfl⟩ := h
  have hreasons : c.reasons = [] := by
    refine List.eq_nil_iff_forall_not_mem.2 fun reason hreason => ?_
    exact List.eq_nil_iff_forall_not_mem.1 hnil reason (mem_sortOn.2 (List.mem_dedup.2 hreason))
  have hconverted := converted_of_ok hc
  have hnodup : (targetInstruments target snapshot).Nodup := nodup_sortOn.2 (List.nodup_dedup _)
  simp only [if_pos hreasons]
  refine ⟨fun id hid => ?_, fun i hi other hother => ?_, hconverted.reduces⟩
  · rw [moved_eq hnodup (hconverted.moves hreasons), if_pos hid, DailyTarget.lacks]
    ring
  · simpa using List.filter_eq_nil_iff.1 (hconverted.idle i hi) other hother

/-- **Conversions reach their targets.**  Filling the batch of a complete target takes a snapshot
exactly to it, with at most one intent for an instrument, and converting the outcome gives an empty
batch; a daily target that is converted without reasons is made up of fills, live commitments and
new intents, with no intent beside a live commitment and only sales in a reduce-only scope. -/
theorem conversions_reach_target (H : IntentHashes) (E : EngineHashes) :
    (∀ target snapshot batch, targetToIntentBatch H target snapshot = .ok batch →
      (∀ id, snapshot.val.quantity id + moved batch.val.intents id =
        target.val.goal snapshot.val id) ∧
      (batch.val.intents.map (·.val.instrumentId)).Nodup ∧
      ∀ filled : PortfolioSnapshot, filled.val.asOf = snapshot.val.asOf →
        (∀ id, filled.val.quantity id =
          snapshot.val.quantity id + moved batch.val.intents id) →
        requireTrimmed (intentBatchId H target filled) "intent_batch_id" = .ok () →
        ∃ again, targetToIntentBatch H target filled = .ok again ∧ again.val.intents = []) ∧
    ∀ target snapshot strategyPin batch,
      dailyTargetToIntents E target snapshot strategyPin = .ok batch → batch.reasons = [] →
      (∀ id ∈ targetInstruments target snapshot,
        snapshot.held id + snapshot.committed id + moved batch.intents id = target.wants id) ∧
      (∀ i ∈ batch.intents, ∀ c ∈ snapshot.pending, c.val.instrumentId ≠ i.val.instrumentId) ∧
      (target.reduceOnlyScope → ∀ i ∈ batch.intents, i.val.side = .sell) := by
  refine ⟨fun target snapshot batch h => ?_, fun _ _ _ _ => dailyTargetToIntents_reaches⟩
  obtain ⟨hgoal, hnodup⟩ := targetToIntentBatch_reaches h
  refine ⟨hgoal, hnodup, fun filled hasOf hfilled hid => ?_⟩
  have htime : target.val.asOf = snapshot.val.asOf := by
    simp only [targetToIntentBatch, Py.eq_ok] at h
    exact h.choose_spec.1
  refine targetToIntentBatch_settled (htime.trans hasOf.symm) hid fun id hmem => ?_
  rw [hfilled, hgoal, TargetPortfolioFields.goal,
    if_pos ((mem_convertedIds.1 hmem).imp_right And.left)]

/-- The portfolio of the sample after its purchase. -/
def sampleFilled : PortfolioSnapshot :=
  ⟨⟨100, [⟨⟨"instrument", "ACME", 5⟩, by decide +kernel⟩], []⟩, by decide +kernel⟩

/-- Five shares are bought for a portfolio without any, and a position of ten is sold. -/
def sampleConversions : Py (PortfolioSnapshot × OrderIntentBatch × DailyTarget × AccountSnapshot ×
    DailyIntentBatch) := do
  let price ← samplePrice
  let snapshot ← construct ⟨100, [], [⟨price⟩]⟩
  let batch ← targetToIntentBatch BatchHashes.plain.toIntentHashes sampleTargetPortfolio snapshot
  let sales ← sampleSales []
  let daily ← dailyTargetToIntents .plain sales.2.2.1.target sales.2.1
    ⟨"strategy", "1", "pin"⟩
  return (snapshot, batch, sales.2.2.1.target, sales.2.1, daily)

theorem samples_reach_target : ∃ (snapshot : PortfolioSnapshot) (batch again : OrderIntentBatch)
    (account : AccountSnapshot) (daily : DailyIntentBatch),
    snapshot.val.positions = [] ∧ batch.val.intents.length = 1 ∧
      snapshot.val.quantity "instrument" + moved batch.val.intents "instrument" = 5 ∧
      targetToIntentBatch BatchHashes.plain.toIntentHashes sampleTargetPortfolio sampleFilled =
        .ok again ∧ again.val.intents = [] ∧
      account.held "i1" = 10 ∧ daily.intents.length = 1 ∧
      account.held "i1" + account.committed "i1" + moved daily.intents "i1" = 0 := by
  have h : (fun x => decide (x.1.val.asOf = 100 ∧ x.1.val.positions = [] ∧
      x.2.1.val.intents.length = 1 ∧ Str.of "i1" ∈ targetInstruments x.2.2.1 x.2.2.2.1 ∧
      x.2.2.1.wants "i1" = 0 ∧ x.2.2.2.1.held "i1" = 10 ∧ x.2.2.2.2.intents.length = 1 ∧
      x.2.2.2.2.reasons = [])) <$> sampleConversions = .ok true := by
    decide +kernel
  simp only [sampleConversions, eq_ok, decide_eq_true_eq] at h
  obtain ⟨_, ⟨price, -, snapshot, -, batch, hbatch, sales, -, daily, hdaily, rfl⟩, hasOf, hempty,
    hone, hmem, hwants, hheld, hdailyOne, hreasons⟩ := h
  obtain ⟨hportfolio, haccount⟩ :=
    conversions_reach_target BatchHashes.plain.toIntentHashes .plain
  obtain ⟨hgoal, -, hagain⟩ := hportfolio _ _ _ hbatch
  have hfilled : ∀ id, sampleFilled.val.quantity id = sampleTargetPortfolio.val.goal
      snapshot.val id := by
    intro id
    rw [TargetPortfolioFields.goal, if_pos (.inr rfl), PortfolioSnapshotFields.quantity,
      PortfolioSnapshotFields.position?, TargetPortfolioFields.wants, sampleFilled,
      sampleTargetPortfolio, List.map_singleton, List.map_singleton, ← List.nil_append [_],
      lookup_append_singleton, ← List.nil_append [_], lookup_append_singleton]
    split <;> rfl
  obtain ⟨again, hagain, hnone⟩ := hagain sampleFilled hasOf.symm
    (fun id => (hfilled id).trans (hgoal id).symm) (by decide +kernel)
  refine ⟨snapshot, batch, again, sales.2.1, daily, hempty, hone, ?_, hagain, hnone,
    hheld, hdailyOne, ((haccount _ _ _ _ hdaily hreasons).1 _ hmem).trans hwants⟩
  rw [hgoal, ← hfilled]
  rfl

end AutoQuantTrader
