import Mathlib.Tactic.Ring
import AutoQuantTrader.DailyRisk
import AutoQuantTrader.TargetConversion

/-!
# What an approved batch satisfies

An evaluation that gives no reason has passed every check, so an approved batch says what each of
its intents holds, that the holds fit into the available cash, and that a sale is covered.  The
conversion of a target, in turn, makes at most one intent for an instrument, and none for one that
has a live commitment.
-/

namespace AutoQuantTrader

open Result Sorting

variable {H : EngineHashes}

/-! ## Reasons -/

@[simp] theorem reasonIf_eq_nil {bad : Prop} [Decidable bad] :
    reasonIf bad reason = [] ↔ ¬ bad := by
  unfold reasonIf
  split <;> simp_all

@[simp] theorem RiskTotals.addReasons_reasons (t : RiskTotals) (reasons : List Str) :
    (t.addReasons reasons).reasons = t.reasons ++ reasons := rfl

/-- What a step adds to the totals: it may add reasons, and it holds nothing. -/
structure RiskTotals.Notes (t t' : RiskTotals) : Prop where
  reasons : t'.reasons = [] → t.reasons = []
  cash : t'.cash = t.cash
  shares : t'.shares = t.shares

variable {t t' : RiskTotals}

theorem RiskTotals.Notes.trans (h : t.Notes t') (h' : t'.Notes t'') : t.Notes t'' :=
  ⟨fun hnil => h.reasons (h'.reasons hnil), h'.cash.trans h.cash, h'.shares.trans h.shares⟩

theorem RiskTotals.notes_addReasons (t : RiskTotals) (reasons : List Str) :
    t.Notes (t.addReasons reasons) :=
  ⟨fun hnil => (List.append_eq_nil_iff.1 hnil).1, rfl, rfl⟩

theorem RiskTotals.notes_exposure (t : RiskTotals) (exposure : Dict Str ℚ) :
    t.Notes { t with exposure } :=
  ⟨id, rfl, rfl⟩

variable {snapshot : AccountSnapshot}

theorem positionExposure_notes (h : positionExposure snapshot t position = .ok t') :
    t.Notes t' := by
  unfold positionExposure at h
  have hshort := t.notes_addReasons (reasonIf (position.quantity < 0) "SHORT_POSITION_UNSUPPORTED")
  dsimp only at h
  split at h
  · rw [pure_eq_ok] at h
    exact h ▸ hshort
  · split at h
    · rw [pure_eq_ok] at h
      exact h ▸ hshort.trans (RiskTotals.notes_addReasons _ _)
    · simp only [eq_ok] at h
      obtain ⟨value, -, rfl⟩ := h
      exact hshort.trans (RiskTotals.notes_exposure _ _)

theorem commitmentExposure_notes (h : commitmentExposure snapshot t c = .ok t') : t.Notes t' := by
  unfold commitmentExposure at h
  split at h
  · rw [pure_eq_ok] at h
    exact h ▸ ⟨id, rfl, rfl⟩
  · split at h
    · rw [pure_eq_ok] at h
      exact h ▸ RiskTotals.notes_addReasons _ _
    · simp only [eq_ok] at h
      obtain ⟨value, -, total, -, rfl⟩ := h
      exact RiskTotals.notes_exposure _ _

theorem foldlM_notes {α : Type} {step : RiskTotals → α → Py RiskTotals} {items : List α}
    (hstep : ∀ a t t', step t a = .ok t' → t.Notes t') (h : items.foldlM step t = .ok t') :
    t.Notes t' :=
  foldlM_invariant (t.Notes ·) (fun s a s' _ hs ha => hs.trans (hstep a s s' ha)) ⟨id, rfl, rfl⟩ h

/-! ## Intents -/

/-- The cash an approved intent holds. -/
def holdOf (policy : DailyRiskPolicy) (intent : OrderIntent) : ℚ :=
  match intent.val.side with
  | .buy => intent.val.quantity * intent.val.referencePrice *
      (1 + policy.val.adverseReserveFraction) + intent.val.quantity * policy.val.feePerShare
  | .sell => intent.val.quantity * policy.val.feePerShare

/-- The shares an approved intent holds, under its identity. -/
def sharesOf (intent : OrderIntent) : List (Str × ℚ) :=
  match intent.val.side with
  | .buy => []
  | .sell => [(intent.val.intentId, intent.val.quantity)]

/-- An intent that has passed every check of the decision phase. -/
structure PassesRisk (policy : DailyRiskPolicy) (snapshot : AccountSnapshot)
    (others : List Commitment) (evaluatedAt : Instant) (intent : OrderIntent) : Prop where
  mark : ∃ mark, snapshot.mark? intent.val.instrumentId = some mark ∧
    mark.val.symbol = intent.val.symbol
  createdAt : intent.val.createdAt = evaluatedAt
  persisted : isPersisted (holdOf policy intent)
  shares : intent.val.side = .sell → ∃ position held,
    snapshot.position? intent.val.instrumentId = some position ∧
    exactDecimalSum ((others.filter (·.val.instrumentId = intent.val.instrumentId)).map
      (·.val.reservedSellQuantity)) = .ok held ∧ intent.val.quantity ≤ position.quantity - held

section intents

variable {policy : DailyRiskPolicy} {snapshot : AccountSnapshot} {batch : DailyIntentBatch}
  {evaluatedAt : Instant}

/-- What an intent holds and exposes, and what a sale has been checked against. -/
theorem intentHold_spec
    (h : intentHold policy snapshot batch others intent notional fee t = .ok (t', hold))
    (hnil : t'.reasons = []) :
    t.reasons = [] ∧ t'.cash = t.cash ∧ t'.shares = t.shares ++ sharesOf intent ∧
      (t'.exposure = match intent.val.side with
        | .buy => t.exposure.set intent.val.instrumentId
            (t.exposure.getD intent.val.instrumentId 0 + notional)
        | .sell => t.exposure) ∧
      (hold = match intent.val.side with
        | .buy => notional * (1 + policy.val.adverseReserveFraction) + fee
        | .sell => fee) ∧
      (intent.val.side = .sell → ∃ position held,
        snapshot.position? intent.val.instrumentId = some position ∧
        exactDecimalSum ((others.filter (·.val.instrumentId = intent.val.instrumentId)).map
          (·.val.reservedSellQuantity)) = .ok held ∧
        intent.val.quantity ≤ position.quantity - held) := by
  cases hside : intent.val.side with
  | buy =>
    simp only [intentHold, hside, buyHold, eq_ok, Prod.mk.injEq] at h
    obtain ⟨factor, hfactor, adverse, hadverse, total, htotal, exposure, hexposure, rfl, rfl⟩ := h
    refine ⟨(List.append_eq_nil_iff.1 hnil).1, rfl, ?_, ?_, ?_, fun hsell => by cases hsell⟩
    · rw [sharesOf, hside, List.append_nil]
      rfl
    · rw [exactDecimalAdd_eq hexposure]
      rfl
    · rw [exactDecimalAdd_eq htotal, exactDecimalMultiply_eq hadverse, exactDecimalAdd_eq hfactor]
  | sell =>
    simp only [intentHold, hside, sellHold, eq_ok, Prod.mk.injEq] at h
    obtain ⟨held, hheld, exceeds, hexceeds, rfl, rfl⟩ := h
    obtain ⟨hreasons, hcovered⟩ := List.append_eq_nil_iff.1 hnil
    rw [reasonIf_eq_nil, Bool.not_eq_true] at hcovered
    refine ⟨hreasons, rfl, by rw [sharesOf, hside]; rfl, rfl, rfl, fun _ => ?_⟩
    unfold exceedsUncommitted at hexceeds
    split at hexceeds
    · rw [pure_eq_ok, hcovered] at hexceeds
      cases hexceeds
    · next position hposition =>
      simp only [eq_ok] at hexceeds
      obtain ⟨free, hfree, hfits⟩ := hexceeds
      rw [hcovered, decide_eq_false_iff_not, not_lt, exactDecimalSubtract_eq hfree] at hfits
      exact ⟨position, held, hposition, hheld, hfits⟩

/-- An intent without reasons is held at its own cost. -/
theorem intentAtMark_spec (hphase : e.phase = .decision)
    (hmark : snapshot.mark? intent.val.instrumentId = some mark)
    (hsymbol : mark.val.symbol = intent.val.symbol)
    (h : intentAtMark H policy snapshot batch e evaluatedAt replaced others intent mark t = .ok t')
    (hnil : t'.reasons = []) :
    t.reasons = [] ∧ t'.cash = t.cash ++ [(intent.val.intentId, holdOf policy intent)] ∧
      t'.shares = t.shares ++ sharesOf intent ∧
      PassesRisk policy snapshot others evaluatedAt intent := by
  simp only [intentAtMark, eq_ok] at h
  obtain ⟨notional, hnotional, overNav, -, fee, hfee, ⟨held, hold⟩, hhold, rfl⟩ := h
  obtain ⟨hreasons, hpersisted⟩ := List.append_eq_nil_iff.1 hnil
  rw [reasonIf_eq_nil, not_not] at hpersisted
  obtain ⟨hreasons, hcash, hshares, -, hformula, hcovered⟩ := intentHold_spec hhold hreasons
  simp only [RiskTotals.addReasons_reasons, List.append_eq_nil_iff, markReasons, reasonIf_eq_nil,
    not_and, not_or, not_not, hphase, forall_const] at hreasons
  obtain ⟨⟨hreasons, ⟨-, -, hcreated, hprice⟩, -⟩, -⟩ := hreasons
  have hvalue : hold = holdOf policy intent := by
    rw [hformula, holdOf, exactDecimalMultiply_eq hnotional, exactDecimalMultiply_eq hfee, hprice]
  refine ⟨hreasons, ?_, hshares, ⟨mark, hmark, hsymbol⟩, hcreated, hvalue ▸ hpersisted, hcovered⟩
  rw [← hvalue]
  exact congrArg (· ++ [(intent.val.intentId, hold)]) hcash

/-- An intent that gives no reason has passed every check, and its hold has been added. -/
theorem evaluateIntent_spec (hphase : e.phase = .decision)
    (h : evaluateIntent H policy snapshot batch e evaluatedAt replaced others t intent = .ok t')
    (hnil : t'.reasons = []) :
    t.reasons = [] ∧ t'.cash = t.cash ++ [(intent.val.intentId, holdOf policy intent)] ∧
      t'.shares = t.shares ++ sharesOf intent ∧
      PassesRisk policy snapshot others evaluatedAt intent := by
  unfold evaluateIntent at h
  split at h
  · rw [pure_eq_ok] at h
    rw [← h, RiskTotals.addReasons_reasons, List.append_eq_nil_iff] at hnil
    cases hnil.2
  · next mark hmark =>
    split at h
    · rw [pure_eq_ok] at h
      rw [← h, RiskTotals.addReasons_reasons, List.append_eq_nil_iff] at hnil
      cases hnil.2
    · next hbinds =>
      rw [not_or, not_not] at hbinds
      have hmark' : snapshot.mark? intent.val.instrumentId = some mark :=
        (Option.filter_eq_some_iff.1 hmark).1
      exact intentAtMark_spec hphase hmark' hbinds.1 h hnil

/-- The evaluation of a whole batch that gives no reason. -/
theorem evaluateIntents_spec {intents : List OrderIntent} (hphase : e.phase = .decision)
    (h : intents.foldlM (evaluateIntent H policy snapshot batch e evaluatedAt replaced others) t =
      .ok t') (hnil : t'.reasons = []) :
    t.reasons = [] ∧
      t'.cash = t.cash ++ intents.map (fun i => (i.val.intentId, holdOf policy i)) ∧
      t'.shares = t.shares ++ intents.flatMap sharesOf ∧
      ∀ i ∈ intents, PassesRisk policy snapshot others evaluatedAt i := by
  induction intents generalizing t with
  | nil =>
    rw [foldlM_nil_eq_ok] at h
    subst h
    exact ⟨hnil, by simp, by simp, by simp⟩
  | cons intent rest ih =>
    obtain ⟨next, hnext, hrest⟩ := foldlM_cons_eq_ok.1 h
    obtain ⟨hreasons, hcash, hshares, hpass⟩ := ih hrest
    obtain ⟨hreasons₀, hcash₀, hshares₀, hpass₀⟩ := evaluateIntent_spec hphase hnext hreasons
    refine ⟨hreasons₀, by rw [hcash, hcash₀]; simp, by rw [hshares, hshares₀]; simp, ?_⟩
    intro i hi
    rcases List.mem_cons.1 hi with rfl | hmem
    · exact hpass₀
    · exact hpass i hmem

/-! ## The whole batch -/

/-- A batch that risk has approved for a decision. -/
structure ApprovesBatch (H : EngineHashes) (policy : DailyRiskPolicy) (snapshot : AccountSnapshot)
    (batch : DailyIntentBatch) (evaluatedAt : Instant) (decision : DailyRiskDecision) : Prop where
  ids : (batch.intents.map (·.val.intentId)).Nodup
  unhalted : snapshot.halted = false
  unexpired : evaluatedAt < batch.target.expiresAt
  policySha256 : decision.policySha256 = H.riskPolicy policy
  cash : decision.reservedCashByIntent =
    sortedPairs (batch.intents.map fun i => (i.val.intentId, holdOf policy i))
  shares : decision.reservedSharesByIntent = sortedPairs (batch.intents.flatMap sharesOf)
  covered : (batch.intents.map (holdOf policy)).sum ≤ snapshot.availableCash
  passes : ∀ i ∈ batch.intents, PassesRisk policy snapshot snapshot.pending evaluatedAt i

theorem replacedCommitments_decision (snapshot : AccountSnapshot) (ids : List Str) :
    replacedCommitments snapshot ids .decision = [] := by
  simp [replacedCommitments]

theorem otherCommitments_decision (snapshot : AccountSnapshot) (ids : List Str) :
    otherCommitments snapshot ids .decision = snapshot.pending := by
  simp [otherCommitments, replacedCommitments_decision]

theorem navLimit_eq_nil (h : navLimit (some nav) fraction amount reason = .ok []) :
    amount ≤ nav * fraction := by
  simp only [navLimit, eq_ok, reasonIf_eq_nil, not_lt] at h
  obtain ⟨limit, hlimit, hfits⟩ := h
  exact hfits.trans_eq (exactDecimalMultiply_eq hlimit)

/-- A batch within its limits holds no more than is available and what it replaces, and its exposure
stays below the fractions of the net asset value. -/
theorem batchLimits_spec (h : batchLimits policy snapshot batch replaced t = .ok []) :
    (t.cash.map (·.2)).sum ≤
        snapshot.availableCash + (replaced.map (·.val.reservedCash)).sum ∧
      ∀ nav, snapshot.nav = some nav →
        ¬ (batch.target.reduceOnlyScope ∧ ∀ intent ∈ batch.intents, intent.val.side = .sell) →
        t.exposure.values.sum ≤ nav * policy.val.maxGrossNavFraction ∧
          ∀ amount ∈ t.exposure.values, amount ≤ nav * policy.val.maxSymbolNavFraction := by
  simp only [batchLimits, eq_ok] at h
  obtain ⟨released, hreleased, spendable, hspendable, holds, hholds, h⟩ := h
  have hspend (hcash : reasonIf (spendable < holds) "INSUFFICIENT_SETTLED_UNCOMMITTED_CASH" = []) :
      (t.cash.map (·.2)).sum ≤
        snapshot.availableCash + (replaced.map (·.val.reservedCash)).sum := by
    rwa [reasonIf_eq_nil, not_lt, exactDecimalSum_eq hholds, exactDecimalAdd_eq hspendable,
      exactDecimalSum_eq hreleased] at hcash
  cases hnav : snapshot.nav with
  | none =>
    simp only [hnav, pure_eq_ok] at h
    exact ⟨hspend h, fun nav hsome => by cases hsome⟩
  | some nav =>
    simp only [hnav, eq_ok, List.append_eq_nil_iff] at h
    obtain ⟨total, -, overBatch, -, gross, hgross, overGross, hoverGross, overSymbols, hoverSymbols,
      ⟨hcash, -⟩, hlimits⟩ := h
    refine ⟨hspend hcash, fun nav' hsome hrepair => ?_⟩
    rw [if_neg hrepair, List.append_eq_nil_iff, List.flatten_eq_nil_iff] at hlimits
    obtain ⟨rfl, hsymbols⟩ := hlimits
    obtain rfl := Option.some.inj hsome
    refine ⟨exactDecimalSum_eq hgross ▸ navLimit_eq_nil hoverGross, fun amount hamount => ?_⟩
    obtain ⟨reasons, hreasons, hlimit⟩ := exists_mem_of_mapM hoverSymbols hamount
    exact navLimit_eq_nil (hsymbols _ hreasons ▸ hlimit)

/-- **An approval has passed every check.** -/
theorem approvesBatch_of_approved {decision : DailyRiskDecision} (hphase : e.phase = .decision)
    (h : evaluateDailyRisk H policy snapshot batch e evaluatedAt = .ok decision)
    (happroved : decision.approved = true) :
    ApprovesBatch H policy snapshot batch evaluatedAt decision ∧
      e.requestCapacityAvailable = true := by
  simp only [evaluateDailyRisk, eq_ok, hphase, replacedCommitments_decision,
    otherCommitments_decision] at h
  obtain ⟨t₁, ht₁, t₂, ht₂, t₃, ht₃, limits, hlimits, rfl⟩ := h
  rw [decide_eq_true_eq] at happroved
  obtain ⟨hreasons₃, rfl⟩ := List.append_eq_nil_iff.1 happroved
  obtain ⟨hreasons₂, hcash₃, hshares₃, hpasses⟩ := evaluateIntents_spec hphase ht₃ hreasons₃
  have hnotes := (foldlM_notes (fun _ _ _ => positionExposure_notes) ht₁).trans
    (foldlM_notes (fun _ _ _ => commitmentExposure_notes) ht₂)
  have hscope := hnotes.reasons hreasons₂
  have hcash : t₃.cash = batch.intents.map fun i => (i.val.intentId, holdOf policy i) := by
    rw [hcash₃, hnotes.cash, List.nil_append]
  have hshares : t₃.shares = batch.intents.flatMap sharesOf := by
    rw [hshares₃, hnotes.shares, List.nil_append]
  simp only [scopeReasons, List.append_eq_nil_iff, reasonIf_eq_nil, not_not, not_or] at hscope
  obtain ⟨⟨⟨⟨⟨⟨⟨⟨⟨⟨⟨⟨⟨⟨-, hids⟩, -⟩, -⟩, hflags⟩, hopen⟩, -⟩, -⟩, -⟩, hexpires⟩, -⟩, -⟩, -⟩, -⟩,
    -⟩ := hscope
  simp only [evidenceFlags, List.append_eq_nil_iff, reasonIf_eq_nil, not_not] at hflags
  have hcovered := (batchLimits_spec hlimits).1
  rw [hcash, List.map_map, List.map_nil, List.sum_nil, add_zero] at hcovered
  refine ⟨?_, hflags.1.2⟩
  exact {
    ids := hids
    unhalted := Bool.not_eq_true _ ▸ hopen
    unexpired := not_le.1 hexpires
    policySha256 := rfl
    cash := (if_pos happroved).trans (congrArg sortedPairs hcash)
    shares := (if_pos happroved).trans (congrArg sortedPairs hshares)
    covered := hcovered
    passes := hpasses }

end intents

/-! ## The conversion of a target -/

/-- What a conversion makes of a target. -/
structure Converts (target : DailyTarget) (snapshot : AccountSnapshot) (batch : DailyIntentBatch) :
    Prop where
  source : batch.target = target
  window : target.notBefore < target.expiresAt
  instruments : (batch.intents.map (·.val.instrumentId)).Nodup
  idle : ∀ i ∈ batch.intents,
    snapshot.pending.filter (·.val.instrumentId = i.val.instrumentId) = []

section conversion

/-- An accepted batch converts its target. -/
theorem converts_of_ok (h : dailyTargetToIntents H target snapshot strategyPin = .ok batch) :
    Converts target snapshot batch := by
  simp only [dailyTargetToIntents, Py.eq_ok, not_or, not_le] at h
  obtain ⟨_, -, _, ⟨-, hwindow⟩, _, -, trigger, -, c, hc, rfl⟩ := h
  have hconverted := converted_of_ok hc
  have hnodup : (targetInstruments target snapshot).Nodup := nodup_sortOn.2 (List.nodup_dedup _)
  refine ⟨rfl, hwindow, ?_, ?_⟩
  · split
    · next hnil => exact moved_nodup hnodup (hconverted.moves hnil)
    · exact List.nodup_nil
  · intro i hi
    split at hi
    · exact hconverted.idle i hi
    · cases hi

end conversion

end AutoQuantTrader
