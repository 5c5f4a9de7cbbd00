import AutoQuantTrader.BatchRisk

/-!
# What an approval says

An approved batch fits the limits together with everything that was held before: the figures the
rules compare are sums over the active holds and the terms of the batch.
-/

namespace AutoQuantTrader

open Result Sorting

/-! ## Amounts by instrument -/

/-- What the pairs add up to under one key. -/
def amountAt (pairs : List (Str × ℚ)) (key : Str) : ℚ :=
  ((pairs.filter (·.1 = key)).map (·.2)).sum

theorem amountAt_append (pairs pairs' : List (Str × ℚ)) (key : Str) :
    amountAt (pairs ++ pairs') key = amountAt pairs key + amountAt pairs' key := by
  simp [amountAt]

theorem amountAt_of_not_mem (h : key ∉ pairs.map (·.1)) : amountAt pairs key = 0 := by
  have hnone : pairs.filter (·.1 = key) = [] := by
    rw [List.filter_eq_nil_iff]
    intro pair hpair hkey
    exact h (List.mem_map.2 ⟨pair, hpair, by simpa using hkey⟩)
  rw [amountAt, hnone, List.map_nil, List.sum_nil]

theorem amountAt_perm (h : pairs.Perm pairs') (key : Str) :
    amountAt pairs key = amountAt pairs' key :=
  ((h.filter _).map _).sum_eq

/-- Adding amounts adds up what the pairs have under every key. -/
theorem addAmounts_eq (h : addAmounts amounts pairs = .ok amounts') :
    (∀ key, amounts'.getD key 0 = amounts.getD key 0 + amountAt pairs key) ∧
      ∀ key, key ∈ amounts'.keys ↔ key ∈ amounts.keys ∨ key ∈ pairs.map (·.1) := by
  refine foldlM_invariant_done (fun done d => (∀ key, d.getD key 0 = amounts.getD key 0 +
    amountAt done key) ∧ ∀ key, key ∈ d.keys ↔ key ∈ amounts.keys ∨ key ∈ done.map (·.1)) ?_
    ⟨by simp [amountAt], by simp⟩ h
  intro done pair d d' _ hd hstep
  simp only [eq_ok] at hstep
  obtain ⟨total, htotal, rfl⟩ := hstep
  refine ⟨fun key => ?_, fun key => ?_⟩
  · rw [amountAt_append, Dict.getD, Dict.get?_set, ← add_assoc, ← hd.1 key]
    by_cases hkey : key = pair.1
    · subst hkey
      simp [amountAt, exactDecimalAdd_eq htotal]
    · simp [amountAt, hkey, Ne.symm hkey, Dict.getD]
  · rw [Dict.mem_keys_set, hd.2, List.map_append, List.mem_append]
    simp only [List.map_cons, List.map_nil, List.mem_singleton]
    tauto

/-! ## The values of a portfolio -/

namespace PortfolioSnapshotFields

variable (portfolio : PortfolioSnapshotFields)

/-- The shares of an instrument that are held. -/
def quantityOf (instrumentId : Str) : ℚ :=
  ((portfolio.position? instrumentId).map (·.val.quantity)).getD 0

/-- What the shares of an instrument are worth at its price. -/
def valueOf (instrumentId : Str) : ℚ :=
  portfolio.quantityOf instrumentId * ((portfolio.price? instrumentId).map CausalPrice.price).getD 0

end PortfolioSnapshotFields

theorem quantity_nonneg (position : PortfolioPosition) : 0 ≤ position.val.quantity := by
  have h := position.passes
  simp only [PortfolioPositionFields.postInit, Py.eq_ok, not_or, not_lt] at h
  obtain ⟨_, -, _, -, _, ⟨hnonneg, -⟩, -⟩ := h
  exact hnonneg

theorem quantityOf_nonneg (portfolio : PortfolioSnapshot) (instrumentId : Str) :
    0 ≤ portfolio.val.quantityOf instrumentId := by
  unfold PortfolioSnapshotFields.quantityOf
  cases portfolio.val.position? instrumentId with
  | none => simp
  | some position => exact quantity_nonneg position

/-- The evidence lists the quantity and the value of every position. -/
theorem valueHoldings_eq {portfolio : PortfolioSnapshot}
    (h : portfolio.val.positions.foldlM (valueHolding portfolio) (.empty, .empty) = .ok values)
    (instrumentId : Str) :
    values.1.getD instrumentId 0 = portfolio.val.quantityOf instrumentId ∧
      values.2.getD instrumentId 0 = portfolio.val.valueOf instrumentId := by
  have hlookup := foldlM_invariant_done
    (fun done (values : PortfolioValues) =>
      let held :=
        lookup (done.map fun p : PortfolioPosition => (p.val.instrumentId, p)) instrumentId
      values.1.get? instrumentId = held.map (·.val.quantity) ∧
        values.2.get? instrumentId = held.map fun p => p.val.quantity *
          ((portfolio.val.price? instrumentId).map CausalPrice.price).getD 0)
    ?_ ⟨rfl, rfl⟩ h
  · obtain ⟨hquantity, hvalue⟩ := hlookup
    unfold PortfolioSnapshotFields.valueOf PortfolioSnapshotFields.quantityOf Dict.getD
    rw [hquantity, hvalue, PortfolioSnapshotFields.position?]
    cases lookup (portfolio.val.positions.map fun p => (p.val.instrumentId, p))
      instrumentId <;> simp
  · intro done position values values' _ hdone hstep
    simp only [valueHolding, eq_ok] at hstep
    obtain ⟨price, hprice, _, -, value, hvalue, rfl⟩ := hstep
    simp only [List.map_append, List.map_cons, List.map_nil, lookup_append_singleton, Dict.get?_set]
    by_cases hid : position.val.instrumentId = instrumentId
    · subst hid
      simp [hprice, exactDecimalMultiply_eq hvalue]
    · simpa [hid, Ne.symm hid] using hdone

/-! ## Holds -/

/-- What one order holds back of an account. -/
structure Hold where
  instrumentId : Str
  (cash shares exposure : ℚ)

namespace Hold

variable (holds : List Hold)

def totalCash : ℚ := (holds.map cash).sum

def totalExposure : ℚ := (holds.map exposure).sum

def sharesOf (instrumentId : Str) : ℚ :=
    amountAt (holds.map fun h => (h.instrumentId, h.shares)) instrumentId

def exposureOf (instrumentId : Str) : ℚ :=
  amountAt (holds.map fun h => (h.instrumentId, h.exposure)) instrumentId

end Hold

def ActiveCapacityAuthorizationFields.hold (a : ActiveCapacityAuthorizationFields) : Hold :=
  ⟨a.instrumentId, a.remainingCash, a.remainingSellQuantity, a.remainingBuyExposure⟩

def BatchRiskReservationTerms.hold (t : BatchRiskReservationTerms) : Hold :=
  ⟨t.intent.val.instrumentId, t.reservedCash, t.reservedSellQuantity, t.reservedBuyExposure⟩

def BatchRiskAuthorizationFields.hold (a : BatchRiskAuthorizationFields) : Hold :=
  ⟨a.instrumentId, a.reservedCash, a.reservedSellQuantity, a.reservedBuyExposure⟩

/-- **The holds fit the account**: its cash, its shares, its exposure limits and its order counts,
and no instrument is held twice. -/
structure FitsAccount (limits : BatchRiskLimitsFields) (snapshot : BatchRiskSnapshotFields)
    (holds : List Hold) : Prop where
  cash : Hold.totalCash holds ≤ snapshot.availableCash - limits.minimumCashBuffer
  shares : ∀ id, Hold.sharesOf holds id ≤ snapshot.portfolioSnapshot.val.quantityOf id
  exposure : ∀ id, snapshot.portfolioSnapshot.val.valueOf id + Hold.exposureOf holds id ≤
    limits.maxInstrumentGrossExposure
  gross : snapshot.currentGrossExposure + Hold.totalExposure holds ≤ limits.maxAccountGrossExposure
  distinct : (holds.map Hold.instrumentId).Nodup
  daily : (snapshot.dailyOrderCount + holds.length : Int) ≤ limits.maxDailyOrderCount
  open_ : (snapshot.openOrderCount + holds.length : Int) ≤ limits.maxOpenOrderCount

section measures

variable {H : BatchHashes} {batch : OrderIntentBatch} {snapshot : VersionedBatchRiskSnapshot H}
  {limits : BatchRiskLimits} {activeCapacity : ActiveCapacityUniverse} {values : PortfolioValues}
  {m : BatchRiskMeasures} {evaluatedAt : Instant} {decision : BatchRiskDecision H.canonicalId}

/-- The holds of an active capacity. -/
def ActiveCapacityUniverseFields.holds (u : ActiveCapacityUniverseFields) : List Hold :=
  u.authorizations.map (·.val.hold)

/-- The active cash is summed by reservation. -/
theorem activeCash_eq {reservations : List ActiveCapacityReservation}
    (h : exactDecimalSumOf (·.val.remainingCash) reservations = .ok cash) :
    cash = Hold.totalCash ((reservations.flatMap (·.val.authorizations)).map (·.val.hold)) := by
  refine foldlM_invariant_done (fun done total => total =
    Hold.totalCash ((done.flatMap (·.val.authorizations)).map (·.val.hold))) ?_ rfl h
  intro done r total total' _ htotal hstep
  simp only [eq_ok] at hstep
  obtain ⟨cash, hcash, hadd⟩ := hstep
  rw [exactDecimalAdd_eq hadd, exactDecimalSum_eq hcash, htotal]
  simp [Hold.totalCash, ActiveCapacityAuthorizationFields.hold, Function.comp_def]

/-- The figures of a batch, as sums over the holds. -/
structure Measures (snapshot : BatchRiskSnapshotFields) (limits : BatchRiskLimits)
    (intents : List OrderIntent) (active : List Hold) (values : PortfolioValues)
    (m : BatchRiskMeasures) : Prop where
  terms : intents.mapM (batchRiskReservationTerms limits) = .ok m.terms
  proposedCash : m.proposedCash = Hold.totalCash (m.terms.map (·.hold))
  proposedExposure : m.proposedExposure = Hold.totalExposure (m.terms.map (·.hold))
  cash : m.remainingCash = snapshot.availableCash - Hold.totalCash (active ++ m.terms.map (·.hold))
  shares : ∀ id, id ∈ (active ++ m.terms.map (·.hold)).map Hold.instrumentId →
    ∃ pair ∈ m.remainingShares,
      pair.2 = values.1.getD id 0 - Hold.sharesOf (active ++ m.terms.map (·.hold)) id
  exposure : ∀ id, m.instrumentExposure.getD id 0 =
    values.2.getD id 0 + Hold.exposureOf (active ++ m.terms.map (·.hold)) id
  gross : m.accountGross =
    snapshot.currentGrossExposure + Hold.totalExposure (active ++ m.terms.map (·.hold))

theorem remainingShares_eq {id : Str}
    (h : remainingShares quantities active proposed id = .ok pair) :
    pair.2 = quantities.getD id 0 - (active.getD id 0 + proposed.getD id 0) := by
  simp only [remainingShares, eq_ok] at h
  obtain ⟨unheld, hunheld, remaining, hremaining, rfl⟩ := h
  change remaining = _
  rw [exactDecimalSubtract_eq hremaining, exactDecimalSubtract_eq hunheld, sub_sub]

/-- What the source measures are the measures of the batch. -/
theorem measures_of_measureBatch
    (h : measureBatch H batch snapshot limits activeCapacity values = .ok m) :
    Measures snapshot.val limits batch.val.intents activeCapacity.val.holds values m ∧
      riskPrices H snapshot batch = .ok m.prices := by
  simp only [measureBatch, eq_ok] at h
  obtain ⟨terms, hterms, prices, hprices, notional, -, activeCash, hactiveCash, proposedCash,
    hproposedCash, unheld, hunheld, remaining, hremaining, activeSells, hactiveSells, proposedSells,
    hproposedSells, shares, hshares, held, hheld, exposure, hexposure, activeExposure,
    hactiveExposure, proposedExposure, hproposedExposure, added, hadded, gross, hgross, rfl⟩ := h
  obtain ⟨hactive, hactiveKeys⟩ := addAmounts_eq hactiveSells
  obtain ⟨hproposed, hproposedKeys⟩ := addAmounts_eq hproposedSells
  have htotal : Hold.totalCash activeCapacity.val.holds = activeCash :=
    (activeCash_eq hactiveCash).symm
  refine ⟨⟨hterms, ?_, ?_, ?_, fun id hid => ?_, fun id => ?_, ?_⟩, hprices⟩
  · simp [exactDecimalSum_eq hproposedCash, Hold.totalCash, BatchRiskReservationTerms.hold,
      Function.comp_def]
  · simp [exactDecimalSum_eq hproposedExposure, Hold.totalExposure, BatchRiskReservationTerms.hold,
      Function.comp_def]
  · change remaining = _
    rw [exactDecimalSubtract_eq hremaining, exactDecimalSubtract_eq hunheld,
      exactDecimalSum_eq hproposedCash, ← htotal, sub_sub]
    simp [Hold.totalCash, BatchRiskReservationTerms.hold, Function.comp_def]
  · have hkey : id ∈ sortedUnique (activeSells.keys ++ proposedSells.keys) := by
      simp only [sortedUnique, mem_sortOn, List.mem_dedup, List.mem_append, hactiveKeys,
        hproposedKeys]
      simpa [Dict.keys, Dict.empty, ActiveCapacityUniverseFields.holds,
        ActiveCapacityAuthorizationFields.hold, BatchRiskReservationTerms.hold] using hid
    obtain ⟨pair, hpair, hremains⟩ := exists_mem_of_mapM hshares hkey
    refine ⟨pair, hpair, ?_⟩
    rw [remainingShares_eq hremains, hactive, hproposed]
    simp [Hold.sharesOf, amountAt_append, ActiveCapacityUniverseFields.holds, Dict.getD,
      ActiveCapacityAuthorizationFields.hold, BatchRiskReservationTerms.hold, Function.comp_def]
  · rw [(addAmounts_eq hexposure).1, (addAmounts_eq hheld).1, add_assoc]
    simp [Hold.exposureOf, amountAt_append, ActiveCapacityUniverseFields.holds,
      ActiveCapacityAuthorizationFields.hold, BatchRiskReservationTerms.hold, Function.comp_def]
  · change gross = _
    rw [exactDecimalAdd_eq hgross, exactDecimalAdd_eq hadded, exactDecimalSum_eq hactiveExposure,
      exactDecimalSum_eq hproposedExposure]
    simp [Hold.totalExposure, ActiveCapacityUniverseFields.holds,
      ActiveCapacityAuthorizationFields.hold, BatchRiskReservationTerms.hold, Function.comp_def]

/-! ## Rules -/

/-- The rule passed. -/
theorem makeRule_passed {passed : Prop} [Decidable passed] :
    (makeRule rule passed observed limit).passed = true ↔ passed := by
  simp [makeRule]

/-- What the evidence rules of an approval say. -/
structure EvidenceHolds (H : BatchHashes) (batch : OrderIntentBatch)
    (snapshot : VersionedBatchRiskSnapshot H) (activeCapacity : ActiveCapacityUniverse)
    (evaluatedAt : Instant) : Prop where
  running : snapshot.val.operationalState = .running
  fresh : ∀ intent ∈ batch.val.intents,
    intent.val.instrumentId ∉ activeCapacity.val.holds.map Hold.instrumentId
  opened : snapshot.val.session.val.opensAt ≤ evaluatedAt

/-- If the evidence rules pass, the evidence is current and in scope. -/
theorem evidenceHolds_of_rules
    (h : ∀ rule ∈ evidenceRules H batch snapshot limits activeCapacity evaluatedAt m,
      rule.passed = true) : EvidenceHolds H batch snapshot activeCapacity evaluatedAt := by
  simp only [evidenceRules, List.forall_mem_cons, makeRule_passed] at h
  obtain ⟨hrunning, hreserved, -, -, hsession, -⟩ := h
  refine ⟨hrunning, fun intent hintent hactive => ?_, hsession.2.1.1⟩
  rw [List.filter_eq_nil_iff] at hreserved
  refine hreserved _ (List.mem_map_of_mem hintent) ?_
  simpa [ActiveCapacityUniverseFields.holds, ActiveCapacityAuthorizationFields.hold] using hactive

/-- What the capacity rules of an approval say. -/
structure CapacityHolds (limits : BatchRiskLimitsFields) (snapshot : BatchRiskSnapshotFields)
    (orders : Nat) (m : BatchRiskMeasures) : Prop where
  cash : limits.minimumCashBuffer ≤ m.remainingCash
  shares : ∀ pair ∈ m.remainingShares, 0 ≤ pair.2
  exposure : ∀ id, m.instrumentExposure.getD id 0 ≤ limits.maxInstrumentGrossExposure
  gross : m.accountGross ≤ limits.maxAccountGrossExposure
  daily : (snapshot.dailyOrderCount + orders : Int) ≤ limits.maxDailyOrderCount
  open_ : (snapshot.openOrderCount + orders : Int) ≤ limits.maxOpenOrderCount

/-- The exposure limit of an instrument is positive. -/
theorem maxInstrumentGrossExposure_nonneg (limits : BatchRiskLimits) :
    0 ≤ limits.val.maxInstrumentGrossExposure := by
  have h := limits.passes
  simp only [BatchRiskLimitsFields.postInit, Py.eq_ok, persistedDecimal_eq_ok] at h
  obtain ⟨_, -, _, -, _, -, _, -, _, -, _, -, _, -, _, ⟨⟨hnonneg, -⟩, -⟩, -⟩ := h
  exact hnonneg

/-- If the capacity rules pass, the measures are within the limits. -/
theorem capacityHolds_of_rules
    (h : ∀ rule ∈ capacityRules H batch snapshot limits activeCapacity m, rule.passed = true) :
    CapacityHolds limits.val snapshot.val
      (activeCapacity.val.authorizations.length + batch.val.intents.length) m := by
  simp only [capacityRules, List.forall_mem_cons, makeRule_passed] at h
  obtain ⟨-, -, -, hcash, hshares, hexposure, hgross, hdaily, hopen, -⟩ := h
  rw [List.filter_eq_nil_iff] at hshares hexposure
  refine ⟨hcash, fun pair hpair => ?_, fun id => ?_, hgross, by simpa using hdaily,
    by simpa using hopen⟩
  · simpa using hshares pair hpair
  · unfold Dict.getD
    cases hget : m.instrumentExposure.get? id with
    | none => exact maxInstrumentGrossExposure_nonneg limits
    | some value => simpa using hexposure (id, value) (Dict.get?_eq_some.1 hget)

/-! ## The terms of an approved batch -/

variable {t : BatchRiskReservationTerms}

/-- The terms of an intent are about that intent. -/
theorem intent_of_terms (h : batchRiskReservationTerms limits intent = .ok t) :
    t.intent = intent := by
  simp only [batchRiskReservationTerms, eq_ok] at h
  obtain ⟨_, -, _, -, _, -, _, -, _, -, _, -, _, -, _, -, _, -, _, -, _, -, _, -, rfl⟩ := h
  rfl

theorem map_intent_of_terms {intents : List OrderIntent}
    (h : intents.mapM (batchRiskReservationTerms limits) = .ok terms) :
    terms.map (·.intent) = intents := by
  have hmap := map_of_mapM (f := id) (g := fun t : BatchRiskReservationTerms => t.intent)
    (fun a b hb => intent_of_terms hb) h
  rwa [List.map_id] at hmap

/-- The holds that pass the rules fit the account. -/
theorem fitsAccount_of_rules (hmeasures : Measures snapshot.val limits batch.val.intents
      activeCapacity.val.holds values m)
    (hvalues : ∀ id, values.1.getD id 0 = snapshot.val.portfolioSnapshot.val.quantityOf id ∧
      values.2.getD id 0 = snapshot.val.portfolioSnapshot.val.valueOf id)
    (hevidence : EvidenceHolds H batch snapshot activeCapacity evaluatedAt)
    (hcapacity : CapacityHolds limits.val snapshot.val
      (activeCapacity.val.authorizations.length + batch.val.intents.length) m)
    (hactive : (activeCapacity.val.holds.map Hold.instrumentId).Nodup) :
    FitsAccount limits.val snapshot.val (activeCapacity.val.holds ++ m.terms.map (·.hold)) := by
  have hintents := map_intent_of_terms hmeasures.terms
  have hids : (m.terms.map (·.hold)).map Hold.instrumentId =
      batch.val.intents.map (·.val.instrumentId) := by
    rw [← hintents]
    simp [BatchRiskReservationTerms.hold, Function.comp_def]
  have hlength : (activeCapacity.val.holds ++ m.terms.map (·.hold)).length =
      activeCapacity.val.authorizations.length + batch.val.intents.length := by
    rw [← hintents]
    simp [ActiveCapacityUniverseFields.holds]
  refine ⟨?_, fun id => ?_, fun id => ?_, hmeasures.gross ▸ hcapacity.gross, ?_,
    hlength ▸ hcapacity.daily, hlength ▸ hcapacity.open_⟩
  · have hcash := hcapacity.cash
    rw [hmeasures.cash] at hcash
    linarith
  · by_cases hid : id ∈ (activeCapacity.val.holds ++ m.terms.map (·.hold)).map Hold.instrumentId
    · obtain ⟨pair, hpair, heq⟩ := hmeasures.shares id hid
      have hnonneg := hcapacity.shares pair hpair
      rw [heq, (hvalues id).1] at hnonneg
      linarith
    · -- nothing of the instrument is held back
      rw [Hold.sharesOf, amountAt_of_not_mem (by simpa [Function.comp_def] using hid)]
      exact quantityOf_nonneg _ id
  · rw [← (hvalues id).2, ← hmeasures.exposure]
    exact hcapacity.exposure id
  · rw [List.map_append, List.nodup_append, hids]
    refine ⟨hactive, ?_, fun id hid id' hid' => ?_⟩
    · have hbatch := batch.passes
      simp only [OrderIntentBatchFields.postInit, Py.eq_ok] at hbatch
      obtain ⟨_, -, _, -, _, -, _, hsorted, -⟩ := hbatch
      rw [hsorted, sortedUnique, nodup_sortOn]
      exact List.nodup_dedup _
    · obtain ⟨intent, hintent, rfl⟩ := List.mem_map.1 hid'
      rintro rfl
      exact hevidence.fresh intent hintent hid

/-! ## Expiry -/

/-- Every time-based rule of a decision holds at `t`. -/
structure RulesHoldAt (H : BatchHashes) (batch : OrderIntentBatch)
    (snapshot : VersionedBatchRiskSnapshot H) (limits : BatchRiskLimits) (t : Instant) : Prop where
  session : snapshot.val.session.val.contains t
  snapshotAge : t - snapshot.val.portfolioSnapshot.val.asOf < limits.val.maxSnapshotAge
  priceAge : ∀ id ∈ riskPriceIds H snapshot batch, ∃ price,
    snapshot.val.portfolioSnapshot.val.price? id = some price ∧
      t - price.eventTime < limits.val.maxPriceAge
  intents : ∀ intent ∈ batch.val.intents, t < intent.val.expiresAt
  running : snapshot.val.operationalState = .running

theorem foldl_min_le (deadlines : List Instant) (first : Instant) :
    deadlines.foldl min first ≤ first ∧ ∀ d ∈ deadlines, deadlines.foldl min first ≤ d := by
  induction deadlines generalizing first with
  | nil => simp
  | cons d rest ih =>
    obtain ⟨hfirst, hrest⟩ := ih (min first d)
    rw [List.foldl_cons]
    refine ⟨hfirst.trans (min_le_left _ _), fun d' hd' => ?_⟩
    rcases List.mem_cons.1 hd' with rfl | hmem
    · exact hfirst.trans (min_le_right _ _)
    · exact hrest d' hmem

/-- Before the expiry of a decision, none of its deadlines has passed. -/
theorem rulesHoldAt_of_expiry {t : Instant}
    (hexpiry : decisionExpiry H batch snapshot limits evaluatedAt = .ok expiresAt)
    (hevidence : EvidenceHolds H batch snapshot activeCapacity evaluatedAt) (hle : evaluatedAt ≤ t)
    (hlt : t < expiresAt) : RulesHoldAt H batch snapshot limits t := by
  simp only [decisionExpiry, eq_ok] at hexpiry
  obtain ⟨prices, hprices, rfl⟩ := hexpiry
  have hbefore := fun d hd => hlt.trans_le ((foldl_min_le _ _).2 d hd)
  refine ⟨⟨hevidence.opened.trans hle, hbefore _ (by simp)⟩, ?_, fun id hid => ?_,
    fun intent hintent => hbefore _ ?_, hevidence.running⟩
  · exact sub_lt_iff_lt_add'.2 (hbefore _ (by simp))
  · obtain ⟨price, hprice, hget⟩ := exists_mem_of_mapM hprices hid
    refine ⟨price, getOrThrow_eq_ok.1 hget, sub_lt_iff_lt_add'.2 (hbefore _ ?_)⟩
    exact List.mem_append_right _ (List.mem_map.2 ⟨price, hprice, rfl⟩)
  · simp only [List.mem_append, List.mem_map]
    exact .inl (.inr ⟨intent, hintent, rfl⟩)

/-! ## Approval -/

/-- **What it means that a batch was approved.** -/
structure Approval (H : BatchHashes) (batch : OrderIntentBatch)
    (snapshot : VersionedBatchRiskSnapshot H) (limits : BatchRiskLimits)
    (activeCapacity : ActiveCapacityUniverse) (evaluatedAt : Instant)
    (decision : BatchRiskDecision H.canonicalId) : Prop where
  approved : decision.val.status = .approved
  reservation : ∃ r, decision.val.reservation = some r ∧
    r.val.authorizations = decision.val.authorizations ∧
    r.val.snapshotSha256 = H.riskSnapshot snapshot.val
  fits : (activeCapacity.val.holds.map Hold.instrumentId).Nodup →
    FitsAccount limits.val snapshot.val
    (activeCapacity.val.holds ++ decision.val.authorizations.map (·.val.hold))
  fresh : ∀ a ∈ decision.val.authorizations,
    a.val.instrumentId ∉ activeCapacity.val.holds.map Hold.instrumentId
  lifetime : ∀ t, evaluatedAt ≤ t → t < decision.val.expiresAt →
    RulesHoldAt H batch snapshot limits t
  bound : ∀ a ∈ decision.val.authorizations, a.val.evaluatedAt = evaluatedAt ∧
    a.val.expiresAt = decision.val.expiresAt ∧
    ∃ intent ∈ batch.val.intents, a.val.intentId = intent.val.intentId

theorem authorizeTerms_val
    (h : authorizeTerms H batch snapshot limits decisionId evaluatedAt expiresAt t = .ok a) :
    a.val.hold = t.hold ∧ a.val.evaluatedAt = evaluatedAt ∧ a.val.expiresAt = expiresAt ∧
      a.val.intentId = t.intent.val.intentId ∧ a.val.instrumentId = t.intent.val.instrumentId := by
  rw [authorizeTerms, construct_eq_ok] at h
  rw [h]
  exact ⟨rfl, rfl, rfl, rfl, rfl⟩

/-- An approved batch carries the approval the decision claims. -/
theorem approval_of_approveBatch
    (h : approveBatch H batch snapshot limits activeCapacity evaluatedAt m rules = .ok decision)
    (hmeasures : Measures snapshot.val limits batch.val.intents activeCapacity.val.holds values m)
    (hvalues : ∀ id, values.1.getD id 0 = snapshot.val.portfolioSnapshot.val.quantityOf id ∧
      values.2.getD id 0 = snapshot.val.portfolioSnapshot.val.valueOf id)
    (hevidence : EvidenceHolds H batch snapshot activeCapacity evaluatedAt)
    (hcapacity : CapacityHolds limits.val snapshot.val
      (activeCapacity.val.authorizations.length + batch.val.intents.length) m) :
    Approval H batch snapshot limits activeCapacity evaluatedAt decision := by
  simp only [approveBatch, Py.eq_ok] at h
  obtain ⟨expiresAt, hexpiry, _, -, authorizations, hauthorizations, reservation, hreservation,
    hdecision⟩ := h
  have hchildren : decision.val.authorizations = authorizations := by rw [hdecision]
  have hholds : decision.val.authorizations.map (·.val.hold) = m.terms.map (·.hold) := by
    rw [hchildren]
    exact map_of_mapM (fun _ _ ha => (authorizeTerms_val ha).1) hauthorizations
  have hterm (a : BatchRiskAuthorization H.canonicalId) (ha : a ∈ decision.val.authorizations) :
      ∃ intent ∈ batch.val.intents, a.val.evaluatedAt = evaluatedAt ∧ a.val.expiresAt = expiresAt ∧
        a.val.intentId = intent.val.intentId ∧ a.val.instrumentId = intent.val.instrumentId := by
    rw [hchildren] at ha
    obtain ⟨t, ht, hmade⟩ := exists_of_mem_mapM hauthorizations ha
    refine ⟨t.intent, ?_, (authorizeTerms_val hmade).2⟩
    rw [← map_intent_of_terms hmeasures.terms]
    exact List.mem_map_of_mem ht
  have hexpires : decision.val.expiresAt = expiresAt := by rw [hdecision]
  refine ⟨by rw [hdecision]; rfl, ⟨reservation, by rw [hdecision], by rw [hreservation, hchildren],
    by rw [hreservation]⟩, fun hactive => ?_, fun a ha => ?_, fun t hle hlt => ?_, fun a ha => ?_⟩
  · rw [hholds]
    exact fitsAccount_of_rules hmeasures hvalues hevidence hcapacity hactive
  · obtain ⟨intent, hintent, -, -, -, hid⟩ := hterm a ha
    rw [hid]
    exact hevidence.fresh intent hintent
  · exact rulesHoldAt_of_expiry hexpiry hevidence hle (hexpires ▸ hlt)
  · obtain ⟨intent, hintent, hevaluated, hexpired, hid, -⟩ := hterm a ha
    exact ⟨hevaluated, hexpired.trans hexpires.symm, intent, hintent, hid⟩

/-- What every decision says about where it came from. -/
structure Decides (H : BatchHashes) (snapshot : VersionedBatchRiskSnapshot H)
    (decision : BatchRiskDecision H.canonicalId) : Prop where
  account : decision.val.accountId = snapshot.val.accountId
  version : decision.val.snapshotVersion = snapshot.val.version
  digest : decision.val.snapshotSha256 = H.riskSnapshot snapshot.val

/-- **A decision holds nothing, or approves the batch.** -/
theorem evaluateBatchRiskDecision_cases
    (h : evaluateBatchRiskDecision H batch target snapshot limits activeCapacity evaluatedAt =
      .ok decision) :
    Decides H snapshot decision ∧
      (decision.val.reservation = none ∧ decision.val.authorizations = [] ∨
        Approval H batch snapshot limits activeCapacity evaluatedAt decision) := by
  simp only [evaluateBatchRiskDecision, eq_ok] at h
  obtain ⟨_, -, _, -, values, hvalues, h⟩ := h
  split at h
  · rw [construct_eq_ok] at h
    rw [h]
    exact ⟨⟨h ▸ rfl, h ▸ rfl, h ▸ rfl⟩, .inl ⟨rfl, rfl⟩⟩
  · simp only [eq_ok] at h
    obtain ⟨m, hm, h⟩ := h
    split at h
    · next hrules =>
      refine ⟨?_, .inr ?_⟩
      · simp only [approveBatch, Py.eq_ok] at h
        obtain ⟨_, -, _, -, _, -, _, -, h⟩ := h
        exact ⟨h ▸ rfl, h ▸ rfl, h ▸ rfl⟩
      · rw [List.forall_mem_append] at hrules
        simp only [validateBatchRiskEvidence, eq_ok] at hvalues
        obtain ⟨_, -, _, -, _, -, _, -, _, -, _, -, _, -, _, -, _, -, values', hfold, _, -, _, -, _,
          -, rfl⟩ := hvalues
        exact approval_of_approveBatch h (measures_of_measureBatch hm).1 (valueHoldings_eq hfold)
          (evidenceHolds_of_rules hrules.1) (capacityHolds_of_rules hrules.2)
    · rw [construct_eq_ok] at h
      rw [h]
      exact ⟨⟨h ▸ rfl, h ▸ rfl, h ▸ rfl⟩, .inl ⟨rfl, rfl⟩⟩

end measures

end AutoQuantTrader
