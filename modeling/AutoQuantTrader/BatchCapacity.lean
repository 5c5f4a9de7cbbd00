import AutoQuantTrader.BatchSteps

/-!
# Reservations stay within capacity

Every approval is measured against all reservations that are open, so what is reserved in total fits
the capacity snapshot of the account's epoch.  A transition to another snapshot keeps the
reservations, whatever the new snapshot has to offer.
-/

namespace AutoQuantTrader

open Result Sorting Machine

variable {H : BatchHashes} {limits : BatchRiskLimits}

/-! ## The holds of a store -/

namespace BatchRiskStore

variable (s : BatchRiskStore H)

/-- The authorizations of the open reservations. -/
def openAuthorizations : List (BatchRiskAuthorization H.canonicalId) :=
  s.reservations.values.flatMap (·.val.authorizations)

def holds : List Hold := s.openAuthorizations.map (·.val.hold)

def totalReservedCash : ℚ := (s.reservations.values.map (·.val.reservedCash)).sum

def totalReservedBuyExposure : ℚ := (s.reservations.values.map (·.val.reservedBuyExposure)).sum

/-- The shares of an instrument that the open reservations hold back. -/
def totalReservedSells (instrumentId : Str) : ℚ :=
  ((s.openAuthorizations.filter (·.val.instrumentId = instrumentId)).map
    (·.val.reservedSellQuantity)).sum

/-- The exposure to an instrument that the open reservations hold back. -/
def totalReservedBuys (instrumentId : Str) : ℚ :=
  ((s.openAuthorizations.filter (·.val.instrumentId = instrumentId)).map
    (·.val.reservedBuyExposure)).sum

end BatchRiskStore

/-- The totals of a reservation are those of its authorizations. -/
theorem reservation_totals (r : BatchRiskReservation H.canonicalId) :
    r.val.reservedCash = (r.val.authorizations.map (·.val.reservedCash)).sum ∧
      r.val.reservedBuyExposure = (r.val.authorizations.map (·.val.reservedBuyExposure)).sum ∧
      r.val.authorizations ≠ [] := by
  have h := r.passes
  simp only [BatchRiskReservationFields.postInit, Py.eq_ok, not_or] at h
  obtain ⟨_, -, _, -, _, -, _, -, _, -, _, -, _, hnonempty, _, -, _, -, cash, hcash, exposure,
    hexposure, _, -, _, -, htotals⟩ := h
  exact ⟨htotals.1.trans (exactDecimalSum_eq hcash), htotals.2.trans (exactDecimalSum_eq hexposure),
    hnonempty⟩

/-- What the open reservations hold back in total is what their holds add up to. -/
theorem totalReserved_holds (s : BatchRiskStore H) :
    s.totalReservedCash = Hold.totalCash s.holds ∧
      s.totalReservedBuyExposure = Hold.totalExposure s.holds := by
  unfold BatchRiskStore.totalReservedCash BatchRiskStore.totalReservedBuyExposure
    BatchRiskStore.holds BatchRiskStore.openAuthorizations
  induction s.reservations.values with
  | nil => exact ⟨rfl, rfl⟩
  | cons r rest ih =>
    simp_all [Hold.totalCash, Hold.totalExposure, BatchRiskAuthorizationFields.hold,
      Function.comp_def, reservation_totals r]

/-- What they hold back of an instrument is what the holds of the instrument add up to. -/
theorem totalReserved_instrument (s : BatchRiskStore H) (instrumentId : Str) :
    s.totalReservedSells instrumentId = Hold.sharesOf s.holds instrumentId ∧
      s.totalReservedBuys instrumentId = Hold.exposureOf s.holds instrumentId := by
  simp [BatchRiskStore.totalReservedSells, BatchRiskStore.totalReservedBuys, BatchRiskStore.holds,
    Hold.sharesOf, Hold.exposureOf, amountAt, BatchRiskAuthorizationFields.hold, List.filter_map,
    Function.comp_def]

/-! ## The active capacity is the holds of the store -/

theorem initialActiveAuthorization_hold (h : initialActiveAuthorization H a = .ok a') :
    a'.val.hold = a.val.hold := by
  rw [initialActiveAuthorization, construct_eq_ok] at h
  rw [h]
  rfl

theorem initialActiveReservation_holds (h : initialActiveReservation H r = .ok r') :
    r'.val.authorizations.map (·.val.hold) = r.val.authorizations.map (·.val.hold) := by
  simp only [initialActiveReservation, Result.bind_eq_ok, construct_eq_ok] at h
  obtain ⟨authorizations, hauthorizations, hr⟩ := h
  rw [hr]
  exact map_of_mapM (fun _ _ ha => initialActiveAuthorization_hold ha) hauthorizations

/-- Sorting the reservations changes only their order. -/
theorem activeReservations_perm (s : BatchRiskStore H) :
    (BatchRepository.activeReservations s).Perm s.reservations.values :=
  (sortOn_perm _ _).map _

variable {s : BatchRiskStore H}

/-- The active universe holds what the store's reservations hold. -/
theorem activeHolds_perm
    (h : initialActiveCapacityUniverse H accountId (BatchRepository.activeReservations s) = .ok u) :
    u.val.holds.Perm s.holds := by
  simp only [initialActiveCapacityUniverse, Result.bind_eq_ok, construct_eq_ok] at h
  obtain ⟨_, -, reservations, hreservations, hu⟩ := h
  have hmap : reservations.map (fun r => r.val.authorizations.map (·.val.hold)) =
      (BatchRepository.activeReservations s).map fun r => r.val.authorizations.map (·.val.hold) :=
    map_of_mapM (fun _ _ hr => initialActiveReservation_holds hr) hreservations
  have hholds : u.val.holds =
      (BatchRepository.activeReservations s).flatMap fun r =>
        r.val.authorizations.map (·.val.hold) := by
    rw [ActiveCapacityUniverseFields.holds, hu]
    simp only [ActiveCapacityUniverseFields.authorizations, List.map_flatMap]
    rw [List.flatMap_def, hmap, ← List.flatMap_def]
  rw [hholds, BatchRiskStore.holds, BatchRiskStore.openAuthorizations, List.map_flatMap]
  exact (activeReservations_perm s).flatMap_right _

variable {snapshot : BatchRiskSnapshotFields}

theorem FitsAccount.perm (h : FitsAccount limits.val snapshot holds) (hperm : holds.Perm holds') :
    FitsAccount limits.val snapshot holds' := by
  have hcash : Hold.totalCash holds' = Hold.totalCash holds := (hperm.symm.map _).sum_eq
  have hexposure : Hold.totalExposure holds' = Hold.totalExposure holds := (hperm.symm.map _).sum_eq
  refine ⟨hcash ▸ h.cash, fun id => ?_, fun id => ?_, hexposure ▸ h.gross,
    (hperm.map _).nodup_iff.1 h.distinct, hperm.length_eq ▸ h.daily, hperm.length_eq ▸ h.open_⟩
  · exact (amountAt_perm (hperm.symm.map _) id).trans_le (h.shares id)
  · rw [Hold.exposureOf, amountAt_perm (hperm.symm.map _) id]
    exact h.exposure id

/-! ## Runs -/

section runs

variable {a : BatchRiskAccount H} {event : BatchRiskEvent H} {events : List (BatchRiskEvent H)}

/-- The snapshot was found by a call that got an approval. -/
def ApprovedUnder (events : List (BatchRiskEvent H)) (snapshot : VersionedBatchRiskSnapshot H) :
    Prop :=
  ∃ event ∈ events, ∃ decision : BatchRiskDecision H.canonicalId, event.snapshot = snapshot ∧
    event.answer = .ok (.decided decision) ∧ decision.val.status = .approved

/-- The store knows the epoch of one account at most. -/
def BatchRiskStore.OneEpoch (s : BatchRiskStore H) : Prop :=
  ∀ id id' epoch epoch', s.accountSnapshots.get? id = some epoch →
    s.accountSnapshots.get? id' = some epoch' → id = id'

/-- The store knows one epoch at most, and nothing is reserved, or what is reserved was authorized
against a snapshot of that epoch and fits it. -/
structure WithinEpoch (limits : BatchRiskLimits) (events : List (BatchRiskEvent H))
    (a : BatchRiskAccount H) : Prop where
  one : a.store.OneEpoch
  fits : a.store.reservations.values = [] ∨
    ∃ snapshot : VersionedBatchRiskSnapshot H, ApprovedUnder events snapshot ∧
      a.store.accountSnapshots.get? snapshot.val.accountId =
        some (snapshot.val.version, H.riskSnapshot snapshot.val) ∧
      (∀ r ∈ a.store.reservations.values, r.val.snapshotSha256 = H.riskSnapshot snapshot.val) ∧
      FitsAccount limits.val snapshot.val a.store.holds

theorem WithinEpoch.distinct (h : WithinEpoch limits events a) :
    (a.store.holds.map Hold.instrumentId).Nodup := by
  rcases h.fits with hnone | ⟨_, -, -, -, hfits⟩
  · simp [BatchRiskStore.holds, BatchRiskStore.openAuthorizations, hnone]
  · exact hfits.distinct

/-- What is reserved does not change, and the epoch stays the same. -/
theorem WithinEpoch.mono (h : WithinEpoch limits events a)
    (hreservations : a'.store.reservations = a.store.reservations) (hone : a'.store.OneEpoch)
    (hepoch : ∀ id epoch, a.store.accountSnapshots.get? id = some epoch →
      a'.store.accountSnapshots.get? id = some epoch) :
    WithinEpoch limits (events ++ [event]) a' := by
  refine ⟨hone, ?_⟩
  unfold BatchRiskStore.holds BatchRiskStore.openAuthorizations
  rw [hreservations]
  refine h.fits.imp_right fun ⟨snapshot, ⟨e, he, happroved⟩, hsnapshot, hbound, hfits⟩ =>
    ⟨snapshot, ⟨e, List.mem_append_left _ he, happroved⟩, hepoch _ _ hsnapshot, hbound, hfits⟩

/-- Publishing keeps the epoch. -/
theorem InEpoch.get?_set {snapshot : VersionedBatchRiskSnapshot H} (h : InEpoch s snapshot)
    {id : Str} (hepoch : s.accountSnapshots.get? id = some epoch) :
    (s.accountSnapshots.set snapshot.val.accountId
      (snapshot.val.version, H.riskSnapshot snapshot.val)).get? id = some epoch := by
  rw [Dict.get?_set]
  split
  · next hid => rw [h.matches_ epoch (hid ▸ hepoch)]
  · exact hepoch

/-- The only epoch of a store is that of the account of a snapshot in it. -/
theorem InEpoch.accountId_eq {snapshot : VersionedBatchRiskSnapshot H} (h : InEpoch s snapshot)
    (hone : s.OneEpoch) {id : Str} (hepoch : s.accountSnapshots.get? id = some epoch) :
    id = snapshot.val.accountId := by
  cases hget : s.accountSnapshots.get? snapshot.val.accountId with
  | none =>
    rw [Dict.get?, h.only hget] at hepoch
    cases hepoch
  | some current => exact hone _ _ _ _ hepoch hget

theorem Publishes.oneEpoch (h : Publishes limits a batch target t decision)
    (hone : a.store.OneEpoch) :
    (BatchRepository.publish batch a.snapshot decision a.store).OneEpoch := by
  have hid (id : Str) (epoch : Str × Str)
      (hepoch : (BatchRepository.publish batch a.snapshot decision a.store).accountSnapshots.get?
        id = some epoch) : id = a.snapshot.val.accountId := by
    rw [BatchRepository.publish, Dict.get?_set] at hepoch
    split at hepoch
    · assumption
    · exact h.epoch.accountId_eq hone hepoch
  exact fun _ _ _ _ hfirst hsecond => (hid _ _ hfirst).trans (hid _ _ hsecond).symm

/-- An approval reserves under a new identity: its instruments were free. -/
theorem reservationId_not_mem (h : Publishes limits a batch target t decision)
    (happroval : Approval H batch a.snapshot limits activeCapacity t decision)
    (hactive : activeCapacity.val.holds.Perm a.store.holds) (hr : decision.val.reservation = some r)
    (hchildren : r.val.authorizations = decision.val.authorizations) :
    r.val.reservationId ∉ a.store.reservations.keys := by
  rw [← Dict.get?_eq_none, Option.eq_none_iff_forall_not_mem]
  intro existing hexisting
  obtain rfl := h.reservations r hr existing hexisting
  obtain ⟨child, hchild⟩ := List.exists_mem_of_ne_nil _ (reservation_totals existing).2.2
  refine happroval.fresh child (hchildren ▸ hchild) ((hactive.map _).mem_iff.2 ?_)
  refine List.mem_map.2 ⟨child.val.hold, List.mem_map_of_mem ?_, rfl⟩
  exact List.mem_flatMap.2 ⟨existing, Dict.mem_values.2 ⟨_, hexisting⟩, hchild⟩

/-- A published decision keeps the account within its epoch's limits. -/
theorem WithinEpoch.published (h : WithinEpoch limits events a)
    (hpublishes : Publishes limits a batch target t decision)
    (hsnapshot : event.snapshot = a.snapshot) (hanswer : event.answer = .ok (.decided decision)) :
    WithinEpoch limits (events ++ [event])
      { a with store := BatchRepository.publish batch a.snapshot decision a.store } := by
  obtain ⟨activeCapacity, hcapacity, hevaluated⟩ := hpublishes.evaluated
  have hone := hpublishes.oneEpoch h.one
  obtain ⟨-, ⟨hnone, -⟩ | happroval⟩ := evaluateBatchRiskDecision_cases hevaluated
  · refine h.mono ?_ hone fun id epoch => hpublishes.epoch.get?_set
    simp [BatchRepository.publish, hnone]
  · obtain ⟨r, hr, hchildren, hdigest⟩ := happroval.reservation
    have hactive := activeHolds_perm hcapacity
    have hnew := reservationId_not_mem hpublishes happroval hactive hr hchildren
    have hholds : (BatchRepository.publish batch a.snapshot decision a.store).holds =
        a.store.holds ++ decision.val.authorizations.map (·.val.hold) := by
      simp [BatchRiskStore.holds, BatchRiskStore.openAuthorizations, BatchRepository.publish, hr,
        Dict.values_set_of_not_mem _ hnew, hchildren]
    refine ⟨hone, .inr ⟨a.snapshot, ⟨event, by simp, decision, hsnapshot, hanswer,
      happroval.approved⟩, by simp [BatchRepository.publish], ?_, ?_⟩⟩
    · simp only [BatchRepository.publish, hr, Option.elim_some, Dict.values_set_of_not_mem _ hnew,
        List.mem_append, List.mem_singleton]
      rintro r' (hold | rfl)
      · -- the reservations made before are of the epoch that this decision found
        rcases h.fits with hnone | ⟨earlier, -, hepoch, hbound, -⟩
        · simp [hnone] at hold
        · have hsame := hpublishes.epoch.accountId_eq h.one hepoch
          rw [hbound r' hold]
          exact congrArg Prod.snd (hpublishes.epoch.matches_ _ (hsame ▸ hepoch))
      · exact hdigest
    · rw [hholds]
      have hdistinct := (hactive.map Hold.instrumentId).nodup_iff.2 h.distinct
      exact (happroval.fits hdistinct).perm (hactive.append_right _)

/-- Every step keeps the account within its epoch's limits. -/
theorem WithinEpoch.step (h : WithinEpoch limits events a)
    (hstep : BatchRiskStep limits a event a') : WithinEpoch limits (events ++ [event]) a' := by
  have hchange := hstep.change
  have hsnapshot := hstep.1
  generalize hcall : event.call = call at hchange
  generalize hanswer : event.answer = answer at hchange
  cases hchange with
  | raised => exact h.mono rfl h.one fun _ _ => id
  | consumed => exact h.mono rfl h.one fun _ _ => id
  | moved => exact h.mono rfl h.one fun _ _ => id
  | authorized hauthorizes =>
    cases hauthorizes with
    | retried => exact h.mono rfl h.one fun _ _ => id
    | published _ hpublishes => exact h.published hpublishes hsnapshot hanswer

/-- The totals of the open reservations are within the limits and the capacity of a snapshot. -/
structure WithinLimits (limits : BatchRiskLimitsFields) (snapshot : BatchRiskSnapshotFields)
    (s : BatchRiskStore H) : Prop where
  cash : s.totalReservedCash ≤ snapshot.availableCash - limits.minimumCashBuffer
  sells : ∀ id, s.totalReservedSells id ≤ snapshot.portfolioSnapshot.val.quantityOf id
  instrument : ∀ id, snapshot.portfolioSnapshot.val.valueOf id + s.totalReservedBuys id ≤
    limits.maxInstrumentGrossExposure
  gross : snapshot.currentGrossExposure + s.totalReservedBuyExposure ≤
    limits.maxAccountGrossExposure
  single : (s.openAuthorizations.map (·.val.instrumentId)).Nodup
  daily : (snapshot.dailyOrderCount + s.openAuthorizations.length : Int) ≤ limits.maxDailyOrderCount
  open_ : (snapshot.openOrderCount + s.openAuthorizations.length : Int) ≤ limits.maxOpenOrderCount

/-- Holds that fit the account are within its limits. -/
theorem FitsAccount.withinLimits (h : FitsAccount limits.val snapshot s.holds) :
    WithinLimits limits.val snapshot s := by
  obtain ⟨hcash, hexposure⟩ := totalReserved_holds s
  refine ⟨hcash ▸ h.cash, fun id => (totalReserved_instrument s id).1 ▸ h.shares id,
    fun id => (totalReserved_instrument s id).2 ▸ h.exposure id, hexposure ▸ h.gross, ?_, ?_, ?_⟩
  · have hdistinct := h.distinct
    rwa [BatchRiskStore.holds, List.map_map] at hdistinct
  · simpa [BatchRiskStore.holds] using h.daily
  · simpa [BatchRiskStore.holds] using h.open_

/-- **Reservations are within the capacity they were authorized against**, over every interleaving
of calls: one snapshot that was found by an approval, whose epoch the store is in and whose digest
every open reservation carries. -/
theorem reservations_within_epoch {snapshot₀ : VersionedBatchRiskSnapshot H}
    (h : Trace (BatchRiskStep limits) (.initial H snapshot₀) events a)
    (hopen : a.store.reservations.values ≠ []) :
    ∃ snapshot : VersionedBatchRiskSnapshot H, ApprovedUnder events snapshot ∧
      a.store.accountSnapshots.get? snapshot.val.accountId =
        some (snapshot.val.version, H.riskSnapshot snapshot.val) ∧
      (∀ r ∈ a.store.reservations.values, r.val.snapshotSha256 = H.riskSnapshot snapshot.val) ∧
      WithinLimits limits.val snapshot.val a.store := by
  have hinitial : WithinEpoch limits [] (.initial H snapshot₀) :=
    ⟨fun _ _ _ _ hid => (by cases hid), .inl rfl⟩
  have hwithin := h.invariant_done (WithinEpoch limits) hinitial
    fun _ _ _ _ _ hs hstep => hs.step hstep
  rcases hwithin.fits with hnone | ⟨snapshot, happroved, hepoch, hbound, hfits⟩
  · exact absurd hnone hopen
  · exact ⟨snapshot, happroved, hepoch, hbound, hfits.withinLimits⟩

end runs

/-! ## A transition that takes the cash away -/

/-- One share costs ten. -/
def samplePrice : Py MarketEvent := construct {
  eventId := "price"
  instrumentId := "instrument"
  symbol := "ACME"
  eventTime := 100
  availableAt := 100
  closePrice := 10 }

def sampleSession : BatchRiskSession :=
  ⟨{ calendarId := "calendar"
     calendarVersion := "1"
     calendarSha256 := "calendar"
     venue := "XNYS"
     sessionLabel := 719163
     opensAt := 0
     closesAt := 1000 }, by decide +kernel⟩

def sampleLimits : BatchRiskLimits :=
  ⟨{ policyId := "policy"
     policyVersion := "1"
     allowedInstruments := {Str.of "instrument"}
     maxOrderQuantity := 100
     maxOrderNotional := 10000
     maxBatchNotional := 10000
     maxInstrumentGrossExposure := 10000
     maxAccountGrossExposure := 10000
     minimumCashBuffer := 20 }, by decide +kernel⟩

/-- An account that holds nothing but a deposit. -/
def sampleRiskSnapshot (version : Str) (deposit : ℚ) : Py (VersionedBatchRiskSnapshot .plain) := do
  let price ← samplePrice
  let H := BatchHashes.plain
  let flow ← createCashFlow H.toLedgerHashes .contribution "USD" deposit 50 50 "deposit"
  let portfolio ← (construct { asOf := 100, positions := [], prices := [⟨price⟩] } :
    Py PortfolioSnapshot)
  let account ← projectFifoAccount H.toCorporateHashes ⟨"account", [], [flow], [], [], [], "USD"⟩ []
    100
  let settlement ← reduceSettlementLedger H.toSettlementHashes "account" [] [flow] [] [] "USD"
  batchRiskSnapshotFromProjections H version portfolio account settlement sampleSession .running ∅
    0 0

def sampleTargetPortfolio : TargetPortfolio :=
  ⟨{ targetId := "target"
     strategyId := "strategy"
     strategyVersion := "1"
     strategyConfigurationSha256 := "configuration"
     decisionTrigger := ⟨.marketBatch, "trigger", "trigger", 100⟩
     asOf := 100
     expiresAt := 500
     targets := [⟨⟨"instrument", "ACME", 5⟩, by decide +kernel⟩] }, by decide +kernel⟩

/-- An account, a batch that is approved for it, and the account after that. -/
structure SampleApproval where
  snapshot : VersionedBatchRiskSnapshot .plain
  batch : OrderIntentBatch
  decision : BatchRiskDecision BatchHashes.plain.canonicalId
  account : BatchRiskAccount .plain

def sampleApproval : Py SampleApproval := do
  let snapshot ← sampleRiskSnapshot "first" 1000
  let batch ← targetToIntentBatch BatchHashes.plain.toIntentHashes sampleTargetPortfolio
    snapshot.val.portfolioSnapshot
  let run := BatchRepository.authorize sampleLimits batch sampleTargetPortfolio 110
    (.initial .plain snapshot)
  let decision ← run.1
  return ⟨snapshot, batch, decision, run.2⟩

theorem sampleApproval_ok : ∃ x : SampleApproval,
    BatchRepository.authorize sampleLimits x.batch sampleTargetPortfolio 110
      (.initial .plain x.snapshot) = (.ok x.decision, x.account) ∧
    x.account.store.totalReservedCash = 51 ∧ x.account.store.reservations.values ≠ [] ∧
    x.account.snapshot.val.accountId = "account" := by
  have h : (fun x : SampleApproval => (x.account.store.totalReservedCash,
      x.account.store.reservations.values.length, x.account.snapshot.val.accountId)) <$>
        sampleApproval = .ok (51, 1, "account") := by
    decide +kernel
  simp only [sampleApproval, map_eq_ok, Result.bind_eq_ok, pure_eq_ok, Prod.mk.injEq] at h
  obtain ⟨_, ⟨snapshot, -, batch, -, decision, hdecision, rfl⟩, hcash, hlength, hid⟩ := h
  refine ⟨_, Prod.ext hdecision rfl, hcash, fun hnil => ?_, hid⟩
  rw [hnil] at hlength
  cases hlength

theorem BatchRepository.transitionTo_of_accountId {next : VersionedBatchRiskSnapshot H}
    (h : next.val.accountId = a.snapshot.val.accountId) :
    transitionTo next a = (.ok (), { a with snapshot := next }) :=
  (bind_of_ok rfl).trans ((bind_of_ok (refuse_of_not (not_not.2 h))).trans rfl)

/-- The account with a smaller deposit. -/
theorem samplePoor_ok : ∃ poor : VersionedBatchRiskSnapshot .plain,
    poor.val.accountId = "account" ∧ poor.val.availableCash = 60 := by
  have h : (fun s : VersionedBatchRiskSnapshot .plain => (s.val.accountId, s.val.availableCash))
      <$> sampleRiskSnapshot "second" 60 = .ok ("account", 60) := by
    decide +kernel
  obtain ⟨poor, -, hpoor⟩ := map_eq_ok.1 h
  exact ⟨poor, Prod.mk.inj hpoor⟩

/-- The reservations of one epoch outlive it: the next snapshot has less cash than they hold. -/
theorem reservations_exceed_next_epoch : ∃ (snapshot₀ : VersionedBatchRiskSnapshot .plain)
    (events : List (BatchRiskEvent .plain)) (a : BatchRiskAccount .plain),
    Trace (BatchRiskStep sampleLimits) (.initial .plain snapshot₀) events a ∧
      a.store.reservations.values ≠ [] ∧
      a.snapshot.val.availableCash - sampleLimits.val.minimumCashBuffer <
        a.store.totalReservedCash := by
  obtain ⟨x, hauthorize, hcash, hopen, hid⟩ := sampleApproval_ok
  obtain ⟨poor, hpoorId, hpoorCash⟩ := samplePoor_ok
  have hmove := BatchRepository.transitionTo_of_accountId (hpoorId.trans hid.symm)
  refine ⟨x.snapshot, _, _, .snoc (.snoc .nil (.of_authorize hauthorize)) (.of_transitionTo hmove),
    hopen, ?_⟩
  change poor.val.availableCash - _ < x.account.store.totalReservedCash
  rw [hpoorCash, hcash]
  decide +kernel

/-- The reservations of the sample are within the snapshot they were authorized against. -/
theorem sample_reservations_within_epoch : ∃ (snapshot₀ : VersionedBatchRiskSnapshot .plain)
    (events : List (BatchRiskEvent .plain)) (a : BatchRiskAccount .plain),
    Trace (BatchRiskStep sampleLimits) (.initial .plain snapshot₀) events a ∧
      a.store.totalReservedCash = 51 ∧
      ∃ snapshot : VersionedBatchRiskSnapshot .plain, ApprovedUnder events snapshot ∧
        a.store.accountSnapshots.get? snapshot.val.accountId =
          some (snapshot.val.version, BatchHashes.plain.riskSnapshot snapshot.val) ∧
        (∀ r ∈ a.store.reservations.values,
          r.val.snapshotSha256 = BatchHashes.plain.riskSnapshot snapshot.val) ∧
        WithinLimits sampleLimits.val snapshot.val a.store := by
  obtain ⟨x, hauthorize, hcash, hopen, -⟩ := sampleApproval_ok
  have htrace : Trace (BatchRiskStep sampleLimits) (.initial .plain x.snapshot) _ x.account :=
    .snoc .nil (.of_authorize hauthorize)
  exact ⟨x.snapshot, _, x.account, htrace, hcash, reservations_within_epoch htrace hopen⟩

end AutoQuantTrader
