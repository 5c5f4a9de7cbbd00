import Mathlib.Algebra.Order.Monoid.Prod
import AutoQuantTrader.ReservationRelease

/-!
# What a release fact does

Cash, buy exposure and shares are released side by side, so they are compared side by side:
`Amounts` is all three, ordered and added component by component.  A fact adds its amounts to what
was released for its authorization, and never past what that holds back; a terminal fact adds all
that is left.
-/

namespace AutoQuantTrader

open Result

variable {H : ReservationHashes}

/-! ## Amounts -/

/-- Cash, buy exposure and shares. -/
abbrev Amounts := ℚ × ℚ × ℚ

def BatchRiskAuthorizationFields.reserved (a : BatchRiskAuthorizationFields) : Amounts :=
  (a.reservedCash, a.reservedBuyExposure, a.reservedSellQuantity)

/-- What an execution of some shares gives back. -/
def BatchRiskAuthorizationFields.usedBy (a : BatchRiskAuthorizationFields) (quantity : ℚ) :
    Amounts :=
  match a.side with
  | .buy => (quantity * a.maximumExecutionPrice, quantity * a.maximumExecutionPrice, 0)
  | .sell => (0, 0, quantity)

def ReservationReleaseFact.amounts (f : ReservationReleaseFact) : Amounts :=
  (f.releasedCash, f.releasedBuyExposure, f.releasedSellQuantity)

def RunningAuthorizationCapacity.amounts (c : RunningAuthorizationCapacity) : Amounts :=
  (c.releasedCash, c.releasedBuyExposure, c.releasedSellQuantity)

namespace AuthorizationCapacityProjection

def initial (c : AuthorizationCapacityProjection) : Amounts :=
  (c.initialCash, c.initialBuyExposure, c.initialSellQuantity)

def released (c : AuthorizationCapacityProjection) : Amounts :=
  (c.releasedCash, c.releasedBuyExposure, c.releasedSellQuantity)

def remaining (c : AuthorizationCapacityProjection) : Amounts :=
  (c.remainingCash, c.remainingBuyExposure, c.remainingSellQuantity)

end AuthorizationCapacityProjection

/-- A fact releases something, and nothing negative. -/
theorem ReservationReleaseFact.amounts_pos {f : ReservationReleaseFact} (h : f.validate H = .ok u) :
    0 < f.amounts := by
  simp only [ReservationReleaseFact.validate, Py.eq_ok, releaseAmount_eq_ok] at h
  obtain ⟨-, -, -, -, -, -, -, -, -, -, -, -, -, -, -, -, -, -, -, -, -, -, -, -, -, -,
    cash, ⟨hcash, -, -, rfl⟩, exposure, ⟨hexposure, -, -, rfl⟩, sell, ⟨hsell, -, -, rfl⟩, -,
    hpositive, -⟩ := h
  refine lt_of_le_of_ne ⟨hcash, hexposure, hsell⟩ fun hzero => ?_
  simp only [ReservationReleaseFact.amounts, Prod.ext_iff, Prod.fst_zero, Prod.snd_zero] at hzero
  obtain ⟨h1, h2, h3⟩ := hzero
  simp [← h1, ← h2, ← h3] at hpositive

theorem heldBuyExposure_eq (h : heldBuyExposure side quantity price = .ok r) :
    r = if side = .buy then quantity * price else 0 := by
  unfold heldBuyExposure at h
  split at h
  · next hbuy => rw [if_pos hbuy, exactDecimalMultiply_eq h]
  · next hsell => rw [if_neg hsell, pure_eq_ok.1 h]

theorem usedBy_eq (a : BatchRiskAuthorizationFields) (quantity : ℚ) :
    a.usedBy quantity =
      ((if a.side = .buy then quantity * a.maximumExecutionPrice else 0),
        (if a.side = .buy then quantity * a.maximumExecutionPrice else 0),
        heldSellQuantity a.side quantity) := by
  unfold BatchRiskAuthorizationFields.usedBy heldSellQuantity
  cases a.side <;> rfl

theorem remainingOf_eq (h : remainingOf initial released fieldName = .ok r) :
    r = initial - released ∧ 0 ≤ r := by
  simp only [remainingOf, Py.eq_ok, not_lt] at h
  obtain ⟨value, hvalue, -, hnonneg, rfl⟩ := h
  exact ⟨exactDecimalSubtract_eq hvalue, hnonneg⟩

/-! ## One fact -/

section step

variable {reservation : BatchRiskReservation H.canonicalId} {s s' : ReleaseProgress}
  {fact : ReservationReleaseFact} {authorization : BatchRiskAuthorization H.canonicalId}
  {capacity released : RunningAuthorizationCapacity}

/-- The authorization that is found for an identity has it and belongs to the reservation. -/
theorem authorizationById_spec {id : Str}
    (h : (authorizationById H reservation).get? id = some authorization) :
    authorization ∈ reservation.val.authorizations ∧ authorization.val.decisionId = id := by
  rcases Dict.mem_of_get?_foldl_set h with hmem | hempty
  · exact hmem
  · simp at hempty

/-- What the projection notes of an execution that is accounted for. -/
structure Accounts (authorization : BatchRiskAuthorization H.canonicalId) (s : ReleaseProgress)
    (fact : ReservationReleaseFact) (executionId : Str) (accounted : ℚ)
    (heads : Dict (Str × Str) (Nat × ℚ)) : Prop where
  execution : fact.executionId = some executionId
  quantity : fact.accountedQuantity = some accounted
  used : fact.amounts = authorization.val.usedBy accounted
  head : ∃ revision headQuantity, fact.executionHeadQuantity = some headQuantity ∧
    headQuantity =
      ((s.executionHeads.get? (authorization.val.decisionId, executionId)).getD (0, 0)).2 +
        accounted ∧
    heads = s.executionHeads.set (authorization.val.decisionId, executionId)
      (revision, headQuantity)

/-- An execution fact accounts for the quantity its execution added. -/
theorem accountExecution_spec (h : accountExecution H authorization s fact = .ok s') :
    ∃ executionId accounted,
      Accounts authorization s fact executionId accounted s'.executionHeads := by
  unfold accountExecution at h
  split at h
  · next executionId revision headQuantity accounted hid _ hhead haccounted =>
    simp only [Py.eq_ok, not_or] at h
    obtain ⟨-, -, expectedHead, hexpected, -, rfl, total, -, -, -, exposure, hexposure, -,
      ⟨hcash, hbuy, hsell⟩, rfl⟩ := h
    refine ⟨executionId, accounted, hid, haccounted, ?_, revision, headQuantity, hhead,
      exactDecimalAdd_eq hexpected, rfl⟩
    rw [ReservationReleaseFact.amounts, hcash, hbuy, hsell, heldBuyExposure_eq hexposure, usedBy_eq]
  · simp at h

/-- **What a fact that is accepted does.** -/
structure Releases (reservation : BatchRiskReservation H.canonicalId) (s : ReleaseProgress)
    (fact : ReservationReleaseFact) (s' : ReleaseProgress)
    (authorization : BatchRiskAuthorization H.canonicalId)
    (capacity released : RunningAuthorizationCapacity) : Prop where
  known : (authorizationById H reservation).get? fact.authorizationId = some authorization
  before : s.running.get? fact.authorizationId = some capacity
  after : s'.running = s.running.set fact.authorizationId released
  events : released.releaseEventIds = capacity.releaseEventIds ++ [fact.releaseEventId]
  valid : fact.validate H = .ok ()
  adds : released.amounts = capacity.amounts + fact.amounts
  within : released.amounts ≤ authorization.val.reserved
  execution : fact.reason = .executionAccounted → ∃ executionId accounted,
    Accounts authorization s fact executionId accounted s'.executionHeads
  terminal : fact.reason ≠ .executionAccounted → released.amounts = authorization.val.reserved ∧
    s'.executionHeads = s.executionHeads

/-- A release adds its amounts and stays within the reserve. -/
theorem releaseCapacity_spec (h : releaseCapacity H authorization fact capacity = .ok released) :
    released.amounts = capacity.amounts + fact.amounts ∧
      released.amounts ≤ authorization.val.reserved ∧
      released.releaseEventIds = capacity.releaseEventIds ++ [fact.releaseEventId] := by
  simp only [releaseCapacity, Py.eq_ok, not_or, not_lt] at h
  obtain ⟨cash, hcash, exposure, hexposure, sell, hsell, -, hwithin, rfl⟩ := h
  refine ⟨?_, hwithin, rfl⟩
  simp only [RunningAuthorizationCapacity.amounts, ReservationReleaseFact.amounts, Prod.mk_add_mk,
    exactDecimalAdd_eq hcash, exactDecimalAdd_eq hexposure, exactDecimalAdd_eq hsell]

theorem accountRelease_spec (h : accountRelease H authorization s fact capacity = .ok accounted) :
    (fact.reason = .executionAccounted → ∃ executionId quantity,
      Accounts authorization s fact executionId quantity accounted.executionHeads) ∧
    (fact.reason ≠ .executionAccounted →
      capacity.amounts + fact.amounts = authorization.val.reserved ∧
        accounted.executionHeads = s.executionHeads) := by
  simp only [accountRelease, eq_ok] at h
  obtain ⟨cash, hcash, exposure, hexposure, sell, hsell, h⟩ := h
  split at h
  · next hreason => exact ⟨fun _ => accountExecution_spec h, fun hne => absurd hreason hne⟩
  · next hreason =>
    refine ⟨fun heq => absurd heq hreason, fun _ => ?_⟩
    simp only [checkTerminalRelease, Py.eq_ok, not_or] at h
    obtain ⟨-, ⟨-, -, hrcash, hrexposure, hrsell⟩, rfl⟩ := h
    refine ⟨?_, rfl⟩
    simp only [RunningAuthorizationCapacity.amounts, ReservationReleaseFact.amounts, hrcash,
      hrexposure, hrsell, (remainingOf_eq hcash).1, (remainingOf_eq hexposure).1,
      (remainingOf_eq hsell).1, Prod.mk_add_mk, add_sub_cancel,
      BatchRiskAuthorizationFields.reserved]

/-- An accepted fact releases capacity of one authorization. -/
theorem applyReleaseFact_spec (h : applyReleaseFact H reservation s fact = .ok s') :
    ∃ authorization capacity released,
      Releases reservation s fact s' authorization capacity released := by
  simp only [applyReleaseFact, checkReleaseChain, eq_ok] at h
  obtain ⟨-, ⟨_, hvalid, -⟩, authorization, hknown, -, -, -, -, capacity, hcapacity, accounted,
    haccounted, released, hreleased, rfl⟩ := h
  obtain ⟨hadds, hwithin, hevents⟩ := releaseCapacity_spec hreleased
  obtain ⟨hexecution, hterminal⟩ := accountRelease_spec haccounted
  have hid := (authorizationById_spec hknown).2
  rw [hid] at hcapacity
  refine ⟨authorization, capacity, released, hknown, hcapacity, ?_, hevents, hvalid, hadds, hwithin,
    hexecution, fun hreason => ?_⟩
  · rw [hid]
  · obtain ⟨hrest, hheads⟩ := hterminal hreason
    exact ⟨hadds.trans hrest, hheads⟩

end step

/-! ## Recording -/

section record

variable {reservation : BatchRiskReservation H.canonicalId} {prior : List ReservationReleaseFact}
  {fact : ReservationReleaseFact}

/-- The fact was returned by one of the record functions for the log. -/
inductive RecordsRelease (reservation : BatchRiskReservation H.canonicalId)
    (prior : List ReservationReleaseFact) (fact : ReservationReleaseFact) : Prop where
  | approvalExpiredUnsent
      (h : recordApprovalExpiredUnsentRelease H reservation authorization parentAttempts reference
        observedAt recordedAt prior = .ok fact)
  | brokerRejected
      (h : recordBrokerRejectedRelease H reservation authorization attempt orderState rejection
        recordedAt prior = .ok fact)
  | executionAccounted
      (h : recordExecutionAccountedRelease H reservation authorization attempt orderState execution
        reference source accountedAt recordedAt prior = .ok fact)
  | reconciledTerminal
      (h : recordReconciledTerminalRelease H reservation authorization attempt orderState event
        reference source reconciledAt recordedAt prior = .ok fact)
  | simulationHorizonFinal
      (h : recordSimulationHorizonFinalRelease H reservation authorization attempt orderState event
        reference source horizonAt recordedAt prior = .ok fact)

/-- Every record function ends with the construction of the fact. -/
theorem RecordsRelease.exists_terms (h : RecordsRelease reservation prior fact) :
    ∃ authorization terms, newReleaseFact H reservation authorization prior terms = .ok fact := by
  cases h with
  | approvalExpiredUnsent h =>
    simp only [recordApprovalExpiredUnsentRelease, eq_ok] at h
    obtain ⟨-, -, -, -, -, -, _, -, -, -, h⟩ := h
    exact ⟨_, _, h⟩
  | brokerRejected h =>
    simp only [recordBrokerRejectedRelease, eq_ok] at h
    obtain ⟨-, -, -, -, -, -, -, -, -, -, -, -, -, -, _, -, h⟩ := h
    exact ⟨_, _, h⟩
  | executionAccounted h =>
    simp only [recordExecutionAccountedRelease, eq_ok] at h
    obtain ⟨-, -, -, -, -, -, -, -, -, -, -, -, _, -, -, -, -, -, -, -, _, -, _, -,
      _, -, -, -, _, -, h⟩ := h
    exact ⟨_, _, h⟩
  | reconciledTerminal h =>
    simp only [recordReconciledTerminalRelease, eq_ok] at h
    obtain ⟨-, -, -, -, -, -, -, -, _, -, h⟩ := h
    exact ⟨_, _, h⟩
  | simulationHorizonFinal h =>
    simp only [recordSimulationHorizonFinalRelease, eq_ok] at h
    obtain ⟨-, -, -, -, -, -, -, -, -, -, -, -, -, -, -, -, _, -, h⟩ := h
    exact ⟨_, _, h⟩

/-- A fact that is given out was projected with the log. -/
theorem newReleaseFact_spec
    (h : newReleaseFact H reservation authorization prior terms = .ok fact) :
    (∃ p, projectReservationCapacity H reservation (prior ++ [fact]) ∅ = .ok p) ∧
      fact.authorizationId = authorization.val.decisionId ∧ fact.reason = terms.reason ∧
      fact.executionId = terms.executionId ∧
      fact.executionHeadQuantity = terms.executionHeadQuantity := by
  simp only [newReleaseFact, eq_ok] at h
  obtain ⟨-, -, -, -, -, -, _, -, _, -, _, -, -, -, p, hp, rfl⟩ := h
  exact ⟨⟨p, hp⟩, rfl, rfl, rfl, rfl⟩

end record

end AutoQuantTrader
