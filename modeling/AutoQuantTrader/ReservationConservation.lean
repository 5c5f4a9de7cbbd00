import AutoQuantTrader.ReservationSteps
import AutoQuantTrader.SubmissionSafety

/-!
# Capacity is conserved

For every log that is accepted, what was released and what remains of each authorization make up
what was reserved for it, and so do the totals.  Facts only take away from what remains; after a
terminal fact nothing remains, so no further fact is accepted for its authorization.
-/

namespace AutoQuantTrader

open Result

variable {H : ReservationHashes} {reservation : BatchRiskReservation H.canonicalId}
  {s s' : ReleaseProgress} {facts : List ReservationReleaseFact} {fact : ReservationReleaseFact}
  {unknown : Finset Str} {p : ReservationCapacityProjection}

/-! ## Along the log -/

/-- What was released never falls. -/
structure ReleasesMore (s s' : ReleaseProgress) : Prop where
  more : ∀ id capacity capacity', s.running.get? id = some capacity →
    s'.running.get? id = some capacity' → capacity.amounts ≤ capacity'.amounts

theorem Releases.more (h : Releases reservation s fact s' authorization capacity released) :
    ReleasesMore s s' := by
  refine ⟨fun id c c' hc hc' => ?_⟩
  rw [h.after, Dict.get?_set] at hc'
  split at hc'
  · next hid =>
    rw [hid, h.before, Option.some.injEq] at hc
    rw [← hc, ← Option.some.inj hc', h.adds]
    exact le_add_of_nonneg_right (ReservationReleaseFact.amounts_pos h.valid).le
  · rw [hc, Option.some.injEq] at hc'
    rw [hc']

/-- Nothing negative was released for any authorization. -/
def ReleaseProgress.Nonneg (s : ReleaseProgress) : Prop :=
  ∀ id capacity, s.running.get? id = some capacity → 0 ≤ capacity.amounts

theorem ReleaseProgress.nonneg_initial : (ReleaseProgress.initial H reservation).Nonneg := by
  intro id capacity hget
  have hfold : ∀ (l : List (BatchRiskAuthorization H.canonicalId))
      (d : Dict Str RunningAuthorizationCapacity), (∀ id c, d.get? id = some c → c.amounts = 0) →
      ∀ id c, (l.foldl (fun d a => d.set a.val.decisionId {}) d).get? id = some c →
        c.amounts = 0 := by
    intro l
    induction l with
    | nil => exact fun _ hd => hd
    | cons a l ih =>
      intro d hd
      refine ih _ fun id c hc => ?_
      rw [Dict.get?_set] at hc
      split at hc
      · rw [← Option.some.inj hc]
        rfl
      · exact hd id c hc
  exact (hfold _ .empty (by simp) id capacity hget).ge

/-- No release fact makes a released amount negative. -/
theorem ReleaseProgress.Nonneg.step (hs : s.Nonneg)
    (h : applyReleaseFact H reservation s fact = .ok s') : s'.Nonneg := by
  obtain ⟨authorization, capacity, released, hreleases⟩ := applyReleaseFact_spec h
  intro id c hc
  rw [hreleases.after, Dict.get?_set] at hc
  split at hc
  · rw [← Option.some.inj hc, hreleases.adds]
    exact add_nonneg (hs _ _ hreleases.before)
      (ReservationReleaseFact.amounts_pos hreleases.valid).le
  · exact hs id c hc

theorem nonneg_of_foldlM
    (h : facts.foldlM (applyReleaseFact H reservation) (.initial H reservation) = .ok s) :
    s.Nonneg :=
  foldlM_invariant ReleaseProgress.Nonneg (fun _ _ _ _ hs hstep => hs.step hstep)
    ReleaseProgress.nonneg_initial h

/-! ## After a terminal fact -/

/-- Everything was released for the authorization of an identity. -/
def ReleaseProgress.Exhausted (reservation : BatchRiskReservation H.canonicalId) (id : Str)
    (s : ReleaseProgress) : Prop :=
  ∃ authorization capacity, (authorizationById H reservation).get? id = some authorization ∧
    s.running.get? id = some capacity ∧ capacity.amounts = authorization.val.reserved

/-- **Nothing is accepted for an authorization that holds nothing back.** -/
theorem ReleaseProgress.Exhausted.step {id : Str} (hs : s.Exhausted reservation id)
    (h : applyReleaseFact H reservation s fact = .ok s') :
    fact.authorizationId ≠ id ∧ s'.Exhausted reservation id := by
  obtain ⟨authorization, capacity, hknown, hget, hall⟩ := hs
  obtain ⟨authorization', capacity', released, hreleases⟩ := applyReleaseFact_spec h
  have hother : fact.authorizationId ≠ id := by
    rintro rfl
    obtain rfl := Option.some.inj (hknown.symm.trans hreleases.known)
    obtain rfl := Option.some.inj (hget.symm.trans hreleases.before)
    have hwithin := hreleases.within
    rw [hreleases.adds, hall] at hwithin
    have hnone := (add_le_iff_nonpos_right _).1 hwithin
    exact absurd (ReservationReleaseFact.amounts_pos hreleases.valid) hnone.not_gt
  refine ⟨hother, authorization, capacity, hknown, ?_, hall⟩
  rw [hreleases.after, Dict.get?_set, if_neg hother.symm, hget]

/-- A terminal fact releases all that was left. -/
theorem ReleaseProgress.exhausted_of_terminal (h : applyReleaseFact H reservation s fact = .ok s')
    (hterminal : fact.reason ≠ .executionAccounted) :
    s'.Exhausted reservation fact.authorizationId := by
  obtain ⟨authorization, capacity, released, hreleases⟩ := applyReleaseFact_spec h
  refine ⟨authorization, released, hreleases.known, ?_, (hreleases.terminal hterminal).1⟩
  rw [hreleases.after, Dict.get?_set_self]

theorem ne_of_exhausted {id : Str} (hs : s.Exhausted reservation id)
    (h : facts.foldlM (applyReleaseFact H reservation) s = .ok s') :
    ∀ later ∈ facts, later.authorizationId ≠ id := by
  induction facts generalizing s with
  | nil => simp
  | cons first rest ih =>
    obtain ⟨mid, hfirst, hrest⟩ := foldlM_cons_eq_ok.1 h
    obtain ⟨hne, hmid⟩ := hs.step hfirst
    intro later hlater
    rcases List.mem_cons.1 hlater with rfl | hmem
    · exact hne
    · exact ih hmid hrest later hmem

/-- No fact follows a terminal one of the same authorization. -/
theorem ne_after_terminal
    (h : (before ++ fact :: after).foldlM (applyReleaseFact H reservation) s = .ok s')
    (hterminal : fact.reason ≠ .executionAccounted) :
    ∀ later ∈ after, later.authorizationId ≠ fact.authorizationId := by
  rw [List.foldlM_append, bind_eq_ok] at h
  obtain ⟨mid, -, hrest⟩ := h
  obtain ⟨mid', hfact, hafter⟩ := foldlM_cons_eq_ok.1 hrest
  exact ne_of_exhausted (ReleaseProgress.exhausted_of_terminal hfact hterminal) hafter

/-! ## What is projected -/

/-- What was released and what remains make up what was there. -/
structure Conserved (initial released remaining : Amounts) : Prop where
  balance : released + remaining = initial
  nonneg : 0 ≤ remaining
  within : remaining ≤ initial

theorem Conserved.sum {α : Type} {initial released remaining : α → Amounts} {l : List α}
    (h : ∀ x ∈ l, Conserved (initial x) (released x) (remaining x)) :
    Conserved (l.map initial).sum (l.map released).sum (l.map remaining).sum := by
  induction l with
  | nil => exact ⟨by simp, by simp, by simp⟩
  | cons x l ih =>
    obtain ⟨hbalance, hnonneg, hwithin⟩ := h x List.mem_cons_self
    obtain ⟨hb, hn, hw⟩ := ih fun y hy => h y (List.mem_cons_of_mem x hy)
    simp only [List.map_cons, List.sum_cons]
    refine ⟨?_, add_nonneg hnonneg hn, add_le_add hwithin hw⟩
    rw [← hbalance, ← hb]
    abel

/-- The projection of an authorization shows what was reserved for it, and loses nothing. -/
structure ProjectsAuthorization (s : ReleaseProgress) (a : BatchRiskAuthorization H.canonicalId)
    (c : AuthorizationCapacityProjection) : Prop where
  identity : c.authorizationId = a.val.decisionId
  initial : c.initial = a.val.reserved
  running : ∃ capacity, s.running.get? a.val.decisionId = some capacity ∧
    c.released = capacity.amounts
  remaining : c.remaining = c.initial - c.released
  nonneg : 0 ≤ c.remaining

variable {a : BatchRiskAuthorization H.canonicalId} {c : AuthorizationCapacityProjection}

/-- A child projects what its releases left. -/
theorem projectAuthorization_spec (h : projectAuthorization H s unknown a = .ok c) :
    ProjectsAuthorization s a c := by
  simp only [projectAuthorization, eq_ok] at h
  obtain ⟨capacity, hcapacity, -, -, cash, hcash, exposure, hexposure, sell, hsell, rfl⟩ := h
  obtain ⟨rfl, hcash⟩ := remainingOf_eq hcash
  obtain ⟨rfl, hexposure⟩ := remainingOf_eq hexposure
  obtain ⟨rfl, hsell⟩ := remainingOf_eq hsell
  exact ⟨rfl, rfl, ⟨capacity, hcapacity, rfl⟩, rfl, hcash, hexposure, hsell⟩

/-- Initial amounts are the released and the remaining ones. -/
theorem ProjectsAuthorization.conserved (h : ProjectsAuthorization s a c) (hs : s.Nonneg) :
    Conserved c.initial c.released c.remaining := by
  obtain ⟨capacity, hget, hreleased⟩ := h.running
  refine ⟨by rw [h.remaining, add_sub_cancel], h.nonneg, ?_⟩
  rw [h.remaining]
  exact sub_le_self _ (hreleased ▸ hs _ _ hget)

namespace ReservationCapacityProjection

/-- The totals; the shares are those of all instruments. -/
def initial (p : ReservationCapacityProjection) : Amounts :=
  (p.initialCash, p.initialBuyExposure, (p.sellCapacity.map (·.initialQuantity)).sum)

def released (p : ReservationCapacityProjection) : Amounts :=
  (p.releasedCash, p.releasedBuyExposure, (p.sellCapacity.map (·.releasedQuantity)).sum)

def remaining (p : ReservationCapacityProjection) : Amounts :=
  (p.remainingCash, p.remainingBuyExposure, (p.sellCapacity.map (·.remainingQuantity)).sum)

end ReservationCapacityProjection

variable {children : List AuthorizationCapacityProjection}

/-- An authorization that holds no shares back has none to show. -/
theorem sum_sellCapacity {shown : InstrumentSellCapacityProjection → ℚ}
    {amount : AuthorizationCapacityProjection → ℚ}
    (hshown : ∀ c ∈ children, ∀ x, c.sellCapacity? = some x → shown x = amount c)
    (hnone : ∀ c ∈ children, c.sellCapacity? = none → amount c = 0) :
    ((children.filterMap (·.sellCapacity?)).map shown).sum = (children.map amount).sum := by
  induction children with
  | nil => rfl
  | cons c children ih =>
    have hrest := ih (fun c' hc' => hshown c' (List.mem_cons_of_mem c hc'))
      fun c' hc' => hnone c' (List.mem_cons_of_mem c hc')
    rw [List.filterMap_cons, List.map_cons, List.sum_cons]
    cases hsell : c.sellCapacity? with
    | none => rw [hrest, hnone c List.mem_cons_self hsell, zero_add]
    | some x => rw [List.map_cons, List.sum_cons, hrest, hshown c List.mem_cons_self x hsell]

theorem sellCapacity?_eq_some (h : c.sellCapacity? = some x) :
    x.initialQuantity = c.initialSellQuantity ∧ x.releasedQuantity = c.releasedSellQuantity ∧
      x.remainingQuantity = c.remainingSellQuantity := by
  simp only [AuthorizationCapacityProjection.sellCapacity?, Option.ite_none_right_eq_some,
    Option.some.injEq] at h
  obtain ⟨-, rfl⟩ := h
  exact ⟨rfl, rfl, rfl⟩

theorem sellCapacity?_eq_none (hinitial : 0 ≤ c.initialSellQuantity)
    (hconserved : Conserved c.initial c.released c.remaining) (h : c.sellCapacity? = none) :
    c.initialSellQuantity = 0 ∧ c.releasedSellQuantity = 0 ∧ c.remainingSellQuantity = 0 := by
  have hzero : c.initialSellQuantity = 0 := by
    by_contra hne
    have hpos : 0 < c.initialSellQuantity := lt_of_le_of_ne hinitial (Ne.symm hne)
    simp [AuthorizationCapacityProjection.sellCapacity?, hpos] at h
  have hnonneg : 0 ≤ c.remainingSellQuantity := hconserved.nonneg.2.2
  have hwithin : c.remainingSellQuantity ≤ c.initialSellQuantity := hconserved.within.2.2
  have hbalance : c.releasedSellQuantity + c.remainingSellQuantity = c.initialSellQuantity :=
    congrArg (fun x : Amounts => x.2.2) hconserved.balance
  refine ⟨hzero, ?_, ?_⟩ <;> linarith

theorem sum_amounts {α : Type} (l : List α) (cash exposure sell : α → ℚ) :
    (l.map fun x => ((cash x, exposure x, sell x) : Amounts)).sum =
      ((l.map cash).sum, (l.map exposure).sum, (l.map sell).sum) := by
  induction l with
  | nil => rfl
  | cons x l ih => simp only [List.map_cons, List.sum_cons, ih, Prod.mk_add_mk]

theorem sum_initial (children : List AuthorizationCapacityProjection) :
    (children.map (·.initial)).sum = ((children.map (·.initialCash)).sum,
      (children.map (·.initialBuyExposure)).sum, (children.map (·.initialSellQuantity)).sum) :=
  sum_amounts children _ _ _

theorem sum_released (children : List AuthorizationCapacityProjection) :
    (children.map (·.released)).sum = ((children.map (·.releasedCash)).sum,
      (children.map (·.releasedBuyExposure)).sum, (children.map (·.releasedSellQuantity)).sum) :=
  sum_amounts children _ _ _

theorem sum_remaining (children : List AuthorizationCapacityProjection) :
    (children.map (·.remaining)).sum = ((children.map (·.remainingCash)).sum,
      (children.map (·.remainingBuyExposure)).sum, (children.map (·.remainingSellQuantity)).sum) :=
  sum_amounts children _ _ _

theorem reservedSellQuantity_nonneg (a : BatchRiskAuthorization H.canonicalId) :
    0 ≤ a.val.reservedSellQuantity := by
  have hpasses := a.passes
  simp only [BatchRiskAuthorizationFields.postInit, eq_ok, persistedDecimal_eq_ok] at hpasses
  obtain ⟨-, -, -, -, -, -, -, -, -, -, -, -, -, -, -, -, -, -, -, -, -, -, -, -, -, -,
    -, -, -, -, -, -, -, -, -, -, -, -, -, -, _, ⟨⟨hnonneg, -⟩, -⟩, -⟩ := hpasses
  exact hnonneg

/-- What the totals are made of. -/
structure Totals (children : List AuthorizationCapacityProjection)
    (p : ReservationCapacityProjection) : Prop where
  initial : p.initial = (children.map (·.initial)).sum
  released : p.released = (children.map (·.released)).sum
  remaining : p.remaining = (children.map (·.remaining)).sum

/-- The totals of a reservation are those of its children. -/
theorem projectTotals_spec (h : projectTotals H reservation children facts unknown = .ok p)
    (hsell : ∀ c ∈ children, 0 ≤ c.initialSellQuantity)
    (hconserved : ∀ c ∈ children, Conserved c.initial c.released c.remaining) :
    p.authorizations = children ∧ p.initialCash = reservation.val.reservedCash ∧
      p.initialBuyExposure = reservation.val.reservedBuyExposure ∧ Totals children p := by
  simp only [projectTotals, Py.eq_ok] at h
  obtain ⟨releasedCash, hreleasedCash, remainingCash, hremainingCash, releasedExposure,
    hreleasedExposure, remainingExposure, hremainingExposure, cash, hcash, -, hcashKept, exposure,
    hexposure, -, hexposureKept, -, -, rfl⟩ := h
  have hbalance := (Conserved.sum hconserved).balance
  rw [sum_released, sum_remaining, sum_initial, Prod.mk_add_mk, Prod.mk_add_mk, Prod.mk.injEq,
    Prod.mk.injEq] at hbalance
  obtain ⟨hbalanceCash, hbalanceExposure, -⟩ := hbalance
  have hnone := fun c hc => sellCapacity?_eq_none (hsell c hc) (hconserved c hc)
  refine ⟨rfl, rfl, rfl, ?_, ?_, ?_⟩
  · rw [sum_initial, ReservationCapacityProjection.initial,
      sum_sellCapacity (fun c _ x hx => (sellCapacity?_eq_some hx).1) fun c hc hx =>
      (hnone c hc hx).1,
      ← hbalanceCash, ← hbalanceExposure, ← hcashKept, ← hexposureKept, exactDecimalAdd_eq hcash,
      exactDecimalAdd_eq hexposure, exactDecimalSum_eq hreleasedCash,
      exactDecimalSum_eq hremainingCash, exactDecimalSum_eq hreleasedExposure,
      exactDecimalSum_eq hremainingExposure]
  · rw [sum_released, ReservationCapacityProjection.released,
      sum_sellCapacity (fun c _ x hx => (sellCapacity?_eq_some hx).2.1)
        fun c hc hx => (hnone c hc hx).2.1,
      exactDecimalSum_eq hreleasedCash, exactDecimalSum_eq hreleasedExposure]
  · rw [sum_remaining, ReservationCapacityProjection.remaining,
      sum_sellCapacity (fun c _ x hx => (sellCapacity?_eq_some hx).2.2)
        fun c hc hx => (hnone c hc hx).2.2,
      exactDecimalSum_eq hremainingCash, exactDecimalSum_eq hremainingExposure]

/-- **What a projection shows** of a reservation after the facts. -/
structure ProjectsReservation (reservation : BatchRiskReservation H.canonicalId)
    (facts : List ReservationReleaseFact) (unknown : Finset Str) (s : ReleaseProgress)
    (p : ReservationCapacityProjection) : Prop where
  run : facts.foldlM (applyReleaseFact H reservation) (.initial H reservation) = .ok s
  children : reservation.val.authorizations.mapM (projectAuthorization H s unknown) =
    .ok p.authorizations
  cash : p.initialCash = reservation.val.reservedCash
  exposure : p.initialBuyExposure = reservation.val.reservedBuyExposure
  totals : Totals p.authorizations p

theorem conserved_of_mapM
    (hrun : facts.foldlM (applyReleaseFact H reservation) (.initial H reservation) = .ok s)
    (h : reservation.val.authorizations.mapM (projectAuthorization H s unknown) = .ok children) :
    ∀ c ∈ children, Conserved c.initial c.released c.remaining := by
  intro c hc
  obtain ⟨a, -, hprojects⟩ := exists_of_mem_mapM h hc
  exact (projectAuthorization_spec hprojects).conserved (nonneg_of_foldlM hrun)

/-- The projection replays all facts and projects every child. -/
theorem projectReservationCapacity_spec
    (h : projectReservationCapacity H reservation facts unknown = .ok p) :
    ∃ s, ProjectsReservation reservation facts unknown s p := by
  simp only [projectReservationCapacity, eq_ok] at h
  obtain ⟨-, -, s, hrun, children, hchildren, htotals⟩ := h
  have hsell (c : AuthorizationCapacityProjection) (hc : c ∈ children) :
      0 ≤ c.initialSellQuantity := by
    obtain ⟨a, -, hprojects⟩ := exists_of_mem_mapM hchildren hc
    have hinitial := congrArg (fun x : Amounts => x.2.2)
      (projectAuthorization_spec hprojects).initial
    exact (reservedSellQuantity_nonneg a).trans_eq hinitial.symm
  obtain ⟨rfl, hcash, hexposure, hall⟩ :=
    projectTotals_spec htotals hsell (conserved_of_mapM hrun hchildren)
  exact ⟨s, hrun, hchildren, hcash, hexposure, hall⟩

/-- The totals are conserved, since every authorization is. -/
theorem ProjectsReservation.conserved (h : ProjectsReservation reservation facts unknown s p) :
    Conserved p.initial p.released p.remaining := by
  rw [h.totals.initial, h.totals.released, h.totals.remaining]
  exact Conserved.sum (conserved_of_mapM h.run h.children)

/-- One more fact leaves no more than there was. -/
theorem ProjectsReservation.remaining_le (h : ProjectsReservation reservation facts unknown s p)
    (h' : ProjectsReservation reservation (facts ++ [fact]) unknown' s' p') :
    List.Forall₂ (fun c c' => c'.authorizationId = c.authorizationId ∧ c'.remaining ≤ c.remaining)
      p.authorizations p'.authorizations ∧ p'.remaining ≤ p.remaining := by
  have hmore : ReleasesMore s s' := by
    obtain ⟨mid, hmid, hstep⟩ := foldlM_snoc_eq_ok.1 h'.run
    obtain rfl := Except.ok.inj (h.run.symm.trans hmid)
    obtain ⟨_, _, _, hreleases⟩ := applyReleaseFact_spec hstep
    exact hreleases.more
  have hchildren : List.Forall₂ (fun c c' : AuthorizationCapacityProjection =>
      c'.authorizationId = c.authorizationId ∧ c'.remaining ≤ c.remaining)
      p.authorizations p'.authorizations := by
    refine forall₂_of_mapM₂ (fun a _ c c' hc hc' => ?_) h.children h'.children
    have hspec := projectAuthorization_spec hc
    have hspec' := projectAuthorization_spec hc'
    obtain ⟨capacity, hget, hreleased⟩ := hspec.running
    obtain ⟨capacity', hget', hreleased'⟩ := hspec'.running
    refine ⟨hspec'.identity.trans hspec.identity.symm, ?_⟩
    rw [hspec.remaining, hspec'.remaining, hspec.initial, hspec'.initial, hreleased, hreleased']
    exact sub_le_sub_left (hmore.more _ _ _ hget hget') _
  refine ⟨hchildren, ?_⟩
  rw [h.totals.remaining, h'.totals.remaining]
  refine List.Forall₂.sum_le_sum ?_
  rw [List.forall₂_map_left_iff, List.forall₂_map_right_iff]
  exact hchildren.flip.imp fun _ _ hle => hle.2

/-! ## Unknown authorizations -/

/-- An unknown authorization is projected like any other as long as nothing was released for it. -/
theorem projectAuthorization_unknown
    (h : a.val.decisionId ∈ unknown → ∀ capacity, s.running.get? a.val.decisionId = some capacity →
      capacity.releaseEventIds = []) :
    projectAuthorization H s unknown a = projectAuthorization H s ∅ a := by
  unfold projectAuthorization
  cases hget : s.running.get? a.val.decisionId with
  | none => rfl
  | some capacity =>
    have hpass : ¬ (a.val.decisionId ∈ unknown ∧ capacity.releaseEventIds ≠ []) :=
      fun hbad => hbad.2 (h hbad.1 capacity hget)
    have hpass' : ¬ (a.val.decisionId ∈ (∅ : Finset Str) ∧ capacity.releaseEventIds ≠ []) :=
      fun hbad => absurd hbad.1 (Finset.notMem_empty _)
    simp only [getOrThrow, bind, Except.bind, raiseIf, throwIf, if_neg hpass, if_neg hpass']

theorem releaseEventIds_of_unknown (h : projectAuthorization H s unknown a = .ok c)
    (hunknown : a.val.decisionId ∈ unknown) :
    ∀ capacity, s.running.get? a.val.decisionId = some capacity →
    capacity.releaseEventIds = [] := by
  intro capacity hget
  simp only [projectAuthorization, Py.eq_ok, not_and] at h
  obtain ⟨capacity', hget', -, hnone, -⟩ := h
  obtain rfl := Option.some.inj (hget.symm.trans hget')
  exact hnone hunknown

/-- Unknown authorizations do not stop the totals. -/
theorem exists_projectTotals (h : projectTotals H reservation children facts ∅ = .ok p) :
    ∃ p', projectTotals H reservation children facts unknown = .ok p' := by
  by_cases hempty : unknown = ∅
  · exact ⟨p, hempty ▸ h⟩
  · have hfrozen (n : Nat) : reservationState unknown n facts = .frozen := by
      rw [reservationState, if_pos hempty]
    simp only [projectTotals, Py.eq_ok] at h ⊢
    obtain ⟨cash, hcash, rcash, hrcash, exposure, hexposure, rexposure, hrexposure,
      total, htotal, _, hkept, total', htotal', _, hkept', -⟩ := h
    simp only [hfrozen, releasedAt, pure_eq_ok]
    exact ⟨_, cash, hcash, rcash, hrcash, exposure, hexposure, rexposure, hrexposure, total, htotal,
      (), hkept, total', htotal', (), hkept', none, rfl, rfl⟩

/-- A fact for an authorization that is not unknown is accepted also while others are. -/
theorem exists_projectReservationCapacity
    (h : projectReservationCapacity H reservation facts unknown = .ok p)
    (h' : projectReservationCapacity H reservation (facts ++ [fact]) ∅ = .ok p')
    (hknown : fact.authorizationId ∉ unknown) :
    ∃ p'', projectReservationCapacity H reservation (facts ++ [fact]) unknown = .ok p'' := by
  simp only [projectReservationCapacity, eq_ok] at h h' ⊢
  obtain ⟨_, hids, s, hrun, children, hchildren, -⟩ := h
  obtain ⟨-, -, s', hrun', children', hchildren', htotals⟩ := h'
  obtain ⟨mid, hmid, hstep⟩ := foldlM_snoc_eq_ok.1 hrun'
  obtain rfl := Except.ok.inj (hrun.symm.trans hmid)
  obtain ⟨authorization, capacity, released, hreleases⟩ := applyReleaseFact_spec hstep
  have hsame : reservation.val.authorizations.mapM (projectAuthorization H s' unknown) =
      .ok children' := by
    rw [← hchildren']
    refine mapM_congr fun a ha => projectAuthorization_unknown fun hunknown c hget => ?_
    -- the authorization is not the one of the fact, so nothing has changed for it
    have hne : a.val.decisionId ≠ fact.authorizationId := fun heq => hknown (heq ▸ hunknown)
    rw [hreleases.after, Dict.get?_set, if_neg hne] at hget
    obtain ⟨child, -, hchild⟩ := exists_mem_of_mapM hchildren ha
    exact releaseEventIds_of_unknown hchild hunknown c hget
  obtain ⟨p'', hp''⟩ := exists_projectTotals htotals
  exact ⟨p'', (), hids, s', hrun', children', hsame, hp''⟩

/-! ## Conservation over a whole log -/

/-- **Capacity is conserved.**  For every log that is accepted: each authorization and the totals
lose nothing, one more fact leaves no more, nothing is accepted for an authorization after its
terminal fact, and what the record functions return for the log is accepted after it. -/
theorem reservation_capacity_conserved
    (h : projectReservationCapacity H reservation facts unknown = .ok p) :
    List.Forall₂ (fun a c => c.authorizationId = a.val.decisionId ∧ c.initial = a.val.reserved ∧
        Conserved c.initial c.released c.remaining)
      reservation.val.authorizations p.authorizations ∧
    (p.initial = (reservation.val.authorizations.map (·.val.reserved)).sum ∧
      p.initialCash = reservation.val.reservedCash ∧
      p.initialBuyExposure = reservation.val.reservedBuyExposure ∧
      Conserved p.initial p.released p.remaining) ∧
    (∀ fact unknown' p',
      projectReservationCapacity H reservation (facts ++ [fact]) unknown' = .ok p' →
      List.Forall₂ (fun c c' => c'.authorizationId = c.authorizationId ∧ c'.remaining ≤ c.remaining)
        p.authorizations p'.authorizations ∧ p'.remaining ≤ p.remaining) ∧
    (∀ before fact after, facts = before ++ fact :: after → fact.reason ≠ .executionAccounted →
      ∀ later ∈ after, later.authorizationId ≠ fact.authorizationId) ∧
    ∀ fact, RecordsRelease reservation facts fact →
      (∃ p', projectReservationCapacity H reservation (facts ++ [fact]) ∅ = .ok p') ∧
      (fact.authorizationId ∉ unknown →
        ∃ p', projectReservationCapacity H reservation (facts ++ [fact]) unknown = .ok p') := by
  obtain ⟨s, hprojects⟩ := projectReservationCapacity_spec h
  have hchildren := mapM_eq_ok.1 hprojects.children
  have hinitial : (reservation.val.authorizations.map (·.val.reserved)).sum =
      (p.authorizations.map (·.initial)).sum := by
    congr 1
    rw [List.forall₂_eq_eq_eq.symm, List.forall₂_map_left_iff, List.forall₂_map_right_iff]
    exact hchildren.imp fun a c hc => (projectAuthorization_spec hc).initial.symm
  refine ⟨hchildren.imp fun a c hc => ?_, ⟨?_, hprojects.cash, hprojects.exposure,
    hprojects.conserved⟩, fun fact unknown' p' h' => ?_, ?_, fun fact hrecords => ?_⟩
  · have hspec := projectAuthorization_spec hc
    exact ⟨hspec.identity, hspec.initial, hspec.conserved (nonneg_of_foldlM hprojects.run)⟩
  · rw [hprojects.totals.initial, hinitial]
  · obtain ⟨s', hprojects'⟩ := projectReservationCapacity_spec h'
    exact hprojects.remaining_le hprojects'
  · rintro before fact after rfl hterminal
    exact ne_after_terminal hprojects.run hterminal
  · obtain ⟨authorization, terms, hnew⟩ := hrecords.exists_terms
    obtain ⟨⟨p', hp'⟩, -⟩ := newReleaseFact_spec hnew
    exact ⟨⟨p', hp'⟩, exists_projectReservationCapacity h hp'⟩

/-! ## A sample order -/

/-- A purchase of five shares, sent and confirmed, of which three are filled and accounted for. -/
structure SampleRelease where
  decision : BatchRiskDecision ReservationHashes.plain.canonicalId
  reservation : BatchRiskReservation ReservationHashes.plain.canonicalId
  authorization : BatchRiskAuthorization ReservationHashes.plain.canonicalId
  attempt : CanonicalSubmissionAttempt ReservationHashes.plain.canonicalId
  submission : OrderSubmission
  fill : BrokerOrderEvent
  order : CanonicalOrderState
  fact : ReservationReleaseFact

/-- One event of the sample order. -/
def sampleOrderEvent (submission : OrderSubmission) (eventId : Str) (sequence : Nat) (t : Instant)
    (kind : BrokerOrderEventKind) : Py BrokerOrderEvent :=
  plainEvent eventId submission.val.orderId "broker-order" sequence t kind

def sampleRelease : Py SampleRelease := do
  let H := ReservationHashes.plain
  let (intent, request, decision) ← sampleSubmission 110
  let reservation ← getOrThrow decision.val.reservation .keyError
  let authorization ← getOrThrow decision.val.authorizations.head? .indexError
  let pending ← prepareSubmissionAttempt .plain intent decision sampleReceipt request 120 120 []
  let receipt ← construct { sampleReceipt.val with validatedAt := 125 }
  let inFlight ← markSubmissionInFlight .plain pending 125 125 receipt
  let attempt ← confirmSubmission .plain inFlight 130 130 "response" "broker-order"
  let submission ← createOrderSubmission H.toOrderHashes intent authorization.val.decisionId
    attempt.attemptId 125
  let fill ← sampleOrderEvent submission "fill" 1 140 (.execution ⟨"execution", 1, 3, 10, 1⟩)
  let order ← reduceOrderLifecycle H.toOrderHashes submission [fill] none
  let fact ← recordExecutionAccountedRelease H reservation authorization attempt order fill
    "entry" "ledger" 150 150 []
  return { decision, reservation, authorization, attempt, submission, fill, order, fact }

/-- The log of the sample with its only fact is accepted, and conserves what was reserved. -/
theorem sample_capacity_conserved : ∃ (x : SampleRelease) (p : ReservationCapacityProjection),
    projectReservationCapacity .plain x.reservation [x.fact] ∅ = .ok p ∧ p.remainingCash = 21 ∧
      Conserved p.initial p.released p.remaining := by
  have h : (fun p => p.remainingCash) <$> (sampleRelease >>= fun x =>
      projectReservationCapacity .plain x.reservation [x.fact] ∅) = .ok 21 := by
    decide +kernel
  obtain ⟨p, hp, hcash⟩ := map_eq_ok.1 h
  obtain ⟨x, -, hproject⟩ := bind_eq_ok.1 hp
  exact ⟨x, p, hproject, hcash, (reservation_capacity_conserved hproject).2.1.2.2.2⟩

end AutoQuantTrader
