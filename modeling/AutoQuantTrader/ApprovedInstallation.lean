import AutoQuantTrader.BatchInstallation

/-!
# An approved batch is installed

Conversely, prices that fit and fresh identities are all that an approved batch needs: the other
amounts of its commitments are bounded by the holds that risk has checked, every hold is covered by
the cash that the commitments before it have left, and a sale is covered because nothing else is
committed for its instrument.
-/

namespace AutoQuantTrader

open Result Sorting

namespace Engine

variable {Z : EasternTime} {E : EngineEnv Z} {batch : DailyIntentBatch}
  {decision : DailyRiskDecision} {before : AccountSnapshot}

/-! ## The amounts of a commitment -/

/-- The fees that risk sets aside for an intent. -/
def feesOf (E : EngineEnv Z) (intent : OrderIntent) : ℚ :=
  intent.val.quantity * E.spec.riskPolicy.val.feePerShare

/-- The two fractions of a risk policy that a hold is made of are amounts. -/
theorem riskPolicy_amounts (policy : DailyRiskPolicy) :
    (isPersisted policy.val.adverseReserveFraction ∧ 0 ≤ policy.val.adverseReserveFraction) ∧
      isPersisted policy.val.feePerShare ∧ 0 ≤ policy.val.feePerShare := by
  have hpasses := policy.passes
  simp only [DailyRiskPolicyFields.postInit, eq_ok] at hpasses
  obtain ⟨_, -, _, -, _, -, _, -, _, -, _, -, _, -, _, hadverse, _, hfee, -⟩ := hpasses
  exact ⟨⟨isPersisted_of_requireAmount hadverse, nonneg_of_requireAmount hadverse⟩,
    isPersisted_of_requireAmount hfee, nonneg_of_requireAmount hfee⟩

theorem executionFee_persisted (policy : ExecutionPolicy) : isPersisted policy.val.feePerShare := by
  have hpasses := policy.passes
  simp only [ExecutionPolicyFields.postInit, eq_ok] at hpasses
  obtain ⟨_, -, _, hfee, -⟩ := hpasses
  exact isPersisted_of_requireAmount hfee

theorem approvedPriceOf_pos (intent : OrderIntent) : 0 < approvedPriceOf E intent := by
  have hprice := intent.quantity_bounds.2.2.2.1
  have hadverse := (riskPolicy_amounts E.spec.riskPolicy).1.2
  exact mul_pos hprice (by linarith)

/-- The price that a commitment approves is computed exactly. -/
theorem approvedPrice_eq (intent : OrderIntent) :
    approvedPrice E intent = .ok (approvedPriceOf E intent) := by
  have hprice := intent.quantity_bounds.2.2.2.2
  have hadverse := (riskPolicy_amounts E.spec.riskPolicy).1.1
  have hone : Fits 18 1 := isPersisted_iff.1 (by decide +kernel)
  have hfactor : Fits 19 (1 + E.spec.riskPolicy.val.adverseReserveFraction) :=
    hone.add (isPersisted_iff.1 hadverse)
  simp only [approvedPrice, eq_ok]
  exact ⟨_, exactDecimalAdd_of_fits (hone.mono (by decide))
      ((isPersisted_iff.1 hadverse).mono (by decide)),
    exactDecimalMultiply_of_fits ((isPersisted_iff.1 hprice).mono (by decide))
      (hfactor.mono (by decide))⟩

theorem feesOf_nonneg (intent : OrderIntent) : 0 ≤ feesOf E intent :=
  mul_nonneg intent.quantity_bounds.1.le (riskPolicy_amounts E.spec.riskPolicy).2.2

/-- A hold is the reserve of the whole order at the approved price. -/
theorem holdOf_eq (intent : OrderIntent) :
    holdOf E.spec.riskPolicy intent = match intent.val.side with
      | .buy => intent.val.quantity * approvedPriceOf E intent + feesOf E intent
      | .sell => feesOf E intent := by
  cases hside : intent.val.side with
  | sell => simp only [holdOf, feesOf, hside]
  | buy =>
    simp only [holdOf, approvedPriceOf, feesOf, hside]
    ring

theorem feesOf_le_holdOf (intent : OrderIntent) :
    feesOf E intent ≤ holdOf E.spec.riskPolicy intent := by
  rw [holdOf_eq]
  split
  · have hcost := mul_pos intent.quantity_bounds.1 (approvedPriceOf_pos (E := E) intent)
    linarith
  · exact le_rfl

theorem holdOf_nonneg (intent : OrderIntent) : 0 ≤ holdOf E.spec.riskPolicy intent :=
  (feesOf_nonneg intent).trans (feesOf_le_holdOf intent)

variable {intent : OrderIntent}

theorem feesOf_persisted (hhold : isPersisted (holdOf E.spec.riskPolicy intent)) :
    isPersisted (feesOf E intent) := by
  have hlt : |feesOf E intent| < pow10 18 := by
    have hbound := hhold.2
    rw [abs_of_nonneg (holdOf_nonneg intent)] at hbound
    rw [abs_of_nonneg (feesOf_nonneg intent)]
    exact (feesOf_le_holdOf intent).trans_lt hbound
  exact Fits.whole_mul intent.quantity_bounds.2.1
    (isPersisted_iff.1 (riskPolicy_amounts E.spec.riskPolicy).2.1) hlt

/-- The reserve of the whole order is computed exactly, and is the hold. -/
theorem reserve_eq (hhold : isPersisted (holdOf E.spec.riskPolicy intent))
    (hprice : isPersisted (approvedPriceOf E intent)) :
    reserve intent.val.side intent.val.quantity (approvedPriceOf E intent) (feesOf E intent) =
      .ok (holdOf E.spec.riskPolicy intent) := by
  obtain ⟨hpositive, hwhole, hquantity, -⟩ := intent.quantity_bounds
  have hfeesFit := isPersisted_iff.1 (feesOf_persisted hhold)
  rw [holdOf_eq] at hhold ⊢
  cases hside : intent.val.side with
  | sell => rfl
  | buy =>
    simp only [hside] at hhold
    have hfees := feesOf_nonneg (E := E) intent
    have hcost := mul_pos hpositive (approvedPriceOf_pos (E := E) intent)
    have hbound := hhold.2
    rw [abs_of_nonneg (by linarith)] at hbound
    have hnotional : Fits 18 (intent.val.quantity * approvedPriceOf E intent) := by
      refine Fits.whole_mul hwhole (isPersisted_iff.1 hprice) ?_
      rw [abs_of_pos hcost]
      linarith
    simp only [reserve, eq_ok]
    exact ⟨_, exactDecimalMultiply_of_fits ((isPersisted_iff.1 hquantity).mono (by decide))
        ((isPersisted_iff.1 hprice).mono (by decide)),
      exactDecimalAdd_of_fits (hnotional.mono (by decide)) (hfeesFit.mono (by decide))⟩

/-! ## The holds of a decision -/

theorem nodup_keys_sortedPairs {pairs : List (Str × ℚ)} (h : (pairs.map (·.1)).Nodup) :
    ((sortedPairs pairs).map (·.1)).Nodup :=
  ((sortOn_perm _ pairs).map _).nodup_iff.2 h

theorem flatMap_sharesOf (intents : List OrderIntent) :
    intents.flatMap sharesOf = (intents.filter (·.val.side = .sell)).map
      fun i => (i.val.intentId, i.val.quantity) := by
  induction intents with
  | nil => rfl
  | cons intent rest ih =>
    rw [List.flatMap_cons, ih]
    cases hside : intent.val.side <;> simp [sharesOf, hside]

section approved

variable (happroves : ApprovesBatch E.hashes E.spec.riskPolicy before batch now decision)
  (hintent : intent ∈ batch.intents)

include happroves hintent

/-- The decision holds each intent's cash under the intent's own identity. -/
theorem lookup_cash : lookup decision.reservedCashByIntent intent.val.intentId =
    some (holdOf E.spec.riskPolicy intent) := by
  have hnodup : ((batch.intents.map fun i =>
      (i.val.intentId, holdOf E.spec.riskPolicy i)).map (·.1)).Nodup := by
    rw [List.map_map]
    exact happroves.ids
  rw [happroves.cash, lookup_eq_some_iff (nodup_keys_sortedPairs hnodup)]
  exact mem_sortOn.2 (List.mem_map_of_mem hintent)

theorem lookup_shares : (lookup decision.reservedSharesByIntent intent.val.intentId).getD 0 =
    sellQuantity intent.val.side intent.val.quantity := by
  have hnodup : ((batch.intents.flatMap sharesOf).map (·.1)).Nodup := by
    rw [flatMap_sharesOf, List.map_map]
    exact (List.filter_sublist.map _).nodup happroves.ids
  rw [happroves.shares]
  cases hside : intent.val.side with
  | sell =>
    have hmem : (intent.val.intentId, intent.val.quantity) ∈ batch.intents.flatMap sharesOf :=
      List.mem_flatMap.2 ⟨intent, hintent, by simp [sharesOf, hside]⟩
    rw [(lookup_eq_some_iff (nodup_keys_sortedPairs hnodup)).2 (mem_sortOn.2 hmem)]
    rfl
  | buy =>
    have hnone : lookup (sortedPairs (batch.intents.flatMap sharesOf)) intent.val.intentId =
        none := by
      rw [lookup_eq_none]
      intro hkey
      obtain ⟨pair, hpair, hid⟩ := List.mem_map.1 hkey
      rw [sortedPairs, mem_sortOn, flatMap_sharesOf] at hpair
      obtain ⟨other, hother, rfl⟩ := List.mem_map.1 hpair
      obtain ⟨hmem, hsell⟩ := List.mem_filter.1 hother
      -- the intent with this identity would be a sale
      rw [List.inj_on_of_nodup_map happroves.ids hmem hintent hid, hside] at hsell
      cases hsell
    rw [hnone]
    rfl

end approved

/-! ## The offer -/

/-- The fields of the commitment that an approved intent is offered with. -/
def offeredFields (E : EngineEnv Z) (batch : DailyIntentBatch) (before : AccountSnapshot)
    (sequence : Nat) (intent : OrderIntent) : CommitmentFields :=
  unsentFields E batch before sequence intent (orderIdOf E intent)
    (E.hashes.riskPolicy E.spec.riskPolicy) (holdOf E.spec.riskPolicy intent)
    (sellQuantity intent.val.side intent.val.quantity) (approvedPriceOf E intent) (feesOf E intent)

/-- What is known of an intent of an approved batch. -/
structure ApprovedIntent (E : EngineEnv Z) (batch : DailyIntentBatch) (decision : DailyRiskDecision)
    (before : AccountSnapshot) (now : Instant) (intent : OrderIntent) : Prop where
  window : batch.target.notBefore < batch.target.expiresAt
  unexpired : now < batch.target.expiresAt
  policySha256 : decision.policySha256 = E.hashes.riskPolicy E.spec.riskPolicy
  cash : lookup decision.reservedCashByIntent intent.val.intentId =
    some (holdOf E.spec.riskPolicy intent)
  shares : (lookup decision.reservedSharesByIntent intent.val.intentId).getD 0 =
    sellQuantity intent.val.side intent.val.quantity
  createdAt : intent.val.createdAt = now
  hold : isPersisted (holdOf E.spec.riskPolicy intent)
  instrumentText : isBoundedText intent.val.instrumentId
  symbolText : isBoundedText intent.val.symbol
  scope : lookup E.spec.instruments intent.val.instrumentId = some intent.val.symbol
  covered : intent.val.side = .sell → ∃ held,
    heldQuantity before intent.val.instrumentId = .ok held ∧ isPersisted held ∧
      intent.val.quantity ≤ held

/-- A position that is looked up is the only one of its instrument. -/
theorem heldQuantity_eq (hnodup : (before.positions.map (·.instrumentId)).Nodup)
    (hposition : before.position? instrumentId = some position)
    (hpersisted : isPersisted position.quantity) (hnonneg : 0 ≤ position.quantity) :
    heldQuantity before instrumentId = .ok position.quantity := by
  obtain ⟨member, hmem, heq⟩ := List.mem_map.1 (mem_of_lookup hposition)
  obtain ⟨rfl, rfl⟩ := Prod.mk.inj heq
  have hfits : Fits 40 member.quantity := (isPersisted_iff.1 hpersisted).mono (by decide)
  have hlt : member.quantity < pow10 40 := (le_abs_self _).trans_lt hfits.2
  rw [heldQuantity, Keyed.filter_eq_singleton hnodup hmem, List.map_singleton,
    exactDecimalSum_of_fits (by simpa using ⟨hnonneg, hfits⟩) (by simpa using hlt),
    List.sum_singleton]

variable {state : AccountingState} {context₀ : AccountingContext} {t : AccountingTransition}

/-- The intents of an approved batch, over an account that projects to the snapshot. -/
theorem approvedIntent_of_project
    (hproject : AutoQuantTrader.project E.hashes.toAccountingHashes state context₀
      E.spec.executionPolicy = .ok t)
    (hscope : context₀.instruments = E.spec.instruments)
    (happroves : ApprovesBatch E.hashes E.spec.riskPolicy t.snapshot batch now decision)
    (hconverts : Converts batch.target t.snapshot batch) (hintent : intent ∈ batch.intents) :
    ApprovedIntent E batch decision t.snapshot now intent := by
  have hpasses := happroves.passes intent hintent
  obtain ⟨mark, hmark, hsymbol⟩ := hpasses.mark
  obtain ⟨member, hmem, heq⟩ := List.mem_map.1 (mem_of_lookup hmark)
  obtain ⟨hinstrument, rfl⟩ := Prod.mk.inj heq
  have hlookup := project_marks hproject hmem
  rw [hscope, hinstrument, hsymbol] at hlookup
  have hchecks := member.passes
  simp only [CausalMarkFields.postInit, eq_ok, requireBoundedText_eq_ok] at hchecks
  obtain ⟨_, -, _, hinstrumentText, _, hsymbolText, -⟩ := hchecks
  refine {
    window := hconverts.window
    unexpired := happroves.unexpired
    policySha256 := happroves.policySha256
    cash := lookup_cash happroves hintent
    shares := lookup_shares happroves hintent
    createdAt := hpasses.createdAt
    hold := hpasses.persisted
    instrumentText := hinstrument ▸ hinstrumentText
    symbolText := hsymbol ▸ hsymbolText
    scope := hlookup
    covered := fun hsell => ?_ }
  obtain ⟨position, held, hposition, hheld, hfits⟩ := hpasses.shares hsell
  rw [hconverts.idle intent hintent, List.map_nil] at hheld
  rw [exactDecimalSum_eq hheld, List.sum_nil, sub_zero] at hfits
  obtain ⟨hnodup, hpersisted⟩ := project_positions hproject
  obtain ⟨member, hmem, heq⟩ := List.mem_map.1 (mem_of_lookup hposition)
  obtain ⟨-, rfl⟩ := Prod.mk.inj heq
  exact ⟨_, heldQuantity_eq hnodup hposition (hpersisted _ hmem)
    (intent.quantity_bounds.1.le.trans hfits), hpersisted _ hmem, hfits⟩

variable {sequence : Nat}

/-- A sale of an approved batch is covered by shares that nothing reserves. -/
theorem checkLongShares_of_approved (happroved : ApprovedIntent E batch decision before now intent)
    (hpositions : snapshot.positions = before.positions)
    (hidle : ∀ q ∈ state.commitments, q.val.instrumentId = intent.val.instrumentId →
      q.val.reservedSellQuantity = 0) (hc : c.val = offeredFields E batch before sequence intent) :
    checkLongShares state snapshot c = .ok () := by
  have hside : c.val.side = intent.val.side := by rw [hc]; rfl
  have hquantity : c.val.remainingQuantity = intent.val.quantity := by rw [hc]; rfl
  have hinstrument : c.val.instrumentId = intent.val.instrumentId := by rw [hc]; rfl
  unfold checkLongShares
  split
  · rfl
  · next hsell =>
    obtain ⟨held, hheld, hpersisted, hcovered⟩ := happroved.covered (hside.symm.trans hsell)
    have hheld' : heldQuantity snapshot intent.val.instrumentId = .ok held := by
      rw [heldQuantity, hpositions]
      exact hheld
    have hzero : ∀ v ∈ (state.commitments.filter
        (·.val.instrumentId = intent.val.instrumentId)).map (·.val.reservedSellQuantity),
          v = 0 := by
      intro v hv
      obtain ⟨q, hq, rfl⟩ := List.mem_map.1 hv
      obtain ⟨hmem, hsame⟩ := List.mem_filter.1 hq
      exact hidle q hmem (of_decide_eq_true hsame)
    have hsum : exactDecimalSum ((state.commitments.filter
        (·.val.instrumentId = intent.val.instrumentId)).map (·.val.reservedSellQuantity)) =
        .ok 0 := by
      rw [exactDecimalSum_of_fits, List.sum_eq_zero hzero]
      · intro v hv
        rw [hzero v hv]
        exact ⟨le_rfl, Fits.zero⟩
      · rw [List.sum_eq_zero hzero]
        exact pow10_pos 40
    have hfits : Fits 40 held := (isPersisted_iff.1 hpersisted).mono (by decide)
    simp only [Py.eq_ok, hinstrument, hquantity]
    refine ⟨held, hheld', 0, hsum, held - 0, exactDecimalSubtract_of_fits hfits Fits.zero, ?_⟩
    rw [sub_zero, not_lt]
    exact hcovered

/-- A fact of a new identity is always accepted. -/
theorem appendFact_of_new {α : Type} [DecidableEq α] {identity : α → Str} {values : List α}
    {value : α} (hnew : ∀ v ∈ values, identity v ≠ identity value) :
    appendFact identity identityName values value = .ok (sortOn identity (values ++ [value])) := by
  have hnone : values.find? (identity · = identity value) = none := by
    simpa [List.find?_eq_none] using hnew
  rw [appendFact, hnone]
  rfl

section offer

variable {p : EnginePoint} (happroved : ApprovedIntent E batch decision before p.now intent)
  (hprice : isPersisted (approvedPriceOf E intent))
  (hfresh : FreshIdentity E decision state intent)

include happroved hprice hfresh

/-- The fields of an offer pass the checks of a commitment. -/
theorem offeredFields_passes :
    (offeredFields E batch before sequence intent).postInit = .ok () := by
  obtain ⟨hpositive, hwhole, hquantity, -⟩ := intent.quantity_bounds
  have hzero : isPersisted 0 := isPersisted_iff.2 Fits.zero
  have hsell : isPersisted (sellQuantity intent.val.side intent.val.quantity) ∧
      0 ≤ sellQuantity intent.val.side intent.val.quantity ∧
      isWhole (sellQuantity intent.val.side intent.val.quantity) := by
    cases intent.val.side with
    | buy => exact ⟨hzero, le_rfl, rfl⟩
    | sell => exact ⟨hquantity, hpositive.le, hwhole⟩
  simp only [CommitmentFields.postInit, Py.eq_ok, requireBoundedText_eq_ok]
  refine ⟨(), hfresh.commitmentText, (), hfresh.intentText, (), hfresh.orderText, (),
    happroved.instrumentText, (), happroved.symbolText,
    (), requireAmount_of_nonneg hquantity hpositive.le (fun _ => hwhole),
    (), requireAmount_of_nonneg hzero le_rfl (fun _ => rfl),
    (), requireAmount_of_nonneg hquantity hpositive.le (fun _ => hwhole),
    (), requireAmount_of_nonneg hsell.1 hsell.2.1 (fun _ => hsell.2.2),
    (), requireAmount_of_nonneg happroved.hold (holdOf_nonneg intent) (by simp),
    (), requireAmount_of_nonneg hprice (approvedPriceOf_pos intent).le (by simp),
    (), requireAmount_of_nonneg (feesOf_persisted happroved.hold) (feesOf_nonneg intent) (by simp),
    (), not_or.2 ⟨not_le.2 hpositive, not_lt.2 hpositive.le⟩, intent.val.quantity, ?_, (),
    lt_irrefl _, (), not_le.2 happroved.window, fun hterminal => by cases hterminal.1⟩
  have hfits : Fits 40 intent.val.quantity := (isPersisted_iff.1 hquantity).mono (by decide)
  have hunfilled := exactDecimalSubtract_of_fits hfits Fits.zero
  rwa [sub_zero] at hunfilled

/-- **An approved intent is offered**: its submission and its commitment can be built. -/
theorem exists_offer : ∃ submission c, Offers E batch decision before p intent submission c ∧
      c.val = offeredFields E batch before p.sequence intent := by
  have hsubmission : OrderSubmissionFields.postInit {
      orderId := orderIdOf E intent
      submissionAttemptId := attemptIdOf E intent
      clientOrderId := clientOrderIdOf E intent
      riskDecisionId := E.hashes.decision decision
      intent
      submittedAt := p.now } = .ok () := by
    simp only [OrderSubmissionFields.postInit, Py.eq_ok, requireText_eq_ok]
    exact ⟨(), hfresh.orderText.1, (), hfresh.attemptText, (), hfresh.clientText, (),
      hfresh.decisionText, by rw [happroved.createdAt]; exact lt_irrefl _⟩
  have hc : CommitmentFields.postInit (offeredFields E batch before p.sequence intent) = .ok () :=
    offeredFields_passes happroved hprice hfresh
  refine ⟨⟨_, hsubmission⟩, ⟨_, hc⟩, ⟨construct_eq_ok.2 rfl, ?_⟩, rfl⟩
  have hquantity := isPersisted_iff.1 intent.quantity_bounds.2.2.1
  have hfee := isPersisted_iff.1 (riskPolicy_amounts E.spec.riskPolicy).2.1
  simp only [intentCommitment, Py.eq_ok]
  refine ⟨_, happroved.cash, _, approvedPrice_eq intent, feesOf E intent,
    exactDecimalMultiply_of_fits (hquantity.mono (by decide)) (hfee.mono (by decide)), ?_⟩
  rw [happroved.shares, happroved.policySha256]
  rfl

/-- An offer is a new order of the account. -/
theorem newOrder_of_offer (hoffers : Offers E batch decision before p intent submission c)
    (hc : c.val = offeredFields E batch before p.sequence intent) :
    NewOrder state (context E p eventId approved) submission c := by
  have hsubmission := hoffers.submission_val
  have hid : c.val.commitmentId = commitmentIdOf E intent := by rw [hc]; rfl
  have horder : submission.val.orderId = orderIdOf E intent := by rw [hsubmission]
  refine {
    orderId := by rw [hc, hsubmission]; rfl
    intentId := by rw [hc, hsubmission]; rfl
    instrument := by rw [hc, hsubmission]; rfl
    symbol := by rw [hc, hsubmission]; rfl
    side := by rw [hc, hsubmission]; rfl
    original := by rw [hc, hsubmission]; rfl
    unsent := by rw [hc]; rfl
    unfilled := by rw [hc]; rfl
    remaining := by rw [hc]; rfl
    cash := by rw [hc]; exact reserve_eq happroved.hold hprice
    shares := by rw [hc]; rfl
    scope := by rw [hc]; exact happroved.scope
    newOrder := fun x hx heq => ?_
    newCommitment := fun q hq heq => ?_ }
  · exact hfresh.newOrder (List.mem_map.2 ⟨x, hx, heq.trans horder⟩)
  · exact hfresh.newCommitment (List.mem_map.2 ⟨q, hq, heq.trans hid⟩)

/-- **An offer of an approved intent passes every check of its installation.** -/
theorem applyInstall_of_offer
    (hfees : E.spec.executionPolicy.val.feePerShare ≤ E.spec.riskPolicy.val.feePerShare)
    (hoffers : Offers E batch decision before p intent submission c)
    (hc : c.val = offeredFields E batch before p.sequence intent)
    (haccount : before.accountId = state.accountId) (hknowledge : before.point.knowledgeAt ≤ p.now)
    (hsequence : before.point.reductionSequence ≤ p.sequence)
    (hfrontier : before.point.frontierSequence ≤ p.frontier)
    (hidle : ∀ q ∈ state.commitments, q.val.instrumentId = intent.val.instrumentId →
      q.val.reservedSellQuantity = 0) (hpositions : snapshot.positions = before.positions)
    (hopen : snapshot.halted = false)
    (hcash : holdOf E.spec.riskPolicy intent ≤ snapshot.availableCash) :
    applyInstall E.hashes.toAccountingHashes
      (context E p (commitmentIdOf E intent) (some before)) E.spec.executionPolicy snapshot state
      submission c = .ok (state.install submission c, [], []) := by
  have hnew : NewOrder state (context E p (commitmentIdOf E intent) (some before)) submission c :=
    newOrder_of_offer happroved hprice hfresh hoffers hc
  have hsubmission := hoffers.submission_val
  have hfind : state.submissions.find? (·.val.orderId = submission.val.orderId) = none := by
    simpa [List.find?_eq_none] using hnew.newOrder
  have happroval : bindsApproval E.hashes.toAccountingHashes state
      (context E p (commitmentIdOf E intent) (some before)) c before
      (E.hashes.riskPolicy E.spec.riskPolicy) := by
    rw [bindsApproval, hc]
    exact ⟨haccount, rfl, rfl, hknowledge, hsequence, hfrontier⟩
  have hbinds : bindsSubmission (context E p (commitmentIdOf E intent) (some before)) before
      submission c := by
    rw [bindsSubmission, hc, hsubmission]
    exact ⟨rfl, rfl, rfl, rfl, approvedPriceOf_pos intent, rfl, rfl, rfl, rfl, le_rfl, hsequence,
      le_rfl, happroved.unexpired⟩
  have hmodeled : exactDecimalMultiply c.val.remainingQuantity
      E.spec.executionPolicy.val.feePerShare =
        .ok (intent.val.quantity * E.spec.executionPolicy.val.feePerShare) := by
    have hquantity := isPersisted_iff.1 intent.quantity_bounds.2.2.1
    have hfee := isPersisted_iff.1 (executionFee_persisted E.spec.executionPolicy)
    rw [hc]
    exact exactDecimalMultiply_of_fits (hquantity.mono (by decide)) (hfee.mono (by decide))
  have hbudget : intent.val.quantity * E.spec.executionPolicy.val.feePerShare ≤
      c.val.remainingFeeBudget := by
    rw [hc]
    exact mul_le_mul_of_nonneg_left hfees intent.quantity_bounds.1.le
  have hcovered : c.val.reservedCash ≤ snapshot.availableCash := by
    rw [hc]
    exact hcash
  have hunique : ¬ ∃ q ∈ state.commitments, q.val.intentId = c.val.intentId ∨
      q.val.commitmentId = c.val.commitmentId := by
    rintro ⟨q, hq, hintent | hcommitment⟩
    · rw [hc] at hintent
      exact hfresh.newIntent (List.mem_map.2 ⟨q, hq, hintent⟩)
    · exact hnew.newCommitment q hq hcommitment
  rw [applyInstall, hfind]
  simp only [installNew, Py.eq_ok]
  exact ⟨before, rfl, _, rfl, (), happroval, (), hbinds, (), by simp [hopen], _, hnew.cash, (),
    not_or.2 ⟨not_not.2 rfl, not_not.2 hnew.shares⟩, _, hmodeled, (), not_lt.2 hbudget, (),
    not_lt.2 hcovered, (), checkLongShares_of_approved happroved hpositions hidle hc,
    (), hunique, _, appendFact_of_new hnew.newOrder, _, appendFact_of_new hnew.newCommitment, rfl⟩

end offer

/-! ## The installation of a batch -/

/-- An account that has taken a part of an approved batch and can take the rest of it. -/
structure Ready (E : EngineEnv Z) (decision : DailyRiskDecision) (before : AccountSnapshot)
    (rest : List OrderIntent) (state : AccountingState) (p : EnginePoint) : Prop where
  projects : ∃ context₀ t, (∀ eventId, isBoundedText eventId →
      context₀.Continues (context E (nextPoint p) eventId (some before))) ∧
    AutoQuantTrader.project E.hashes.toAccountingHashes state context₀ E.spec.executionPolicy =
      .ok t ∧
    t.snapshot.halted = false ∧ t.snapshot.positions = before.positions ∧
    (rest.map (holdOf E.spec.riskPolicy)).sum ≤ t.snapshot.availableCash
  account : before.accountId = state.accountId
  fresh : FreshIdentities E decision state rest
  idle : ∀ i ∈ rest, ∀ c ∈ state.commitments, c.val.instrumentId = i.val.instrumentId →
    c.val.reservedSellQuantity = 0
  knowledgeAt : before.point.knowledgeAt ≤ p.now
  sequence : before.point.reductionSequence ≤ p.sequence
  frontier : before.point.frontierSequence ≤ p.frontier

section step

variable (hport : E.accounting = personalAccounting E.hashes.toAccountingHashes Z)
  (hfees : E.spec.executionPolicy.val.feePerShare ≤ E.spec.riskPolicy.val.feePerShare)

include hport hfees

/-- **One intent of an approved batch is applied**, and the account can take the rest. -/
theorem Ready.step (happroved : ApprovedIntent E batch decision before p.now intent)
    (hprice : isPersisted (approvedPriceOf E intent))
    (hinstruments : ∀ other ∈ rest, other.val.instrumentId ≠ intent.val.instrumentId)
    (hids : ∀ other ∈ rest, other.val.intentId ≠ intent.val.intentId)
    (h : Ready E decision before (intent :: rest) state p) :
    ∃ result, tryIntent E batch decision before state (nextPoint p) intent = .ok result ∧
      result.disposition = .applied ∧ Ready E decision before rest result.state (nextPoint p) := by
  obtain ⟨context₀, t, hcontinues, hproject, hopen, hpositions, hcash⟩ := h.projects
  have hfresh := h.fresh.each intent List.mem_cons_self
  have hsequence : before.point.reductionSequence ≤ (nextPoint p).sequence :=
    h.sequence.trans (Nat.le_succ _)
  replace happroved : ApprovedIntent E batch decision before (nextPoint p).now intent := happroved
  obtain ⟨submission, c, hoffers, hc⟩ := exists_offer happroved hprice hfresh
  have hid : c.val.commitmentId = commitmentIdOf E intent := by rw [hc]; rfl
  rw [List.map_cons, List.sum_cons] at hcash
  have hothers : 0 ≤ (rest.map (holdOf E.spec.riskPolicy)).sum := by
    refine List.sum_nonneg fun v hv => ?_
    obtain ⟨i, -, rfl⟩ := List.mem_map.1 hv
    exact holdOf_nonneg i
  have hhold : holdOf E.spec.riskPolicy intent ≤ t.snapshot.availableCash := by linarith
  have hreserved : c.val.reservedCash = holdOf E.spec.riskPolicy intent := by rw [hc]; rfl
  -- at the next point the account still shows the same capacity
  have hlater := project_continues (hcontinues _ hfresh.commitmentText) hproject
  have happly : applyInstall E.hashes.toAccountingHashes
      (context E (nextPoint p) (commitmentIdOf E intent) (some before)) E.spec.executionPolicy
      { t.snapshot with
        point := (context E (nextPoint p) (commitmentIdOf E intent) (some before)).point }
      state submission c = .ok (state.install submission c, [], []) :=
    applyInstall_of_offer happroved hprice hfresh hfees hoffers hc h.account h.knowledgeAt hsequence
      h.frontier (h.idle intent List.mem_cons_self) hpositions hopen hhold
  obtain ⟨result, t', hadvance, happlied, hstate, hafter, hreserves⟩ := advance_of_install (Z := Z)
    hlater (newOrder_of_offer happroved hprice hfresh hoffers hc) (hid ▸ hfresh.commitmentText)
    (hid ▸ hfresh.newCommand) happly hopen (hreserved.trans_le hhold)
  have hadds : AddsIdentities E intent state result.state := by
    rw [hstate]
    exact addsIdentities_installed hid (by rw [hc]; rfl) (by rw [hoffers.submission_val])
  refine ⟨result, ?_, happlied, {
    projects := ⟨_, t', fun eventId htext => ?_, hafter, hreserves.halted,
      hreserves.positions.trans hpositions, ?_⟩
    account := by rw [hstate]; exact h.account
    fresh := ?_
    idle := fun i hi q hq hsame => ?_
    knowledgeAt := h.knowledgeAt
    sequence := hsequence
    frontier := h.frontier }⟩
  · simp only [tryIntent, eq_ok, hport]
    rw [← hid] at hadvance
    exact ⟨submission, hoffers.submitted, c, hoffers.committed, hadvance⟩
  · exact {
      runId := rfl
      knowledgeAt := rfl
      sequence := Nat.le_succ _
      frontier := le_rfl
      economicAt := rfl
      markSession := rfl
      instruments := rfl
      eventId := requireBoundedText_eq_ok.2 htext }
  · rw [hreserves.available, hreserved]
    linarith
  · have hcommitments := List.nodup_cons.1 h.fresh.commitments
    have horders := List.nodup_cons.1 h.fresh.orders
    refine ⟨fun other hother => ?_, hcommitments.2, horders.2⟩
    exact (h.fresh.each other (List.mem_cons_of_mem _ hother)).adds hadds
      (fun heq => hcommitments.1 (heq ▸ List.mem_map_of_mem hother))
      (fun heq => horders.1 (heq ▸ List.mem_map_of_mem hother)) (hids other hother)
  · rw [hstate] at hq
    rcases List.mem_append.1 (mem_sortOn.1 hq) with hold | hown
    · exact h.idle i (List.mem_cons_of_mem _ hi) q hold hsame
    · rw [List.mem_singleton.1 hown, hc] at hsame
      exact absurd hsame.symm (hinstruments i hi)

/-- The whole batch, by induction over its intents. -/
theorem Ready.installsAll (happroved : ∀ i ∈ intents,
    ApprovedIntent E batch decision before p.now i)
    (hprice : ∀ i ∈ intents, isPersisted (approvedPriceOf E i))
    (hinstruments : (intents.map (·.val.instrumentId)).Nodup)
    (hids : (intents.map (·.val.intentId)).Nodup) (h : Ready E decision before intents state p) :
    ∃ state' results, InstallsAll E batch decision before intents state p state' results := by
  induction intents generalizing state p with
  | nil => exact ⟨state, [], .nil⟩
  | cons intent rest ih =>
    rw [List.map_cons, List.nodup_cons] at hinstruments hids
    obtain ⟨result, htry, happlied, hready⟩ := h.step hport hfees
      (happroved intent List.mem_cons_self) (hprice intent List.mem_cons_self)
      (fun other hother heq => hinstruments.1 (heq ▸ List.mem_map_of_mem hother))
      (fun other hother heq => hids.1 (heq ▸ List.mem_map_of_mem hother))
    obtain ⟨state', results, hall⟩ := ih
      (p := nextPoint p) (fun i hi => happroved i (List.mem_cons_of_mem _ hi))
      (fun i hi => hprice i (List.mem_cons_of_mem _ hi)) hinstruments.2 hids.2 hready
    exact ⟨state', result :: results, .cons htry happlied hall⟩

end step

/-! ## Approved batches -/

/-- A state of the engine in which a target has been converted to a batch.  The current snapshot
shows the account, earlier in the same frontier. -/
structure ConvertedAt (E : EngineEnv Z) (s : EngineState) (batch : DailyIntentBatch) : Prop where
  projected : ∃ p eventId t, p.now = s.now ∧ p.economic = s.economic ∧
    p.markSession = s.markSession ∧ p.frontier ≤ s.frontier ∧ p.sequence ≤ s.sequence ∧
    E.accounting.project s.state (context E p eventId none) E.spec.executionPolicy = .ok t ∧
      t.snapshot = s.current.snapshot
  converted : ∃ target strategyPin,
    dailyTargetToIntents E.hashes target s.current.snapshot strategyPin = .ok batch

/-- And in which risk has approved the batch for a decision. -/
structure ApprovedAt (E : EngineEnv Z) (s : EngineState) (batch : DailyIntentBatch)
    (decision : DailyRiskDecision) : Prop extends ConvertedAt E s batch where
  evaluated : ∃ e, e.phase = .decision ∧ evaluateDailyRisk E.hashes E.spec.riskPolicy
    s.current.snapshot batch e s.now = .ok decision
  approved : decision.approved = true

/-- What nothing is committed for reserves no shares. -/
theorem idle_of_project (h : AutoQuantTrader.project H state context₀ policy = .ok t)
    (hidle : t.snapshot.pending.filter (·.val.instrumentId = instrumentId) = []) :
    ∀ c ∈ state.commitments, c.val.instrumentId = instrumentId →
    c.val.reservedSellQuantity = 0 := by
  intro c hc hsame
  have hterminal : c.val.state = .terminal := by
    by_contra hlive
    have hpending : c ∈ t.snapshot.pending := by
      rw [AccountSnapshot.pending, (project_shows h).2.2.1]
      exact List.mem_filter.2 ⟨hc, by simpa using hlive⟩
    have hmem : c ∈ t.snapshot.pending.filter (·.val.instrumentId = instrumentId) :=
      List.mem_filter.2 ⟨hpending, by simpa using hsame⟩
    rw [hidle] at hmem
    cases hmem
  have hpasses := c.passes
  simp only [CommitmentFields.postInit, Py.eq_ok, not_and, not_or] at hpasses
  obtain ⟨_, -, _, -, _, -, _, -, _, -, _, -, _, -, _, -, _, -, _, -, _, -, _, -, _,
    -, _, -, _, -, _, -, hretains⟩ := hpasses
  exact (hretains hterminal).2.2

variable {s : EngineState}

/-- What an approval showed leaves the first intent ready to install. -/
theorem ApprovedAt.ready (h : ApprovedAt E s batch decision)
    (hport : E.accounting = personalAccounting E.hashes.toAccountingHashes Z)
    (hfresh : FreshIdentities E decision s.state batch.intents) :
    Ready E decision s.current.snapshot batch.intents s.state s.toEnginePoint ∧
      (∀ i ∈ batch.intents, ApprovedIntent E batch decision s.current.snapshot s.now i) ∧
      (batch.intents.map (·.val.instrumentId)).Nodup ∧
      (batch.intents.map (·.val.intentId)).Nodup := by
  obtain ⟨p, eventId, t, hnow, heconomic, hsession, hfrontier, hsequence, hproject, hsnapshot⟩ :=
    h.projected
  rw [hport] at hproject
  obtain ⟨target, strategyPin, hconverted⟩ := h.converted
  obtain ⟨e, hphase, hevaluated⟩ := h.evaluated
  have hconverts := converts_of_ok hconverted
  have happroves := (approvesBatch_of_approved hphase hevaluated h.approved).1
  have htarget : Converts batch.target s.current.snapshot batch := hconverts.source ▸ hconverts
  rw [← hsnapshot] at happroves htarget ⊢
  obtain ⟨haccount, hpoint, -⟩ := project_shows hproject
  refine ⟨{
    projects := ⟨_, t, fun eventId' htext => ?_, hproject, happroves.unhalted, rfl,
      happroves.covered⟩
    account := haccount
    fresh := hfresh
    idle := fun i hi => idle_of_project hproject (htarget.idle i hi)
    knowledgeAt := by rw [hpoint]; exact hnow.le
    sequence := by rw [hpoint]; exact hsequence
    frontier := by rw [hpoint]; exact hfrontier }, fun i hi => ?_, htarget.instruments,
    happroves.ids⟩
  · exact {
      runId := rfl
      knowledgeAt := hnow.symm
      sequence := hsequence.trans (Nat.le_succ _)
      frontier := hfrontier
      economicAt := heconomic.symm
      markSession := hsession.symm
      instruments := rfl
      eventId := requireBoundedText_eq_ok.2 htext }
  · exact approvedIntent_of_project hproject rfl happroves htarget hi

/-- **Approval and installation agree except on the approved price**: an approved batch is installed
as a whole exactly when every approved price fits its column and the identities are fresh. -/
theorem installIntents_applied_iff {s : EngineState}
    (hport : E.accounting = personalAccounting E.hashes.toAccountingHashes Z)
    (hfees : E.spec.executionPolicy.val.feePerShare ≤ E.spec.riskPolicy.val.feePerShare)
    (h : ApprovedAt E s batch decision) :
    (∃ state results s', installIntents E batch decision s.current.snapshot
      batch.intents s.state [] s =
        (.ok (.installed state results), s') ∧ results.length = batch.intents.length ∧
        ∀ r ∈ results, r.disposition = .applied) ↔
      (∀ i ∈ batch.intents, isPersisted (approvedPriceOf E i)) ∧
        FreshIdentities E decision s.state batch.intents := by
  constructor
  · rintro ⟨state, results, s', hrun, -⟩
    obtain ⟨new, -, hall⟩ := installIntents_iff.1 ⟨s', hrun⟩
    exact hall.needs hport
  · rintro ⟨hprices, hfresh⟩
    obtain ⟨hready, happroved, hinstruments, hids⟩ := h.ready hport hfresh
    obtain ⟨state, results, hall⟩ :=
      hready.installsAll hport hfees happroved hprices hinstruments hids
    obtain ⟨s', hrun⟩ := installIntents_iff.2 ⟨results, (List.nil_append _).symm, hall⟩
    exact ⟨state, results, s', hrun, hall.results⟩

/-! ## A batch whose price does not fit -/

/-- One session, one instrument and the limits of the product. -/
def Sample.spec : Py RunSpec := do
  let settlementCalendar ← construct ⟨"settlement", "1", [719163]⟩
  let executionPolicy ← construct ⟨settlementCalendar, .syntheticEvents, 0, 1 / 100⟩
  let riskPolicy ← construct {
    policyId := "product"
    maxOrderQuantity := 1000
    maxOrderNavFraction := 1 / 4
    maxBatchNavFraction := 95 / 100
    maxSymbolNavFraction := 1 / 4
    maxGrossNavFraction := 95 / 100
    adverseReserveFraction := 1 / 100
    feePerShare := 1 / 100
    maxOpenIntents := 4
    maxPerSymbolIntents := 1
    maxNewIntentsPerSession := 8
    dailyLossBoundary := -1 / 50
    drawdownBoundary := 1 / 10
    policyScope := .product }
  return {
    instruments := [("i1", "SPY")]
    sessions := [⟨719163, 52200000000, 75600000000⟩]
    strategy := ⟨"strategy", "1", "strategy"⟩
    strategyConfiguration := ⟨.buyHold, 1, 1 / 4, none⟩
    warmupSessions := []
    scoredSessions := [719163]
    executionPolicy
    riskPolicy
    pins := [⟨"engine", "1", "pin"⟩]
    featurePriceBasis := .rawClose
    maxEvents := 1
    maxOutputBytes := 1 }

/-- The engine of the sample; its strategy is not asked. -/
def Sample.env (spec : RunSpec) : EngineEnv .standard :=
  { hashes := .plain
    accounting := personalAccounting EngineHashes.plain.toAccountingHashes .standard
    strategy := ⟨fun c => .ok ⟨c.state, none, []⟩⟩
    spec
    stopRequested := fun _ => false
    outOfTime := fun _ => false }

/-- The evening of the session. -/
def Sample.evening : EnginePoint := ⟨90000000000, 90000000000, 719163, 1, 1, 5⟩

/-- The engine that evening, with an account and what it projects to. -/
def Sample.engine (state : AccountingState) (current : AccountingTransition) : EngineState :=
  { Sample.evening with
    requests := [], state, current, strategyState := .initial, processed := 0, outputBytes := 0
    budgetChecks := 0, events := .empty, causalSources := .empty, queue := [], seen := []
    heads := .empty, accepted := .empty, targets := .empty, trace := [], wealth := []
    dailyWealth := none, baselineId := none }

/-- A purchase of a hundred shares at a closing price, as risk decides on it. -/
def Sample.approval (price : ℚ) :
    Py (EngineEnv .standard × EngineState × DailyIntentBatch × DailyRiskDecision) := do
  let E := Sample.env (← Sample.spec)
  let flow ← createCashFlow .plain .contribution "USD" 50000 0 0 "wire"
  let mark ← construct ⟨"mark", "i1", "SPY", price, 719163, 75600000000, 90000000000,
    "bar", .current,
    .rawClose⟩
  let state := { AccountingState.initial "account" with cashFlows := [flow], marks := [mark] }
  let t ← AutoQuantTrader.project E.hashes.toAccountingHashes state
    (context E Sample.evening "evening" none) E.spec.executionPolicy
  let wanted ← construct ⟨"i1", "SPY", 100⟩
  let target : DailyTarget :=
    ⟨"target", ⟨"trigger", 719163, 719164, 90000000000, .completeMarket, "source", 1⟩,
      "configuration", [wanted], 90000000001, 180000000000, true, false, ""⟩
  let batch ← dailyTargetToIntents E.hashes target t.snapshot E.spec.strategy
  let decision ← evaluateDailyRisk E.hashes E.spec.riskPolicy t.snapshot batch
    ⟨E.hashes.snapshot t.snapshot, .decision, 90000000000, 719163, 719164, ⟨"engine", "1", "pin"⟩,
      some 0, some 0, [], true, true, true, true, true, true, true, []⟩ 90000000000
  return (E, Sample.engine state t, batch, decision)

theorem Sample.approval_approved {E : EngineEnv .standard}
    (h : Sample.approval price = .ok (E, s, batch, decision))
    (happroved : decision.approved = true) :
    E.accounting = personalAccounting E.hashes.toAccountingHashes .standard ∧
      ApprovedAt E s batch decision := by
  simp only [Sample.approval, eq_ok, Prod.mk.injEq] at h
  obtain ⟨spec, -, flow, -, mark, -, t, hproject, wanted, -, batch', hconverted, decision',
    hevaluated, rfl, rfl, rfl, rfl⟩ := h
  exact ⟨rfl, {
    projected := ⟨Sample.evening, _, t, rfl, rfl, rfl, le_rfl, le_rfl, hproject, rfl⟩
    converted := ⟨_, _, hconverted⟩
    evaluated := ⟨_, rfl, hevaluated⟩
    approved := happroved }⟩

/-- The error an installation ends with. -/
def faultOf : Except Fault Installation → Option Fault
  | .error fault => some fault
  | .ok _ => none

theorem eq_error_of_faultOf (h : faultOf result = some fault) : result = .error fault := by
  cases result with
  | error e => rw [Option.some.inj h]
  | ok _ => cases h

/-- Risk approves a purchase at a closing price of ten decimals, whose hold fits, and the commitment
refuses the approved price, which has twelve. -/
theorem approved_batch_raises : ∃ (E : EngineEnv .standard) (s s' : EngineState)
    (batch : DailyIntentBatch) (decision : DailyRiskDecision),
    E.accounting = personalAccounting E.hashes.toAccountingHashes .standard ∧
      E.spec.executionPolicy.val.feePerShare ≤ E.spec.riskPolicy.val.feePerShare ∧
      ApprovedAt E s batch decision ∧
      installIntents E batch decision s.current.snapshot batch.intents s.state [] s =
        (.error (.raised (.valueError "approved_price must fit NUMERIC(28, 10) exactly")), s') := by
  have h : (fun r : EngineEnv .standard × EngineState × DailyIntentBatch × DailyRiskDecision =>
      (r.2.2.2.approved,
        decide (r.1.spec.executionPolicy.val.feePerShare ≤ r.1.spec.riskPolicy.val.feePerShare),
        faultOf (installIntents r.1 r.2.2.1 r.2.2.2 r.2.1.current.snapshot r.2.2.1.intents
          r.2.1.state [] r.2.1).1)) <$> Sample.approval (100 + 1 / 10000000000) =
      .ok (true, true,
        some (.raised (.valueError "approved_price must fit NUMERIC(28, 10) exactly"))) := by
    decide +kernel
  simp only [map_eq_ok, Prod.mk.injEq] at h
  obtain ⟨⟨E, s, batch, decision⟩, hsample, happroved, hfees, hfault⟩ := h
  obtain ⟨hport, happrovedAt⟩ := Sample.approval_approved hsample happroved
  exact ⟨E, s, _, batch, decision, hport, of_decide_eq_true hfees, happrovedAt,
    Prod.ext (eq_error_of_faultOf hfault) rfl⟩

/-- At a price of a hundred the batch is installed. -/
theorem approved_batch_installed : ∃ (E : EngineEnv .standard) (s s' : EngineState)
    (batch : DailyIntentBatch) (decision : DailyRiskDecision) (state : AccountingState)
    (results : List AccountingTransition), ApprovedAt E s batch decision ∧
      installIntents E batch decision s.current.snapshot batch.intents s.state [] s =
        (.ok (.installed state results), s') ∧ results.length = 1 := by
  have h : (fun r : EngineEnv .standard × EngineState × DailyIntentBatch × DailyRiskDecision =>
      (r.2.2.2.approved,
        decide (r.1.spec.executionPolicy.val.feePerShare ≤ r.1.spec.riskPolicy.val.feePerShare),
        r.2.2.1.intents.length,
        decide (∀ i ∈ r.2.2.1.intents, isPersisted (approvedPriceOf r.1 i)),
        decide (FreshIdentities r.1 r.2.2.2 r.2.1.state r.2.2.1.intents))) <$>
        Sample.approval 100 = .ok (true, true, 1, true, true) := by
    decide +kernel
  simp only [map_eq_ok, Prod.mk.injEq, decide_eq_true_eq] at h
  obtain ⟨⟨E, s, batch, decision⟩, hsample, happroved, hfees, hlength, hprices, hfresh⟩ := h
  obtain ⟨hport, happrovedAt⟩ := Sample.approval_approved hsample happroved
  obtain ⟨state, results, s', hrun, hresults, -⟩ :=
    (installIntents_applied_iff hport hfees happrovedAt).2 ⟨hprices, hfresh⟩
  exact ⟨E, s, s', batch, decision, state, results, happrovedAt, hrun, hresults.trans hlength⟩

end Engine

end AutoQuantTrader
